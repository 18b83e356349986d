import PaintingCPS.Foundation.Blocks
import PaintingCPS.MsgDistributor.State
import PaintingCPS.Server.MFPackager

/-!
Contract: `server_transmit`, from its first statement to its exit, for every
mode and every way to submit an image.

The thread advances by events, each the result of one call that waits for
somebody else: a receive call, the reply to the client in TCP mode, the
opening of the image file or the transfer to the spout. What it does to the
rest of the process is the list of its actions. The step that hands an image
over runs from `metrics->submit_request()` on; `sem_match` is found when the
first image is queued.

An event holds the bytes that the call stored in the buffer. For `MsgD.recv`
these are always as many as were asked for.

Owns: the header parser, the receive loops of the three modes, the submission,
and the exits.

Does not own: the peer, the result thread, and what they see of the actions.
-/

set_option autoImplicit false

namespace PaintingCPS

open Foundation

/-- How the server talks to its clients: plain, `-orbit` or `-mf`. -/
inductive Mode where
  | tcp
  | orbit
  | mf
deriving DecidableEq, Repr

/-- Where an image goes: to a file, or with `-storm` to Kafka or the spout. -/
inductive Backend where
  | disk
  | kafka
  | spout
deriving DecidableEq, Repr

/-- The result of a call that the thread waits for. -/
inductive Event where
  /-- A receive call stored these bytes; no bytes are its return value 0. -/
  | received (bytes : List Byte)
  /-- A receive call returned a negative value. -/
  | failed
  /-- `write` of the reply returned a positive value or not. -/
  | wrote (success : Bool)
  /-- `fopen`, or the transfer to the spout, succeeded or not. -/
  | opened (success : Bool)
deriving DecidableEq, Repr

/-- What the thread does to its surroundings. -/
inductive Action where
  /-- `queue_map[userID] = imgQueue` -/
  | register
  /-- `"ok"` is sent to the client. -/
  | reply
  /-- `metrics->submit_request()` -/
  | submit
  | store (fileName content : List Byte)
  /-- The image is sent to Kafka or to the spout. -/
  | forward (content : List Byte)
  /-- `imgQueue->push` -/
  | push (fileName : List Byte)
  /-- `if (sem_match == 0)` and its branch -/
  | lookup
  /-- `sem_post(sem_match)` -/
  | post
  /-- `delete(imgQueue)` -/
  | deleteQueue
deriving DecidableEq, Repr

/-- Where the thread waits. -/
inductive TransmitPc where
  /-- For the reply to the login. -/
  | starting
  /-- For the next file header, in MF mode for the next image. -/
  | header
  /-- TCP: for the reply to the header. -/
  | replying (fileName : List Byte) (fileSize : Int)
  /-- For the next piece of the image. -/
  | body (fileName : List Byte) (fileSize : Int) (img : List Byte) (offset : Nat)
  /-- For the file or the spout; `submit_request` was called. -/
  | submitting (fileName : List Byte) (fileSize : Int) (img : List Byte)
  | ended
deriving DecidableEq, Repr

/-- The locals of `server_transmit` that outlive one pass of the loop, and what
it has done. -/
structure Transmit where
  pc : TransmitPc
  /-- `sem_match` is not null. -/
  semMatch : Bool
  fakeIndex : Nat
  actions : List Action
deriving DecidableEq, Repr

/-- `sizeof(file_name_temp)` -/
def fileNameCapacity : Nat := 60

/-- `recv_length` -/
def recvLength : Nat := 4 * bufferSize

/-- The size of the image buffer in MF mode. -/
def mfCapacity : Nat := 650000

/-! ## Parts of the loop -/

/-- `file_name` and `file_size` of a header buffer, with the copy to
`file_name_temp`. -/
def parseHeader (buffer : List Byte) : Except Fault (List Byte × Int) := do
  let fileName ← deref (← strtok isComma buffer)
  if fileNameCapacity ≤ fileName.text.length then .error .outOfBounds
  else
    let fileSizeChar ← deref (← strtok isComma fileName.saved)
    return (fileName.text, toInt32 (strtol fileSizeChar.text))

/-- `new char[size]` -/
def newArray (junk : Nat → Byte) (size : Int) : Except Fault (List Byte) :=
  if size < 0 then .error .negativeSize else .ok (uninitialised junk size.toNat)

/-- `"pics/%d.jpg"` -/
def picture (index : Nat) : List Byte :=
  ascii "pics/" ++ decimalInt (toInt32 index) ++ ascii ".jpg"

namespace Transmit

def emit (thread : Transmit) (actions : List Action) (pc : TransmitPc) : Transmit :=
  { thread with pc := pc, actions := thread.actions ++ actions }

/-- `sem_post(sem_match)`, then on to `pc`. -/
def signal (thread : Transmit) (pc : TransmitPc) : Except Fault Transmit :=
  if thread.semMatch then .ok (thread.emit [.post] pc) else .error .nullPointer

/-- The receive loop is over: on to the submission. TCP replies once more. -/
def finish (thread : Transmit) (replies : List Action) (fileName : List Byte) (fileSize : Int)
    (img : List Byte) : Transmit :=
  thread.emit (replies ++ [.submit]) (.submitting fileName fileSize img)

/-- The image is handed over, queued and announced. -/
def enqueue (thread : Transmit) (handed : Action) (fileName : List Byte) : Transmit :=
  { thread.emit [handed, .push fileName, .lookup, .post] .header with semMatch := true }

section Steps

variable (thread : Transmit)

/-- The reply to the login. Only TCP looks at the result. -/
def start (mode : Mode) (success : Bool) : Transmit :=
  match mode with
  | .tcp => if success then thread.emit [.reply] .header else thread.emit [] .ended
  | .orbit => thread.emit [.reply] .header
  | .mf => thread.emit [] .header

/-- TCP: `read` of the header. -/
def tcpHeader : Event → Option (Except Fault Transmit)
  | .received bytes =>
      if bytes = [] then some (thread.signal .ended)
      else
        some do
          let (fileName, fileSize) ← parseHeader (padded bufferSize bytes)
          return thread.emit [] (.replying fileName fileSize)
  | .failed => some (thread.signal .ended)
  | _ => none

/-- TCP: the reply to the header, and the buffer for the image. -/
def tcpReply (junk : Nat → Byte) (fileName : List Byte) (fileSize : Int) (success : Bool) :
    Except Fault Transmit :=
  if success then do
    let img ← newArray junk fileSize
    return thread.emit [.reply] (.body fileName fileSize img 0)
  else thread.signal .ended

/-- TCP: one `recv` of the body. Without data the loop ends. -/
def tcpBody (fileName : List Byte) (fileSize : Int) (img : List Byte) (offset : Nat) :
    Event → Option (Except Fault Transmit)
  | .received bytes =>
      if bytes = [] then some (.ok (thread.finish [.reply] fileName fileSize img))
      else
        some do
          let filled ← writeBytes img offset bytes
          if (offset + bytes.length : Nat) = fileSize then
            return thread.finish [.reply] fileName fileSize filled
          else return thread.emit [] (.body fileName fileSize filled (offset + bytes.length))
  | .failed => some (.ok (thread.finish [.reply] fileName fileSize img))
  | _ => none

/-- Orbit: `MsgD.recv` of the header, and the buffer for the image. -/
def orbitHeader (junk : Nat → Byte) : Event → Option (Except Fault Transmit)
  | .received bytes =>
      some do
        let (fileName, fileSize) ← parseHeader (padded recvLength bytes)
        let img ← newArray junk fileSize
        return thread.emit [.reply] (.body fileName fileSize img 0)
  | .failed => some (thread.signal .ended)
  | _ => none

/-- Orbit: one block of the body has been received into `buffer`. -/
def orbitCopy (fileName : List Byte) (fileSize : Int) (img : List Byte) (offset : Nat)
    (buffer : List Byte) : Except Fault Transmit :=
  if fileSize - offset ≤ recvLength then do
    let filled ← writeBytes img offset (buffer.take (fileSize - offset).toNat)
    return thread.finish [] fileName fileSize filled
  else do
    let filled ← writeBytes img offset buffer
    return thread.emit [] (.body fileName fileSize filled (offset + recvLength))

/-- Orbit: one `MsgD.recv` of the body. `errorSocket` only prints, so after a
failure the loop goes on with a buffer of zeros. -/
def orbitBody (fileName : List Byte) (fileSize : Int) (img : List Byte) (offset : Nat) :
    Event → Option (Except Fault Transmit)
  | .received bytes =>
      some (thread.orbitCopy fileName fileSize img offset (padded recvLength bytes))
  | .failed =>
      some do
        let signalled ← thread.signal thread.pc
        signalled.orbitCopy fileName fileSize img offset (padded recvLength [])
  | _ => none

/-- MF: `recvImage` into a new buffer, and an invented name. The return value
is not looked at. -/
def mfTake (junk : Nat → Byte) (received : Option (List Byte)) : Except Fault Transmit := do
  let (fileSize, img) ← MFPackager.recvImage junk mfCapacity (uninitialised junk mfCapacity)
    received
  return { thread with fakeIndex := thread.fakeIndex + 1 }.finish [] (picture thread.fakeIndex)
    fileSize img

/-- MF: one image. -/
def mfReceive (junk : Nat → Byte) : Event → Option (Except Fault Transmit)
  | .received bytes => some (thread.mfTake junk (some bytes))
  | .failed => some (thread.mfTake junk none)
  | _ => none

/-- From `metrics->submit_request()` to the end of the loop body. With a negative
size `fwrite` reads far behind the image: undefined behaviour, which is taken as
a fault, here and where the image is sent. -/
def handOver (backend : Backend) (fileName : List Byte) (fileSize : Int) (img : List Byte)
    (success : Bool) : Except Fault Transmit :=
  match backend, success with
  | .disk, true => do
      return thread.enqueue (.store fileName (← readBytes img fileSize)) fileName
  | .disk, false => .ok (thread.emit [.deleteQueue] .ended)
  | .kafka, _ => do
      return thread.enqueue (.forward (← readBytes img fileSize)) fileName
  | .spout, true => do
      return thread.enqueue (.forward (← readBytes img fileSize)) fileName
  | .spout, false => .ok (thread.emit [] .ended)

end Steps

/-- One step of `server_transmit`. `none`: the thread does not wait for such an
event. -/
def step (mode : Mode) (backend : Backend) (junk : Nat → Byte) (thread : Transmit)
    (event : Event) : Option (Except Fault Transmit) :=
  match thread.pc, mode, event with
  | .starting, _, .wrote success => some (.ok (thread.start mode success))
  | .header, .tcp, _ => thread.tcpHeader event
  | .header, .orbit, _ => thread.orbitHeader junk event
  | .header, .mf, _ => thread.mfReceive junk event
  | .replying fileName fileSize, .tcp, .wrote success =>
      some (thread.tcpReply junk fileName fileSize success)
  | .body fileName fileSize img offset, .tcp, _ =>
      thread.tcpBody fileName fileSize img offset event
  | .body fileName fileSize img offset, .orbit, _ =>
      thread.orbitBody fileName fileSize img offset event
  | .submitting fileName fileSize img, _, .opened success =>
      some (thread.handOver backend fileName fileSize img success)
  | _, _, _ => none

/-- A sequence of events. -/
def run (mode : Mode) (backend : Backend) (junk : Nat → Byte) :
    Transmit → List Event → Option (Except Fault Transmit)
  | thread, [] => some (.ok thread)
  | thread, event :: rest =>
      match thread.step mode backend junk event with
      | none => none
      | some (.error fault) => some (.error fault)
      | some (.ok after) => after.run mode backend junk rest

/-- On entry: the queue is in `queue_map`. -/
def init : Transmit := ⟨.starting, false, 1, [.register]⟩

end Transmit

end PaintingCPS
