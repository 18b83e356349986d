import PaintingCPS.Foundation.Pool
import PaintingCPS.Upload.Java

/-!
Contract: the hand-over of an image from `JClient.sendImage` to
`TransmitThread`.

Any number of threads call `sendImage`, one may call `stop`. A step is one
access to a field that the threads share or one semaphore operation, with the
code behind it that only its thread sees. `msgD.send` succeeds; a failing
`msgD.recv`, and any exception while an image is sent, ends the program.

Owns: the threads and their steps.

Does not own: what holds of their runs, and the bytes of the messages.
-/

set_option autoImplicit false

namespace PaintingCPS

open Foundation

/-! ## Threads -/

/-- Where a call of `sendImage` stands. -/
inductive SendImagePc where
  /-- `this.img = img` is next. -/
  | entry
  /-- `imgSize = size` is next. -/
  | stored
  /-- `sendStartSem.release()` is next. -/
  | sized
  /-- `sendEndSem.acquire()` is next. -/
  | signalled
  /-- It has returned 0. -/
  | returned
deriving DecidableEq, Repr

/-- A call `sendImage(img, size)`; `none` is a null reference. -/
structure SendImage where
  img : Option (List Byte)
  size : Int
  pc : SendImagePc
deriving DecidableEq, Repr

/-- It has written a field and has not returned. -/
def SendImage.InProgress (call : SendImage) : Prop :=
  call.pc ≠ .entry ∧ call.pc ≠ .returned

instance (call : SendImage) : Decidable call.InProgress := instDecidableAnd

/-- What the server has been sent for one image: the size in the file info, and
the content of the messages after it. -/
structure SentImage where
  announced : Int
  bytes : List Byte
deriving DecidableEq, Repr

/-- The transmission is that of `img[0..size)`. -/
def SentImage.IsOf (sent : SentImage) (call : SendImage) : Prop :=
  ∃ content, call.img = some content ∧ 0 ≤ call.size ∧ call.size ≤ content.length ∧
    sent = ⟨call.size, content.take call.size.toNat⟩

/-- Where `TransmitThread` stands, from its loop on. -/
inductive TransmitThreadPc where
  /-- `while (!globalStop)` is next. -/
  | loop
  /-- `sendStartSem.acquire()` is next. -/
  | acquire
  /-- `if (globalStop) break` is next. -/
  | recheck
  /-- `String.format(fileName + ",%d", imgSize)` is next. -/
  | info
  /-- The file info is formatted; `msgD.send` and `msgD.recv` are next. -/
  | exchange (announced : Int)
  /-- `int remain = imgSize` is next. -/
  | remaining (announced : Int)
  /-- `System.arraycopy(img, index, ..)` is next; `bytes` are sent. -/
  | copy (announced : Int) (index : Nat) (remain : Int) (bytes : List Byte)
  /-- `sendEndSem.release()` is next. -/
  | signal
  /-- The loop is left. -/
  | ended
deriving DecidableEq, Repr

/-- Where the call of `stop` stands. -/
inductive StopCall where
  /-- `globalStop = true` is next. -/
  | entry
  /-- `sendStartSem.release()` is next. -/
  | flagged
  | released
deriving DecidableEq, Repr

/-- The fields that the threads share, and the threads. -/
structure JClient where
  img : Option (List Byte)
  imgSize : Int
  sendStartSem : Nat
  sendEndSem : Nat
  globalStop : Bool
  calls : List SendImage
  transmit : TransmitThreadPc
  stop : StopCall
  /-- Images sent completely, oldest first. -/
  sent : List SentImage
  /-- `System.exit(1)` -/
  exited : Bool
deriving DecidableEq, Repr

namespace JClient

/-- The constructor, and the calls that are going to be made. -/
def init (arguments : List (Option (List Byte) × Int)) : JClient where
  img := none
  imgSize := 0
  sendStartSem := 0
  sendEndSem := 0
  globalStop := false
  calls := arguments.map fun argument => ⟨argument.1, argument.2, .entry⟩
  transmit := .loop
  stop := .entry
  sent := []
  exited := false

/-! ## Steps -/

/-- The call at `index` moves on. -/
def moveCall (client : JClient) (index : Nat) (call : SendImage) (pc : SendImagePc) : JClient :=
  { client with calls := client.calls.set index { call with pc := pc } }

/-- `sendImage` -/
def callStep (client : JClient) (index : Nat) : Option JClient := do
  let call ← client.calls[index]?
  match call.pc with
  | .entry => some { client.moveCall index call .stored with img := call.img }
  | .stored => some { client.moveCall index call .sized with imgSize := call.size }
  | .sized =>
      some { client.moveCall index call .signalled with
        sendStartSem := client.sendStartSem + 1 }
  | .signalled =>
      if client.sendEndSem = 0 then none
      else
        some { client.moveCall index call .returned with sendEndSem := client.sendEndSem - 1 }
  | .returned => none

/-- `System.arraycopy(img, index, buf, 0, length)` -/
def arraycopy (img : Option (List Byte)) (index : Nat) : Int → Except Fault (List Byte)
  | .ofNat length =>
      match img with
      | none => .error .exited
      | some content => Java.arraycopy content index length
  | .negSucc _ => .error .exited

/-- One pass of `while (true)` in `TransmitThread`. -/
def copyStep (client : JClient) (announced : Int) (index : Nat) (remain : Int)
    (bytes : List Byte) : JClient :=
  if Java.sendSize ≤ remain then
    match arraycopy client.img index Java.sendSize with
    | .error _ => { client with exited := true }
    | .ok block =>
        { client with
          transmit :=
            .copy announced (index + Java.sendSize) (remain - Java.sendSize) (bytes ++ block) }
  else
    match arraycopy client.img index remain with
    | .error _ => { client with exited := true }
    | .ok block =>
        { client with
          transmit := .signal
          sent := client.sent ++ [⟨announced, bytes ++ block⟩] }

/-- `TransmitThread`; `answered` tells whether `msgD.recv` succeeds. -/
def transmitStep (client : JClient) (answered : Bool) : Option JClient :=
  match client.transmit with
  | .loop =>
      some { client with transmit := if client.globalStop then .ended else .acquire }
  | .acquire =>
      if client.sendStartSem = 0 then none
      else
        some { client with
          sendStartSem := client.sendStartSem - 1
          transmit := .recheck }
  | .recheck =>
      some { client with transmit := if client.globalStop then .ended else .info }
  | .info => some { client with transmit := .exchange client.imgSize }
  | .exchange announced =>
      some (if answered then { client with transmit := .remaining announced }
        else { client with exited := true })
  | .remaining announced =>
      some { client with transmit := .copy announced 0 client.imgSize [] }
  | .copy announced index remain bytes =>
      some (client.copyStep announced index remain bytes)
  | .signal =>
      some { client with
        sendEndSem := client.sendEndSem + 1
        transmit := .loop }
  | .ended => none

/-- `stop` up to `msgD.end()` -/
def stopStep (client : JClient) : Option JClient :=
  match client.stop with
  | .entry =>
      some { client with
        globalStop := true
        stop := .flagged }
  | .flagged =>
      some { client with
        sendStartSem := client.sendStartSem + 1
        stop := .released }
  | .released => none

end JClient

/-- Which thread moves. -/
inductive JClientStep where
  | call (index : Nat)
  | transmit (answered : Bool)
  | stop
deriving DecidableEq, Repr

def jclientMachine : Machine JClient JClientStep where
  next client label :=
    if client.exited then none
    else
      match label with
      | .call index => client.callStep index
      | .transmit answered => client.transmitStep answered
      | .stop => client.stopStep

end PaintingCPS
