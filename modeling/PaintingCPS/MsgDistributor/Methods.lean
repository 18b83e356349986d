import PaintingCPS.MsgDistributor.Frames

/-!
Contract: `listen`, `send`, `recv` and `close` of both implementations, byte by
byte and branch by branch.

A received message is the bytes `mfrecv_blk` stored; the rest of the C++ buffer
is an uninitialised part of the stack, the rest of the Java buffer is zero.
Return values are the `int`s of the source.

`recv` is split where it blocks: `recvEnter` up to `sem_wait`, `recvWake` from
there on. The Java string functions act on the bytes: an ASCII byte decodes to
itself in every ASCII-compatible charset, and the code compares tokens with
ASCII texts only.

Owns: the methods. Does not own: any property of them, and the handshake
methods `connect` and `accept`, whose steps interleave.
-/

set_option autoImplicit false

namespace PaintingCPS

open Foundation

/-- `close` up to its unlock, in both languages: `none` when the id is not in
`sem_map`. -/
def MsgDistributor.closeLocked (endpoint : MsgDistributor) (sock : Int) :
    Option MsgDistributor :=
  (endpoint.semMap sock).map (endpoint.closeTables sock)

namespace Cpp

/-- `recv` up to `sem_wait`: the semaphore to wait on, or `none` for the return
value -1. -/
def recvEnter (endpoint : MsgDistributor) (sock : Int) : Option Nat :=
  if endpoint.mfsockid = -1 then none else endpoint.semMap sock

/-- `recv` from a successful `sem_wait` on: the block taken from the queue, or
`none` for the return value -1. `status_map[sock]` inserts 0 for an absent id. -/
def recvWake (endpoint : MsgDistributor) (sock : Int) (recvSem : Nat) :
    Except Fault (MsgDistributor × Option (List Byte)) := do
  let woken := { endpoint with
    sems := Function.update endpoint.sems recvSem (endpoint.sems recvSem - 1) }
  if (woken.statusMap sock).getD 0 = 0 then
    return ({ woken with statusMap := Function.update woken.statusMap sock none }, none)
  else
    let recvQueue ← deref (woken.queueMap sock)
    match ← woken.liveQueue recvQueue with
    | [] => .error .emptyQueue
    | block :: rest =>
        return ({ woken with
          queues := Function.update woken.queues recvQueue (some rest) }, some block)

/-- `memcpy(buffer, recv_char, size)` of `recv`. `beyond` is the heap memory
behind the block, read when `size` exceeds its length. That is undefined, and
idealised here: the bytes are arbitrary, and reading them is no fault. -/
def recvCopy (buffer block beyond : List Byte) (size : Nat) : List Byte :=
  (block ++ beyond).take size ++ buffer.drop size

/-- `send`: the frame to transmit, or `none` for the return value -1. -/
def send (junk : Nat → Byte) (endpoint : MsgDistributor) (sock : Int)
    (buffer : List Byte) : Except Fault (Option (List Byte)) :=
  if endpoint.mfsockid = -1 then .ok none
  else
    match endpoint.semMap sock with
    | none => .ok none
    | some _ => do return some (← sendFrame junk sock buffer)

/-- `close`: the new state, the return value, and the frame to transmit. -/
def close (junk : Nat → Byte) (endpoint : MsgDistributor) (sock passive : Int) :
    Except Fault (MsgDistributor × Int × Option (List Byte)) :=
  if endpoint.mfsockid = -1 then .error .exited
  else
    match endpoint.closeLocked sock with
    | none => .ok (endpoint, -1, none)
    | some after =>
        if passive = 0 then do return (after, 0, some (← closeFrame junk sock))
        else .ok (after, 0, none)

/-- `listen` from the return of `mfrecv_blk` on. -/
def dispatch (endpoint : MsgDistributor) (ret : Nat) (buffer : List Byte) :
    Except Fault (MsgDistributor × Int) := do
  let newMessage ← deref (← strtok isComma buffer)
  if newMessage.text = ascii "create" then
    return ({ endpoint with acceptSem := endpoint.acceptSem + 1 }, 0)
  else if newMessage.text = ascii "accepted" then
    let createdIdChar ← deref (← strtok isComma newMessage.saved)
    let createdId := toInt32 (strtol createdIdChar.text)
    return ({ endpoint with
      connectQueue := endpoint.connectQueue ++ [createdId]
      connectSem := endpoint.connectSem + 1 }, 0)
  else if newMessage.text = ascii "sock" then
    let idChar ← deref (← strtok isComma newMessage.saved)
    let id := toInt32 (strtol idChar.text)
    let idLength ← Cpp.idLength id
    let contentLength : Int := ret - idLength - 6
    let content ← readBytes (idChar.memory.drop (idLength + 1)) contentLength
    match endpoint.semMap id with
    | none => return (endpoint, -1)
    | some _ => return (← endpoint.deliver id content, 0)
  else if newMessage.text = ascii "close" then
    let idChar ← deref (← strtok isComma newMessage.saved)
    let id := toInt32 (strtol idChar.text)
    return ((endpoint.closeLocked id).getD endpoint, 0)
  else
    return (endpoint, -1)

/-- `listen`. -/
def listen (junk : Nat → Byte) (endpoint : MsgDistributor)
    (received : Option (List Byte)) : Except Fault (MsgDistributor × Int) :=
  if endpoint.mfsockid = -1 then .ok (endpoint, -1)
  else
    match received with
    | none => .ok (endpoint, -1)
    | some message =>
        dispatch endpoint message.length
          (message ++ uninitialised junk (maxChunk - message.length))

end Cpp

namespace Java

/-! ## Java strings -/

/-- The fields between commas, empty ones included. -/
def splitComma : List Byte → List (List Byte)
  | [] => [[]]
  | byte :: rest =>
      if byte = comma then [] :: splitComma rest
      else
        match splitComma rest with
        | [] => [[byte]]
        | field :: more => (byte :: field) :: more

/-- `String.split` drops trailing empty fields. -/
def dropTrailingEmpty : List (List Byte) → List (List Byte)
  | [] => []
  | field :: rest =>
      match dropTrailingEmpty rest with
      | [] => if field = [] then [] else [field]
      | kept => field :: kept

/-- `bufString.split("[,]")`. -/
def split (bytes : List Byte) : List (List Byte) := dropTrailingEmpty (splitComma bytes)

/-- `tokens[index]`. -/
def token (tokens : List (List Byte)) (index : Nat) : Except Fault (List Byte) :=
  match tokens[index]? with
  | none => .error .uncaughtException
  | some text => .ok text

/-- `Integer.parseInt`: an optional sign and digits only, in range, or
`NumberFormatException`. -/
def parseInt (text : List Byte) : Except Fault Int :=
  let negative := text.head? = some 45
  let digits := if negative ∨ text.head? = some 43 then text.tail else text
  if digits = [] ∨ ¬ digits.all isDigit then .error .uncaughtException
  else
    let value : Int := if negative then -(readDigits 0 digits : Int) else readDigits 0 digits
    if -2147483648 ≤ value ∧ value < 2147483648 then .ok value
    else .error .uncaughtException

/-! ## Java methods -/

/-- `send`: the frame to transmit, or `none` for the return value -1. -/
def send (endpoint : MsgDistributor) (sockID : Int) (buf : List Byte) :
    Except Fault (Option (List Byte)) :=
  if endpoint.mfsockid = -1 then .ok none
  else
    match endpoint.semMap sockID with
    | none => .ok none
    | some _ => do return some (← sendFrame sockID buf)

/-- `close`: the new state, the return value, and the frame to transmit. -/
def close (endpoint : MsgDistributor) (sockID mode : Int) :
    Except Fault (MsgDistributor × Int × Option (List Byte)) :=
  if endpoint.mfsockid = -1 then .ok (endpoint, -1, none)
  else
    match endpoint.closeLocked sockID with
    | none => .ok (endpoint, -1, none)
    | some after =>
        if mode = 0 then do return (after, 0, some (← closeFrame sockID))
        else .ok (after, 0, none)

/-- `listen` from the return of `jmfrecv_blk` on. Only `JMFException` is
caught, so every other exception leaves the method. -/
def dispatch (endpoint : MsgDistributor) (ret : Nat) (buf : List Byte) :
    Except Fault (MsgDistributor × Int) := do
  let tokens := split buf
  let header ← token tokens 0
  if header = ascii "create" then
    return ({ endpoint with acceptSem := endpoint.acceptSem + 1 }, 0)
  else if header = ascii "accepted" then
    let createdID ← parseInt (← token tokens 1)
    return ({ endpoint with
      connectQueue := endpoint.connectQueue ++ [createdID]
      connectSem := endpoint.connectSem + 1 }, 0)
  else if header = ascii "sock" then
    let sockID ← parseInt (← token tokens 1)
    match endpoint.semMap sockID with
    | none => return (endpoint, -1)
    | some _ =>
        let idLen ← Java.idLength sockID
        let contentLen : Int := ret - idLen - 6
        let content ← readBytes (buf.drop (idLen + 6)) contentLen
        return (← endpoint.deliver sockID content, 0)
  else if header = ascii "close" then
    let sockID ← parseInt (← token tokens 1)
    return ((endpoint.closeLocked sockID).getD endpoint, 0)
  else
    return (endpoint, -1)

/-- `listen`. -/
def listen (endpoint : MsgDistributor) (received : Option (List Byte)) :
    Except Fault (MsgDistributor × Int) :=
  if endpoint.mfsockid = -1 then .ok (endpoint, -1)
  else
    match received with
    | none => .ok (endpoint, -1)
    | some message =>
        dispatch endpoint message.length
          (message ++ List.replicate (maxChunk - message.length) 0)

end Java

end PaintingCPS
