import PaintingCPS.MsgDistributor.Methods

/-!
Contract: the spout of the Storm topology, which receives one image in each
call of `nextTuple`, and the server's end of that connection.

A connection delivers portions of at least one byte, in any sizes, and then
ends. `in.read` is `InputStream.read`: it checks the range of the array first,
returns some of the bytes that are there, and -1 at the end. All exceptions
leave through the `catch` of `nextTuple`. `testMode` is off.

Owns: the connection, `nextTuple`, and the messages of `server_transmit`.

Does not own: what holds of them.
-/

set_option autoImplicit false

namespace PaintingCPS

open Foundation

/-! ## The connection -/

/-- What comes over a connection: the portions in which the bytes arrive, then
the end of the stream or the reset of the connection. -/
inductive Arrivals where
  | closed
  | reset
  | portion (first : Byte) (more : List Byte) (rest : Arrivals)
deriving DecidableEq, Repr

namespace Arrivals

/-- All bytes, whatever the portions. -/
def bytes : Arrivals → List Byte
  | closed | reset => []
  | portion first more rest => first :: more ++ rest.bytes

/-- The rest of a portion, if any, comes before what follows. -/
def behind (left : List Byte) (rest : Arrivals) : Arrivals :=
  match left with
  | [] => rest
  | first :: more => portion first more rest

/-- `in.read(buffer, off, len)`: the return value and the array after it. -/
def read (arrivals : Arrivals) (buffer : List Byte) (off len : Int) :
    Except Fault (Int × List Byte × Arrivals) :=
  if off < 0 ∨ len < 0 ∨ buffer.length - off < len then .error .outOfBounds
  else if len = 0 then .ok (0, buffer, arrivals)
  else
    match arrivals with
    | closed => .ok (-1, buffer, closed)
    | reset => .error .uncaughtException
    | portion first more rest => do
        let got := (first :: more).take len.toNat
        let after ← writeBytes buffer off.toNat got
        return (got.length, after, behind ((first :: more).drop len.toNat) rest)

end Arrivals

/-! ## The spout -/

namespace Java

/-- `String.trim` -/
def trim (text : List Byte) : List Byte :=
  ((text.dropWhile (· ≤ 32)).reverse.dropWhile (· ≤ 32)).reverse

/-- `Integer.parseInt(new String(receivedData, "UTF-8").trim())` for a field of
ASCII characters. -/
def parseSize (receivedData : List Byte) : Option Int32 :=
  match parseInt (trim receivedData) with
  | .ok value => some (Int32.ofInt value)
  | .error _ => none

end Java

/-- The state of the topology that `nextTuple` uses. -/
structure Spout where
  found : Bool
  index : Int
  /-- A `ServerSocket` on `spoutPort` that was not closed. -/
  bound : Bool
deriving DecidableEq, Repr

/-- The variables of the receive loop, and what it has read. -/
structure Receipt where
  img : List Byte
  offset : Int
  arrivals : Arrivals
  /-- Calls of `in.read`. -/
  reads : Nat
  /-- Bytes that they have stored. -/
  received : Nat
deriving DecidableEq, Repr

namespace Receipt

/-- `int once` -/
def once : Int := 2048

/-- `in.read(img, offset, len)` -/
def read (receipt : Receipt) (len : Int) : Except Fault (Int × Receipt) := do
  let (ret, img, arrivals) ← receipt.arrivals.read receipt.img receipt.offset len
  return (ret, { receipt with
    img := img
    arrivals := arrivals
    reads := receipt.reads + 1
    received := receipt.received + ret.toNat })

/-- A call that throws counts as well. -/
def failed (receipt : Receipt) : Receipt := { receipt with reads := receipt.reads + 1 }

/-- `while (true)`: the variables behind the loop, and the exception that ended
it. The second argument bounds the number of passes. -/
def loop (fileSize : Int) : Nat → Receipt → Option (Receipt × Option Fault)
  | 0, _ => none
  | passes + 1, receipt =>
      let remain := toInt32 (fileSize - receipt.offset)
      if remain ≤ once then
        match receipt.read remain with
        | .error fault => some (receipt.failed, some fault)
        | .ok (_, after) => some (after, none)
      else
        match receipt.read once with
        | .error fault => some (receipt.failed, some fault)
        | .ok (ret, after) =>
            loop fileSize passes { after with offset := toInt32 (after.offset + ret) }

/-- `byte[] img = new byte[fileSize]; int offset = 0;` -/
def start (fileSize : Nat) (arrivals : Arrivals) : Receipt where
  img := List.replicate fileSize 0
  offset := 0
  arrivals := arrivals
  reads := 0
  received := 0

end Receipt

/-- What a call of `nextTuple` does. -/
structure NextTuple where
  spout : Spout
  /-- `_collector.emit(new Values(img, index))` -/
  emitted : Option (List Byte × Int)
  /-- Content and port of what `clientSocket` sends. -/
  datagrams : List (List Byte × Nat)
  /-- The number that was parsed. -/
  announced : Option Int
  /-- The calls of `in.read` in the loop, and the bytes they have stored. -/
  reads : Nat
  received : Nat
deriving DecidableEq, Repr

namespace Spout

def spoutFinderPort : Nat := 9877

def monitorPort : Nat := 9876

/-- The datagram of the first call. -/
def here (spout : Spout) : List (List Byte × Nat) :=
  if spout.found then [] else [(ascii "here", spoutFinderPort)]

/-- The call leaves through the `catch`, which closes nothing. -/
def caught (spout : Spout) (announced : Option Int) (reads received : Nat) : NextTuple where
  spout := { spout with
    found := true
    bound := true }
  emitted := none
  datagrams := spout.here
  announced := announced
  reads := reads
  received := received

/-- `nextTuple` for the peer that connects next. `parseInt` is the conversion
of the size field, `none` its `NumberFormatException`; `passes` bounds the
passes of the loop. -/
def nextTuple (parseInt : List Byte → Option Int32) (passes : Nat) (spout : Spout)
    (arrivals : Arrivals) : Option NextTuple :=
  -- `new ServerSocket(spoutPort)` throws a `BindException`
  if spout.bound then some (spout.caught none 0 0)
  else
    match arrivals.read (List.replicate 100 0) 0 100 with
    | .error _ => some (spout.caught none 0 0)
    | .ok (_, receivedData, rest) =>
        match parseInt receivedData with
        | none => some (spout.caught none 0 0)
        | some fileSize =>
            -- `new byte[fileSize]` throws a `NegativeArraySizeException`
            if fileSize.toInt < 0 then some (spout.caught (some fileSize.toInt) 0 0)
            else
              match (Receipt.start fileSize.toInt.toNat rest).loop fileSize.toInt passes with
              | none => none
              | some (receipt, some _) =>
                  some (spout.caught (some fileSize.toInt) receipt.reads receipt.received)
              | some (receipt, none) =>
                  some {
                    spout := ⟨true, toInt32 (spout.index + 1), false⟩
                    emitted := some (receipt.img, spout.index)
                    datagrams := spout.here ++ [(ascii "spout", monitorPort)]
                    announced := some fileSize.toInt
                    reads := receipt.reads
                    received := receipt.received }

end Spout

/-! ## The server -/

/-- The size field that `server_transmit` writes to the spout; it writes the
image when it has read the answer. -/
def spoutSizeField (fileSize : Int) : Except Fault (List Byte) :=
  sprintf (List.replicate 100 0) (decimalInt fileSize)

end PaintingCPS
