import PaintingCPS.Upload.Orbit

/-!
Contract: `display_thread` and the `transmit_child` threads it creates, in orbit
mode.

Every frame gets a thread of its own, and all threads are given the address of
one struct, `trans_info`. A thread does not copy the name: it goes back to the
struct for `stat`, for the header and for `fopen`, in every pass of its loop.
`display_thread` writes the next name into the struct as soon as
`pthread_create` has returned, and the struct is gone when it leaves.

Files do not change, and the socket in the struct is always the same, so only
the read of it is modelled.

Owns: the threads with their accesses to the struct, and what it means that the
struct is left to them.

Does not own: the camera, and the connection before the first frame.
-/

set_option autoImplicit false

namespace PaintingCPS

open Foundation

/-- `struct arg_transmit` has room for so many bytes of a name, and so has
`file_name` of `display_thread`. -/
def frameNameCapacity : Nat := 100

/-- Where a `transmit_child` stands in a pass of its loop. -/
inductive ChildAt where
  /-- At `args->sock`. -/
  | created
  /-- At `stat`. -/
  | measuring
  /-- At `pthread_mutex_lock`. -/
  | locking (size : Nat)
  /-- At `fopen`, as soon as the header is sent. -/
  | opening
  /-- The file is open. -/
  | sending
  | ended
deriving DecidableEq, Repr

/-- A `transmit_child`, with the passes it has not finished. -/
structure TransmitChild where
  remaining : Nat
  pc : ChildAt
deriving DecidableEq, Repr

/-- The thread will use the struct again. -/
def TransmitChild.reads (child : TransmitChild) : Bool :=
  match child.pc with
  | .ended => false
  | .sending => child.remaining != 1
  | _ => true

/-- Passes it has not begun. -/
def TransmitChild.unbegun (child : TransmitChild) : Nat :=
  match child.pc with
  | .opening | .sending => child.remaining - 1
  | _ => child.remaining

/-- Where `display_thread` stands. -/
inductive DisplayAt where
  | looping
  /-- `trans_info` is filled; at `pthread_create`. -/
  | filled (fileName : List Byte)
  | returned
deriving DecidableEq, Repr

structure Capture where
  exchange : Exchange
  sendLock : Option Nat
  fakeId : Nat
  display : DisplayAt
  /-- `trans_info.file_name`; `none` before it is filled and after the return. -/
  transInfo : Option (List Byte)
  children : List TransmitChild
  /-- The names the children were created for. -/
  captured : List (List Byte)

inductive CaptureStep where
  /-- A frame is written under this name, and the name goes into the struct. -/
  | grab (fileName : List Byte)
  /-- `pthread_create`, which can fail. -/
  | spawn (created : Bool)
  /-- The loop of `display_thread` ends. -/
  | leave
  | child (index : Nat) (junk : Nat → Byte)
  | exchange (step : ExchangeStep)

/-- What follows `fopen`: the reply, and the blocks of the file. -/
def Cpp.blockProgram (image : List Byte) : List Op :=
  .await :: (Exchange.bodies ((fileBlocks recvLength image).map (padded recvLength))).map .send

namespace Capture

/-- Logged in, before the first frame. -/
def init : Capture where
  exchange := .init
  sendLock := none
  fakeId := 0
  display := .looping
  transInfo := none
  children := []
  captured := []

/-- After a step, or the fault. `none` is a step that its thread cannot take
now. -/
abbrev Outcome := Option (Except Fault Capture)

section Steps

variable (disk : List Byte → Option (List Byte)) (test : Bool) (sizePerTime : Nat)
  (capture : Capture)

/-- In test mode `bzero` clears `BUFFER_SIZE` bytes from the start of the name
on. -/
def grab (fileName : List Byte) : Outcome :=
  match capture.display with
  | .looping =>
      if frameNameCapacity ≤ fileName.length ∨ (test = true ∧ frameNameCapacity < bufferSize) then
        some (.error .outOfBounds)
      else
        some (.ok { capture with display := .filled fileName, transInfo := some fileName })
  | _ => none

def spawn (created : Bool) : Outcome :=
  match capture.display with
  | .filled fileName =>
      if created then
        some (.ok { capture with
          display := .looping
          children := capture.children ++ [⟨sizePerTime, .created⟩]
          captured := capture.captured ++ [fileName] })
      else some (.ok { capture with display := .returned, transInfo := none })
  | _ => none

def leave : Outcome :=
  match capture.display with
  | .looping => some (.ok { capture with display := .returned, transInfo := none })
  | _ => none

/-- The struct is on the stack of `display_thread`. -/
def args : Except Fault (List Byte) :=
  match capture.transInfo with
  | none => .error .danglingPointer
  | some fileName => .ok fileName

/-- Without the file the client exits, at `stat` and at `fopen`. -/
def readFile : Except Fault (List Byte) := do
  match disk (← capture.args) with
  | none => .error .exited
  | some image => return image

def setChild (index : Nat) (child : TransmitChild) : Capture :=
  { capture with children := capture.children.set index child }

/-- The name in the header. -/
def headerName : Except Fault (List Byte) :=
  if sizePerTime = 1 then capture.args else .ok (picture capture.fakeId)

def childStep (index : Nat) (junk : Nat → Byte) : Outcome :=
  match capture.children[index]? with
  | some ⟨remaining, .created⟩ =>
      some do
        let _ ← capture.args
        return capture.setChild index ⟨remaining, if remaining = 0 then .ended else .measuring⟩
  | some ⟨remaining, .measuring⟩ =>
      some do
        let image ← capture.readFile disk
        return capture.setChild index ⟨remaining, .locking image.length⟩
  | some ⟨remaining, .locking size⟩ =>
      if capture.sendLock ≠ none then none
      else
        some do
          let fileName ← capture.headerName sizePerTime
          let bufferSend ← sprintf (uninitialised junk recvLength)
            (fileName ++ comma :: decimal size)
          return { capture.setChild index ⟨remaining, .opening⟩ with
            exchange := { capture.exchange with
              program := [.send ⟨.header, bufferSend.take headerSize⟩] }
            sendLock := some index
            fakeId := if sizePerTime = 1 then capture.fakeId else capture.fakeId + 1 }
  | some ⟨remaining, .opening⟩ =>
      if capture.exchange.program ≠ [] then none
      else
        some do
          let image ← capture.readFile disk
          return { capture.setChild index ⟨remaining, .sending⟩ with
            exchange := { capture.exchange with program := Cpp.blockProgram image } }
  | some ⟨remaining, .sending⟩ =>
      if capture.exchange.program ≠ [] then none
      else
        some (.ok { capture.setChild index
            ⟨remaining - 1, if remaining = 1 then .ended else .measuring⟩ with
          sendLock := none })
  | _ => none

def step : CaptureStep → Outcome
  | .grab fileName => capture.grab test fileName
  | .spawn created => capture.spawn sizePerTime created
  | .leave => capture.leave
  | .child index junk => capture.childStep disk sizePerTime index junk
  | .exchange label =>
      (capture.exchange.step label).map fun exchange => .ok { capture with exchange := exchange }

end Steps

end Capture

/-- The threads of the client and the server in any order. -/
def captureMachine (disk : List Byte → Option (List Byte)) (test : Bool) (sizePerTime : Nat) :
    Machine Capture CaptureStep where
  next capture label :=
    if capture.exchange.fault.isSome then none
    else
      match capture.step disk test sizePerTime label with
      | none => none
      | some (.error fault) => some { capture with exchange := capture.exchange.stuck fault }
      | some (.ok after) => some after

/-! ## The struct is left alone -/

/-- The frame is on the disk and can be sent. -/
def Capturable (disk : List Byte → Option (List Byte)) (sizePerTime : Nat)
    (fileName : List Byte) : Prop :=
  ∃ file : Upload, file.fileName = fileName ∧ disk fileName = some file.image ∧
    file.Sendable ∧ (sizePerTime = 1 → fileName.length < fileNameCapacity)

/-- No child will use the struct again. -/
def Capture.Idle (capture : Capture) : Prop := ∀ child ∈ capture.children, child.reads = false

/-- The struct is overwritten, or lost, only when nobody uses it again. -/
def Capture.Undisturbed (disk : List Byte → Option (List Byte)) (sizePerTime : Nat)
    (capture : Capture) : CaptureStep → Prop
  | .grab fileName => capture.Idle ∧ Capturable disk sizePerTime fileName
  | .leave => capture.Idle
  | _ => True

end PaintingCPS
