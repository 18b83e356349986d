import Mathlib.Logic.Function.Basic
import PaintingCPS.Foundation.CString

/-!
Contract: the state of one Message Distributor endpoint and the map updates
that its methods perform under `map_lock`.

The three maps hold pointers. Semaphores and queues live in two heaps, because
`close` deletes a queue and drops both pointers while a blocked `recv` still
holds the semaphore. The C++ and the Java class have the same fields.

Owns: the endpoint record, its initial value, registration of a new id,
delivery of one block, the locked part of `close`, and the view of the maps as
a table of connections.

Does not own: frames, the network, or blocking. `stop` is initialised to 0 and
assigned nowhere, so the branches that test it are unreachable and absent here.
-/

set_option autoImplicit false

namespace PaintingCPS

open Foundation

/-- `BUFFER_SIZE`, the size of every control frame. -/
def bufferSize : Nat := 1024

/-- `MAX_CHUNK`, the capacity of the receive buffer. -/
def maxChunk : Nat := 50000

/-- The members of `MsgDistributor`, with the heap its pointers refer to. An
address is a natural number. -/
structure MsgDistributor where
  mfsockid : Int
  connectSem : Nat
  connectQueue : List Int
  acceptSem : Nat
  semMap : Int → Option Nat
  queueMap : Int → Option Nat
  statusMap : Int → Option Int
  sems : Nat → Nat
  /-- `none` is an address that holds no live queue. -/
  queues : Nat → Option (List (List Byte))
  /-- The next address the allocator returns. -/
  fresh : Nat

namespace MsgDistributor

/-- The endpoint after a successful `init`. -/
def init : MsgDistributor where
  mfsockid := 0
  connectSem := 0
  connectQueue := []
  acceptSem := 0
  semMap := fun _ => none
  queueMap := fun _ => none
  statusMap := fun _ => none
  sems := fun _ => 0
  queues := fun _ => none
  fresh := 0

/-! ## Map updates -/

/-- A new semaphore and a new queue are put into the maps under `newID`, with
status 1. `connect` and `accept` share this sequence. -/
def register (endpoint : MsgDistributor) (newID : Int) : MsgDistributor :=
  { endpoint with
    queueMap := Function.update endpoint.queueMap newID (some endpoint.fresh)
    semMap := Function.update endpoint.semMap newID (some endpoint.fresh)
    statusMap := Function.update endpoint.statusMap newID (some 1)
    sems := Function.update endpoint.sems endpoint.fresh 0
    queues := Function.update endpoint.queues endpoint.fresh (some [])
    fresh := endpoint.fresh + 1 }

/-- The contents of a queue that is about to be used. -/
def liveQueue (endpoint : MsgDistributor) (address : Nat) :
    Except Fault (List (List Byte)) :=
  match endpoint.queues address with
  | none => .error .danglingPointer
  | some blocks => .ok blocks

/-- Push one block on the queue of `id` and post its semaphore. -/
def deliver (endpoint : MsgDistributor) (id : Int) (content : List Byte) :
    Except Fault MsgDistributor := do
  let idQueue ← deref (endpoint.queueMap id)
  let blocks ← endpoint.liveQueue idQueue
  let idSem ← deref (endpoint.semMap id)
  return { endpoint with
    queues := Function.update endpoint.queues idQueue (some (blocks ++ [content]))
    sems := Function.update endpoint.sems idSem (endpoint.sems idSem + 1) }

/-- The locked part of `close`: status 0, one post for a blocked `recv`, the
queue deleted and both pointers dropped. -/
def closeTables (endpoint : MsgDistributor) (sock : Int) (closeSem : Nat) :
    MsgDistributor :=
  { endpoint with
    statusMap := Function.update endpoint.statusMap sock (some 0)
    sems := Function.update endpoint.sems closeSem (endpoint.sems closeSem + 1)
    queues :=
      match endpoint.queueMap sock with
      | none => endpoint.queues
      | some address => Function.update endpoint.queues address none
    semMap := Function.update endpoint.semMap sock none
    queueMap := Function.update endpoint.queueMap sock none }

/-! ## The table of connections -/

/-- What one open id amounts to: the permits of its semaphore and the blocks in
its queue. -/
structure Connection where
  permits : Nat
  blocks : List (List Byte)
deriving DecidableEq, Repr

/-- The connection behind an id, when both pointers lead to live objects. -/
def connection (endpoint : MsgDistributor) (id : Int) : Option Connection :=
  match endpoint.semMap id, endpoint.queueMap id with
  | some semaphore, some queue =>
      (endpoint.queues queue).map fun blocks => ⟨endpoint.sems semaphore, blocks⟩
  | _, _ => none

end MsgDistributor

end PaintingCPS
