import PaintingCPS.Foundation.Machine
import PaintingCPS.MsgDistributor.Connections

/-!
Contract: one thread that calls `recv(sock, ..)` again and again, against the
listener thread that handles data and close frames for that socket.

A step is one map lookup, map erasure, semaphore operation or queue operation.
`recv` looks into the maps without `map_lock`, through a `map[sock]` that
inserts a null pointer for an absent key; `close` deletes the queue and erases
both entries.

Owns: the machine, its agreement with the undisturbed methods, and the
condition under which `recv` and `close` do not meet.

Does not own: other sockets, which share no entry and no pointer, `close` calls
by the receiving thread itself, and safety.
-/

set_option autoImplicit false

namespace PaintingCPS

open Foundation

/-! ## The machine -/

/-- What a map entry points to. -/
inductive Pointer where
  | null
  | object
deriving DecidableEq, Repr

/-- `map[sock]`: the pointer, which is null and newly inserted for an absent
key. -/
def subscript (entry : Option Pointer) : Pointer := entry.getD .null

/-- Where the receiving thread stands. -/
inductive RecvAt where
  /-- Between two calls. -/
  | idle
  /-- `find` has found the id. -/
  | found
  /-- `recv_sem` is loaded. -/
  | waiting (recvSem : Pointer)
  /-- `sem_wait` has returned. -/
  | woken
  /-- The status was 0. -/
  | ended
  /-- The status was not 0. -/
  | tested
  /-- `recv_queue` is loaded. -/
  | loaded (recvQueue : Pointer)
  /-- `recv_char` is the front of the queue. -/
  | fronted (recvChar : List Byte)
  /-- The front is popped. -/
  | popped (recvChar : List Byte)
deriving DecidableEq, Repr

/-- Where the listener thread stands. -/
inductive ListenAt where
  /-- Between two frames. -/
  | idle
  | sockFound (content : List Byte)
  | sockQueue (content : List Byte) (idQueue : Pointer)
  | sockPushed
  | sockSem (idSem : Pointer)
  | closeFound
  | semLoaded (closeSem : Pointer)
  | queueLoaded (closeSem closeQueue : Pointer)
  /-- `map_lock` is taken. -/
  | locked (closeSem closeQueue : Pointer)
  /-- The status is 0. -/
  | marked (closeSem closeQueue : Pointer)
  | posted (closeQueue : Pointer)
  | deleted
  | semErased
  /-- Both entries are erased, `map_lock` is still held. -/
  | queueErased
deriving DecidableEq, Repr

/-- `map_lock` is held by `close`. -/
def ListenAt.holdsLock : ListenAt → Bool
  | .locked _ _ | .marked _ _ | .posted _ | .deleted | .semErased | .queueErased => true
  | _ => false

/-- A frame for the socket. -/
inductive SocketFrame where
  | sock (content : List Byte)
  | close
deriving DecidableEq, Repr

/-- The entries and objects of one socket. -/
structure Socket where
  semEntry : Option Pointer
  queueEntry : Option Pointer
  status : Option Int
  permits : Nat
  /-- `none` after `delete`. -/
  queue : Option (List (List Byte))
deriving DecidableEq, Repr

/-- A socket with its two threads. -/
structure Race where
  socket : Socket
  recv : RecvAt
  listener : ListenAt
  /-- Set when `close` has erased both entries. -/
  closed : Bool
  /-- What the calls of `recv` returned after that; `none` is -1. -/
  late : List (Option (List Byte))
  fault : Option Fault
deriving DecidableEq, Repr

inductive RaceStep where
  | recv
  /-- The idle listener takes a frame. -/
  | frame (frame : SocketFrame)
  | listen
deriving DecidableEq, Repr

namespace Race

def stuck (race : Race) (fault : Fault) : Race := { race with fault := some fault }

/-- `recv` returns. -/
def returned (race : Race) (block : Option (List Byte)) : Race :=
  { race with
    recv := .idle
    late := if race.closed then race.late ++ [block] else race.late }

/-- The next operation of `recv`; `none` while it is blocked. -/
def recvStep (race : Race) : Option Race :=
  match race.recv with
  | .idle =>
      match race.socket.semEntry with
      | none => some (race.returned none)
      | some _ => some { race with recv := .found }
  | .found =>
      some { race with
        socket.semEntry := some (subscript race.socket.semEntry)
        recv := .waiting (subscript race.socket.semEntry) }
  | .waiting .null => some (race.stuck .nullPointer)
  | .waiting .object =>
      if race.socket.permits = 0 then none
      else some { race with socket.permits := race.socket.permits - 1, recv := .woken }
  | .woken =>
      -- the test `status_map[sock] == 0` inserts 0 for an absent key
      if race.socket.status.getD 0 = 0 then
        some { race with socket.status := some 0, recv := .ended }
      else some { race with recv := .tested }
  | .ended =>
      if race.listener.holdsLock then none
      else some ({ race with socket.status := none }.returned none)
  | .tested =>
      some { race with
        socket.queueEntry := some (subscript race.socket.queueEntry)
        recv := .loaded (subscript race.socket.queueEntry) }
  | .loaded .null => some (race.stuck .nullPointer)
  | .loaded .object =>
      match race.socket.queue with
      | none => some (race.stuck .danglingPointer)
      | some [] => some (race.stuck .emptyQueue)
      | some (block :: _) => some { race with recv := .fronted block }
  | .fronted block =>
      match race.socket.queue with
      | none => some (race.stuck .danglingPointer)
      | some [] => some (race.stuck .emptyQueue)
      | some (_ :: rest) => some { race with socket.queue := some rest, recv := .popped block }
  | .popped block => some (race.returned (some block))

/-- The idle listener looks the id of a frame up. -/
def frameStep (race : Race) (frame : SocketFrame) : Option Race :=
  match race.listener, race.socket.semEntry, frame with
  | .idle, none, _ => some race
  | .idle, some _, .sock content => some { race with listener := .sockFound content }
  | .idle, some _, .close => some { race with listener := .closeFound }
  | _, _, _ => none

/-- The next operation of the listener on the frame it handles. -/
def listenStep (race : Race) : Option Race :=
  match race.listener with
  | .idle => none
  | .sockFound content =>
      some { race with
        socket.queueEntry := some (subscript race.socket.queueEntry)
        listener := .sockQueue content (subscript race.socket.queueEntry) }
  | .sockQueue _ .null => some (race.stuck .nullPointer)
  | .sockQueue content .object =>
      match race.socket.queue with
      | none => some (race.stuck .danglingPointer)
      | some blocks =>
          some { race with
            socket.queue := some (blocks ++ [content])
            listener := .sockPushed }
  | .sockPushed =>
      some { race with
        socket.semEntry := some (subscript race.socket.semEntry)
        listener := .sockSem (subscript race.socket.semEntry) }
  | .sockSem .null => some (race.stuck .nullPointer)
  | .sockSem .object =>
      some { race with socket.permits := race.socket.permits + 1, listener := .idle }
  | .closeFound =>
      some { race with
        socket.semEntry := some (subscript race.socket.semEntry)
        listener := .semLoaded (subscript race.socket.semEntry) }
  | .semLoaded closeSem =>
      some { race with
        socket.queueEntry := some (subscript race.socket.queueEntry)
        listener := .queueLoaded closeSem (subscript race.socket.queueEntry) }
  | .queueLoaded closeSem closeQueue =>
      some { race with listener := .locked closeSem closeQueue }
  | .locked closeSem closeQueue =>
      some { race with socket.status := some 0, listener := .marked closeSem closeQueue }
  | .marked .null _ => some (race.stuck .nullPointer)
  | .marked .object closeQueue =>
      some { race with socket.permits := race.socket.permits + 1, listener := .posted closeQueue }
  | .posted .null => some { race with listener := .deleted }
  | .posted .object =>
      match race.socket.queue with
      | none => some (race.stuck .danglingPointer)
      | some _ => some { race with socket.queue := none, listener := .deleted }
  | .deleted => some { race with socket.semEntry := none, listener := .semErased }
  | .semErased =>
      some { race with socket.queueEntry := none, listener := .queueErased, closed := true }
  | .queueErased => some { race with listener := .idle }

def step (race : Race) : RaceStep → Option Race
  | .recv => race.recvStep
  | .frame frame => race.frameStep frame
  | .listen => race.listenStep

end Race

/-- The two threads of one socket. -/
def raceMachine : Machine Race RaceStep where
  next race label := if race.fault.isSome then none else race.step label

/-! ## Undisturbed methods -/

/-- The entries and objects of `sock`, whose pointers are the given addresses. -/
def MsgDistributor.socketOf (endpoint : MsgDistributor) (sock : Int) (semaphore queue : Nat) :
    Socket where
  semEntry := (endpoint.semMap sock).map fun _ => .object
  queueEntry := (endpoint.queueMap sock).map fun _ => .object
  status := endpoint.statusMap sock
  permits := endpoint.sems semaphore
  queue := endpoint.queues queue

section Undisturbed

variable {endpoint : MsgDistributor} {sock : Int} {semaphore queue : Nat} {race : Race}

/-- The operations of `listen` on a data frame, uninterrupted, are `deliver`. -/
theorem deliver_undisturbed (semFound : endpoint.semMap sock = some semaphore)
    (queueFound : endpoint.queueMap sock = some queue)
    (socket : race.socket = endpoint.socketOf sock semaphore queue)
    (idle : race.listener = .idle) (sound : race.fault = none) {content : List Byte}
    {after : MsgDistributor} (delivered : endpoint.deliver sock content = .ok after) :
    raceMachine.run (fun _ _ => True) race
        (.frame (.sock content) :: List.replicate 4 .listen) =
      some { race with socket := after.socketOf sock semaphore queue } := by
  obtain ⟨⟩ := race
  cases live : endpoint.queues queue with
  | none => simp [MsgDistributor.deliver, queueFound, MsgDistributor.liveQueue, live, bind,
      Except.bind] at delivered
  | some blocks =>
      rw [MsgDistributor.deliver_eq semFound queueFound live] at delivered
      cases delivered
      subst socket idle sound
      simp [Machine.run, raceMachine, Race.step, Race.frameStep, Race.listenStep,
        MsgDistributor.socketOf, semFound, queueFound, live, subscript, List.replicate]

/-- The operations of `close`, uninterrupted, are `closeTables`. -/
theorem close_undisturbed (semFound : endpoint.semMap sock = some semaphore)
    (queueFound : endpoint.queueMap sock = some queue)
    (live : (endpoint.queues queue).isSome)
    (socket : race.socket = endpoint.socketOf sock semaphore queue)
    (idle : race.listener = .idle) (sound : race.fault = none) :
    raceMachine.run (fun _ _ => True) race (.frame .close :: List.replicate 9 .listen) =
      some { race with
        socket := (endpoint.closeTables sock semaphore).socketOf sock semaphore queue
        closed := true } := by
  obtain ⟨⟩ := race
  obtain ⟨blocks, queueLive⟩ := Option.isSome_iff_exists.mp live
  subst socket idle sound
  simp [Machine.run, raceMachine, Race.step, Race.frameStep, Race.listenStep,
    MsgDistributor.socketOf, MsgDistributor.closeTables, semFound, queueFound, queueLive, subscript,
    List.replicate]

/-- The operations of `recv`, uninterrupted, are `recvWake`: eight for a block,
five for -1. -/
theorem recv_undisturbed (semFound : endpoint.semMap sock = some semaphore)
    (queueFound : ∀ address, endpoint.queueMap sock = some address → address = queue)
    (permitted : endpoint.sems semaphore ≠ 0)
    (socket : race.socket = endpoint.socketOf sock semaphore queue)
    (starts : race.recv = .idle) (idle : race.listener = .idle) (sound : race.fault = none)
    {after : MsgDistributor} {block : Option (List Byte)}
    (woken : Cpp.recvWake endpoint sock semaphore = .ok (after, block)) :
    raceMachine.run (fun _ _ => True) race
        (List.replicate (if block.isSome then 8 else 5) .recv) =
      some ({ race with socket := after.socketOf sock semaphore queue }.returned block) := by
  obtain ⟨⟩ := race
  subst socket starts idle sound
  unfold Cpp.recvWake at woken
  dsimp only at woken
  split at woken
  next zero =>
    cases woken
    simp [Machine.run, raceMachine, Race.step, Race.recvStep, Race.returned,
      MsgDistributor.socketOf, semFound, permitted, zero, subscript, ListenAt.holdsLock]
  next nonzero =>
    cases pointer : endpoint.queueMap sock with
    | none =>
        rw [pointer] at woken
        cases woken
    | some address =>
        obtain rfl := queueFound address pointer
        cases live : endpoint.queues address with
        | none => simp [pointer, MsgDistributor.liveQueue, live, bind, Except.bind] at woken
        | some blocks =>
            cases blocks with
            | nil => simp [pointer, MsgDistributor.liveQueue, live, bind, Except.bind] at woken
            | cons front rest =>
                simp only [pointer, deref_some, MsgDistributor.liveQueue, live, bind,
                  Except.bind] at woken
                cases woken
                simp [Machine.run, raceMachine, Race.step, Race.recvStep, Race.returned,
                  MsgDistributor.socketOf, semFound, permitted, nonzero, pointer, live, subscript]

end Undisturbed

/-! ## Opened sockets -/

/-- The socket is open, its semaphore counts its queue, and no call is under
way. -/
structure Race.Opened (race : Race) : Prop where
  semEntry : race.socket.semEntry = some .object
  queueEntry : race.socket.queueEntry = some .object
  status : race.socket.status = some 1
  queue : ∃ blocks, race.socket.queue = some blocks ∧ race.socket.permits = blocks.length
  recv : race.recv = .idle
  listener : race.listener = .idle
  closed : race.closed = false
  late : race.late = []
  sound : race.fault = none

/-- `close` does not delete the queue while `recv` stands between the status
test and the pop, does not erase the semaphore while `recv` stands between
`find` and `sem_map[sock]`, and does not finish while `recv` is about to return
a block. -/
def Race.Apart (race : Race) : RaceStep → Prop
  | .listen =>
      match race.listener, race.recv with
      | .posted _, .tested | .posted _, .loaded _ | .posted _, .fronted _ => False
      | .deleted, .found => False
      | .semErased, .popped _ => False
      | _, _ => True
  | _ => True

instance (race : Race) (label : RaceStep) : Decidable (race.Apart label) :=
  match label with
  | .recv | .frame _ => inferInstanceAs (Decidable True)
  | .listen => by
      unfold Race.Apart
      dsimp only
      split <;> infer_instance

end PaintingCPS
