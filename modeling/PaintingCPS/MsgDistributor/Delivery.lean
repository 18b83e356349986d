import PaintingCPS.Foundation.Machine
import PaintingCPS.MsgDistributor.Interop

/-!
Contract: data transfer between two C++ endpoints whose connections stay open.

The machine interleaves atomic `send`, `listen` and `recv` calls at both ends.
Messages travel as the bytes that `send` produced. What was sent and what was
taken is recorded for each end and id.

Owns: the machine, its delivery invariant, and exact FIFO delivery for every
id and direction.

Does not own: the handshake that opened the connections, and `close`.
-/

set_option autoImplicit false

namespace PaintingCPS

open Foundation

/-- The two ends of a link. -/
inductive Side where
  | client
  | server
deriving DecidableEq, Repr

def Side.peer : Side → Side
  | client => server
  | server => client

@[simp] theorem Side.peer_peer (side : Side) : side.peer.peer = side := by
  cases side <;> rfl

theorem Side.peer_ne (side : Side) : side.peer ≠ side := by
  cases side <;> simp [Side.peer]

theorem Side.eq_peer_of_ne {side other : Side} (differs : other ≠ side) : other = side.peer := by
  cases side <;> cases other <;> simp_all [Side.peer]

/-! ## The machine -/

/-- Two endpoints, the messages between them, and the history of payloads. -/
structure Link where
  endpoint : Side → MsgDistributor
  /-- Messages on their way to an end, oldest first. -/
  wire : Side → List (List Byte)
  /-- Payloads handed to `send`, by sending end and id. -/
  sent : Side → SocketId → List (List Byte)
  /-- Blocks returned by `recv`, by receiving end and id. -/
  taken : Side → SocketId → List (List Byte)
  /-- Set when a call does not return. -/
  fault : Option Fault

/-- One atomic call. The junk is what uninitialised memory holds. -/
inductive LinkStep where
  | send (side : Side) (junk : Nat → Byte) (id : SocketId) (payload : List Byte)
  | listen (side : Side) (junk : Nat → Byte)
  | recv (side : Side) (id : SocketId)

namespace Link

def stuck (link : Link) (fault : Fault) : Link := { link with fault := some fault }

/-- `send` at `side`. -/
def sendStep (link : Link) (side : Side) (junk : Nat → Byte) (id : SocketId)
    (payload : List Byte) : Link :=
  match Cpp.send junk (link.endpoint side) id.int payload with
  | .error fault => link.stuck fault
  | .ok none => link
  | .ok (some frame) =>
      { link with
        wire := Function.update link.wire side.peer (link.wire side.peer ++ [frame])
        sent := Function.update link.sent side
          (Function.update (link.sent side) id (link.sent side id ++ [payload])) }

/-- `listen` at `side`, blocked while no message is there. -/
def listenStep (mfrecv : List Byte → Option (List Byte)) (link : Link) (side : Side)
    (junk : Nat → Byte) : Option Link :=
  match link.wire side with
  | [] => none
  | message :: rest =>
      match Cpp.listen junk (link.endpoint side) (mfrecv message) with
      | .error fault => some (link.stuck fault)
      | .ok (after, _) =>
          some { link with
            endpoint := Function.update link.endpoint side after
            wire := Function.update link.wire side rest }

/-- `recv` at `side`, blocked while the semaphore is zero. It takes the block
off its queue; the copy to the buffer of the caller, and a read past the end of
a shorter block, are not seen. -/
def recvStep (link : Link) (side : Side) (id : SocketId) : Option Link :=
  match Cpp.recvEnter (link.endpoint side) id.int with
  | none => some link
  | some recvSem =>
      if (link.endpoint side).sems recvSem = 0 then none
      else
        match Cpp.recvWake (link.endpoint side) id.int recvSem with
        | .error fault => some (link.stuck fault)
        | .ok (after, block) =>
            some { link with
              endpoint := Function.update link.endpoint side after
              taken := Function.update link.taken side
                (Function.update (link.taken side) id (link.taken side id ++ block.toList)) }

def step (mfrecv : List Byte → Option (List Byte)) (link : Link) : LinkStep → Option Link
  | .send side junk id payload => some (link.sendStep side junk id payload)
  | .listen side junk => link.listenStep mfrecv side junk
  | .recv side id => link.recvStep side id

end Link

/-- The two ends over a network that receives by `mfrecv`. -/
def linkMachine (mfrecv : List Byte → Option (List Byte)) : Machine Link LinkStep where
  next link label := if link.fault.isSome then none else link.step mfrecv label

/-- Calls on the given ids only, and payloads that one message can hold. -/
def LinkStep.Allowed (ids : SocketId → Prop) : LinkStep → Prop
  | .send _ _ id payload =>
      ids id ∧ payload ≠ [] ∧ payload.length + (decimal id.value).length + 6 ≤ maxChunk
  | .listen _ _ => True
  | .recv _ id => ids id

/-- Both ends have registered every id, and nothing was sent yet. -/
structure Link.Registered (ids : SocketId → Prop) (link : Link) : Prop where
  ready : ∀ side, (link.endpoint side).Ready
  status : ∀ side id, ids id → (link.endpoint side).statusMap id.int = some 1
  empty : ∀ side id, ids id → (link.endpoint side).connection id.int = some ⟨0, []⟩
  quiet : ∀ side, link.wire side = []
  unsent : ∀ side id, link.sent side id = []
  untaken : ∀ side id, link.taken side id = []
  sound : link.fault = none

/-! ## Payloads in flight -/

/-- The payload of a message that carries `id`. -/
def payloadFor (id : SocketId) (message : List Byte) : Option (List Byte) :=
  if sockHeader id <+: message then some (message.drop (sockHeader id).length) else none

/-- The payloads that are on their way under `id`, oldest first. -/
def inFlight (id : SocketId) (wire : List (List Byte)) : List (List Byte) :=
  wire.filterMap (payloadFor id)

theorem payloadFor_self (id : SocketId) (payload : List Byte) :
    payloadFor id (sockHeader id ++ payload) = some payload := by
  rw [payloadFor, if_pos (List.prefix_append _ _), List.drop_left]

/-- The comma behind the id keeps headers of different ids apart. -/
theorem sockHeader_unique {id other : SocketId} {payload rest : List Byte}
    (same : sockHeader id ++ rest = sockHeader other ++ payload) : id = other := by
  have fields : ∀ (socket : SocketId) (tail : List Byte),
      Java.splitComma (sockHeader socket ++ tail) =
        ascii "sock" :: decimal socket.value :: Java.splitComma tail := by
    intro socket tail
    rw [sockHeader_append, Java.splitComma_field (by decide),
      Java.splitComma_field (notMem_decimal (by decide) _)]
  have split := congrArg Java.splitComma same
  rw [fields, fields] at split
  have digits : decimal id.value = decimal other.value := by
    simpa using (List.cons.inj (List.cons.inj split).2).1
  have value := congrArg (readDigits 0) digits
  rw [readDigits_decimal, readDigits_decimal] at value
  exact SocketId.int_injective (by simp [SocketId.int, value])

theorem payloadFor_other {id other : SocketId} (differs : id ≠ other) (payload : List Byte) :
    payloadFor id (sockHeader other ++ payload) = none := by
  refine if_neg ?_
  rintro ⟨rest, same⟩
  exact differs (sockHeader_unique same)

/-! ## The delivery invariant -/

/-- Every payload sent under a registered id was taken, waits in the queue, or
is in flight, in this order; and the semaphore counts the queue. -/
structure Link.Delivers (ids : SocketId → Prop) (link : Link) : Prop where
  sound : link.fault = none
  ready : ∀ side, (link.endpoint side).Ready
  status : ∀ side id, ids id → (link.endpoint side).statusMap id.int = some 1
  framed : ∀ side, ∀ message ∈ link.wire side, ∃ id payload, ids id ∧
    message = sockHeader id ++ payload ∧ message.length ≤ maxChunk
  delivered : ∀ side id, ids id → ∃ blocks,
    (link.endpoint side).connection id.int = some ⟨blocks.length, blocks⟩ ∧
    link.taken side id ++ blocks ++ inFlight id (link.wire side) = link.sent side.peer id

theorem Link.Registered.delivers {ids : SocketId → Prop} {link : Link}
    (registered : link.Registered ids) : link.Delivers ids where
  sound := registered.sound
  ready := registered.ready
  status := registered.status
  framed side message member := by
    rw [registered.quiet side] at member
    cases member
  delivered side id member := by
    refine ⟨[], registered.empty side id member, ?_⟩
    rw [registered.untaken, registered.quiet, registered.unsent]
    rfl

section Steps

variable {ids : SocketId → Prop} {link : Link}

/-- An open id is in `sem_map`. -/
theorem Link.Delivers.found (delivers : link.Delivers ids) (side : Side) {id : SocketId}
    (member : ids id) : ∃ semaphore, (link.endpoint side).semMap id.int = some semaphore := by
  obtain ⟨blocks, present, -⟩ := delivers.delivered side id member
  obtain ⟨semaphore, -, found, -⟩ := MsgDistributor.connection_eq_some present
  exact ⟨semaphore, found⟩

/-- `send` on an open id puts one frame on the wire. -/
theorem Link.Delivers.sendStep (delivers : link.Delivers ids) (side : Side)
    (junk : Nat → Byte) {id : SocketId} {payload : List Byte} (member : ids id)
    (nonempty : payload ≠ [])
    (short : payload.length + (decimal id.value).length + 6 ≤ maxChunk) :
    (link.sendStep side junk id payload).Delivers ids := by
  obtain ⟨semaphore, found⟩ := delivers.found side member
  have emitted : Cpp.send junk (link.endpoint side) id.int payload =
      .ok (some (sockHeader id ++ payload)) := by
    rw [Cpp.send, if_neg (delivers.ready side).initialised, found]
    dsimp only
    rw [Cpp.sendFrame_eq junk id nonempty]
    rfl
  rw [Link.sendStep, emitted]
  refine ⟨delivers.sound, delivers.ready, delivers.status, ?_, ?_⟩
  · intro other message onWire
    dsimp only at onWire
    by_cases toPeer : other = side.peer
    · subst toPeer
      rw [Function.update_self, List.mem_append, List.mem_singleton] at onWire
      rcases onWire with before | rfl
      · exact delivers.framed _ message before
      · refine ⟨id, payload, member, rfl, ?_⟩
        rw [List.length_append, sockHeader_length]
        omega
    · rw [Function.update_of_ne toPeer] at onWire
      exact delivers.framed _ message onWire
  · intro other otherId otherMember
    obtain ⟨blocks, present, history⟩ := delivers.delivered other otherId otherMember
    refine ⟨blocks, present, ?_⟩
    dsimp only
    by_cases toPeer : other = side.peer
    · subst toPeer
      rw [Side.peer_peer] at history ⊢
      rw [Function.update_self, Function.update_self, inFlight, List.filterMap_append,
        ← inFlight, ← List.append_assoc, history]
      by_cases sameId : otherId = id
      · subst sameId
        rw [Function.update_self]
        simp [payloadFor_self]
      · rw [Function.update_of_ne sameId]
        simp [payloadFor_other sameId]
    · have fromPeer : other.peer ≠ side := by
        rintro rfl
        exact toPeer other.peer_peer.symm
      rw [Function.update_of_ne toPeer, Function.update_of_ne fromPeer]
      exact history

/-- `listen` moves the oldest payload from the wire to the queue of its id. -/
theorem Link.Delivers.listenStep {mfrecv : List Byte → Option (List Byte)}
    (contract : ReceiveContract mfrecv) (delivers : link.Delivers ids) {side : Side}
    {junk : Nat → Byte} {after : Link}
    (step : link.listenStep mfrecv side junk = some after) : after.Delivers ids := by
  rw [Link.listenStep] at step
  split at step
  next => contradiction
  next message rest wireEq =>
    obtain ⟨id, payload, member, rfl, short⟩ :=
      delivers.framed side message (by rw [wireEq]; simp)
    obtain ⟨semaphore, found⟩ := delivers.found side member
    obtain ⟨blocks, present, -⟩ := delivers.delivered side id member
    obtain ⟨endpoint, stored, table, semSame, queueSame, statusSame, freshSame, sockSame, -⟩ :=
      MsgDistributor.deliver_open (delivers.ready side).separated present payload
    have written : Written comma (.sock id.int payload) (sockHeader id ++ payload) :=
      ⟨id, rfl, rfl⟩
    have listened : Cpp.listen junk (link.endpoint side) (mfrecv (sockHeader id ++ payload)) =
        .ok (endpoint, 0) := by
      rw [contract.whole _ short,
        Cpp.listen_frame (delivers.ready side).initialised junk (.inl rfl) written,
        Frame.effect, found]
      dsimp only
      rw [stored]
      rfl
    rw [listened] at step
    cases step
    refine ⟨delivers.sound, ?_, ?_, ?_, ?_⟩
    · intro other
      dsimp only
      by_cases same : other = side
      · subst same
        rw [Function.update_self]
        exact (delivers.ready other).of_update table semSame queueSame freshSame sockSame
      · rw [Function.update_of_ne same]
        exact delivers.ready other
    · intro other otherId otherMember
      dsimp only
      by_cases same : other = side
      · subst same
        rw [Function.update_self, statusSame]
        exact delivers.status other otherId otherMember
      · rw [Function.update_of_ne same]
        exact delivers.status other otherId otherMember
    · intro other message onWire
      dsimp only at onWire
      by_cases same : other = side
      · subst same
        rw [Function.update_self] at onWire
        exact delivers.framed other message (by rw [wireEq]; exact List.mem_cons_of_mem _ onWire)
      · rw [Function.update_of_ne same] at onWire
        exact delivers.framed other message onWire
    · intro other otherId otherMember
      dsimp only
      by_cases same : other = side
      · subst same
        obtain ⟨otherBlocks, otherPresent, history⟩ :=
          delivers.delivered other otherId otherMember
        rw [Function.update_self, Function.update_self, table]
        rw [wireEq] at history
        by_cases sameId : otherId = id
        · subst sameId
          rw [present, Option.some.injEq, MsgDistributor.Connection.mk.injEq] at otherPresent
          obtain ⟨-, rfl⟩ := otherPresent
          refine ⟨blocks ++ [payload], ?_, ?_⟩
          · rw [Function.update_self, List.length_append, List.length_singleton]
          · rw [← history, inFlight, inFlight, List.filterMap_cons, payloadFor_self]
            simp
        · refine ⟨otherBlocks, ?_, ?_⟩
          · rw [Function.update_of_ne (SocketId.int_injective.ne sameId)]
            exact otherPresent
          · rw [← history, inFlight, inFlight, List.filterMap_cons,
              payloadFor_other sameId]
      · rw [Function.update_of_ne same, Function.update_of_ne same]
        exact delivers.delivered other otherId otherMember

/-- `recv` moves the oldest block from the queue to the caller. -/
theorem Link.Delivers.recvStep (delivers : link.Delivers ids) {side : Side}
    {id : SocketId} (member : ids id) {after : Link}
    (step : link.recvStep side id = some after) : after.Delivers ids := by
  obtain ⟨semaphore, found⟩ := delivers.found side member
  obtain ⟨blocks, present, history⟩ := delivers.delivered side id member
  have entered : Cpp.recvEnter (link.endpoint side) id.int = some semaphore := by
    rw [Cpp.recvEnter, if_neg (delivers.ready side).initialised, found]
  obtain ⟨_, _, semFound, -, -, permits⟩ := MsgDistributor.connection_eq_some present
  rw [found, Option.some.injEq] at semFound
  subst semFound
  rw [Link.recvStep, entered] at step
  dsimp only at step
  split at step
  next => contradiction
  next awake =>
    -- a permit is there, so the queue is not empty
    cases blocks with
    | nil => exact absurd permits awake
    | cons block rest =>
        obtain ⟨endpoint, woken, table, semSame, queueSame, statusSame, freshSame, sockSame⟩ :=
          MsgDistributor.recvWake_open (delivers.ready side).separated found present
            (delivers.status side id member) (by decide)
        rw [woken] at step
        cases step
        refine ⟨delivers.sound, ?_, ?_, delivers.framed, ?_⟩
        · intro other
          dsimp only
          by_cases same : other = side
          · subst same
            rw [Function.update_self]
            exact (delivers.ready other).of_update table semSame queueSame freshSame sockSame
          · rw [Function.update_of_ne same]
            exact delivers.ready other
        · intro other otherId otherMember
          dsimp only
          by_cases same : other = side
          · subst same
            rw [Function.update_self, statusSame]
            exact delivers.status other otherId otherMember
          · rw [Function.update_of_ne same]
            exact delivers.status other otherId otherMember
        · intro other otherId otherMember
          dsimp only
          by_cases same : other = side
          · subst same
            rw [Function.update_self, Function.update_self, table]
            by_cases sameId : otherId = id
            · subst sameId
              refine ⟨rest, ?_, ?_⟩
              · rw [Function.update_self]
                rfl
              · rw [Function.update_self, ← history]
                simp
            · rw [Function.update_of_ne (SocketId.int_injective.ne sameId),
                Function.update_of_ne sameId]
              exact delivers.delivered other otherId otherMember
          · rw [Function.update_of_ne same, Function.update_of_ne same]
            exact delivers.delivered other otherId otherMember

/-- Every allowed step keeps the invariant. -/
theorem Link.Delivers.next {mfrecv : List Byte → Option (List Byte)}
    (contract : ReceiveContract mfrecv) (delivers : link.Delivers ids) {label : LinkStep}
    (allowed : label.Allowed ids) {after : Link}
    (step : (linkMachine mfrecv).next link label = some after) : after.Delivers ids := by
  simp only [linkMachine, delivers.sound, Option.isSome_none, Bool.false_eq_true,
    if_false] at step
  cases label with
  | send side junk id payload =>
      obtain ⟨member, nonempty, short⟩ := allowed
      cases step
      exact delivers.sendStep side junk member nonempty short
  | listen side junk => exact delivers.listenStep contract step
  | recv side id => exact delivers.recvStep allowed step

end Steps

/-! ## Exact delivery -/

/-- In every run over open connections, for each id and direction: what `recv`
took, the queue, and what is in flight make up exactly what was sent, and the
semaphore counts the queue. No call faults, so `recv` never pops an empty
queue. -/
theorem fifo_delivery {mfrecv : List Byte → Option (List Byte)}
    (contract : ReceiveContract mfrecv) {ids : SocketId → Prop} {start finish : Link}
    (registered : start.Registered ids)
    (reached : (linkMachine mfrecv).ReachesUnder (fun _ label => label.Allowed ids)
      start finish) :
    finish.fault = none ∧ ∀ side id, ids id → ∃ blocks,
      (finish.endpoint side).connection id.int = some ⟨blocks.length, blocks⟩ ∧
      finish.taken side id ++ blocks ++ inFlight id (finish.wire side) =
        finish.sent side.peer id := by
  have delivers : finish.Delivers ids :=
    reached.invariant registered.delivers fun delivers allowed step =>
      delivers.next contract allowed step
  exact ⟨delivers.sound, delivers.delivered⟩

/-- Both ends after one handshake that agreed on `id`. -/
def Link.opened (id : SocketId) : Link where
  endpoint _ := MsgDistributor.init.register id.int
  wire _ := []
  sent _ _ := []
  taken _ _ := []
  fault := none

theorem Link.opened_registered (id : SocketId) :
    (Link.opened id).Registered fun other => other = id where
  ready _ := MsgDistributor.init_ready.register id.int
  status side other same := by
    subst same
    simp [Link.opened, MsgDistributor.register]
  empty side other same := by
    subst same
    simp only [Link.opened]
    rw [MsgDistributor.register_connection MsgDistributor.init_separated, Function.update_self]
  quiet _ := rfl
  unsent _ _ := rfl
  untaken _ _ := rfl
  sound := rfl

/-- A waiting message enables `listen`. -/
theorem listen_enabled (mfrecv : List Byte → Option (List Byte)) {link : Link}
    (sound : link.fault = none) {side : Side} (waiting : link.wire side ≠ [])
    (junk : Nat → Byte) :
    ∃ after, (linkMachine mfrecv).next link (.listen side junk) = some after := by
  obtain ⟨message, rest, wireEq⟩ := List.exists_cons_of_ne_nil waiting
  simp only [linkMachine, sound, Option.isSome_none, Bool.false_eq_true, if_false, Link.step,
    Link.listenStep, wireEq]
  split
  next fault _ => exact ⟨_, rfl⟩
  next after _ _ => exact ⟨_, rfl⟩

/-- A run that sends and receives a payload of a comma and a NUL. -/
theorem fifo_delivery_delimiters : ∃ finish : Link,
    (linkMachine boundedReceive).ReachesUnder (fun _ label => label.Allowed (· = .first))
        (Link.opened .first) finish ∧
    finish.fault = none ∧ ∀ side id, id = .first → ∃ blocks,
      (finish.endpoint side).connection id.int = some ⟨blocks.length, blocks⟩ ∧
      finish.taken side id ++ blocks ++ inFlight id (finish.wire side) =
        finish.sent side.peer id := by
  have sent : (linkMachine boundedReceive).transition (Link.opened .first)
      (.send .client (fun _ => 0) .first [comma, nul])
      ((Link.opened .first).sendStep .client (fun _ => 0) .first [comma, nul]) := rfl
  have waiting : ((Link.opened .first).sendStep .client (fun _ => 0) .first
      [comma, nul]).wire .server ≠ [] := by decide
  obtain ⟨finish, listened⟩ := listen_enabled boundedReceive rfl waiting (fun _ => 0)
  have listening : LinkStep.Allowed (· = .first) (.listen .server fun _ => 0) := trivial
  have reached : (linkMachine boundedReceive).ReachesUnder
      (fun _ label => label.Allowed (· = .first)) (Link.opened .first) finish :=
    (ReachesUnder.refl.tail ⟨rfl, by decide, by decide⟩ sent).tail listening listened
  exact ⟨finish, reached,
    fifo_delivery boundedReceive_contract (Link.opened_registered _) reached⟩

end PaintingCPS
