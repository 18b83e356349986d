import PaintingCPS.MsgDistributor.Delivery

/-!
Contract: how two C++ endpoints forget a connection.

The machine interleaves atomic `send`, `listen` and `close(n, 0)` calls at both
ends of a reliable in-order link. Nothing is assumed about the payloads: a
`send` that runs out of its buffer is a fault, and ends the run.

Owns: the machine, the invariant that ties an absent id to the close frame
which announces it, and the agreement of both ends after a close.

Does not own: the handshake, and `recv`.
-/

set_option autoImplicit false

namespace PaintingCPS

open Foundation

/-! ## The machine -/

/-- Two endpoints, the messages between them, and the close frames each end has
handed to `mfsend`, by id. -/
structure ClosingLink where
  endpoint : Side → MsgDistributor
  /-- Messages on their way to an end, oldest first. -/
  wire : Side → List (List Byte)
  closes : Side → Int → Nat
  fault : Option Fault

/-- One atomic call. -/
inductive ClosingStep where
  | send (side : Side) (junk : Nat → Byte) (sock : Int) (buffer : List Byte)
  | listen (side : Side) (junk : Nat → Byte)
  | close (side : Side) (junk : Nat → Byte) (sock : Int)

namespace ClosingLink

/-- `side` has handled its oldest message. -/
def consume (link : ClosingLink) (side : Side) (after : MsgDistributor)
    (rest : List (List Byte)) : ClosingLink :=
  { link with
    endpoint := Function.update link.endpoint side after
    wire := Function.update link.wire side rest }

theorem consume_self (link : ClosingLink) (side : Side) (after : MsgDistributor)
    (rest : List (List Byte)) : (link.consume side after rest).endpoint side = after :=
  Function.update_self _ _ _

def stuck (link : ClosingLink) (fault : Fault) : ClosingLink :=
  { link with fault := some fault }

/-- `mfsend`: the message goes to the other end. -/
def transmit (link : ClosingLink) (side : Side) (message : List Byte) : ClosingLink :=
  { link with
    wire := Function.update link.wire side.peer (link.wire side.peer ++ [message]) }

def sendStep (link : ClosingLink) (side : Side) (junk : Nat → Byte) (sock : Int)
    (buffer : List Byte) : ClosingLink :=
  match Cpp.send junk (link.endpoint side) sock buffer with
  | .error fault => link.stuck fault
  | .ok none => link
  | .ok (some message) => link.transmit side message

/-- `listen`, blocked while no message is there. It transmits nothing: its call
of `close` is passive. -/
def listenStep (mfrecv : List Byte → Option (List Byte)) (link : ClosingLink) (side : Side)
    (junk : Nat → Byte) : Option ClosingLink :=
  match link.wire side with
  | [] => none
  | message :: rest =>
      match Cpp.listen junk (link.endpoint side) (mfrecv message) with
      | .error fault => some (link.stuck fault)
      | .ok (after, _) => some (link.consume side after rest)

/-- `close(sock, 0)`. -/
def closeStep (link : ClosingLink) (side : Side) (junk : Nat → Byte) (sock : Int) :
    ClosingLink :=
  match Cpp.close junk (link.endpoint side) sock 0 with
  | .error fault => link.stuck fault
  | .ok (after, _, none) =>
      { link with endpoint := Function.update link.endpoint side after }
  | .ok (after, _, some message) =>
      { link.transmit side message with
        endpoint := Function.update link.endpoint side after
        closes := Function.update link.closes side
          (Function.update (link.closes side) sock (link.closes side sock + 1)) }

def step (mfrecv : List Byte → Option (List Byte)) (link : ClosingLink) :
    ClosingStep → Option ClosingLink
  | .send side junk sock buffer => some (link.sendStep side junk sock buffer)
  | .listen side junk => link.listenStep mfrecv side junk
  | .close side junk sock => some (link.closeStep side junk sock)

end ClosingLink

/-- The two ends over a network that receives by `mfrecv`. -/
def closingMachine (mfrecv : List Byte → Option (List Byte)) :
    Machine ClosingLink ClosingStep where
  next link label := if link.fault.isSome then none else link.step mfrecv label

/-- The ids of `ids` are registered at both ends, nothing is in flight, and no
close frame was sent. Every registered id is one that `accept` hands out. -/
structure ClosingLink.Registered (ids : Int → Prop) (link : ClosingLink) : Prop where
  ready : ∀ side, (link.endpoint side).Ready
  range : ∀ side id, ((link.endpoint side).semMap id).isSome → IdRange id
  known : ∀ side id, ids id → ((link.endpoint side).semMap id).isSome
  quiet : ∀ side, link.wire side = []
  unclosed : ∀ side id, link.closes side id = 0
  sound : link.fault = none

/-! ## Frames about an id -/

/-- A data frame for `id`. -/
def IsSock (id : Int) (message : List Byte) : Prop :=
  ∃ payload, Written comma (.sock id payload) message

/-- A close frame for `id`. -/
def IsClose (id : Int) (message : List Byte) : Prop := Written comma (.close id) message

theorem IsClose.fields {id : Int} {message : List Byte} (isClose : IsClose id message) :
    ∃ more, Java.splitComma message = ascii "close" :: decimalInt id :: more := by
  obtain ⟨range, rest, rfl⟩ := isClose
  refine ⟨Java.splitComma rest, ?_⟩
  rw [Java.splitComma_field (by decide),
    Java.splitComma_field (notMem_decimalInt (by decide) (by decide) _)]

/-- A close frame names one id. -/
theorem IsClose.unique {id other : Int} {message : List Byte} (isClose : IsClose id message)
    (otherClose : IsClose other message) : id = other := by
  obtain ⟨more, fields⟩ := isClose.fields
  obtain ⟨otherMore, otherFields⟩ := otherClose.fields
  have digits : decimalInt id = decimalInt other := by
    rw [fields] at otherFields
    exact (List.cons.inj (List.cons.inj otherFields).2).1
  rw [← isClose.1.strtol_eq, ← otherClose.1.strtol_eq, digits]

/-- A data frame is no close frame. -/
theorem IsSock.not_isClose {id other : Int} {message : List Byte} (isSock : IsSock id message) :
    ¬ IsClose other message := by
  obtain ⟨payload, socket, -, rfl⟩ := isSock
  intro isClose
  obtain ⟨more, fields⟩ := isClose.fields
  rw [sockHeader_append, Java.splitComma_field (by decide)] at fields
  exact absurd (List.cons.inj fields).1 (by decide)

/-- What the link carries: data frames, and close frames that fit the receive
buffer. -/
def Carried (message : List Byte) : Prop :=
  (∃ id, IsSock id message) ∨ ((∃ id, IsClose id message) ∧ message.length ≤ maxChunk)

/-- A data frame is received whole, cut behind its header, or not at all. -/
theorem IsSock.received {mfrecv : List Byte → Option (List Byte)}
    (contract : ReceiveContract mfrecv) {id : Int} {message : List Byte}
    (isSock : IsSock id message) :
    mfrecv message = none ∨ ∃ received, mfrecv message = some received ∧ IsSock id received := by
  by_cases short : message.length ≤ maxChunk
  · exact .inr ⟨message, contract.whole message short, isSock⟩
  · rcases contract.limited message (by omega) with refused | cut
    · exact .inl refused
    · refine .inr ⟨_, cut, ?_⟩
      obtain ⟨payload, socket, rfl, rfl⟩ := isSock
      have header : (sockHeader socket).length ≤ maxChunk := by
        have := socket.digits_le
        rw [sockHeader_length, maxChunk]
        omega
      refine ⟨payload.take (maxChunk - (sockHeader socket).length), socket, rfl, ?_⟩
      rw [List.take_append, List.take_of_length_le header]

/-! ## What a call does to an endpoint -/

/-- The id is in neither map. -/
def Cleared (endpoint : MsgDistributor) (id : Int) : Prop :=
  endpoint.semMap id = none ∧ endpoint.queueMap id = none

/-- Nothing but the id `id` is affected, and no id is registered anew. -/
structure Confined (id : Int) (before after : MsgDistributor) : Prop where
  connection : ∀ other, other ≠ id → after.connection other = before.connection other
  status : ∀ other, other ≠ id → after.statusMap other = before.statusMap other
  semMap : ∀ other, other ≠ id → after.semMap other = before.semMap other
  queueMap : ∀ other, other ≠ id → after.queueMap other = before.queueMap other
  absent : before.semMap id = none → after = before

theorem Confined.refl (id : Int) (endpoint : MsgDistributor) :
    Confined id endpoint endpoint := by
  constructor <;> intros <;> rfl

/-- No call registers an id. -/
theorem Confined.semMap_none {id other : Int} {before after : MsgDistributor}
    (confined : Confined id before after) (absent : before.semMap other = none) :
    after.semMap other = none := by
  by_cases same : other = id
  · subst same
    rw [confined.absent absent]
    exact absent
  · rw [confined.semMap other same]
    exact absent

/-- Only the id itself can vanish. -/
theorem Confined.vanished {id other : Int} {before after : MsgDistributor}
    (confined : Confined id before after) (found : before.semMap other ≠ none)
    (absent : after.semMap other = none) : other = id := by
  by_contra differs
  rw [confined.semMap other differs] at absent
  exact found absent

theorem Confined.cleared {id other : Int} {before after : MsgDistributor}
    (confined : Confined id before after) (gone : Cleared before other) :
    Cleared after other := by
  by_cases same : other = id
  · subst same
    rw [confined.absent gone.1]
    exact gone
  · refine ⟨?_, ?_⟩
    · rw [confined.semMap other same]
      exact gone.1
    · rw [confined.queueMap other same]
      exact gone.2

namespace MsgDistributor

variable {endpoint : MsgDistributor}

theorem deliver_confined (ready : endpoint.Ready) {id : Int}
    (found : (endpoint.semMap id).isSome) {content : List Byte} {after : MsgDistributor}
    (delivered : endpoint.deliver id content = .ok after) :
    Confined id endpoint after ∧ after.semMap = endpoint.semMap := by
  obtain ⟨open', present⟩ := Option.isSome_iff_exists.mp (ready.consistent id found)
  obtain ⟨same, sameDelivered, table, semSame, queueSame, statusSame, -⟩ :=
    deliver_open ready.separated present content
  rw [delivered, Except.ok.injEq] at sameDelivered
  subst sameDelivered
  refine ⟨⟨?_, ?_, ?_, ?_, ?_⟩, semSame⟩
  · intro other differs
    rw [table, Function.update_of_ne differs]
  · intro other _
    rw [statusSame]
  · intro other _
    rw [semSame]
  · intro other _
    rw [queueSame]
  · intro absent
    rw [absent] at found
    cases found

theorem closeTables_confined (ready : endpoint.Ready) {sock : Int} {closeSem : Nat}
    (found : endpoint.semMap sock = some closeSem) :
    Confined sock endpoint (endpoint.closeTables sock closeSem) := by
  refine ⟨?_, ?_, ?_, ?_, ?_⟩
  · intro other differs
    rw [closeTables_connection ready.separated found, Function.update_of_ne differs]
  · intro other differs
    exact Function.update_of_ne differs _ _
  · intro other differs
    exact Function.update_of_ne differs _ _
  · intro other differs
    exact Function.update_of_ne differs _ _
  · intro absent
    rw [absent] at found
    cases found

end MsgDistributor

theorem cleared_closeTables (endpoint : MsgDistributor) (sock : Int) (closeSem : Nat) :
    Cleared (endpoint.closeTables sock closeSem) sock :=
  ⟨Function.update_self _ _ _, Function.update_self _ _ _⟩

section Calls

variable {endpoint : MsgDistributor}

/-- `send` returns -1, runs out of its buffer, or transmits one data frame. -/
theorem Cpp.send_cases (ready : endpoint.Ready) (junk : Nat → Byte) {sock : Int}
    (range : (endpoint.semMap sock).isSome → IdRange sock) (buffer : List Byte) :
    (∃ fault, Cpp.send junk endpoint sock buffer = .error fault) ∨
    Cpp.send junk endpoint sock buffer = .ok none ∨
    ∃ message, Cpp.send junk endpoint sock buffer = .ok (some message) ∧
      (endpoint.semMap sock).isSome ∧ IsSock sock message := by
  rw [Cpp.send, if_neg ready.initialised]
  cases found : endpoint.semMap sock with
  | none => exact .inr (.inl rfl)
  | some semaphore =>
      have idRange := range (by rw [found]; rfl)
      dsimp only
      by_cases long : 10 ^ 9 ≤ sock.natAbs
      · refine .inl ⟨.signedOverflow, ?_⟩
        simp only [Cpp.sendFrame, Cpp.idLength_overflow long, bind, Except.bind]
      · obtain ⟨socket, rfl⟩ : ∃ socket : SocketId, sock = socket.int := by
          have low := idRange.low
          refine ⟨⟨sock.toNat, by omega, by omega⟩, ?_⟩
          exact (Int.toNat_of_nonneg (by omega)).symm
        cases buffer with
        | nil =>
            refine .inl ⟨.outOfBounds, ?_⟩
            simp only [Cpp.sendFrame_empty, bind, Except.bind]
        | cons byte rest =>
            refine .inr (.inr ⟨sockHeader socket ++ byte :: rest, ?_, rfl, _, socket, rfl, rfl⟩)
            rw [Cpp.sendFrame_eq junk socket (List.cons_ne_nil byte rest)]
            rfl

/-- `close(sock, 0)` on an id in `sem_map`. -/
theorem Cpp.close_open (ready : endpoint.Ready) (junk : Nat → Byte) {sock : Int}
    (range : IdRange sock) {closeSem : Nat} (found : endpoint.semMap sock = some closeSem) :
    ∃ message, Cpp.close junk endpoint sock 0 =
        .ok (endpoint.closeTables sock closeSem, 0, some message) ∧
      IsClose sock message ∧ message.length ≤ maxChunk := by
  obtain ⟨rest, formatted⟩ := Cpp.closeFrame_eq junk range
  refine ⟨ascii "close" ++ comma :: (decimalInt sock ++ comma :: nul :: rest), ?_,
    ⟨range, nul :: rest, rfl⟩, ?_⟩
  · rw [Cpp.close, if_neg ready.initialised, MsgDistributor.closeLocked, found]
    dsimp only [Option.map_some]
    rw [if_pos rfl, formatted]
    rfl
  · rw [sprintf_length formatted, uninitialised_length, bufferSize, maxChunk]
    omega

/-- `close` on an id that is not in `sem_map` returns -1. -/
theorem Cpp.close_absent (ready : endpoint.Ready) (junk : Nat → Byte) {sock : Int}
    (absent : endpoint.semMap sock = none) (passive : Int) :
    Cpp.close junk endpoint sock passive = .ok (endpoint, -1, none) := by
  rw [Cpp.close, if_neg ready.initialised, MsgDistributor.closeLocked, absent]
  rfl

/-- `listen` on a data frame: a late one changes nothing. -/
theorem Cpp.listen_sock {mfrecv : List Byte → Option (List Byte)}
    (contract : ReceiveContract mfrecv) (ready : endpoint.Ready) (junk : Nat → Byte) {id : Int}
    {message : List Byte} (isSock : IsSock id message) :
    ∃ after ret, Cpp.listen junk endpoint (mfrecv message) = .ok (after, ret) ∧
      after.Ready ∧ Confined id endpoint after ∧ after.semMap = endpoint.semMap := by
  rcases isSock.received contract with refused | ⟨received, arrived, payload, written⟩
  · refine ⟨endpoint, -1, ?_, ready, .refl id endpoint, rfl⟩
    rw [refused, Cpp.listen, if_neg ready.initialised]
  · rw [arrived, Cpp.listen_frame ready.initialised junk (.inl rfl) written, Frame.effect]
    cases found : endpoint.semMap id with
    | none => exact ⟨endpoint, -1, rfl, ready, .refl id endpoint, rfl⟩
    | some semaphore =>
        have present : (endpoint.semMap id).isSome := by
          rw [found]
          rfl
        obtain ⟨after, delivered, afterReady⟩ := ready.deliver present payload
        refine ⟨after, 0, ?_, afterReady, MsgDistributor.deliver_confined ready present delivered⟩
        dsimp only
        rw [delivered]
        rfl

/-- `listen` on a close frame removes the id. -/
theorem Cpp.listen_close {mfrecv : List Byte → Option (List Byte)}
    (contract : ReceiveContract mfrecv) (ready : endpoint.Ready) (junk : Nat → Byte) {id : Int}
    {message : List Byte} (isClose : IsClose id message) (short : message.length ≤ maxChunk) :
    ∃ after ret, Cpp.listen junk endpoint (mfrecv message) = .ok (after, ret) ∧
      after.Ready ∧ Confined id endpoint after ∧ after.semMap id = none ∧
      (after = endpoint ∨ Cleared after id) := by
  rw [contract.whole message short,
    Cpp.listen_frame ready.initialised junk (.inl rfl) isClose, Frame.effect,
    MsgDistributor.closeLocked]
  cases found : endpoint.semMap id with
  | none => exact ⟨endpoint, 0, rfl, ready, .refl id endpoint, found, .inl rfl⟩
  | some closeSem =>
      refine ⟨endpoint.closeTables id closeSem, 0, rfl, ready.closeTables found,
        MsgDistributor.closeTables_confined ready found,
        (cleared_closeTables endpoint id closeSem).1,
        .inr (cleared_closeTables endpoint id closeSem)⟩

end Calls

/-! ## The agreement invariant -/

/-- A close frame for `id` is on its way to `side`. -/
def ClosingLink.Announced (link : ClosingLink) (side : Side) (id : Int) : Prop :=
  ∃ message ∈ link.wire side, IsClose id message

/-- An id that is absent at one end is absent at the other, or the frame that
says so is on its way there; the end that sent the frame has forgotten the id. -/
structure ClosingLink.Agrees (ids : Int → Prop) (link : ClosingLink) : Prop where
  ready : ∀ side, (link.endpoint side).Ready
  range : ∀ side id, ((link.endpoint side).semMap id).isSome → IdRange id
  carried : ∀ side, ∀ message ∈ link.wire side, Carried message
  cleared : ∀ side id, ids id → (link.endpoint side).semMap id = none →
    Cleared (link.endpoint side) id
  announced : ∀ side id, ids id → (link.endpoint side).semMap id = none →
    (link.endpoint side.peer).semMap id = none ∨ link.Announced side.peer id
  forgotten : ∀ side id, link.Announced side id → (link.endpoint side.peer).semMap id = none
  once : ∀ side id, link.closes side id ≤ 1
  unclosed : ∀ side id, ((link.endpoint side).semMap id).isSome → link.closes side id = 0

theorem ClosingLink.Registered.agrees {ids : Int → Prop} {link : ClosingLink}
    (registered : link.Registered ids) : link.Agrees ids where
  ready := registered.ready
  range := registered.range
  carried side message member := by
    rw [registered.quiet side] at member
    cases member
  cleared side id member absent := by
    have found := registered.known side id member
    rw [absent] at found
    cases found
  announced side id member absent := by
    have found := registered.known side id member
    rw [absent] at found
    cases found
  forgotten side id announced := by
    obtain ⟨message, member, -⟩ := announced
    rw [registered.quiet side] at member
    cases member
  once side id := by
    rw [registered.unclosed side id]
    omega
  unclosed side id _ := registered.unclosed side id

/-- What one step about `id` leaves alone. -/
structure ClosingLink.Isolated (id : Int) (link after : ClosingLink) : Prop where
  confined : ∀ side, Confined id (link.endpoint side) (after.endpoint side)
  closes : ∀ side other, other ≠ id → after.closes side other = link.closes side other

/-! ## One endpoint replaced -/

section Replace

variable {endpoint : Side → MsgDistributor} {side : Side} {sock : Int} {after : MsgDistributor}

theorem Confined.replace (confined : Confined sock (endpoint side) after) (other : Side) :
    Confined sock (endpoint other) (Function.update endpoint side after other) := by
  by_cases same : other = side
  · subst same
    rw [Function.update_self]
    exact confined
  · rw [Function.update_of_ne same]
    exact .refl sock _

private theorem replace_ready (ready : ∀ other, (endpoint other).Ready) (afterReady : after.Ready)
    (other : Side) : (Function.update endpoint side after other).Ready := by
  by_cases same : other = side
  · subst same
    rw [Function.update_self]
    exact afterReady
  · rw [Function.update_of_ne same]
    exact ready other

/-- No id is registered by a replacement. -/
private theorem replace_found (confined : Confined sock (endpoint side) after) {other : Side}
    {id : Int} (found : ((Function.update endpoint side after other).semMap id).isSome) :
    ((endpoint other).semMap id).isSome := by
  by_contra absent
  rw [Option.not_isSome_iff_eq_none] at absent
  rw [(confined.replace other).semMap_none absent] at found
  cases found

/-- What vanishes is the id of the replaced endpoint. -/
private theorem replace_vanished (confined : Confined sock (endpoint side) after)
    {other : Side} {id : Int} (found : (endpoint other).semMap id ≠ none)
    (absent : (Function.update endpoint side after other).semMap id = none) :
    other = side ∧ id = sock := by
  refine ⟨?_, (confined.replace other).vanished found absent⟩
  by_contra differs
  rw [Function.update_of_ne differs] at absent
  exact found absent

/-- An id that is absent afterwards is cleared, if the removed one is. -/
private theorem replace_cleared {ids : Int → Prop}
    (cleared : ∀ other id, ids id → (endpoint other).semMap id = none →
      Cleared (endpoint other) id)
    (confined : Confined sock (endpoint side) after)
    (removed : after.semMap sock = none → after = endpoint side ∨ Cleared after sock)
    {other : Side} {id : Int} (member : ids id)
    (absent : (Function.update endpoint side after other).semMap id = none) :
    Cleared (Function.update endpoint side after other) id := by
  by_cases before : (endpoint other).semMap id = none
  · exact (confined.replace other).cleared (cleared other id member before)
  · obtain ⟨rfl, rfl⟩ := replace_vanished confined before absent
    rw [Function.update_self] at absent ⊢
    rcases removed absent with same | gone
    · rw [same] at absent
      exact absurd absent before
    · exact gone

end Replace

section Transmit

variable {link : ClosingLink} {side : Side} {message : List Byte}

theorem ClosingLink.mem_transmit {other : Side} {received : List Byte} :
    received ∈ (link.transmit side message).wire other ↔
      received ∈ link.wire other ∨ (other = side.peer ∧ received = message) := by
  unfold ClosingLink.transmit
  dsimp only
  by_cases same : other = side.peer
  · subst same
    rw [Function.update_self, List.mem_append, List.mem_singleton]
    simp
  · rw [Function.update_of_ne same]
    simp [same]

/-- Transmission of a message that is no close frame for `id`. -/
theorem ClosingLink.announced_transmit {other : Side} {id : Int} :
    (link.transmit side message).Announced other id ↔
      link.Announced other id ∨ (other = side.peer ∧ IsClose id message) := by
  constructor
  · rintro ⟨received, member, isClose⟩
    rcases ClosingLink.mem_transmit.mp member with before | ⟨toPeer, rfl⟩
    · exact .inl ⟨received, before, isClose⟩
    · exact .inr ⟨toPeer, isClose⟩
  · rintro (⟨received, member, isClose⟩ | ⟨toPeer, isClose⟩)
    · exact ⟨received, ClosingLink.mem_transmit.mpr (.inl member), isClose⟩
    · exact ⟨message, ClosingLink.mem_transmit.mpr (.inr ⟨toPeer, rfl⟩), isClose⟩

end Transmit

section Steps

variable {ids : Int → Prop} {link : ClosingLink}

/-- `send` changes the wire only. -/
private theorem ClosingLink.Agrees.sendStep (agrees : link.Agrees ids) (side : Side)
    (junk : Nat → Byte) (sock : Int) (buffer : List Byte) :
    (link.sendStep side junk sock buffer).Agrees ids ∧
      (link.sendStep side junk sock buffer).endpoint = link.endpoint ∧
      (link.sendStep side junk sock buffer).closes = link.closes := by
  rcases Cpp.send_cases (agrees.ready side) junk (agrees.range side sock) buffer with
    ⟨fault, failed⟩ | refused | ⟨message, emitted, -, isSock⟩
  · rw [ClosingLink.sendStep, failed]
    exact ⟨⟨agrees.ready, agrees.range, agrees.carried, agrees.cleared, agrees.announced,
      agrees.forgotten, agrees.once, agrees.unclosed⟩, rfl, rfl⟩
  · rw [ClosingLink.sendStep, refused]
    exact ⟨agrees, rfl, rfl⟩
  · rw [ClosingLink.sendStep, emitted]
    refine ⟨⟨agrees.ready, agrees.range, ?_, agrees.cleared, ?_, ?_, agrees.once,
      agrees.unclosed⟩, rfl, rfl⟩
    · intro other received member
      rcases ClosingLink.mem_transmit.mp member with before | ⟨-, rfl⟩
      · exact agrees.carried other received before
      · exact .inl ⟨sock, isSock⟩
    · intro other id member absent
      rcases agrees.announced other id member absent with gone | announced
      · exact .inl gone
      · exact .inr (ClosingLink.announced_transmit.mpr (.inl announced))
    · intro other id announced
      rcases ClosingLink.announced_transmit.mp announced with before | ⟨-, isClose⟩
      · exact agrees.forgotten other id before
      · exact absurd isClose isSock.not_isClose

/-- A close is counted at its own end and for its own id. -/
private theorem update_closes (closes : Side → Int → Nat) (side other : Side) (sock id : Int)
    (count : Nat) :
    Function.update closes side (Function.update (closes side) sock count) other id =
      if other = side ∧ id = sock then count else closes other id := by
  by_cases sameSide : other = side
  · subst sameSide
    rw [Function.update_self, Function.update_apply]
    simp only [true_and]
  · rw [Function.update_of_ne sameSide, if_neg fun same => sameSide same.1]

/-- `close` forgets the id and announces it, or does nothing. -/
private theorem ClosingLink.Agrees.closeStep (agrees : link.Agrees ids) (side : Side)
    (junk : Nat → Byte) (sock : Int) :
    (link.closeStep side junk sock).Agrees ids ∧
      link.Isolated sock (link.closeStep side junk sock) ∧
      (link.closeStep side junk sock).fault = link.fault := by
  cases found : (link.endpoint side).semMap sock with
  | none =>
      have unchanged : link.closeStep side junk sock = link := by
        rw [ClosingLink.closeStep, Cpp.close_absent (agrees.ready side) junk found]
        dsimp only
        rw [Function.update_eq_self]
      rw [unchanged]
      exact ⟨agrees, ⟨fun _ => .refl sock _, fun _ _ _ => rfl⟩, rfl⟩
  | some closeSem =>
      have present : ((link.endpoint side).semMap sock).isSome := by
        rw [found]
        rfl
      obtain ⟨message, closed, isClose, short⟩ :=
        Cpp.close_open (agrees.ready side) junk (agrees.range side sock present) found
      have confined := MsgDistributor.closeTables_confined (agrees.ready side) found
      have everywhere := confined.replace
      have gone := cleared_closeTables (link.endpoint side) sock closeSem
      rw [ClosingLink.closeStep, closed]
      refine ⟨⟨?_, ?_, ?_, ?_, ?_, ?_, ?_, ?_⟩, ⟨everywhere, ?_⟩, rfl⟩
      · exact replace_ready agrees.ready ((agrees.ready side).closeTables found)
      · intro other id after
        exact agrees.range other id (replace_found confined after)
      · intro other received member
        rcases ClosingLink.mem_transmit.mp member with before | ⟨-, rfl⟩
        · exact agrees.carried other received before
        · exact .inr ⟨⟨sock, isClose⟩, short⟩
      · intro other id member absent
        exact replace_cleared agrees.cleared confined (fun _ => .inr gone) member absent
      · intro other id member absent
        by_cases before : (link.endpoint other).semMap id = none
        · rcases agrees.announced other id member before with peerGone | announced
          · exact .inl ((everywhere other.peer).semMap_none peerGone)
          · exact .inr (ClosingLink.announced_transmit.mpr (.inl announced))
        · obtain ⟨rfl, rfl⟩ := replace_vanished confined before absent
          exact .inr (ClosingLink.announced_transmit.mpr (.inr ⟨rfl, isClose⟩))
      · intro other id announced
        rcases ClosingLink.announced_transmit.mp announced with before | ⟨rfl, sameClose⟩
        · exact (everywhere other.peer).semMap_none (agrees.forgotten other id before)
        · rw [Side.peer_peer, isClose.unique sameClose |>.symm]
          dsimp only
          rw [Function.update_self]
          exact gone.1
      · intro other id
        dsimp only
        rw [update_closes]
        split
        next own =>
          obtain ⟨rfl, rfl⟩ := own
          rw [agrees.unclosed other id present]
        next => exact agrees.once other id
      · intro other id after
        have before := agrees.unclosed other id (replace_found confined after)
        dsimp only at after ⊢
        rw [update_closes]
        split
        next own =>
          obtain ⟨rfl, rfl⟩ := own
          rw [Function.update_self, gone.1] at after
          cases after
        next => exact before
      · intro other id differs
        dsimp only
        rw [update_closes, if_neg fun own => differs own.2]

/-- What `listen` does with the oldest message. -/
private theorem ClosingLink.Agrees.listened {mfrecv : List Byte → Option (List Byte)}
    (contract : ReceiveContract mfrecv) (agrees : link.Agrees ids) (side : Side)
    (junk : Nat → Byte) {message : List Byte} (member : message ∈ link.wire side) {id : Int}
    (about : IsSock id message ∨ IsClose id message) :
    ∃ after ret, Cpp.listen junk (link.endpoint side) (mfrecv message) = .ok (after, ret) ∧
      after.Ready ∧ Confined id (link.endpoint side) after ∧
      (after.semMap id = none → after = link.endpoint side ∨ Cleared after id) ∧
      (∀ other, IsClose other message → after.semMap other = none) ∧
      (IsSock id message → after.semMap = (link.endpoint side).semMap) := by
  rcases about with isSock | isClose
  · obtain ⟨after, ret, listened, afterReady, confined, semSame⟩ :=
      Cpp.listen_sock contract (agrees.ready side) junk isSock
    refine ⟨after, ret, listened, afterReady, confined, ?_, ?_, fun _ => semSame⟩
    · intro absent
      rw [semSame] at absent
      exact .inl (confined.absent absent)
    · intro other isClose
      exact absurd isClose isSock.not_isClose
  · have short : message.length ≤ maxChunk := by
      rcases agrees.carried side message member with ⟨other, isSock⟩ | ⟨-, short⟩
      · exact absurd isClose isSock.not_isClose
      · exact short
    obtain ⟨after, ret, listened, afterReady, confined, gone, removed⟩ :=
      Cpp.listen_close contract (agrees.ready side) junk isClose short
    refine ⟨after, ret, listened, afterReady, confined, fun _ => removed, ?_, ?_⟩
    · intro other otherClose
      rw [← isClose.unique otherClose]
      exact gone
    · intro isSock
      exact absurd isClose isSock.not_isClose

/-- A close frame that is not the oldest message stays in flight. -/
private theorem announced_rest {side other : Side} {message : List Byte}
    {rest : List (List Byte)} (wireEq : link.wire side = message :: rest) {id : Int}
    (announced : link.Announced other id) :
    (other = side ∧ IsClose id message) ∨
      ∃ received ∈ Function.update link.wire side rest other, IsClose id received := by
  obtain ⟨received, member, isClose⟩ := announced
  by_cases same : other = side
  · subst same
    rw [wireEq, List.mem_cons] at member
    rcases member with rfl | later
    · exact .inl ⟨rfl, isClose⟩
    · refine .inr ⟨received, ?_, isClose⟩
      rw [Function.update_self]
      exact later
  · refine .inr ⟨received, ?_, isClose⟩
    rw [Function.update_of_ne same]
    exact member

/-- A message in flight afterwards was in flight before. -/
private theorem mem_rest {side other : Side} {message received : List Byte}
    {rest : List (List Byte)} (wireEq : link.wire side = message :: rest)
    (member : received ∈ Function.update link.wire side rest other) :
    received ∈ link.wire other := by
  by_cases same : other = side
  · subst same
    rw [Function.update_self] at member
    rw [wireEq]
    exact List.mem_cons_of_mem _ member
  · rw [Function.update_of_ne same] at member
    exact member

/-- `listen` consumes one message and transmits none. -/
private theorem ClosingLink.Agrees.listenStep {mfrecv : List Byte → Option (List Byte)}
    (contract : ReceiveContract mfrecv) (agrees : link.Agrees ids) (side : Side)
    (junk : Nat → Byte) {message : List Byte} {rest : List (List Byte)}
    (wireEq : link.wire side = message :: rest) {id : Int}
    (about : IsSock id message ∨ IsClose id message) :
    ∃ endpoint, link.listenStep mfrecv side junk = some (link.consume side endpoint rest) ∧
      (link.consume side endpoint rest).Agrees ids ∧
      link.Isolated id (link.consume side endpoint rest) := by
  have member : message ∈ link.wire side := by
    rw [wireEq]
    exact List.mem_cons_self
  obtain ⟨endpoint, ret, listened, afterReady, confined, removed, gone, kept⟩ :=
    agrees.listened contract side junk member about
  have everywhere := confined.replace
  refine ⟨endpoint, ?_, ⟨?_, ?_, ?_, ?_, ?_, ?_, agrees.once, ?_⟩,
    ⟨everywhere, fun _ _ _ => rfl⟩⟩
  · simp only [ClosingLink.listenStep, wireEq, listened]
  · exact replace_ready agrees.ready afterReady
  · intro other otherId found
    exact agrees.range other otherId (replace_found confined found)
  · intro other received onWire
    exact agrees.carried other received (mem_rest wireEq onWire)
  · intro other otherId known absent
    exact replace_cleared agrees.cleared confined removed known absent
  · intro other otherId known absent
    by_cases before : (link.endpoint other).semMap otherId = none
    · rcases agrees.announced other otherId known before with peerGone | announced
      · exact .inl ((everywhere other.peer).semMap_none peerGone)
      · rcases announced_rest wireEq announced with ⟨toSide, isClose⟩ | later
        · refine .inl ?_
          rw [toSide, ClosingLink.consume_self]
          exact gone otherId isClose
        · exact .inr later
    · -- the id vanished just now, so the message was the frame of the other end
      obtain ⟨rfl, rfl⟩ := replace_vanished confined before absent
      rcases about with isSock | isClose
      · rw [ClosingLink.consume_self, kept isSock] at absent
        exact absurd absent before
      · refine .inl ((everywhere other.peer).semMap_none ?_)
        exact agrees.forgotten other otherId ⟨message, member, isClose⟩
  · rintro other otherId ⟨received, onWire, isClose⟩
    refine (everywhere other.peer).semMap_none ?_
    exact agrees.forgotten other otherId ⟨received, mem_rest wireEq onWire, isClose⟩
  · intro other otherId found
    exact agrees.unclosed other otherId (replace_found confined found)

end Steps

/-! ## Agreement -/

/-- The id a step is about: the argument of the call, or what the oldest
message names. -/
def ClosingStep.About (link : ClosingLink) (id : Int) : ClosingStep → Prop
  | .send _ _ sock _ => sock = id
  | .listen side _ => ∃ message ∈ (link.wire side).head?, IsSock id message ∨ IsClose id message
  | .close _ _ sock => sock = id

section Agreement

variable {mfrecv : List Byte → Option (List Byte)} {ids : Int → Prop} {link after : ClosingLink}

/-- Every step keeps the invariant and affects the id it is about. -/
theorem ClosingLink.Agrees.next (contract : ReceiveContract mfrecv) (agrees : link.Agrees ids)
    {label : ClosingStep} (step : (closingMachine mfrecv).next link label = some after) :
    after.Agrees ids ∧ (∃ id, label.About link id) ∧
      ∀ id, label.About link id → link.Isolated id after := by
  rw [closingMachine] at step
  dsimp only at step
  split at step
  next => contradiction
  next =>
    cases label with
    | send side junk sock buffer =>
        obtain ⟨kept, endpoints, closes⟩ := agrees.sendStep side junk sock buffer
        cases step
        refine ⟨kept, ⟨sock, rfl⟩, fun id _ => ⟨?_, ?_⟩⟩
        · intro other
          rw [endpoints]
          exact .refl id _
        · intro other otherId _
          rw [closes]
    | listen side junk =>
        cases wireEq : link.wire side with
        | nil => simp [ClosingLink.step, ClosingLink.listenStep, wireEq] at step
        | cons message rest =>
            have handled : ∀ id, IsSock id message ∨ IsClose id message →
                after.Agrees ids ∧ link.Isolated id after := by
              intro id about
              obtain ⟨endpoint, sameStep, kept, isolated⟩ :=
                agrees.listenStep contract side junk wireEq about
              rw [ClosingLink.step, sameStep, Option.some.injEq] at step
              subst step
              exact ⟨kept, isolated⟩
            have named : ∃ id, IsSock id message ∨ IsClose id message := by
              rcases agrees.carried side message (by rw [wireEq]; exact List.mem_cons_self) with
                ⟨id, isSock⟩ | ⟨⟨id, isClose⟩, -⟩
              · exact ⟨id, .inl isSock⟩
              · exact ⟨id, .inr isClose⟩
            obtain ⟨id, about⟩ := named
            refine ⟨(handled id about).1, ⟨id, message, ?_, about⟩, ?_⟩
            · rw [wireEq]
              rfl
            · rintro other ⟨oldest, isOldest, otherAbout⟩
              rw [wireEq, List.head?_cons, Option.mem_some_iff] at isOldest
              subst isOldest
              exact (handled other otherAbout).2
    | close side junk sock =>
        obtain ⟨kept, isolated, -⟩ := agrees.closeStep side junk sock
        cases step
        refine ⟨kept, ⟨sock, rfl⟩, ?_⟩
        rintro id rfl
        exact isolated

/-- `listen` neither faults nor transmits, and a frame for an absent id changes
no endpoint. -/
theorem ClosingLink.Agrees.listen (contract : ReceiveContract mfrecv) (agrees : link.Agrees ids)
    {side : Side} {junk : Nat → Byte}
    (step : (closingMachine mfrecv).next link (.listen side junk) = some after) :
    after.fault = none ∧ after.closes = link.closes ∧
      after.wire side.peer = link.wire side.peer ∧
      ∀ id, ClosingStep.About link id (.listen side junk) →
        (link.endpoint side).semMap id = none → after.endpoint = link.endpoint := by
  obtain ⟨-, ⟨id, message, oldest, about⟩, isolated⟩ := agrees.next contract step
  rw [closingMachine] at step
  dsimp only at step
  split at step
  next => contradiction
  next sound =>
    rw [Option.not_isSome_iff_eq_none] at sound
    obtain ⟨rest, wireEq⟩ := List.head?_eq_some_iff.mp oldest
    obtain ⟨endpoint, sameStep, -, -⟩ := agrees.listenStep contract side junk wireEq about
    rw [ClosingLink.step, sameStep, Option.some.injEq] at step
    subst step
    refine ⟨sound, rfl, Function.update_of_ne side.peer_ne _ _, ?_⟩
    intro other otherAbout absent
    have unchanged := ((isolated other otherAbout).confined side).absent absent
    rw [ClosingLink.consume_self] at unchanged
    rw [unchanged]
    exact Function.update_eq_self side link.endpoint

/-- `close` does not fault. -/
theorem ClosingLink.Agrees.close (agrees : link.Agrees ids) {side : Side} {junk : Nat → Byte}
    {sock : Int}
    (step : (closingMachine mfrecv).next link (.close side junk sock) = some after) :
    after.fault = none := by
  rw [closingMachine] at step
  dsimp only at step
  split at step
  next => contradiction
  next sound =>
    cases step
    rw [(agrees.closeStep side junk sock).2.2]
    exact Option.not_isSome_iff_eq_none.mp sound

end Agreement

/-- Two ends that close. In every state reached: an id that was closed at some
end, with no close frame for it in flight, is in no map of either end; at most
two close frames were sent for any id. Every further step is about one id: it
leaves the queue, the permits and the status of all others as they were, and
changes no endpoint when that id is already gone. `listen` and `close` do not
fault, and `listen` sends nothing, so no close frame answers a close frame. -/
theorem close_agreement {mfrecv : List Byte → Option (List Byte)}
    (contract : ReceiveContract mfrecv) {ids : Int → Prop} {start finish : ClosingLink}
    (registered : start.Registered ids)
    (reached : (closingMachine mfrecv).Reaches start finish) :
    (∀ id, ids id → (∃ side, finish.closes side id ≠ 0) →
      (∀ side, ¬ finish.Announced side id) → ∀ side, Cleared (finish.endpoint side) id) ∧
    (∀ id, finish.closes .client id + finish.closes .server id ≤ 2) ∧
    ∀ label after, (closingMachine mfrecv).next finish label = some after →
      (∃ id, label.About finish id) ∧
      (∀ id, label.About finish id → finish.Isolated id after) ∧
      (∀ side junk, label = .listen side junk →
        after.fault = none ∧ after.closes = finish.closes ∧
        after.wire side.peer = finish.wire side.peer ∧
        ∀ id, label.About finish id → (finish.endpoint side).semMap id = none →
          after.endpoint = finish.endpoint) ∧
      ∀ side junk sock, label = .close side junk sock → after.fault = none := by
  have agrees : finish.Agrees ids :=
    reached.invariant registered.agrees fun agrees _ step => (agrees.next contract step).1
  refine ⟨?_, ?_, ?_⟩
  · rintro id member ⟨side, closed⟩ quiet
    have gone : (finish.endpoint side).semMap id = none := by
      by_contra found
      exact closed (agrees.unclosed side id (Option.isSome_iff_ne_none.mpr found))
    have peerGone : (finish.endpoint side.peer).semMap id = none := by
      rcases agrees.announced side id member gone with absent | announced
      · exact absent
      · exact absurd announced (quiet side.peer)
    intro other
    by_cases same : other = side
    · subst same
      exact agrees.cleared other id member gone
    · rw [Side.eq_peer_of_ne same]
      exact agrees.cleared side.peer id member peerGone
  · intro id
    have clientOnce := agrees.once .client id
    have serverOnce := agrees.once .server id
    omega
  · intro label after step
    obtain ⟨-, named, isolated⟩ := agrees.next contract step
    refine ⟨named, isolated, ?_, ?_⟩
    · rintro side junk rfl
      exact agrees.listen contract step
    · rintro side junk sock rfl
      exact agrees.close step

/-- Both ends after one handshake that agreed on id 1. -/
def ClosingLink.opened : ClosingLink where
  endpoint _ := MsgDistributor.init.register 1
  wire _ := []
  closes _ _ := 0
  fault := none

theorem ClosingLink.opened_registered : ClosingLink.opened.Registered (· = 1) where
  ready _ := MsgDistributor.init_ready.register 1
  range side id found := by
    by_cases same : id = 1
    · subst same
      constructor <;> decide
    · simp [ClosingLink.opened, MsgDistributor.register, MsgDistributor.init, same] at found
  known side id same := by
    subst same
    rfl
  quiet _ := rfl
  unclosed _ _ := rfl
  sound := rfl

/-- Both ends close at the same time, and one of them sends before. -/
def crossingCloses : List ClosingStep :=
  [.close .client (fun _ => 0) 1, .send .server (fun _ => 0) 1 [7],
    .close .server (fun _ => 0) 1, .listen .server fun _ => 0, .listen .client fun _ => 0,
    .listen .client fun _ => 0]

/-- After the crossing closes the id is gone at both ends. -/
theorem close_agreement_crossing : ∃ finish : ClosingLink,
    (closingMachine boundedReceive).Reaches .opened finish ∧
    ∀ side, Cleared (finish.endpoint side) 1 := by
  obtain ⟨finish, reached, holds⟩ := Machine.exists_of_run
    (show (((closingMachine boundedReceive).run (fun _ _ => True) .opened crossingCloses).map
      fun finish => decide (finish.wire .client = [] ∧ finish.wire .server = [] ∧
        finish.closes .client 1 ≠ 0)) = some true by decide +kernel)
  refine ⟨finish, reached, ?_⟩
  obtain ⟨clientQuiet, serverQuiet, closed⟩ := of_decide_eq_true holds
  obtain ⟨agreement, -⟩ :=
    close_agreement boundedReceive_contract ClosingLink.opened_registered reached
  refine agreement 1 rfl ⟨.client, closed⟩ ?_
  rintro side ⟨message, member, -⟩
  cases side with
  | client =>
      rw [clientQuiet] at member
      cases member
  | server =>
      rw [serverQuiet] at member
      cases member

end PaintingCPS
