import PaintingCPS.MsgDistributor.Delivery

/-!
Contract: what the Message Distributor is for.

Over open connections `send` and `recv` are first-in first-out channels, one
for each id and direction. The channels know nothing of frames, tables, queues,
semaphores and the common wire.

Owns: the channels, the view of a link as channels, and the refinement in both
directions: every call is a step of the channels or none, and what the channels
can deliver `recv` can return, once `listen` has run often enough.

Does not own: the handshake, and `close`.
-/

set_option autoImplicit false

namespace PaintingCPS

open Foundation

/-! ## Channels -/

/-- The payloads that wait for `recv`, by receiving end and id, oldest first. -/
abbrev Channels := Side → SocketId → List (List Byte)

inductive ChannelStep where
  | send (side : Side) (id : SocketId) (payload : List Byte)
  | recv (side : Side) (id : SocketId) (block : List Byte)

namespace Channels

/-- Nobody has sent anything. -/
def none : Channels := fun _ _ => []

/-- One channel now holds `blocks`. -/
def set (channels : Channels) (side : Side) (id : SocketId) (blocks : List (List Byte)) :
    Channels :=
  Function.update channels side (Function.update (channels side) id blocks)

@[simp] theorem set_self (channels : Channels) (side : Side) (id : SocketId)
    (blocks : List (List Byte)) : channels.set side id blocks side id = blocks := by
  simp [set]

theorem set_other {channels : Channels} {side other : Side} {id otherId : SocketId}
    (differs : other ≠ side ∨ otherId ≠ id) (blocks : List (List Byte)) :
    channels.set side id blocks other otherId = channels other otherId := by
  by_cases same : other = side
  · subst same
    rcases differs with impossible | different
    · exact absurd rfl impossible
    · simp [set, Function.update_of_ne different]
  · simp [set, Function.update_of_ne same]

/-- `send` appends at the peer, `recv` removes the oldest payload. -/
def next (channels : Channels) : ChannelStep → Option Channels
  | .send side id payload =>
      some (channels.set side.peer id (channels side.peer id ++ [payload]))
  | .recv side id block =>
      if (channels side id).head? = some block then
        some (channels.set side id (channels side id).tail)
      else Option.none

end Channels

def channelMachine : Machine Channels ChannelStep where
  next := Channels.next

/-- Channels of the given ids only. -/
def ChannelStep.On (ids : SocketId → Prop) : ChannelStep → Prop
  | .send _ id _ | .recv _ id _ => ids id

/-! ## The view -/

/-- What was sent and not yet taken. -/
def Link.pending (link : Link) : Channels := fun side id =>
  (link.sent side.peer id).drop (link.taken side id).length

/-- What a `recv` that led from `before` to `after` returned; `none` is its
return value -1. -/
def Link.returned (before after : Link) (side : Side) (id : SocketId) : Option (List Byte) :=
  (after.taken side id)[(before.taken side id).length]?

theorem Link.Registered.pending {ids : SocketId → Prop} {link : Link}
    (registered : link.Registered ids) : link.pending = Channels.none := by
  funext side id
  simp [Link.pending, Channels.none, registered.unsent]

section Calls

variable {ids : SocketId → Prop} {link : Link}

/-- What is pending waits in the queue or is in flight. -/
theorem Link.Delivers.pending_eq (delivers : link.Delivers ids) (side : Side) {id : SocketId}
    (member : ids id) : ∃ blocks,
      (link.endpoint side).connection id.int = some ⟨blocks.length, blocks⟩ ∧
      link.sent side.peer id = link.taken side id ++ link.pending side id ∧
      link.pending side id = blocks ++ inFlight id (link.wire side) := by
  obtain ⟨blocks, present, history⟩ := delivers.delivered side id member
  have rest : link.pending side id = blocks ++ inFlight id (link.wire side) := by
    rw [Link.pending, ← history, List.append_assoc, List.drop_left]
  exact ⟨blocks, present, by rw [rest, ← history, List.append_assoc], rest⟩

/-- `send` on an open id emits a frame. -/
theorem Link.Delivers.send_emits (delivers : link.Delivers ids) (side : Side)
    (junk : Nat → Byte) {id : SocketId} {payload : List Byte} (member : ids id)
    (nonempty : payload ≠ []) :
    Cpp.send junk (link.endpoint side) id.int payload =
      .ok (some (sockHeader id ++ payload)) := by
  obtain ⟨semaphore, found⟩ := delivers.found side member
  rw [Cpp.send, if_neg (delivers.ready side).initialised, found]
  dsimp only
  rw [Cpp.sendFrame_eq junk id nonempty]
  rfl

/-- The frame is put on the wire. -/
theorem Link.Delivers.sendStep_eq (delivers : link.Delivers ids) (side : Side)
    (junk : Nat → Byte) {id : SocketId} {payload : List Byte} (member : ids id)
    (nonempty : payload ≠ []) :
    link.sendStep side junk id payload =
      { link with
        wire := Function.update link.wire side.peer
          (link.wire side.peer ++ [sockHeader id ++ payload])
        sent := Function.update link.sent side
          (Function.update (link.sent side) id (link.sent side id ++ [payload])) } := by
  rw [Link.sendStep, delivers.send_emits side junk member nonempty]

/-- `send` appends to the channel of the peer. -/
theorem Link.Delivers.sendStep_pending (delivers : link.Delivers ids) (side : Side)
    (junk : Nat → Byte) {id : SocketId} {payload : List Byte} (member : ids id)
    (nonempty : payload ≠ []) :
    (link.sendStep side junk id payload).pending =
      link.pending.set side.peer id (link.pending side.peer id ++ [payload]) := by
  obtain ⟨blocks, -, history, -⟩ := delivers.pending_eq side.peer member
  rw [Side.peer_peer] at history
  rw [delivers.sendStep_eq side junk member nonempty]
  funext other otherId
  by_cases here : other = side.peer ∧ otherId = id
  · obtain ⟨rfl, rfl⟩ := here
    rw [Channels.set_self]
    change List.drop (link.taken side.peer otherId).length
      (Function.update link.sent side (Function.update (link.sent side) otherId
        (link.sent side otherId ++ [payload])) side.peer.peer otherId) = _
    rw [Side.peer_peer, Function.update_self, Function.update_self, history, List.append_assoc,
      List.drop_left]
  · rw [not_and_or] at here
    rw [Channels.set_other here]
    by_cases fromSide : other.peer = side
    · subst fromSide
      rcases here with impossible | different
      · exact absurd other.peer_peer.symm impossible
      · simp [Link.pending, Function.update_of_ne different]
    · simp [Link.pending, Function.update_of_ne fromSide]

/-- `listen` shortens the wire and changes nothing of what was sent and
taken. -/
theorem Link.listenStep_cases {mfrecv : List Byte → Option (List Byte)} {side : Side}
    {junk : Nat → Byte} {after : Link} (stepped : link.listenStep mfrecv side junk = some after)
    (sound : after.fault = none) :
    after.sent = link.sent ∧ after.taken = link.taken ∧
      after.wire = Function.update link.wire side (link.wire side).tail ∧
      link.wire side ≠ [] := by
  rw [Link.listenStep] at stepped
  split at stepped
  next => contradiction
  next message rest waiting =>
    split at stepped
    next =>
      cases stepped
      cases sound
    next =>
      cases stepped
      simp [waiting]

theorem Link.Delivers.listenStep_pending {mfrecv : List Byte → Option (List Byte)}
    (delivers : link.Delivers ids) (contract : ReceiveContract mfrecv) {side : Side}
    {junk : Nat → Byte} {after : Link}
    (stepped : link.listenStep mfrecv side junk = some after) :
    after.Delivers ids ∧ after.pending = link.pending := by
  have next := delivers.listenStep contract stepped
  obtain ⟨sentSame, takenSame, -⟩ := Link.listenStep_cases stepped next.sound
  exact ⟨next, by funext other id; simp [Link.pending, sentSame, takenSame]⟩

/-- `recv` takes the oldest payload out of the queue and is blocked without
one. -/
theorem Link.Delivers.recvStep_cases (delivers : link.Delivers ids) {side : Side}
    {id : SocketId} (member : ids id) {blocks : List (List Byte)}
    (present : (link.endpoint side).connection id.int = some ⟨blocks.length, blocks⟩) :
    match blocks with
    | [] => link.recvStep side id = none
    | block :: _ => ∃ after, link.recvStep side id = some after ∧
        after.fault = none ∧ after.sent = link.sent ∧ after.wire = link.wire ∧
        after.taken = Function.update link.taken side
          (Function.update (link.taken side) id (link.taken side id ++ [block])) := by
  obtain ⟨semaphore, found⟩ := delivers.found side member
  have entered : Cpp.recvEnter (link.endpoint side) id.int = some semaphore := by
    rw [Cpp.recvEnter, if_neg (delivers.ready side).initialised, found]
  obtain ⟨_, _, semFound, -, -, permits⟩ := MsgDistributor.connection_eq_some present
  rw [found, Option.some.injEq] at semFound
  subst semFound
  cases blocks with
  | nil =>
      have asleep : (link.endpoint side).sems semaphore = 0 := permits
      simp [Link.recvStep, entered, asleep]
  | cons block rest =>
      have awake : (link.endpoint side).sems semaphore ≠ 0 := by
        rw [permits]
        simp
      obtain ⟨endpoint, woken, -⟩ :=
        MsgDistributor.recvWake_open (delivers.ready side).separated found present
          (delivers.status side id member) (by decide)
      refine ⟨{ link with
        endpoint := Function.update link.endpoint side endpoint
        taken := Function.update link.taken side
          (Function.update (link.taken side) id (link.taken side id ++ [block])) }, ?_,
        delivers.sound, rfl, rfl, rfl⟩
      rw [Link.recvStep, entered]
      dsimp only
      rw [if_neg awake, woken]
      rfl

/-- `recv` returns the oldest pending payload, which leaves its channel. -/
theorem Link.Delivers.recvStep_pending (delivers : link.Delivers ids) {side : Side}
    {id : SocketId} (member : ids id) {after : Link}
    (stepped : link.recvStep side id = some after) :
    ∃ block rest, link.pending side id = block :: rest ∧
      link.returned after side id = some block ∧
      after.pending = link.pending.set side id rest := by
  obtain ⟨blocks, present, history, rest⟩ := delivers.pending_eq side member
  have cases' := delivers.recvStep_cases member present
  cases blocks with
  | nil => simp [stepped] at cases'
  | cons block more =>
      obtain ⟨other, computed, -, sentSame, -, takenEq⟩ := cases'
      rw [stepped, Option.some.injEq] at computed
      subst computed
      refine ⟨block, more ++ inFlight id (link.wire side), rest, ?_, ?_⟩
      · simp [Link.returned, takenEq]
      · funext other otherId
        by_cases here : other = side ∧ otherId = id
        · obtain ⟨rfl, rfl⟩ := here
          rw [Channels.set_self, Link.pending, sentSame, takenEq, Function.update_self,
            Function.update_self, history, rest, List.length_append, ← List.drop_drop,
            List.drop_left]
          rfl
        · rw [not_and_or] at here
          rw [Channels.set_other here, Link.pending, Link.pending, sentSame, takenEq]
          by_cases same : other = side
          · subst same
            rcases here with impossible | different
            · exact absurd rfl impossible
            · rw [Function.update_self, Function.update_of_ne different]
          · rw [Function.update_of_ne same]

/-- `recv` leaves the wires and the other channels alone. -/
theorem Link.Delivers.recvStep_frame (delivers : link.Delivers ids) {side : Side}
    {id : SocketId} (member : ids id) {after : Link}
    (stepped : link.recvStep side id = some after) :
    after.wire = link.wire ∧ ∀ other otherId, other ≠ side ∨ otherId ≠ id →
      after.pending other otherId = link.pending other otherId := by
  obtain ⟨blocks, present, -, -⟩ := delivers.pending_eq side member
  have cases' := delivers.recvStep_cases member present
  obtain ⟨block, rest, -, -, pending⟩ := delivers.recvStep_pending member stepped
  refine ⟨?_, fun other otherId differs => by rw [pending, Channels.set_other differs]⟩
  cases blocks with
  | nil => simp [stepped] at cases'
  | cons first more =>
      obtain ⟨_, computed, -, -, wireSame, -⟩ := cases'
      rw [stepped, Option.some.injEq] at computed
      rw [computed, wireSame]

/-- `recv` waits exactly while nothing is in its queue. -/
theorem Link.Delivers.recvStep_isSome (delivers : link.Delivers ids) {side : Side}
    {id : SocketId} (member : ids id) (pending : link.pending side id ≠ [])
    (quiet : link.wire side = []) : (link.recvStep side id).isSome := by
  obtain ⟨blocks, present, -, rest⟩ := delivers.pending_eq side member
  have cases' := delivers.recvStep_cases member present
  cases blocks with
  | nil =>
      rw [quiet] at rest
      exact absurd rest pending
  | cons block more =>
      obtain ⟨after, computed, -⟩ := cases'
      rw [computed]
      rfl

/-- A `send` or `recv` on another socket. -/
def LinkStep.Elsewhere (sock : SocketId) : LinkStep → Prop
  | .send _ _ id _ | .recv _ id => id ≠ sock
  | .listen .. => False

/-- Calls on other sockets leave what is pending on this one alone. -/
theorem Link.Delivers.elsewhere {mfrecv : List Byte → Option (List Byte)}
    (delivers : link.Delivers ids) {sock : SocketId} {call : LinkStep}
    (allowed : call.Allowed ids) (elsewhere : call.Elsewhere sock) {after : Link}
    (stepped : link.step mfrecv call = some after) :
    after.Delivers ids ∧ ∀ side, after.pending side sock = link.pending side sock := by
  cases call with
  | send side junk id payload =>
      obtain ⟨isOpen, nonempty, short⟩ := allowed
      cases stepped
      refine ⟨delivers.sendStep side junk isOpen nonempty short, fun other => ?_⟩
      rw [delivers.sendStep_pending side junk isOpen nonempty,
        Channels.set_other (.inr (Ne.symm elsewhere))]
  | listen side junk => exact elsewhere.elim
  | recv side id =>
      obtain ⟨block, rest, -, -, pending⟩ := delivers.recvStep_pending allowed stepped
      refine ⟨delivers.recvStep allowed stepped, fun other => ?_⟩
      rw [pending, Channels.set_other (.inr (Ne.symm elsewhere))]

end Calls

/-! ## Refinement -/

section Refinement

variable {mfrecv : List Byte → Option (List Byte)} {ids : SocketId → Prop}

/-- A step of the machine is a call, as long as none has failed. -/
theorem Link.step_of_next {link after : Link} {label : LinkStep}
    (stepped : (linkMachine mfrecv).next link label = some after) :
    link.fault = none ∧ link.step mfrecv label = some after := by
  simp only [linkMachine] at stepped
  split at stepped
  next => cases stepped
  next sound =>
    rw [Option.isSome_iff_ne_none, not_not] at sound
    exact ⟨sound, stepped⟩

/-- Every call is one step of the channels, and `listen` is none. -/
theorem link_simulates (contract : ReceiveContract mfrecv) :
    Simulation (linkMachine mfrecv).transition channelMachine.transition
      (fun _ label => label.Allowed ids) (fun _ label => label.On ids)
      (fun link channels => link.Delivers ids ∧ link.pending = channels) where
  matched := by
    rintro link after label channels ⟨delivers, rfl⟩ allowed transition
    have next := delivers.next contract allowed transition
    obtain ⟨-, stepped⟩ := Link.step_of_next transition
    cases label with
    | send side junk id payload =>
        obtain ⟨member, nonempty, -⟩ := allowed
        cases stepped
        exact .inr ⟨.send side id payload, _, member, rfl, next,
          delivers.sendStep_pending side junk member nonempty⟩
    | listen side junk => exact .inl (delivers.listenStep_pending contract stepped)
    | recv side id =>
        obtain ⟨block, rest, waiting, -, pending⟩ := delivers.recvStep_pending allowed stepped
        refine .inr ⟨.recv side id block, link.pending.set side id rest, allowed, ?_, next,
          pending⟩
        simp [Machine.transition, channelMachine, Channels.next, waiting]

/-- Only `listen` at one end. -/
def LinkStep.ListensAt (side : Side) : LinkStep → Prop
  | .listen other _ => other = side
  | _ => False

/-- `listen` empties the wire, and nothing that is pending gets lost. -/
theorem Link.Delivers.drain (contract : ReceiveContract mfrecv) {link : Link}
    (delivers : link.Delivers ids) (side : Side) :
    ∃ after, (linkMachine mfrecv).ReachesUnder (fun _ label => label.ListensAt side) link after ∧
      after.Delivers ids ∧ after.wire side = [] ∧ after.pending = link.pending ∧
      after.taken = link.taken := by
  generalize count : (link.wire side).length = frames
  induction frames generalizing link with
  | zero => exact ⟨link, .refl, delivers, List.length_eq_zero_iff.mp count, rfl, rfl⟩
  | succ frames inductionHypothesis =>
      have waiting : link.wire side ≠ [] := by
        rintro quiet
        rw [quiet] at count
        cases count
      obtain ⟨middle, transition⟩ :=
        listen_enabled mfrecv delivers.sound waiting (fun _ => 0)
      have listening : LinkStep.Allowed ids (.listen side fun _ => 0) := trivial
      have alone : LinkStep.ListensAt side (.listen side fun _ => 0) := rfl
      have next := delivers.next contract listening transition
      obtain ⟨-, stepped⟩ := Link.step_of_next transition
      obtain ⟨sentSame, takenSame, wireEq, -⟩ := Link.listenStep_cases stepped next.sound
      have fewer : (middle.wire side).length = frames := by
        rw [wireEq, Function.update_self, List.length_tail]
        omega
      obtain ⟨after, reached, afterDelivers, quiet, pendingSame, takenSameAfter⟩ :=
        inductionHypothesis next fewer
      have first : (linkMachine mfrecv).ReachesUnder (fun _ label => label.ListensAt side)
          link middle := ReachesUnder.refl.tail alone transition
      refine ⟨after, first.trans reached, afterDelivers, quiet, pendingSame.trans ?_,
        takenSameAfter.trans takenSame⟩
      funext other id
      simp [Link.pending, sentSame, takenSame]

/-- A link as channels: what every call does to them, and that nothing they
hold is out of reach. -/
structure Link.Implements (mfrecv : List Byte → Option (List Byte)) (ids : SocketId → Prop)
    (link : Link) : Prop where
  sound : link.fault = none
  reached : channelMachine.ReachesUnder (fun _ label => label.On ids) .none link.pending
  sends : ∀ side junk id payload after,
    LinkStep.Allowed ids (.send side junk id payload) →
    (linkMachine mfrecv).transition link (.send side junk id payload) after →
    after.pending = link.pending.set side.peer id (link.pending side.peer id ++ [payload])
  listens : ∀ side junk after,
    (linkMachine mfrecv).transition link (.listen side junk) after → after.pending = link.pending
  returns : ∀ side id after, ids id →
    (linkMachine mfrecv).transition link (.recv side id) after →
    ∃ block rest, link.pending side id = block :: rest ∧
      link.returned after side id = some block ∧ after.pending = link.pending.set side id rest
  /-- Calls of `listen` alone lead to where `recv` returns the next payload. -/
  available : ∀ side id block rest, ids id → link.pending side id = block :: rest →
    ∃ drained after,
      (linkMachine mfrecv).ReachesUnder (fun _ label => label.ListensAt side) link drained ∧
      (linkMachine mfrecv).transition drained (.recv side id) after ∧
      drained.returned after side id = some block ∧ after.pending = link.pending.set side id rest

private theorem Link.Delivers.available (contract : ReceiveContract mfrecv) {link : Link}
    (delivers : link.Delivers ids) {side : Side} {id : SocketId} (member : ids id)
    {block : List Byte} {rest : List (List Byte)}
    (pending : link.pending side id = block :: rest) :
    ∃ drained after,
      (linkMachine mfrecv).ReachesUnder (fun _ label => label.ListensAt side) link drained ∧
      (linkMachine mfrecv).transition drained (.recv side id) after ∧
      drained.returned after side id = some block ∧
      after.pending = link.pending.set side id rest := by
  obtain ⟨drained, reached, drainedDelivers, quiet, pendingSame, -⟩ :=
    delivers.drain contract side
  have waiting : drained.pending side id = block :: rest := by rw [pendingSame, pending]
  obtain ⟨after, stepped⟩ := Option.isSome_iff_exists.mp
    (drainedDelivers.recvStep_isSome member (by rw [waiting]; simp) quiet)
  obtain ⟨first, others, split, returned, pendingAfter⟩ :=
    drainedDelivers.recvStep_pending member stepped
  rw [waiting, List.cons.injEq] at split
  obtain ⟨rfl, rfl⟩ := split
  refine ⟨drained, after, reached, ?_, returned, by rw [pendingAfter, pendingSame]⟩
  simp [Machine.transition, linkMachine, drainedDelivers.sound, Link.step, stepped]

/-- In every run over open connections the two Message Distributors are
first-in first-out channels, one for each id and direction. -/
theorem link_implements_channels (contract : ReceiveContract mfrecv) {start finish : Link}
    (registered : start.Registered ids)
    (reached : (linkMachine mfrecv).ReachesUnder (fun _ label => label.Allowed ids)
      start finish) : finish.Implements mfrecv ids := by
  obtain ⟨channels, ⟨delivers, rfl⟩, channelsReached⟩ :=
    (link_simulates contract).reaches ⟨registered.delivers, registered.pending⟩ reached
  refine ⟨delivers.sound, channelsReached, ?_, ?_, ?_, ?_⟩
  · intro side junk id payload after allowed transition
    obtain ⟨member, nonempty, -⟩ := allowed
    obtain ⟨-, stepped⟩ := Link.step_of_next transition
    cases stepped
    exact delivers.sendStep_pending side junk member nonempty
  · intro side junk after transition
    obtain ⟨-, stepped⟩ := Link.step_of_next transition
    exact (delivers.listenStep_pending contract stepped).2
  · intro side id after member transition
    obtain ⟨-, stepped⟩ := Link.step_of_next transition
    exact delivers.recvStep_pending member stepped
  · intro side id block rest member pending
    exact delivers.available contract member pending

end Refinement

/-- Two payloads in flight to the server. -/
theorem link_implements_channels_first : ∃ finish : Link,
    finish.pending .server .first = [[comma], [nul]] ∧
      finish.Implements boundedReceive (· = .first) := by
  let middle := (Link.opened .first).sendStep .client (fun _ => 0) .first [comma]
  let finish := middle.sendStep .client (fun _ => 0) .first [nul]
  have allowed : ∀ payload ∈ [[comma], [nul]],
      LinkStep.Allowed (· = .first) (.send .client (fun _ => 0) .first payload) := by
    intro payload member
    refine ⟨rfl, ?_⟩
    revert payload
    decide
  have half : (linkMachine boundedReceive).ReachesUnder
      (fun _ label => label.Allowed (· = .first)) (Link.opened .first) middle :=
    ReachesUnder.refl.tail (allowed [comma] (by simp)) rfl
  have reached : (linkMachine boundedReceive).ReachesUnder
      (fun _ label => label.Allowed (· = .first)) (Link.opened .first) finish :=
    half.tail (allowed [nul] (by simp)) rfl
  exact ⟨finish, by decide,
    link_implements_channels boundedReceive_contract (Link.opened_registered _) reached⟩

end PaintingCPS
