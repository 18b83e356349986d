import PaintingCPS.MsgDistributor.Race

/-!
Contract: `recv` against a concurrent `close`, over every run of the two
threads.

The invariant goes by the stage that `close` has reached. The guard keeps
`recv` out of the positions whose next step would need what the stage has
taken away.

Owns: the invariant, safety of every run in which the two do not meet, and a
broken continuation for the first meeting.

Does not own: the machine.
-/

set_option autoImplicit false

namespace PaintingCPS

open Foundation

/-! ## The invariant -/

/-- How far `close` has come: 1 status, 2 post, 3 queue deleted, 4 semaphore
erased, 5 queue erased. -/
def ListenAt.progress : ListenAt → Nat
  | .marked _ _ => 1
  | .posted _ => 2
  | .deleted => 3
  | .semErased => 4
  | .queueErased => 5
  | _ => 0

/-- The progress of the close that will be, is, or was; 6 after its end. -/
def Race.stage (race : Race) : Nat :=
  if race.closed ∧ race.listener = .idle then 6 else race.listener.progress

/-- Permits that the listener still owes for a pushed block. -/
def ListenAt.owed : ListenAt → Nat
  | .sockPushed | .sockSem _ => 1
  | _ => 0

/-- `recv` has taken a permit and not yet popped. -/
def RecvAt.claims : RecvAt → Nat
  | .woken | .tested | .loaded _ | .fronted _ => 1
  | _ => 0

/-- `recv` is going to pop. -/
def RecvAt.pops : RecvAt → Nat
  | .tested | .loaded _ | .fronted _ => 1
  | _ => 0

/-- Where `recv` may stand at a stage of `close`. -/
def RecvAt.Within (stage permits : Nat) : RecvAt → Prop
  | .found => stage < 4
  | .waiting recvSem => recvSem = .object ∧ (stage = 6 → 0 < permits)
  | .ended => 1 ≤ stage
  | .tested | .fronted _ => stage < 3
  | .loaded recvQueue => recvQueue = .object ∧ stage < 3
  | .popped _ => stage < 5
  | .idle | .woken => True

/-- The entries and objects at a stage of `close`. -/
structure Socket.SafeAt (stage owed : Nat) (recv : RecvAt) (socket : Socket) : Prop where
  semEntry : socket.semEntry = if stage < 4 then some .object else none
  queueEntry : socket.queueEntry = if stage < 5 then some .object else none
  status : if stage = 0 then socket.status = some 1 else socket.status.getD 0 = 0
  live : stage < 3 → ∃ blocks, socket.queue = some blocks ∧ recv.pops ≤ blocks.length ∧
    (stage = 0 → blocks.length = socket.permits + recv.claims + owed)
  deleted : 3 ≤ stage → socket.queue = none
  within : recv.Within stage socket.permits
  awake : 2 ≤ stage → stage ≤ 5 → recv = .woken ∨ recv = .ended ∨ 0 < socket.permits

/-- The pointers that the listener has loaded are not null, and it is not in a
frame after `close`. -/
def ListenAt.Within (closed : Bool) : ListenAt → Prop
  | .idle => True
  | .queueErased => closed = true
  | .sockQueue _ pointer | .sockSem pointer | .semLoaded pointer | .posted pointer =>
      pointer = .object ∧ closed = false
  | .queueLoaded closeSem closeQueue | .locked closeSem closeQueue
  | .marked closeSem closeQueue =>
      closeSem = .object ∧ closeQueue = .object ∧ closed = false
  | .sockFound _ | .sockPushed | .closeFound | .deleted | .semErased => closed = false

structure Race.Safe (race : Race) : Prop where
  sound : race.fault = none
  listener : race.listener.Within race.closed
  socket : race.socket.SafeAt race.stage race.listener.owed race.recv
  late : ∀ result ∈ race.late, result = none

theorem Race.Opened.safe {race : Race} (opened : race.Opened) : race.Safe := by
  obtain ⟨blocks, queue, permits⟩ := opened.queue
  have stage : race.stage = 0 := by
    simp [Race.stage, opened.listener, opened.closed, ListenAt.progress]
  refine ⟨opened.sound, ?_, ?_, ?_⟩
  · rw [opened.listener]
    exact trivial
  · rw [stage, opened.listener, opened.recv]
    refine ⟨opened.semEntry, opened.queueEntry, opened.status, ?_, ?_, trivial, ?_⟩
    · intro _
      refine ⟨blocks, queue, Nat.zero_le _, fun _ => ?_⟩
      rw [permits]
      rfl
    · intro late
      omega
    · intro late
      omega
  · rw [opened.late]
    intro result member
    cases member

section Steps

variable {race after : Race}

/-- `closed` is set from stage 5 on. -/
theorem Race.Safe.closed_iff (safe : race.Safe) : race.closed = true ↔ 5 ≤ race.stage := by
  have listener := safe.listener
  unfold Race.stage
  cases at' : race.listener <;> cases shut : race.closed <;>
    simp_all [ListenAt.Within, ListenAt.progress]

theorem Race.stage_le (race : Race) : race.stage ≤ 6 := by
  unfold Race.stage
  split
  · omega
  · cases race.listener <;> simp [ListenAt.progress]

/-- A return after the close returns -1. -/
private theorem Race.Safe.returned (safe : race.Safe) {block : Option (List Byte)}
    (early : 5 ≤ race.stage → block = none)
    {socket : Socket} (kept : socket.SafeAt race.stage race.listener.owed .idle) :
    ({ race with socket := socket }.returned block).Safe := by
  refine ⟨safe.sound, safe.listener, kept, ?_⟩
  intro result member
  simp only [Race.returned] at member
  split at member
  next shut =>
    rw [List.mem_append, List.mem_singleton] at member
    rcases member with before | rfl
    · exact safe.late result before
    · exact early (safe.closed_iff.mp shut)
  next => exact safe.late result member

/-- A step of `recv` that does not return. -/
private theorem Race.Safe.moved (safe : race.Safe) {socket : Socket} {recv : RecvAt}
    (kept : socket.SafeAt race.stage race.listener.owed recv) :
    ({ race with socket := socket, recv := recv } : Race).Safe :=
  ⟨safe.sound, safe.listener, kept, safe.late⟩

/-- Without `map_lock`, `close` has not begun or has ended. -/
private theorem Race.stage_of_unlocked (unlocked : ¬ race.listener.holdsLock = true)
    (closing : 1 ≤ race.stage) : race.stage = 6 := by
  unfold Race.stage at closing ⊢
  split at closing
  next ended => rw [if_pos ended]
  next running =>
    cases stands : race.listener <;>
      simp_all [ListenAt.holdsLock, ListenAt.progress]

/-- A permit is left for a `recv` that has not been woken. -/
private theorem Socket.SafeAt.permit {stage owed : Nat} {recv : RecvAt} {socket : Socket}
    (safe : socket.SafeAt stage owed recv) (notWoken : recv ≠ .woken) (notEnded : recv ≠ .ended)
    (posted : 2 ≤ stage) (held : stage ≤ 5) : 0 < socket.permits := by
  rcases safe.awake posted held with woken | ended | permit
  · exact absurd woken notWoken
  · exact absurd ended notEnded
  · exact permit

/-- Every operation of `recv` keeps the invariant. -/
private theorem Race.Safe.recvStep (safe : race.Safe) (step : race.recvStep = some after) :
    after.Safe := by
  have socket := safe.socket
  have stageLe := race.stage_le
  rw [Race.recvStep] at step
  cases stands : race.recv with
  | idle =>
      rw [stands] at step socket
      dsimp only at step
      split at step
      next =>
        cases step
        exact safe.returned (fun _ => rfl) socket
      next pointer present =>
        cases step
        have semEntry := socket.semEntry
        have early : race.stage < 4 := by
          by_contra erased
          rw [if_neg erased, present] at semEntry
          cases semEntry
        apply safe.moved
        exact { socket with
          within := early
          awake := fun posted held =>
            .inr (.inr (socket.permit (by decide) (by decide) posted held)) }
  | found =>
      rw [stands] at step socket
      have early : race.stage < 4 := socket.within
      have semEntry := socket.semEntry
      rw [if_pos early] at semEntry
      rw [semEntry] at step
      cases step
      apply safe.moved
      exact { socket with
        semEntry := by rw [if_pos early]; rfl
        within := ⟨rfl, fun ended => by omega⟩
        awake := fun posted held =>
          .inr (.inr (socket.permit (by decide) (by decide) posted held)) }
  | waiting recvSem =>
      rw [stands] at step socket
      obtain ⟨rfl, permitted⟩ := socket.within
      dsimp only at step
      split at step
      next => contradiction
      next awake =>
        cases step
        apply safe.moved
        refine { socket with
          live := ?_, within := trivial, awake := fun _ _ => .inl rfl }
        intro early
        obtain ⟨blocks, queue, pops, count⟩ := socket.live early
        refine ⟨blocks, queue, Nat.zero_le _, fun opened => ?_⟩
        have balance := count opened
        simp only [RecvAt.claims] at balance ⊢
        omega
  | woken =>
      rw [stands] at step socket
      dsimp only at step
      have status := socket.status
      split at step
      next zero =>
        have closing : race.stage ≠ 0 := by
          intro opened
          rw [if_pos opened] at status
          rw [status] at zero
          cases zero
        cases step
        apply safe.moved
        refine { socket with
          status := ?_, live := ?_, within := Nat.one_le_iff_ne_zero.mpr closing,
          awake := fun _ _ => .inr (.inl rfl) }
        · rw [if_neg closing]
          rfl
        · intro early
          obtain ⟨blocks, queue, pops, -⟩ := socket.live early
          exact ⟨blocks, queue, Nat.zero_le _, fun opened => absurd opened closing⟩
      next nonzero =>
        have opened : race.stage = 0 := by
          by_contra closing
          rw [if_neg closing] at status
          exact nonzero status
        cases step
        apply safe.moved
        refine { socket with live := ?_, within := ?_, awake := ?_ }
        · intro early
          obtain ⟨blocks, queue, pops, count⟩ := socket.live early
          refine ⟨blocks, queue, ?_, count⟩
          have balance := count opened
          simp only [RecvAt.claims] at balance
          simp only [RecvAt.pops]
          omega
        · change race.stage < 3
          omega
        · intro posted
          omega
  | ended =>
      rw [stands] at step socket
      dsimp only at step
      split at step
      next => contradiction
      next unlocked =>
        have finished := Race.stage_of_unlocked unlocked socket.within
        cases step
        apply safe.returned (fun _ => rfl)
        refine { socket with
          status := ?_, live := ?_, within := trivial, awake := ?_ }
        · rw [if_neg (by omega)]
          rfl
        · intro early
          omega
        · intro _ held
          omega
  | tested =>
      rw [stands] at step socket
      have early : race.stage < 3 := socket.within
      have queueEntry := socket.queueEntry
      rw [if_pos (by omega)] at queueEntry
      rw [queueEntry] at step
      cases step
      apply safe.moved
      exact { socket with
        queueEntry := by rw [if_pos (by omega)]; rfl
        within := ⟨rfl, early⟩
        awake := fun posted held =>
          .inr (.inr (socket.permit (by decide) (by decide) posted held)) }
  | loaded recvQueue =>
      rw [stands] at step socket
      obtain ⟨rfl, early⟩ := socket.within
      obtain ⟨blocks, queue, pops, count⟩ := socket.live early
      rw [queue] at step
      cases blocks with
      | nil => cases pops
      | cons block rest =>
          cases step
          apply safe.moved
          exact { socket with
            within := early
            awake := fun posted held =>
              .inr (.inr (socket.permit (by decide) (by decide) posted held)) }
  | fronted recvChar =>
      rw [stands] at step socket
      have early : race.stage < 3 := socket.within
      obtain ⟨blocks, queue, pops, count⟩ := socket.live early
      rw [queue] at step
      cases blocks with
      | nil => cases pops
      | cons block rest =>
          cases step
          apply safe.moved
          refine { socket with
            live := ?_
            deleted := fun late => by omega
            within := show race.stage < 5 by omega
            awake := fun posted held =>
              .inr (.inr (socket.permit (by simp) (by simp) posted held)) }
          intro _
          refine ⟨rest, rfl, Nat.zero_le _, fun opened => ?_⟩
          have balance := count opened
          simp only [RecvAt.claims, List.length_cons] at balance ⊢
          omega
  | popped recvChar =>
      rw [stands] at step socket
      have early : race.stage < 5 := socket.within
      have kept : race.socket.SafeAt race.stage race.listener.owed .idle :=
        { socket with
          within := trivial
          awake := fun posted held =>
            .inr (.inr (socket.permit (by simp) (by simp) posted held)) }
      cases step
      exact safe.returned (fun late => by omega) kept

/-- Before its end, the stage is the progress of the listener. -/
private theorem Race.stage_open (unclosed : race.closed = false) :
    race.stage = race.listener.progress := by
  rw [Race.stage, if_neg]
  rintro ⟨closed, -⟩
  rw [unclosed] at closed
  cases closed

/-- A step of the listener that does not erase the last entry. -/
private theorem Race.Safe.handled (safe : race.Safe) (unclosed : race.closed = false)
    {socket : Socket} {listener : ListenAt} (within : listener.Within false)
    (kept : socket.SafeAt listener.progress listener.owed race.recv) :
    ({ race with socket := socket, listener := listener } : Race).Safe := by
  refine ⟨safe.sound, ?_, ?_, safe.late⟩
  · rw [← unclosed] at within
    exact within
  · rw [Race.stage_open (by exact unclosed)]
    exact kept

/-- The next stage of `close`, when `recv` does not stand where it must not. -/
private theorem RecvAt.Within.advance {stage permits more : Nat} {recv : RecvAt}
    (within : recv.Within stage permits) (unfinished : stage < 5)
    (notPopping : stage = 2 → recv.pops = 0) (notFound : stage = 3 → recv ≠ .found)
    (notPopped : stage = 4 → ∀ block, recv ≠ .popped block) :
    recv.Within (stage + 1) more := by
  cases recv with
  | idle | woken => exact trivial
  | found =>
      simp only [RecvAt.Within] at within ⊢
      have : stage ≠ 3 := fun three => notFound three rfl
      omega
  | waiting recvSem => exact ⟨within.1, fun finished => by omega⟩
  | ended =>
      simp only [RecvAt.Within] at within ⊢
      omega
  | tested | fronted _ =>
      simp only [RecvAt.Within, RecvAt.pops] at within notPopping ⊢
      omega
  | loaded recvQueue =>
      simp only [RecvAt.Within, RecvAt.pops] at within notPopping ⊢
      exact ⟨within.1, by omega⟩
  | popped block =>
      simp only [RecvAt.Within] at within ⊢
      have : stage ≠ 4 := fun four => notPopped four block rfl
      omega

/-- Before the end of `close` it does not matter how many permits there are. -/
private theorem RecvAt.Within.repost {stage permits more : Nat} {recv : RecvAt}
    (within : recv.Within stage permits) (unfinished : stage < 6) : recv.Within stage more := by
  cases recv with
  | waiting recvSem => exact ⟨within.1, fun finished => by omega⟩
  | _ => exact within

/-- At the end a permit is left for a `recv` that waits. -/
private theorem RecvAt.Within.finish {permits : Nat} {recv : RecvAt}
    (within : recv.Within 5 permits) (awake : recv = .woken ∨ recv = .ended ∨ 0 < permits) :
    recv.Within 6 permits := by
  cases recv with
  | idle | woken => exact trivial
  | waiting recvSem =>
      refine ⟨within.1, fun _ => ?_⟩
      rcases awake with woken | ended | permit
      · cases woken
      · cases ended
      · exact permit
  | ended => exact Nat.succ_pos 5
  | found =>
      have late : 5 < 4 := within
      omega
  | tested | fronted _ =>
      have late : 5 < 3 := within
      omega
  | loaded recvQueue =>
      have late : 5 < 3 := within.2
      omega
  | popped block =>
      have late : 5 < 5 := within
      omega

/-- The idle listener begins with an open id, or ignores the frame. -/
private theorem Race.Safe.frameStep (safe : race.Safe) {frame : SocketFrame}
    (step : race.frameStep frame = some after) : after.Safe := by
  have socket := safe.socket
  have semEntry := socket.semEntry
  have begun : ∀ listener : ListenAt, race.listener = .idle →
      race.socket.semEntry ≠ none → listener.progress = 0 → listener.owed = 0 →
      listener.Within false → ({ race with listener := listener } : Race).Safe := by
    intro listener idle present noProgress noDebt within
    have unclosed : race.closed = false := by
      by_contra closed
      rw [Bool.not_eq_false] at closed
      have finished : race.stage = 6 := by
        rw [Race.stage, if_pos ⟨closed, idle⟩]
      rw [finished] at semEntry
      exact present semEntry
    apply safe.handled unclosed within
    rw [noProgress, noDebt]
    rw [Race.stage_open unclosed, idle] at socket
    exact socket
  unfold Race.frameStep at step
  split at step
  next =>
    cases step
    exact safe
  next pointer content idle present =>
    cases step
    exact begun _ idle (by rw [present]; exact Option.some_ne_none _) rfl rfl rfl
  next pointer idle present =>
    cases step
    exact begun _ idle (by rw [present]; exact Option.some_ne_none _) rfl rfl rfl
  next => contradiction

/-- The socket while the listener is in a frame. -/
private theorem Race.Safe.socketAt (safe : race.Safe) (unclosed : race.closed = false)
    {listener : ListenAt} (stands : race.listener = listener) :
    race.socket.SafeAt listener.progress listener.owed race.recv := by
  rw [← stands, ← Race.stage_open unclosed]
  exact safe.socket

/-- Every operation of the listener that respects `recv` keeps the invariant. -/
private theorem Race.Safe.listenStep (safe : race.Safe) (apart : race.Apart .listen)
    (step : race.listenStep = some after) : after.Safe := by
  have listener := safe.listener
  rw [Race.listenStep] at step
  rw [Race.Apart] at apart
  cases stands : race.listener with
  | idle =>
      rw [stands] at step
      cases step
  | sockFound content =>
      rw [stands] at step listener
      have unclosed : race.closed = false := listener
      have socket : race.socket.SafeAt 0 0 race.recv := safe.socketAt unclosed stands
      rw [show race.socket.queueEntry = some .object from socket.queueEntry] at step
      cases step
      refine safe.handled unclosed ?_ ?_
      · exact ⟨rfl, rfl⟩
      · exact { socket with queueEntry := rfl }
  | sockQueue content idQueue =>
      rw [stands] at step listener
      obtain ⟨rfl, unclosed⟩ := listener
      have socket : race.socket.SafeAt 0 0 race.recv := safe.socketAt unclosed stands
      obtain ⟨blocks, queue, pops, count⟩ := socket.live (by decide)
      rw [queue] at step
      cases step
      refine safe.handled unclosed ?_ ?_
      · exact rfl
      · refine { socket with live := ?_, deleted := fun late => by cases late }
        intro _
        refine ⟨_, rfl, ?_, fun opened => ?_⟩
        · rw [List.length_append]
          omega
        · have balance := count rfl
          simp only [ListenAt.owed, List.length_append, List.length_singleton]
          omega
  | sockPushed =>
      rw [stands] at step listener
      have unclosed : race.closed = false := listener
      have socket : race.socket.SafeAt 0 1 race.recv := safe.socketAt unclosed stands
      rw [show race.socket.semEntry = some .object from socket.semEntry] at step
      cases step
      refine safe.handled unclosed ?_ ?_
      · exact ⟨rfl, rfl⟩
      · exact { socket with semEntry := rfl }
  | sockSem idSem =>
      rw [stands] at step listener
      obtain ⟨rfl, unclosed⟩ := listener
      have socket : race.socket.SafeAt 0 1 race.recv := safe.socketAt unclosed stands
      cases step
      refine safe.handled unclosed ?_ ?_
      · exact trivial
      · refine { socket with live := ?_, within := ?_, awake := fun posted => by cases posted }
        · intro _
          obtain ⟨blocks, queue, pops, count⟩ := socket.live (by decide)
          refine ⟨blocks, queue, pops, fun opened => ?_⟩
          have balance := count rfl
          simp only [ListenAt.owed]
          omega
        · exact socket.within.repost (by decide)
  | closeFound =>
      rw [stands] at step listener
      have unclosed : race.closed = false := listener
      have socket : race.socket.SafeAt 0 0 race.recv := safe.socketAt unclosed stands
      rw [show race.socket.semEntry = some .object from socket.semEntry] at step
      cases step
      refine safe.handled unclosed ?_ ?_
      · exact ⟨rfl, rfl⟩
      · exact { socket with semEntry := rfl }
  | semLoaded closeSem =>
      rw [stands] at step listener
      obtain ⟨rfl, unclosed⟩ := listener
      have socket : race.socket.SafeAt 0 0 race.recv := safe.socketAt unclosed stands
      rw [show race.socket.queueEntry = some .object from socket.queueEntry] at step
      cases step
      refine safe.handled unclosed ?_ ?_
      · exact ⟨rfl, rfl, rfl⟩
      · exact { socket with queueEntry := rfl }
  | queueLoaded closeSem closeQueue =>
      rw [stands] at step listener
      obtain ⟨rfl, rfl, unclosed⟩ := listener
      have socket : race.socket.SafeAt 0 0 race.recv := safe.socketAt unclosed stands
      cases step
      refine safe.handled unclosed ?_ ?_
      · exact ⟨rfl, rfl, rfl⟩
      · exact socket
  | locked closeSem closeQueue =>
      rw [stands] at step listener
      obtain ⟨rfl, rfl, unclosed⟩ := listener
      have socket : race.socket.SafeAt 0 0 race.recv := safe.socketAt unclosed stands
      cases step
      refine safe.handled unclosed ?_ ?_
      · exact ⟨rfl, rfl, rfl⟩
      · exact
          { semEntry := socket.semEntry
            queueEntry := socket.queueEntry
            status := rfl
            live := fun _ => by
              obtain ⟨blocks, queue, pops, -⟩ := socket.live (by decide)
              exact ⟨blocks, queue, pops, fun opened => by cases opened⟩
            deleted := fun late => absurd late (by decide)
            within := socket.within.advance (by decide)
              (absurd · (by decide)) (absurd · (by decide)) (absurd · (by decide))
            awake := fun posted => absurd posted (by decide) }
  | marked closeSem closeQueue =>
      rw [stands] at step listener
      obtain ⟨rfl, rfl, unclosed⟩ := listener
      have socket : race.socket.SafeAt 1 0 race.recv := safe.socketAt unclosed stands
      cases step
      refine safe.handled unclosed ?_ ?_
      · exact ⟨rfl, rfl⟩
      · exact
          { semEntry := socket.semEntry
            queueEntry := socket.queueEntry
            status := socket.status
            live := fun _ => by
              obtain ⟨blocks, queue, pops, -⟩ := socket.live (by decide)
              exact ⟨blocks, queue, pops, fun opened => by cases opened⟩
            deleted := fun late => absurd late (by decide)
            within := socket.within.advance (by decide)
              (absurd · (by decide)) (absurd · (by decide)) (absurd · (by decide))
            awake := fun _ _ => .inr (.inr (Nat.succ_pos _)) }
  | posted closeQueue =>
      rw [stands] at step listener apart
      obtain ⟨rfl, unclosed⟩ := listener
      have socket : race.socket.SafeAt 2 0 race.recv := safe.socketAt unclosed stands
      obtain ⟨blocks, queue, -, -⟩ := socket.live (by decide)
      have notPopping : race.recv.pops = 0 := by
        cases stood : race.recv with
        | tested | loaded _ | fronted _ =>
            rw [stood] at apart
            exact apart.elim
        | _ => rfl
      rw [queue] at step
      cases step
      refine safe.handled unclosed ?_ ?_
      · exact rfl
      · exact
          { semEntry := socket.semEntry
            queueEntry := socket.queueEntry
            status := socket.status
            live := fun early => absurd early (by decide)
            deleted := fun _ => rfl
            within := socket.within.advance (by decide)
              (fun _ => notPopping) (absurd · (by decide)) (absurd · (by decide))
            awake := fun _ _ => socket.awake (by decide) (by decide) }
  | deleted =>
      rw [stands] at step listener apart
      have unclosed : race.closed = false := listener
      have socket : race.socket.SafeAt 3 0 race.recv := safe.socketAt unclosed stands
      have notFound : race.recv ≠ .found := by
        intro stood
        rw [stood] at apart
        exact apart
      cases step
      refine safe.handled unclosed ?_ ?_
      · exact rfl
      · exact
          { semEntry := rfl
            queueEntry := socket.queueEntry
            status := socket.status
            live := fun early => absurd early (by decide)
            deleted := fun _ => socket.deleted (by decide)
            within := socket.within.advance (by decide)
              (absurd · (by decide)) (fun _ => notFound) (absurd · (by decide))
            awake := fun _ _ => socket.awake (by decide) (by decide) }
  | semErased =>
      rw [stands] at step listener apart
      have unclosed : race.closed = false := listener
      have socket : race.socket.SafeAt 4 0 race.recv := safe.socketAt unclosed stands
      have notPopped : ∀ block, race.recv ≠ .popped block := by
        intro block stood
        rw [stood] at apart
        exact apart
      cases step
      refine ⟨safe.sound, rfl, ?_, safe.late⟩
      change Socket.SafeAt 5 0 race.recv _
      exact
        { semEntry := socket.semEntry
          queueEntry := rfl
          status := socket.status
          live := fun early => absurd early (by decide)
          deleted := fun _ => socket.deleted (by decide)
          within := socket.within.advance (by decide)
            (absurd · (by decide)) (absurd · (by decide)) (fun _ => notPopped)
          awake := fun _ _ => socket.awake (by decide) (by decide) }
  | queueErased =>
      rw [stands] at step listener
      have closed : race.closed = true := listener
      have stage : race.stage = 5 := by
        rw [Race.stage, stands, if_neg (by rintro ⟨-, idle⟩; cases idle)]
        rfl
      have socket := safe.socket
      rw [stage, stands] at socket
      have finished : ({ race with listener := .idle } : Race).stage = 6 := if_pos ⟨closed, rfl⟩
      cases step
      refine ⟨safe.sound, trivial, ?_, safe.late⟩
      rw [finished]
      exact
        { semEntry := socket.semEntry
          queueEntry := socket.queueEntry
          status := socket.status
          live := fun early => absurd early (by decide)
          deleted := fun _ => socket.deleted (by decide)
          within := socket.within.finish (socket.awake (by decide) (by decide))
          awake := fun _ held => absurd held (by decide) }

theorem Race.Safe.next (safe : race.Safe) {label : RaceStep} (apart : race.Apart label)
    (step : raceMachine.next race label = some after) : after.Safe := by
  simp only [raceMachine, safe.sound, Option.isSome_none, Bool.false_eq_true, if_false] at step
  cases label with
  | recv => exact safe.recvStep step
  | frame frame => exact safe.frameStep step
  | listen => exact safe.listenStep apart step

end Steps

/-! ## Safety of `recv` -/

/-- `recv` uses no pointer that is null or dangling. It takes the front of a
queue that is alive and in `queue_map`, and blocks on no semaphore that is not
in `sem_map`. After `close` it returns -1, without being blocked once the lock
is free, and the entries stay erased. -/
structure Race.Guarded (race : Race) : Prop where
  sound : race.fault = none
  takes : ∀ recvQueue, race.recv = .loaded recvQueue →
    recvQueue = .object ∧ race.socket.queueEntry = some .object ∧ race.socket.queue.isSome
  waits : ∀ recvSem, race.recv = .waiting recvSem →
    recvSem = .object ∧ (race.socket.semEntry = none → 0 < race.socket.permits)
  ends : ∀ result ∈ race.late, result = none
  unblocked : race.closed = true → race.listener.holdsLock = false → race.recvStep.isSome
  gone : race.closed = true → race.socket.semEntry = none ∧ race.socket.queueEntry = none

section Safety

variable {race after : Race}

/-- A `recv` that has loaded the erased semaphore finds a permit. -/
private theorem Race.Safe.permit (safe : race.Safe) {recvSem : Pointer}
    (stands : race.recv = .waiting recvSem) (erased : 4 ≤ race.stage) :
    0 < race.socket.permits := by
  have socket := safe.socket
  rw [stands] at socket
  by_cases finished : race.stage = 6
  · exact socket.within.2 finished
  · have stageLe := race.stage_le
    exact socket.permit (by simp) (by simp) (by omega) (by omega)

private theorem Race.Safe.unblocked (safe : race.Safe) (closed : race.closed = true)
    (unlocked : race.listener.holdsLock = false) : race.recvStep.isSome := by
  have late := safe.closed_iff.mp closed
  have within := safe.socket.within
  unfold Race.recvStep
  cases stands : race.recv with
  | idle =>
      dsimp only
      split <;> rfl
  | found => rfl
  | waiting recvSem =>
      have permit := safe.permit stands (by omega)
      cases recvSem with
      | null => rfl
      | object =>
          dsimp only
          rw [if_neg (by omega)]
          rfl
  | woken =>
      dsimp only
      split <;> rfl
  | ended =>
      dsimp only
      rw [if_neg (by rw [unlocked]; exact Bool.false_ne_true)]
      rfl
  | tested => rfl
  | loaded recvQueue =>
      rw [stands] at within
      have := within.2
      omega
  | fronted recvChar =>
      rw [stands] at within
      have early : race.stage < 3 := within
      omega
  | popped recvChar => rfl

theorem Race.Safe.guarded (safe : race.Safe) : race.Guarded where
  sound := safe.sound
  takes recvQueue stands := by
    have socket := safe.socket
    rw [stands] at socket
    obtain ⟨object, early⟩ := socket.within
    obtain ⟨blocks, queue, -⟩ := socket.live early
    refine ⟨object, ?_, ?_⟩
    · rw [socket.queueEntry, if_pos (by omega)]
    · rw [queue]
      rfl
  waits recvSem stands := by
    have socket := safe.socket
    refine ⟨?_, fun erased => ?_⟩
    · rw [stands] at socket
      exact socket.within.1
    · refine safe.permit stands ?_
      have semEntry := socket.semEntry
      by_contra early
      rw [if_pos (by omega), erased] at semEntry
      cases semEntry
  ends := safe.late
  unblocked := safe.unblocked
  gone closed := by
    have late := safe.closed_iff.mp closed
    refine ⟨?_, ?_⟩
    · rw [safe.socket.semEntry, if_neg (by omega)]
    · rw [safe.socket.queueEntry, if_neg (by omega)]

/-- The operation `delete(close_queue)`. -/
private theorem Race.Safe.deletes (safe : race.Safe) {closeQueue : Pointer}
    (stands : race.listener = .posted closeQueue) (step : race.step .listen = some after) :
    { race with socket.queue := none, listener := .deleted } = after := by
  have listener := safe.listener
  rw [stands] at listener
  obtain ⟨rfl, unclosed⟩ := listener
  obtain ⟨blocks, queue, -⟩ := (safe.socketAt unclosed stands).live (by decide)
  rw [Race.step, Race.listenStep, stands, queue] at step
  exact Option.some.inj step

/-- One operation of `recv` that leads out of the contract. -/
private theorem broken_by_recv {finish : Race} (sound : race.fault = none)
    (moved : race.recvStep = some finish) (broken : ¬ finish.Guarded) :
    ∃ finish, raceMachine.Reaches race finish ∧ ¬ finish.Guarded := by
  have transition : raceMachine.transition race .recv finish := by
    simp only [Machine.transition, raceMachine, sound, Option.isSome_none, Bool.false_eq_true,
      if_false]
    exact moved
  exact ⟨finish, ReachesUnder.refl.tail trivial transition, broken⟩

/-- Where `close` and `recv` meet, at most one more operation of `recv` breaks
the contract. -/
private theorem Race.Safe.meets (safe : race.Safe) {label : RaceStep}
    (meets : ¬ race.Apart label) (step : raceMachine.next race label = some after) :
    ∃ finish, raceMachine.Reaches after finish ∧ ¬ finish.Guarded := by
  simp only [raceMachine, safe.sound, Option.isSome_none, Bool.false_eq_true, if_false] at step
  cases label with
  | recv => exact absurd trivial meets
  | frame frame => exact absurd trivial meets
  | listen =>
      rw [Race.Apart] at meets
      split at meets
      next closeQueue posted stands =>
        have deleted := safe.deletes posted step
        subst deleted
        refine broken_by_recv safe.sound (by rw [Race.recvStep, stands]) ?_
        intro guarded
        exact absurd (guarded.takes _ rfl).2.2 Bool.false_ne_true
      next closeQueue recvQueue posted stands =>
        have deleted := safe.deletes posted step
        subst deleted
        refine ⟨_, .refl, ?_⟩
        intro guarded
        exact absurd (guarded.takes _ stands).2.2 Bool.false_ne_true
      next closeQueue block posted stands =>
        have deleted := safe.deletes posted step
        subst deleted
        refine broken_by_recv safe.sound (by rw [Race.recvStep, stands]) ?_
        intro guarded
        exact absurd guarded.sound (Option.some_ne_none _)
      next deleted stands =>
        rw [Race.step, Race.listenStep, deleted] at step
        cases step
        refine broken_by_recv safe.sound (by rw [Race.recvStep, stands]) ?_
        intro guarded
        have pointer : Pointer.null = .object := (guarded.waits _ rfl).1
        cases pointer
      next block semErased stands =>
        rw [Race.step, Race.listenStep, semErased] at step
        cases step
        refine broken_by_recv safe.sound (by rw [Race.recvStep, stands]) ?_
        intro guarded
        exact absurd (guarded.ends (some block) (by simp [Race.returned])) (Option.some_ne_none _)
      next => exact absurd trivial meets

end Safety

/-- `recv` and `close` on one open socket. As long as `close` does not meet a
`recv` that stands between its status test and its return, or between `find`
and `sem_map[sock]`, every state reached meets the contract of `recv`. The
first meeting, on the other hand, always has a continuation that breaks it. -/
theorem recv_safe_apart {start : Race} (opened : start.Opened) :
    (∀ finish, raceMachine.ReachesUnder Race.Apart start finish → finish.Guarded) ∧
    ∀ race label after, raceMachine.ReachesUnder Race.Apart start race →
      ¬ race.Apart label → raceMachine.next race label = some after →
      ∃ finish, raceMachine.Reaches after finish ∧ ¬ finish.Guarded := by
  have safe : ∀ finish, raceMachine.ReachesUnder Race.Apart start finish → finish.Safe :=
    fun finish reached =>
      reached.invariant opened.safe fun safe apart step => safe.next apart step
  refine ⟨?_, ?_⟩
  · intro finish reached
    exact (safe finish reached).guarded
  · intro race label after reached meets step
    exact (safe race reached).meets meets step

/-- A socket with an empty queue, just opened. -/
def Race.fresh : Race where
  socket := ⟨some .object, some .object, some 1, 0, some []⟩
  recv := .idle
  listener := .idle
  closed := false
  late := []
  fault := none

theorem Race.fresh_opened : Race.fresh.Opened := by
  refine ⟨rfl, rfl, rfl, ⟨[], rfl, rfl⟩, rfl, rfl, rfl, rfl, rfl⟩

/-- Delivery of one block, its receipt, and a close that finds `recv` blocked. -/
def closeWhileBlocked : List RaceStep :=
  .frame (.sock [7]) :: List.replicate 4 .listen ++ List.replicate 8 .recv ++
    List.replicate 2 .recv ++ .frame .close :: List.replicate 9 .listen ++
    List.replicate 3 .recv

/-- The blocked `recv` returns -1. -/
theorem recv_safe_apart_blocked : ∃ finish,
    raceMachine.ReachesUnder Race.Apart .fresh finish ∧ finish.late = [none] ∧
      finish.Guarded := by
  obtain ⟨finish, reached, holds⟩ := Machine.exists_of_run
    (show ((raceMachine.run Race.Apart .fresh closeWhileBlocked).map
      fun finish => decide (finish.late = [none])) = some true by decide +kernel)
  exact ⟨finish, reached, of_decide_eq_true holds,
    (recv_safe_apart Race.fresh_opened).1 finish reached⟩

/-- A `recv` that has passed the status test when `close` runs. -/
def closeAfterTest : List RaceStep :=
  .frame (.sock [7]) :: List.replicate 4 .listen ++ List.replicate 4 .recv ++
    .frame .close :: List.replicate 9 .listen ++ List.replicate 2 .recv

/-- A `recv` between `find` and `sem_map[sock]` when `close` runs. -/
def closeAfterFind : List RaceStep :=
  .recv :: .frame .close :: List.replicate 9 .listen ++ List.replicate 2 .recv

/-- A `recv` that has popped its block when `close` runs. -/
def closeAfterPop : List RaceStep :=
  .frame (.sock [7]) :: List.replicate 4 .listen ++ List.replicate 7 .recv ++
    .frame .close :: List.replicate 9 .listen ++ List.replicate 1 .recv

/-- Without the lock around its look-ups, `recv` takes the front of a null queue
that it inserts after the close, waits on a null semaphore that it inserts, or
returns a block after the close. -/
theorem recv_meets_close : Race.fresh.Opened ∧
    (∃ finish, raceMachine.Reaches .fresh finish ∧ finish.closed = true ∧
      finish.recv = .loaded .null ∧ finish.fault = some .nullPointer ∧
      finish.socket.queueEntry = some .null) ∧
    (∃ finish, raceMachine.Reaches .fresh finish ∧ finish.closed = true ∧
      finish.fault = some .nullPointer ∧ finish.socket.semEntry = some .null) ∧
    ∃ finish, raceMachine.Reaches .fresh finish ∧ finish.late = [some [7]] := by
  refine ⟨Race.fresh_opened, ?_, ?_, ?_⟩
  · obtain ⟨finish, reached, holds⟩ := Machine.exists_of_run
      (show ((raceMachine.run (fun _ _ => True) .fresh closeAfterTest).map fun finish =>
        decide (finish.closed = true ∧ finish.recv = .loaded .null ∧
          finish.fault = some .nullPointer ∧ finish.socket.queueEntry = some .null)) =
        some true by decide +kernel)
    exact ⟨finish, reached, of_decide_eq_true holds⟩
  · obtain ⟨finish, reached, holds⟩ := Machine.exists_of_run
      (show ((raceMachine.run (fun _ _ => True) .fresh closeAfterFind).map fun finish =>
        decide (finish.closed = true ∧ finish.fault = some .nullPointer ∧
          finish.socket.semEntry = some .null)) = some true by decide +kernel)
    exact ⟨finish, reached, of_decide_eq_true holds⟩
  · obtain ⟨finish, reached, holds⟩ := Machine.exists_of_run
      (show ((raceMachine.run (fun _ _ => True) .fresh closeAfterPop).map fun finish =>
        decide (finish.late = [some [7]])) = some true by decide +kernel)
    exact ⟨finish, reached, of_decide_eq_true holds⟩

end PaintingCPS
