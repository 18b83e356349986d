import PaintingCPS.Handshake.Refinement

/-!
Contract: two C++ ends that both connect and accept.

Thread 0 of an end loops on `accept`, its other threads call the other methods.
`connect` holds `id_lock` until its answer comes, and the peer answers under
its own `id_lock`. Two `connect` calls that both wait for an answer wait for
each other; as long as no end asks while the other one waits, nobody is stuck.

Owns: the states in which nobody can go on, and the runs that avoid them.

Does not own: the ids, which are those of the rendezvous.
-/

set_option autoImplicit false

namespace PaintingCPS

open Foundation

/-! ## Deadlock -/

/-- The thread that moves; `send` and the steps of the listener are nobody's. -/
def Move.thread : Move → Option Nat
  | connectLock thread | connectSend thread | connectTake thread | connectRegister thread
  | connectReturn thread | acceptWait thread | acceptAllocate thread | acceptSend thread
  | acceptRegister thread | acceptReturn thread | closeTables thread _ | closeSend thread =>
      some thread
  | send _ _ | receive | dispatch => none

/-- Thread 0 calls `accept` and nothing else, the others do not call it. -/
def Move.Assigned (move : Move) : Prop :=
  ∀ thread ∈ move.thread, move.accepts = true ↔ thread = 0

instance (move : Move) : Decidable move.Assigned :=
  inferInstanceAs (Decidable (∀ thread ∈ move.thread, move.accepts = true ↔ thread = 0))

/-- The thread waits: on `accept_sem` between two rounds of its loop, on
`connect_sem`, or on `id_lock`. Another thread without a call does not count. -/
def Party.Waits (party : Party) (thread : Nat) : Prop :=
  match party.pc thread with
  | .idle => thread = 0 → party.endpoint.acceptSem = 0
  | .awaiting => party.endpoint.connectSem = 0
  | .accepting => party.idLock ≠ none
  | _ => False

/-- A call of `connect` is in progress and no thread of either end goes on. -/
structure Handshake.Deadlocked (handshake : Handshake) : Prop where
  connecting : ∃ side thread, ((handshake.party side).pc thread).connects = true
  quiet : ∀ side, (handshake.party side).hand = none ∧ (handshake.party side).inbox = []
  waiting : ∀ side thread, (handshake.party side).Waits thread

/-! ## The condition -/

/-- The thread holds `id_lock` in `connect` and has no answer yet. -/
def Pc.asks : Pc → Bool
  | connecting | awaiting => true
  | _ => false

/-- The end holds its `id_lock` in `connect`, and its peer has not answered. -/
def Peer.unanswered (peer : Peer) : Bool :=
  peer.idLock.any (fun thread => (peer.pc thread).asks) && peer.offers.isEmpty &&
    (Notice.offers peer.arriving).isEmpty

/-- The move takes `id_lock` in `connect`. -/
def Move.asks : Move → Bool
  | connectLock _ => true
  | _ => false

/-- The threads keep to their calls, and `connect` takes `id_lock` only when
the other end does not wait for an answer. -/
def HandshakeStep.Considerate (handshake : Handshake) (label : HandshakeStep) : Prop :=
  label.move.Assigned ∧
    (label.move.asks = true → (handshake.party label.side.peer).peer.unanswered = false)

instance (handshake : Handshake) (label : HandshakeStep) :
    Decidable (label.Considerate handshake) :=
  inferInstanceAs (Decidable (_ ∧ _))

/-! ## The accounts of an end -/

/-- A request was sent and not taken. -/
def Peer.outstanding (peer : Peer) : Nat :=
  if peer.idLock.any (fun thread => decide (peer.pc thread = .awaiting)) then 1 else 0

/-- The acceptor was woken and has not answered. -/
def Pc.pending : Pc → Nat
  | accepting | allocated _ => 1
  | _ => 0

/-- The accounts of an end of which thread 0 accepts and the others connect. -/
structure Peer.Symmetric (peer : Peer) : Prop where
  locked : Locked peer.idLock peer.pc
  held : ∀ thread, peer.idLock = some thread → (peer.pc thread).holds = true
  acceptor : (peer.pc 0).connects = false
  created : peer.history.createsSent = peer.history.taken.length + peer.outstanding
  started : peer.history.acceptsStarted = peer.history.announced.length + (peer.pc 0).pending

section Accounts

variable {peer after : Peer} {move : Move} {message : Option Notice} {thread : Nat} {next : Pc}

/-- The request is that of the lock holder. -/
private theorem Peer.outstanding_of_holder (holder : peer.idLock = some thread) :
    peer.outstanding = if peer.pc thread = .awaiting then 1 else 0 := by
  simp [Peer.outstanding, holder]

private theorem Peer.outstanding_of_free (free : peer.idLock = none) : peer.outstanding = 0 := by
  simp [Peer.outstanding, free]

/-- A thread moves that does not start or stop to wait for an answer. -/
private theorem Peer.outstanding_keep (lock : after.idLock = peer.idLock)
    (pc : after.pc = Function.update peer.pc thread next)
    (same : next = .awaiting ↔ peer.pc thread = .awaiting) :
    after.outstanding = peer.outstanding := by
  unfold Peer.outstanding
  rw [lock, pc]
  congr 2
  cases peer.idLock with
  | none => rfl
  | some holder =>
      by_cases own : holder = thread
      · subst own
        simp [same]
      · simp [Function.update_of_ne own]

private theorem created_keep {created taken : Nat}
    (count : created = taken + peer.outstanding) (lock : after.idLock = peer.idLock)
    (moved : after.pc = Function.update peer.pc thread next)
    (same : next = .awaiting ↔ peer.pc thread = .awaiting) :
    created = taken + after.outstanding := by
  rw [Peer.outstanding_keep lock moved same]
  exact count

private theorem created_holder {pc : Nat → Pc} {created taken : Nat}
    (holder : after.idLock = some thread) (moved : after.pc = Function.update pc thread next)
    (count : created = taken + if next = .awaiting then 1 else 0) :
    created = taken + after.outstanding := by
  rw [Peer.outstanding_of_holder holder, moved, Function.update_self]
  exact count

private theorem held_keep {idLock : Option Nat} {pc : Nat → Pc}
    (held : ∀ holder, idLock = some holder → (pc holder).holds = true)
    (inside : (pc thread).holds = true → next.holds = true) :
    ∀ holder, idLock = some holder → (Function.update pc thread next holder).holds = true := by
  intro holder holds
  by_cases own : holder = thread
  · subst own
    rw [Function.update_self]
    exact inside (held holder holds)
  · rw [Function.update_of_ne own]
    exact held holder holds

private theorem held_acquire {pc : Nat → Pc} (inside : next.holds = true) :
    ∀ holder, some thread = some holder → (Function.update pc thread next holder).holds = true := by
  rintro holder ⟨⟩
  rw [Function.update_self]
  exact inside

/-- A step of `connect` leaves the acceptor alone. -/
private theorem Peer.Symmetric.other (pc : Nat → Pc) (next : Pc) (assigned : move.Assigned)
    (mover : thread ∈ move.thread) (connects : move.accepts = false) :
    Function.update pc thread next 0 = pc 0 := by
  rw [Function.update_of_ne]
  intro same
  have accepts := (assigned thread mover).mpr same.symm
  rw [connects] at accepts
  cases accepts

/-- Every step of a C++ end keeps the accounts. -/
private theorem Peer.Symmetric.step (symmetric : peer.Symmetric) (assigned : move.Assigned)
    (native : ∀ thread, (move = .connectSend thread → peer.pc thread = .connecting) ∧
      (move = .connectLock thread → peer.pc thread = .idle))
    (step : Peer.Step move peer message after) : after.Symmetric := by
  obtain ⟨locked, held, acceptor, created, started⟩ := symmetric
  cases step with
  | @lockFirst _ thread at' free =>
      have other := Peer.Symmetric.other peer.pc .connecting assigned rfl rfl
      rw [free] at locked
      rw [Peer.outstanding_of_free free] at created
      refine ⟨locked.acquire, held_acquire rfl, ?_, ?_, ?_⟩
      · exact (congrArg Pc.connects other).trans acceptor
      · exact created_holder rfl rfl created
      · exact started.trans (congrArg (_ + Pc.pending ·) other).symm
  | @lockLater _ thread at' free =>
      rw [(native thread).2 rfl] at at'
      cases at'
  | @requestFirst _ thread at' =>
      rw [(native thread).1 rfl] at at'
      cases at'
  | @requestLocked _ thread at' =>
      have other := Peer.Symmetric.other peer.pc .awaiting assigned rfl rfl
      have holder := locked thread (by rw [at']; rfl)
      rw [Peer.outstanding_of_holder holder, at'] at created
      refine ⟨locked.keep (by rw [at']; simp [Pc.holds]), held_keep held fun _ => rfl, ?_, ?_, ?_⟩
      · exact (congrArg Pc.connects other).trans acceptor
      · exact created_holder holder rfl (by simpa using created)
      · exact started.trans (congrArg (_ + Pc.pending ·) other).symm
  | @take _ thread id rest at' offered =>
      have other := Peer.Symmetric.other peer.pc (.took id) assigned rfl rfl
      have holder := locked thread (by rw [at']; rfl)
      rw [Peer.outstanding_of_holder holder, at'] at created
      refine ⟨locked.keep (by rw [at']; simp [Pc.holds]), held_keep held fun _ => rfl, ?_, ?_, ?_⟩
      · exact (congrArg Pc.connects other).trans acceptor
      · exact created_holder holder rfl (by simpa using created)
      · exact started.trans (congrArg (_ + Pc.pending ·) other).symm
  | @enterTaken _ thread id at' =>
      have other := Peer.Symmetric.other peer.pc (.entered id) assigned rfl rfl
      refine ⟨locked.keep (by rw [at']; simp [Pc.holds]), held_keep held fun _ => rfl, ?_, ?_, ?_⟩
      · exact (congrArg Pc.connects other).trans acceptor
      · exact created_keep created rfl rfl (by rw [at']; simp)
      · exact started.trans (congrArg (_ + Pc.pending ·) other).symm
  | @connected _ thread id at' =>
      have other := Peer.Symmetric.other peer.pc .idle assigned rfl rfl
      have holder := locked thread (by rw [at']; rfl)
      rw [Peer.outstanding_of_holder holder, at'] at created
      refine ⟨locked.release (by rw [at']; rfl) rfl, fun _ none' => (by cases none'), ?_, ?_, ?_⟩
      · exact (congrArg Pc.connects other).trans acceptor
      · exact created
      · exact started.trans (congrArg (_ + Pc.pending ·) other).symm
  | @wake _ thread at' waiting =>
      obtain rfl : thread = 0 := (assigned thread rfl).mp rfl
      refine ⟨locked.keep (by rw [at']; simp [Pc.holds]),
        held_keep held (by rw [at']; simp [Pc.holds]), ?_, ?_, ?_⟩
      · exact congrArg Pc.connects (Function.update_self 0 _ peer.pc)
      · exact created_keep created rfl rfl (by rw [at']; simp)
      · rw [at'] at started
        simpa [Peer.goto, Pc.pending] using started
  | @allocate _ thread id at' free above small unknown skipped =>
      obtain rfl : thread = 0 := (assigned thread rfl).mp rfl
      rw [free] at locked
      rw [Peer.outstanding_of_free free] at created
      refine ⟨locked.acquire, held_acquire rfl, ?_, ?_, ?_⟩
      · exact congrArg Pc.connects (Function.update_self 0 _ peer.pc)
      · exact created_holder rfl rfl created
      · rw [at'] at started
        simpa [Peer.goto, Pc.pending] using started
  | @announce _ thread id at' =>
      obtain rfl : thread = 0 := (assigned thread rfl).mp rfl
      refine ⟨locked.keep (by rw [at']; simp [Pc.holds]), held_keep held fun _ => rfl, ?_, ?_, ?_⟩
      · exact congrArg Pc.connects (Function.update_self 0 _ peer.pc)
      · exact created_keep created rfl rfl (by rw [at']; simp)
      · rw [at'] at started
        simpa [Peer.goto, Pc.pending] using started
  | @enterAnnounced _ thread id at' =>
      obtain rfl : thread = 0 := (assigned thread rfl).mp rfl
      refine ⟨locked.keep (by rw [at']; simp [Pc.holds]), held_keep held fun _ => rfl, ?_, ?_, ?_⟩
      · exact congrArg Pc.connects (Function.update_self 0 _ peer.pc)
      · exact created_keep created rfl rfl (by rw [at']; simp)
      · rw [at'] at started
        simpa [Peer.goto, Peer.enter, Pc.pending] using started
  | @accepted _ thread id at' =>
      obtain rfl : thread = 0 := (assigned thread rfl).mp rfl
      have holder := locked 0 (by rw [at']; rfl)
      rw [Peer.outstanding_of_holder holder, at'] at created
      refine ⟨locked.release (by rw [at']; rfl) rfl, fun _ none' => (by cases none'), ?_, ?_, ?_⟩
      · exact congrArg Pc.connects (Function.update_self 0 _ peer.pc)
      · exact created
      · rw [at'] at started
        simpa [Peer.goto, Pc.pending] using started
  | @close _ thread id at' open' =>
      have other := Peer.Symmetric.other peer.pc (.closing id) assigned rfl rfl
      refine ⟨locked.keep (by simp [Pc.holds]),
        held_keep held (by simp [Peer.forget, at', Pc.holds]), ?_, ?_, ?_⟩
      · exact (congrArg Pc.connects other).trans acceptor
      · exact created_keep created rfl rfl (by rw [at']; simp)
      · exact started.trans (congrArg (_ + Pc.pending ·) other).symm
  | @notify _ thread id at' =>
      have other := Peer.Symmetric.other peer.pc .idle assigned rfl rfl
      refine ⟨locked.keep (by simp [Pc.holds]), held_keep held (by rw [at']; simp [Pc.holds]),
        ?_, ?_, ?_⟩
      · exact (congrArg Pc.connects other).trans acceptor
      · exact created_keep created rfl rfl (by rw [at']; simp)
      · exact started.trans (congrArg (_ + Pc.pending ·) other).symm
  | send open' => exact ⟨locked, held, acceptor, created, started⟩
  | refuse waiting => exact ⟨locked, held, acceptor, created, started⟩
  | @hear _ heard rest waiting =>
      obtain ⟨pcSame, lockSame, -, -⟩ := peer.hear_same heard
      rw [History.observe_same]
      refine ⟨?_, ?_, ?_, created.trans (congrArg _ ?_), ?_⟩
      · exact lockSame ▸ pcSame ▸ locked
      · exact lockSame ▸ pcSame ▸ held
      · exact pcSame ▸ acceptor
      · simp only [Peer.outstanding, lockSame, pcSame]
      · exact pcSame ▸ started

/-! ## Who waits for an answer -/

theorem Peer.unanswered_iff : peer.unanswered = true ↔
    ∃ thread, peer.idLock = some thread ∧ (peer.pc thread).asks = true ∧ peer.offers = [] ∧
      Notice.offers peer.arriving = [] := by
  cases lock : peer.idLock <;> simp [Peer.unanswered, lock, and_assoc]

/-- A thread moves on without taking the lock. -/
private theorem Peer.unanswered_keep (asks : after.unanswered = true)
    (lock : after.idLock = peer.idLock) (offers : after.offers = peer.offers)
    (arriving : after.arriving = peer.arriving)
    (moved : after.pc = Function.update peer.pc thread next)
    (inside : next.asks = true → (peer.pc thread).asks = true) : peer.unanswered = true := by
  obtain ⟨holder, holds, asking, noOffer, noAnswer⟩ := Peer.unanswered_iff.mp asks
  rw [lock] at holds
  rw [offers] at noOffer
  rw [arriving] at noAnswer
  refine Peer.unanswered_iff.mpr ⟨holder, holds, ?_, noOffer, noAnswer⟩
  rw [moved] at asking
  by_cases own : holder = thread
  · subst own
    rw [Function.update_self] at asking
    exact inside asking
  · rw [Function.update_of_ne own] at asking
    exact asking

/-- An end begins to wait for an answer by taking the lock. -/
private theorem Peer.Step.unanswered (step : Peer.Step move peer message after)
    (locked : Locked peer.idLock peer.pc) (asks : after.unanswered = true) :
    peer.unanswered = true ∨ move.asks = true := by
  cases step with
  | lockFirst | lockLater => exact .inr rfl
  | requestLocked at' =>
      exact .inl (Peer.unanswered_keep asks rfl rfl rfl rfl (by rw [at']; simp [Pc.asks]))
  | requestFirst | enterTaken | wake | announce | enterAnnounced | close | notify =>
      exact .inl (Peer.unanswered_keep asks rfl rfl rfl rfl (by simp [Pc.asks]))
  | @take _ thread id rest at' offered =>
      obtain ⟨holder, holds, asking, -, -⟩ := Peer.unanswered_iff.mp asks
      obtain rfl : thread = holder :=
        Option.some.inj ((locked thread (by rw [at']; rfl)).symm.trans holds)
      change (Function.update peer.pc thread (.took id) thread).asks = true at asking
      rw [Function.update_self] at asking
      cases asking
  | connected | accepted => simp [Peer.unanswered] at asks
  | allocate => simp [Peer.unanswered, Peer.goto, Pc.asks] at asks
  | send => exact .inl asks
  | refuse waiting =>
      left
      simpa [Peer.unanswered, waiting, Notice.offer] using asks
  | @hear _ heard rest waiting =>
      left
      obtain ⟨holder, holds, asking, noOffer, noAnswer⟩ := Peer.unanswered_iff.mp asks
      obtain ⟨pcSame, lockSame, -, -⟩ := peer.hear_same heard
      refine Peer.unanswered_iff.mpr ⟨holder, ?_, ?_, ?_, ?_⟩
      · rw [← lockSame]
        exact holds
      · rw [← pcSame]
        exact asking
      · cases heard with
        | accepted id => simp [Peer.hear] at noOffer
        | create | data | close => exact noOffer
      · cases heard with
        | accepted id => simp [Peer.hear] at noOffer
        | create | data | close =>
            rw [waiting]
            exact noAnswer

theorem Peer.unanswered_of_post (asks : (peer.post message).unanswered = true) :
    peer.unanswered = true := by
  obtain ⟨holder, holds, asking, noOffer, noAnswer⟩ := Peer.unanswered_iff.mp asks
  rw [Peer.post, Notice.offers_append, List.append_eq_nil_iff] at noAnswer
  exact Peer.unanswered_iff.mpr ⟨holder, holds, asking, noOffer, noAnswer.1⟩

/-- Of an end that waits for an answer, only the threads outside the lock and
the request itself move. It answers nobody. -/
private theorem Peer.Step.still_unanswered (step : Peer.Step move peer message after)
    (symmetric : peer.Symmetric)
    (native : ∀ thread, (move = .connectSend thread → peer.pc thread = .connecting) ∧
      (move = .connectLock thread → peer.pc thread = .idle))
    (asks : peer.unanswered = true) :
    after.unanswered = true ∧ Notice.offers message.toList = [] := by
  obtain ⟨holder, holds, asking, noOffer, noAnswer⟩ := Peer.unanswered_iff.mp asks
  have inside : ∀ thread, (peer.pc thread).holds = true → thread = holder := fun thread at' =>
    Option.some.inj ((symmetric.locked thread at').symm.trans holds)
  have outside : ∀ {thread : Nat} (next : Pc), (peer.pc thread).holds = false →
      (Function.update peer.pc thread next holder).asks = true := by
    intro thread next at'
    rw [Function.update_of_ne]
    · exact asking
    · intro same
      have held := symmetric.held holder holds
      rw [same, at'] at held
      cases held
  cases step with
  | lockFirst at' free | lockLater at' free =>
      rw [free] at holds
      cases holds
  | allocate at' free =>
      rw [free] at holds
      cases holds
  | @requestFirst _ thread at' =>
      rw [(native thread).1 rfl] at at'
      cases at'
  | @requestLocked _ thread at' =>
      obtain rfl := inside thread (by rw [at']; rfl)
      refine ⟨Peer.unanswered_iff.mpr ⟨thread, holds, ?_, noOffer, noAnswer⟩, rfl⟩
      exact congrArg Pc.asks (Function.update_self thread _ peer.pc)
  | take at' offered =>
      rw [offered] at noOffer
      cases noOffer
  | @enterTaken _ thread id at' | @connected _ thread id at' | @announce _ thread id at'
  | @enterAnnounced _ thread id at' | @accepted _ thread id at' =>
      obtain rfl := inside thread (by rw [at']; rfl)
      rw [at'] at asking
      cases asking
  | wake at' =>
      exact ⟨Peer.unanswered_iff.mpr ⟨holder, holds, outside .accepting (by rw [at']; rfl),
        noOffer, noAnswer⟩, rfl⟩
  | @close _ thread id at' =>
      exact ⟨Peer.unanswered_iff.mpr ⟨holder, holds, outside (.closing id) (by rw [at']; rfl),
        noOffer, noAnswer⟩, rfl⟩
  | notify at' =>
      exact ⟨Peer.unanswered_iff.mpr ⟨holder, holds, outside .idle (by rw [at']; rfl),
        noOffer, noAnswer⟩, rfl⟩
  | send => exact ⟨asks, rfl⟩
  | refuse waiting =>
      rw [waiting] at noAnswer
      exact ⟨Peer.unanswered_iff.mpr ⟨holder, holds, asking, noOffer, noAnswer⟩, rfl⟩
  | @hear _ heard rest waiting =>
      rw [waiting] at noAnswer
      refine ⟨Peer.unanswered_iff.mpr ⟨holder, ?_⟩, rfl⟩
      cases heard with
      | accepted id => cases noAnswer
      | create | data | close => exact ⟨holds, asking, noOffer, noAnswer⟩

/-- Only the thread of a move moves. -/
private theorem Peer.Step.pc_other (step : Peer.Step move peer message after)
    (stays : move.thread ≠ some thread) : after.pc thread = peer.pc thread := by
  cases step with
  | send | refuse => rfl
  | @hear _ heard => exact congrFun (peer.hear_same heard).1 thread
  | _ => exact Function.update_of_ne (fun same => stays (by rw [same]; rfl)) _ _

end Accounts

/-! ## Runs -/

/-- What every run of two C++ ends maintains. -/
private structure Handshake.Accounted (handshake : Handshake) : Prop where
  sound : handshake.Sound .cpp
  accounts : ∀ side, (handshake.view side).Symmetric
  conserves : handshake.view.Conserves

private theorem Handshake.init_accounted : Handshake.init.Accounted where
  sound := Handshake.init_sound .cpp
  accounts _ :=
    { locked := fun _ holds => by cases holds
      held := fun _ holds => by cases holds
      acceptor := rfl
      created := rfl
      started := rfl }
  conserves := ⟨fun side => by cases side <;> rfl, fun side => by cases side <;> rfl⟩

private theorem Party.connectSend_cpp (party : Party) (thread : Nat) (junk : Nat → Byte) :
    party.connectSend thread .cpp junk = none ∨ party.pc thread = .connecting := by
  unfold Party.connectSend
  cases at' : party.pc thread with
  | connecting => exact .inr rfl
  | _ => exact .inl rfl

private theorem Party.connectLock_cpp (party : Party) (thread : Nat) :
    party.connectLock thread .cpp = none ∨ party.pc thread = .idle := by
  unfold Party.connectLock
  cases at' : party.pc thread with
  | idle => exact .inr rfl
  | _ => exact .inl rfl

/-- In C++ the lock comes before the request. -/
private theorem Handshake.native {mfrecv : List Byte → Option (List Byte)}
    {handshake after : Handshake} {label : HandshakeStep}
    (step : (handshakeMachine mfrecv .cpp).transition handshake label after) (thread : Nat) :
    (label.move = .connectSend thread → (handshake.view label.side).pc thread = .connecting) ∧
      (label.move = .connectLock thread → (handshake.view label.side).pc thread = .idle) := by
  obtain ⟨side, junk, move⟩ := label
  simp only [Machine.transition, handshakeMachine, side.language_cpp] at step
  split at step
  next => cases step
  next =>
    refine ⟨?_, ?_⟩
    · rintro rfl
      refine ((handshake.party side).connectSend_cpp thread junk).resolve_left fun disabled => ?_
      rw [Party.move, disabled] at step
      cases step
    · rintro rfl
      refine ((handshake.party side).connectLock_cpp thread).resolve_left fun disabled => ?_
      rw [Party.move, disabled] at step
      cases step

private theorem Handshake.Accounted.next {mfrecv : List Byte → Option (List Byte)}
    (contract : ReceiveContract mfrecv) {handshake after : Handshake} {label : HandshakeStep}
    (accounted : handshake.Accounted) (assigned : label.move.Assigned)
    (step : (handshakeMachine mfrecv .cpp).transition handshake label after) :
    after.Accounted := by
  obtain ⟨sound, same | stepped⟩ := Handshake.step_refines_cpp contract accounted.sound step
  · exact ⟨sound, same ▸ accounted.accounts, same ▸ accounted.conserves⟩
  · refine ⟨sound, ?_, accounted.conserves.step stepped⟩
    obtain ⟨message, peer, moved, view⟩ := stepped
    intro side
    rw [view]
    dsimp only
    by_cases mover : side = label.side
    · rw [if_pos mover]
      exact (accounted.accounts label.side).step assigned (Handshake.native step) moved
    · rw [if_neg mover]
      obtain ⟨locked, held, acceptor, created, started⟩ := accounted.accounts side
      exact ⟨locked, held, acceptor, created, started⟩

/-- What a run with considerate threads maintains. -/
private structure Handshake.Shared (handshake : Handshake) : Prop
    extends handshake.Accounted where
  answered : ∀ side, (handshake.view side).unanswered = true →
    (handshake.view side.peer).unanswered = false

private theorem Handshake.init_shared : Handshake.init.Shared where
  toAccounted := Handshake.init_accounted
  answered side := by cases side <;> intro asks <;> cases asks

private theorem Handshake.Shared.next {mfrecv : List Byte → Option (List Byte)}
    (contract : ReceiveContract mfrecv) {handshake after : Handshake} {label : HandshakeStep}
    (shared : handshake.Shared) (considerate : label.Considerate handshake)
    (step : (handshakeMachine mfrecv .cpp).transition handshake label after) : after.Shared := by
  obtain ⟨assigned, yields⟩ := considerate
  refine ⟨shared.toAccounted.next contract assigned step, ?_⟩
  obtain ⟨-, same | ⟨message, peer, moved, view⟩⟩ :=
    Handshake.step_refines_cpp contract shared.sound step
  · exact same ▸ shared.answered
  -- the mover asks as before, or it takes the lock and its peer does not ask
  have mover : peer.unanswered = true →
      ((handshake.view label.side.peer).post message).unanswered = false := by
    intro asks
    rw [Bool.eq_false_iff]
    intro peerAsks
    have before := Peer.unanswered_of_post peerAsks
    rcases moved.unanswered (shared.accounts label.side).locked asks with earlier | takes
    · rw [shared.answered label.side earlier] at before
      cases before
    · rw [show (handshake.view label.side.peer).unanswered = false from yields takes] at before
      cases before
  intro side asks
  rw [view] at asks ⊢
  dsimp only at asks ⊢
  by_cases own : side = label.side
  · subst own
    rw [if_pos rfl] at asks
    rw [if_neg label.side.peer_ne]
    exact mover asks
  · have other := Side.eq_peer_of_ne own
    subst other
    rw [if_neg own] at asks
    rw [Side.peer_peer, if_pos rfl, Bool.eq_false_iff]
    intro moverAsks
    rw [mover moverAsks] at asks
    cases asks

/-- A thread that is in a call, or that accepts, and waits while it holds the
lock, waits for an answer. -/
private theorem Party.Waits.awaiting {party : Party} {thread : Nat} (waits : party.Waits thread)
    (inside : (party.pc thread).holds = true ∨ (party.pc thread).connects = true) :
    party.pc thread = .awaiting ∧ party.endpoint.connectSem = 0 := by
  cases at' : party.pc thread with
  | awaiting =>
      simp only [Party.Waits, at'] at waits
      exact ⟨rfl, waits⟩
  | idle | accepting => simp [at', Pc.holds, Pc.connects] at inside
  | _ => simp [Party.Waits, at'] at waits

/-- In a deadlock a thread that awaits an answer makes its end ask. -/
private theorem Handshake.Deadlocked.unanswered {handshake : Handshake}
    (deadlocked : handshake.Deadlocked) (shared : handshake.Shared) {side : Side} {thread : Nat}
    (awaiting : (handshake.party side).pc thread = .awaiting)
    (permits : (handshake.party side).endpoint.connectSem = 0) :
    (handshake.view side).unanswered = true ∧ (handshake.view side).outstanding = 1 ∧
      (handshake.view side).offers = [] := by
  have holder : (handshake.view side).idLock = some thread :=
    (shared.accounts side).locked thread (show ((handshake.party side).pc thread).holds = true by
      rw [awaiting]; rfl)
  have noOffer : (handshake.view side).offers = [] := by
    have length := (shared.sound side).permits
    rw [permits] at length
    exact List.length_eq_zero_iff.mp length.symm
  have noAnswer : (handshake.view side).arriving = [] := by
    obtain ⟨hand, inbox⟩ := deadlocked.quiet side
    simp [Handshake.view, Party.peer, hand, inbox]
  refine ⟨Peer.unanswered_iff.mpr ⟨thread, holder, ?_, noOffer, ?_⟩, ?_, noOffer⟩
  · exact congrArg Pc.asks awaiting
  · rw [noAnswer]
    rfl
  · rw [Peer.outstanding_of_holder holder]
    exact if_pos awaiting

/-- Two ends of which at most one asks are not deadlocked. -/
private theorem Handshake.Shared.not_deadlocked {handshake : Handshake}
    (shared : handshake.Shared) : ¬ handshake.Deadlocked := by
  intro deadlocked
  have silent : ∀ side, (handshake.view side).arriving = [] := by
    intro side
    obtain ⟨hand, inbox⟩ := deadlocked.quiet side
    simp [Handshake.view, Party.peer, hand, inbox]
  obtain ⟨side, thread, connects⟩ := deadlocked.connecting
  obtain ⟨awaiting, permits⟩ := (deadlocked.waiting side thread).awaiting (.inr connects)
  obtain ⟨asks, outstanding, noOffer⟩ := deadlocked.unanswered shared awaiting permits
  -- its request has woken the acceptor of the peer or is about to
  have created := (shared.accounts side).created
  have announced := congrArg List.length (shared.conserves.offers side)
  have requested := shared.conserves.requests side.peer
  have started := (shared.accounts side.peer).started
  rw [noOffer, silent, List.append_nil, Notice.offers_nil, List.append_nil] at announced
  rw [silent, Side.peer_peer, created, outstanding, started, announced] at requested
  have woken : (handshake.view side.peer).requests +
      ((handshake.view side.peer).pc 0).pending = 1 := by
    rw [show Notice.creates [] = 0 from rfl] at requested
    omega
  have acceptor := (shared.accounts side.peer).acceptor
  have waits := deadlocked.waiting side.peer 0
  cases at' : (handshake.party side.peer).pc 0 with
  | idle =>
      simp only [Party.Waits, at'] at waits
      rw [show (handshake.view side.peer).pc 0 = .idle from at',
        show (handshake.view side.peer).requests = 0 from waits trivial] at woken
      cases woken
  | accepting =>
      -- it waits for the lock, whose holder waits for an answer as well
      simp only [Party.Waits, at'] at waits
      obtain ⟨holder, holds⟩ := Option.ne_none_iff_exists'.mp waits
      obtain ⟨peerAwaiting, peerPermits⟩ := (deadlocked.waiting side.peer holder).awaiting
        (.inl ((shared.accounts side.peer).held holder holds))
      obtain ⟨peerAsks, -, -⟩ := deadlocked.unanswered shared peerAwaiting peerPermits
      rw [shared.answered side asks] at peerAsks
      cases peerAsks
  | awaiting =>
      rw [show (handshake.view side.peer).pc 0 = .awaiting from at'] at acceptor
      cases acceptor
  | _ => simp [Party.Waits, at'] at waits

/-- As long as `connect` does not take `id_lock` while the other end waits for
an answer, no reachable state is a deadlock. -/
theorem symmetric_never_deadlocks {mfrecv : List Byte → Option (List Byte)}
    (contract : ReceiveContract mfrecv) {finish : Handshake}
    (reached : (handshakeMachine mfrecv .cpp).ReachesUnder
      (fun handshake label => label.Considerate handshake) .init finish) :
    ¬ finish.Deadlocked :=
  Handshake.Shared.not_deadlocked <| reached.invariant Handshake.init_shared
    fun shared considerate step => shared.next contract considerate step

/-- Two runs of `connect` one after the other, one on each end. -/
def symmetricSchedule : List HandshakeStep :=
  let connects : Side → List HandshakeStep := fun side =>
    [⟨side, fun _ => 0, .connectLock 1⟩, ⟨side, fun _ => 0, .connectSend 1⟩,
      ⟨side.peer, fun _ => 0, .receive⟩, ⟨side.peer, fun _ => 0, .dispatch⟩,
      ⟨side.peer, fun _ => 0, .acceptWait 0⟩, ⟨side.peer, fun _ => 0, .acceptAllocate 0⟩,
      ⟨side.peer, fun _ => 0, .acceptSend 0⟩, ⟨side.peer, fun _ => 0, .acceptRegister 0⟩,
      ⟨side.peer, fun _ => 0, .acceptReturn 0⟩, ⟨side, fun _ => 0, .receive⟩,
      ⟨side, fun _ => 0, .dispatch⟩, ⟨side, fun _ => 0, .connectTake 1⟩,
      ⟨side, fun _ => 0, .connectRegister 1⟩, ⟨side, fun _ => 0, .connectReturn 1⟩]
  connects .client ++ connects .server

theorem symmetric_never_deadlocks_both : ∃ finish : Handshake,
    (finish.party .client).history.connected = [1] ∧
    (finish.party .server).history.connected = [2] ∧ ¬ finish.Deadlocked := by
  obtain ⟨finish, reached, connected⟩ := Machine.exists_of_run
    (show (((handshakeMachine boundedReceive .cpp).run
        (fun handshake label => label.Considerate handshake) .init symmetricSchedule).map
      fun finish => decide ((finish.party .client).history.connected = [1] ∧
        (finish.party .server).history.connected = [2])) = some true by decide +kernel)
  obtain ⟨client, server⟩ := of_decide_eq_true connected
  exact ⟨finish, client, server, symmetric_never_deadlocks boundedReceive_contract reached⟩

/-! ## Two ends that ask at once -/

private theorem Handshake.Accounted.asks {mfrecv : List Byte → Option (List Byte)}
    (contract : ReceiveContract mfrecv) {handshake after : Handshake} {label : HandshakeStep}
    (accounted : handshake.Accounted) (asks : ∀ side, (handshake.view side).unanswered = true)
    (step : (handshakeMachine mfrecv .cpp).transition handshake label after) :
    ∀ side, (after.view side).unanswered = true := by
  obtain ⟨-, same | ⟨message, peer, moved, view⟩⟩ :=
    Handshake.step_refines_cpp contract accounted.sound step
  · exact same ▸ asks
  obtain ⟨still, silent⟩ := moved.still_unanswered (accounted.accounts label.side)
    (Handshake.native step) (asks label.side)
  intro side
  rw [view]
  dsimp only
  by_cases own : side = label.side
  · rw [if_pos own]
    exact still
  · rw [if_neg own]
    obtain ⟨holder, holds, asking, noOffer, noAnswer⟩ := Peer.unanswered_iff.mp (asks side)
    refine Peer.unanswered_iff.mpr ⟨holder, holds, asking, noOffer, ?_⟩
    rw [Peer.post, Notice.offers_append, silent, List.append_nil]
    exact noAnswer

/-- Once both ends wait for an answer, both wait for ever. -/
theorem symmetric_waits {mfrecv : List Byte → Option (List Byte)}
    (contract : ReceiveContract mfrecv) {middle finish : Handshake}
    (reached : (handshakeMachine mfrecv .cpp).ReachesUnder
      (fun _ label => label.move.Assigned) .init middle)
    (asks : ∀ side, (middle.party side).peer.unanswered = true)
    (later : (handshakeMachine mfrecv .cpp).ReachesUnder
      (fun _ label => label.move.Assigned) middle finish) :
    ∀ side, (finish.party side).peer.unanswered = true := by
  have accounted : middle.Accounted :=
    reached.invariant Handshake.init_accounted fun before assigned step =>
      before.next contract assigned step
  have kept : finish.Accounted ∧ ∀ side, (finish.party side).peer.unanswered = true := by
    apply later.invariant (And.intro accounted asks)
    intro handshake after label before assigned step
    exact ⟨before.1.next contract assigned step, before.1.asks contract before.2 step⟩
  exact kept.2

/-- Both ends lock and ask; then each hears the request of the other. -/
def deadlockSchedule : List HandshakeStep :=
  let asks : Side → List HandshakeStep := fun side =>
    [⟨side, fun _ => 0, .connectLock 1⟩, ⟨side, fun _ => 0, .connectSend 1⟩]
  let hears : Side → List HandshakeStep := fun side =>
    [⟨side, fun _ => 0, .receive⟩, ⟨side, fun _ => 0, .dispatch⟩,
      ⟨side, fun _ => 0, .acceptWait 0⟩]
  asks .client ++ asks .server ++ hears .client ++ hears .server

/-- Two ends that ask at once reach a deadlock. -/
theorem symmetric_deadlocks : ∃ finish : Handshake,
    (handshakeMachine boundedReceive .cpp).ReachesUnder (fun _ label => label.move.Assigned)
      .init finish ∧ finish.Deadlocked := by
  obtain ⟨finish, reached, holds⟩ := Machine.exists_of_run
    (show (((handshakeMachine boundedReceive .cpp).run
        (fun _ label => label.move.Assigned ∧ ∀ thread ∈ label.move.thread, thread ≤ 1) .init
        deadlockSchedule).map fun finish => decide (
          ((finish.party .client).pc 0 = .accepting ∧ (finish.party .client).pc 1 = .awaiting ∧
            (finish.party .client).idLock = some 1 ∧
            (finish.party .client).endpoint.connectSem = 0 ∧
            (finish.party .client).hand = none ∧ (finish.party .client).inbox = []) ∧
          (finish.party .server).pc 0 = .accepting ∧ (finish.party .server).pc 1 = .awaiting ∧
            (finish.party .server).idLock = some 1 ∧
            (finish.party .server).endpoint.connectSem = 0 ∧
            (finish.party .server).hand = none ∧ (finish.party .server).inbox = [])) =
      some true by decide +kernel)
  have ends : ∀ side, (finish.party side).pc 0 = .accepting ∧
      (finish.party side).pc 1 = .awaiting ∧ (finish.party side).idLock = some 1 ∧
      (finish.party side).endpoint.connectSem = 0 ∧ (finish.party side).hand = none ∧
      (finish.party side).inbox = [] := by
    obtain ⟨client, server⟩ := of_decide_eq_true holds
    intro side
    cases side with
    | client => exact client
    | server => exact server
  have others : finish.Sound .cpp ∧
      ∀ side thread, 1 < thread → (finish.party side).pc thread = .idle := by
    apply reached.invariant (And.intro (Handshake.init_sound .cpp) fun _ _ _ => rfl)
    intro handshake after label before allowed step
    obtain ⟨sound, same | ⟨message, peer, moved, view⟩⟩ :=
      Handshake.step_refines_cpp boundedReceive_contract before.1 step
    · exact ⟨sound, fun side thread large =>
        (congrArg (·.pc thread) (congrFun same side)).trans (before.2 side thread large)⟩
    · refine ⟨sound, fun side thread large => ?_⟩
      rw [show (after.party side).pc thread = (after.view side).pc thread from rfl, view]
      dsimp only
      by_cases own : side = label.side
      · rw [if_pos own, moved.pc_other fun moves => ?_]
        · exact before.2 label.side thread large
        · exact absurd (allowed.2 thread moves) (Nat.not_le.mpr large)
      · rw [if_neg own]
        exact before.2 side thread large
  refine ⟨finish, reached.mono fun _ _ allowed => allowed.1, ?_, ?_, ?_⟩
  · exact ⟨.client, 1, by rw [(ends .client).2.1]; rfl⟩
  · exact fun side => (ends side).2.2.2.2
  · intro side thread
    obtain ⟨accepting, awaiting, locked, permits, -, -⟩ := ends side
    match thread with
    | 0 => simp [Party.Waits, accepting, locked]
    | 1 => simpa [Party.Waits, awaiting] using permits
    | thread + 2 => simp [Party.Waits, others.2 side (thread + 2) (by omega)]

end PaintingCPS
