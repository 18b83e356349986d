import PaintingCPS.Handshake.Threads

/-!
Contract: the handshake without bytes and pointers.

A `Peer` is what an end amounts to for the agreement on ids: a counter, the
pending requests and offers, which ids are open, the lock, the threads, and the
notices on their way here. `Peer.Step` is a relation with one constructor for
each kind of step; a thread may take the lock before or after its request.

Owns: the abstract peers, their steps, and the projections of the lock holder.

Does not own: the refinement by the threads, and any invariant.
-/

set_option autoImplicit false

namespace PaintingCPS

/-- One end of a rendezvous. -/
structure Peer where
  counter : Int
  requests : Nat
  offers : List Int
  /-- The ids that are open. -/
  known : Int → Bool
  /-- The ids of which some map has an entry. -/
  recorded : Int → Bool
  idLock : Option Nat
  pc : Nat → Pc
  /-- The notices on their way here, oldest first. -/
  arriving : List Notice
  history : History

/-- Both ends. -/
abbrev Rendezvous := Side → Peer

namespace Peer

def goto (peer : Peer) (thread : Nat) (pc : Pc) : Peer :=
  { peer with pc := Function.update peer.pc thread pc }

/-- The id is put into the maps. -/
def enter (peer : Peer) (id : Int) : Peer :=
  { peer with
    known := Function.update peer.known id true
    recorded := Function.update peer.recorded id true
    history := { peer.history with registered := peer.history.registered ++ [id] } }

/-- The id is no longer open. -/
def forget (peer : Peer) (id : Int) : Peer :=
  { peer with known := Function.update peer.known id false }

/-- A notice joins those on their way here. -/
def post (peer : Peer) (message : Option Notice) : Peer :=
  { peer with arriving := peer.arriving ++ message.toList }

/-- What the arrival of a notice does. -/
def hear (peer : Peer) : Notice → Peer
  | .create => { peer with requests := peer.requests + 1 }
  | .accepted id => { peer with offers := peer.offers ++ [id] }
  | .data _ => peer
  | .close id => peer.forget id

/-- The steps of one end, with the notice they send. -/
inductive Step : Move → Peer → Option Notice → Peer → Prop
  | lockFirst {peer : Peer} {thread : Nat} :
      peer.pc thread = .idle → peer.idLock = none →
      Step (.connectLock thread) peer none
        { peer.goto thread .connecting with idLock := some thread }
  | lockLater {peer : Peer} {thread : Nat} :
      peer.pc thread = .requested → peer.idLock = none →
      Step (.connectLock thread) peer none
        { peer.goto thread .awaiting with idLock := some thread }
  | requestLocked {peer : Peer} {thread : Nat} :
      peer.pc thread = .connecting →
      Step (.connectSend thread) peer (some .create)
        { peer.goto thread .awaiting with
          history := { peer.history with createsSent := peer.history.createsSent + 1 } }
  | requestFirst {peer : Peer} {thread : Nat} :
      peer.pc thread = .idle →
      Step (.connectSend thread) peer (some .create)
        { peer.goto thread .requested with
          history := { peer.history with createsSent := peer.history.createsSent + 1 } }
  | take {peer : Peer} {thread : Nat} {id : Int} {rest : List Int} :
      peer.pc thread = .awaiting → peer.offers = id :: rest →
      Step (.connectTake thread) peer none
        { peer.goto thread (.took id) with
          offers := rest
          history := { peer.history with taken := peer.history.taken ++ [id] } }
  | enterTaken {peer : Peer} {thread : Nat} {id : Int} :
      peer.pc thread = .took id →
      Step (.connectRegister thread) peer none ((peer.enter id).goto thread (.entered id))
  | connected {peer : Peer} {thread : Nat} {id : Int} :
      peer.pc thread = .entered id →
      Step (.connectReturn thread) peer none
        { peer.goto thread .idle with
          idLock := none
          history := { peer.history with connected := peer.history.connected ++ [id] } }
  | wake {peer : Peer} {thread : Nat} :
      peer.pc thread = .idle → 0 < peer.requests →
      Step (.acceptWait thread) peer none
        { peer.goto thread .accepting with
          requests := peer.requests - 1
          history := { peer.history with acceptsStarted := peer.history.acceptsStarted + 1 } }
  | allocate {peer : Peer} {thread : Nat} {id : Int} :
      peer.pc thread = .accepting → peer.idLock = none →
      peer.counter < id → id < 2147483648 → peer.known id = false →
      (∀ skipped, peer.counter < skipped → skipped < id → peer.known skipped = true) →
      Step (.acceptAllocate thread) peer none
        { peer.goto thread (.allocated id) with
          idLock := some thread
          counter := id
          history := { peer.history with allocated := peer.history.allocated ++ [id] } }
  | announce {peer : Peer} {thread : Nat} {id : Int} :
      peer.pc thread = .allocated id →
      Step (.acceptSend thread) peer (some (.accepted id))
        { peer.goto thread (.announced id) with
          history := { peer.history with announced := peer.history.announced ++ [id] } }
  | enterAnnounced {peer : Peer} {thread : Nat} {id : Int} :
      peer.pc thread = .announced id →
      Step (.acceptRegister thread) peer none ((peer.enter id).goto thread (.listed id))
  | accepted {peer : Peer} {thread : Nat} {id : Int} :
      peer.pc thread = .listed id →
      Step (.acceptReturn thread) peer none
        { peer.goto thread .idle with
          idLock := none
          history := { peer.history with accepted := peer.history.accepted ++ [id] } }
  | close {peer : Peer} {thread : Nat} {id : Int} :
      peer.pc thread = .idle → peer.known id = true →
      Step (.closeTables thread id) peer none
        { (peer.forget id).goto thread (.closing id) with
          history := { peer.history with closed := peer.history.closed ++ [id] } }
  | notify {peer : Peer} {thread : Nat} {id : Int} :
      peer.pc thread = .closing id →
      Step (.closeSend thread) peer (some (.close id)) (peer.goto thread .idle)
  | send {peer : Peer} {id : Int} {payload : List Foundation.Byte} :
      peer.known id = true →
      Step (.send id payload) peer (some (.data id)) peer
  | refuse {peer : Peer} {id : Int} {rest : List Notice} :
      peer.arriving = .data id :: rest →
      Step .receive peer none { peer with arriving := rest }
  | hear {peer : Peer} {heard : Notice} {rest : List Notice} :
      peer.arriving = heard :: rest →
      Step .dispatch peer none
        { peer.hear heard with
          arriving := rest
          history := peer.history.observe (Notice.knownTo peer.known (some heard)) (some heard) }

end Peer

/-- One end takes a step, its notice goes to the other end. -/
def Rendezvous.Step : Foundation.Transition Rendezvous (Side × Move) :=
  fun before label after =>
    ∃ message peer, Peer.Step label.2 (before label.1) message peer ∧
      after = fun who => if who = label.1 then peer else (before who).post message

/-! ## The lock holder -/

namespace Pc

/-- The thread holds `id_lock`. -/
def holds : Pc → Bool
  | connecting | awaiting | took _ | entered _ | allocated _ | announced _ | listed _ => true
  | idle | requested | accepting | closing _ => false

/-- An id popped and not registered. -/
def popped : Pc → List Int
  | took id => [id]
  | _ => []

/-- An id chosen and not announced. -/
def chosen : Pc → List Int
  | allocated id => [id]
  | _ => []

/-- An id announced and not registered. -/
def promised : Pc → List Int
  | announced id => [id]
  | _ => []

/-- An id registered and not returned. -/
def unreturned : Pc → List Int
  | entered id | listed id => [id]
  | _ => []

/-- The thread is in `connect`. -/
def connects : Pc → Bool
  | connecting | requested | awaiting | took _ | entered _ => true
  | _ => false

/-- The thread is in `accept`. -/
def accepts : Pc → Bool
  | accepting | allocated _ | announced _ | listed _ => true
  | _ => false

end Pc

/-- The move is a step of `connect`. -/
def Move.connects : Move → Bool
  | connectLock _ | connectSend _ | connectTake _ | connectRegister _ | connectReturn _ => true
  | _ => false

/-- The move is a step of `accept`. -/
def Move.accepts : Move → Bool
  | acceptWait _ | acceptAllocate _ | acceptSend _ | acceptRegister _ | acceptReturn _ => true
  | _ => false

/-- The move is a `send`. -/
def Move.sends : Move → Bool
  | send _ _ => true
  | _ => false

/-- The move is the choice of a new id. -/
def Move.allocates : Move → Bool
  | acceptAllocate _ => true
  | _ => false

/-- A projection of the program counter of the lock holder. -/
def onLock (idLock : Option Nat) (pc : Nat → Pc) (ids : Pc → List Int) : List Int :=
  match idLock with
  | none => []
  | some thread => ids (pc thread)

/-- Only the holder of the lock is inside the locked region. -/
def Locked (idLock : Option Nat) (pc : Nat → Pc) : Prop :=
  ∀ thread, (pc thread).holds = true → idLock = some thread

section LockHolder

variable {idLock : Option Nat} {pc : Nat → Pc} {thread : Nat} {next : Pc} {ids : Pc → List Int}

@[simp] theorem onLock_none : onLock none pc ids = [] := rfl

@[simp] theorem onLock_some : onLock (some thread) pc ids = ids (pc thread) := rfl

/-- A step that does not change the projection of its thread. -/
theorem onLock_update (same : ids next = ids (pc thread)) :
    onLock idLock (Function.update pc thread next) ids = onLock idLock pc ids := by
  cases idLock with
  | none => rfl
  | some holder =>
      by_cases own : holder = thread
      · subst own
        simp [same]
      · simp [Function.update_of_ne own]

theorem Locked.acquire (locked : Locked none pc) :
    Locked (some thread) (Function.update pc thread next) := by
  intro other holds
  by_cases same : other = thread
  · rw [same]
  · rw [Function.update_of_ne same] at holds
    cases locked other holds

theorem Locked.keep (locked : Locked idLock pc)
    (inside : next.holds = true → (pc thread).holds = true) :
    Locked idLock (Function.update pc thread next) := by
  intro other holds
  by_cases same : other = thread
  · subst same
    rw [Function.update_self] at holds
    exact locked other (inside holds)
  · rw [Function.update_of_ne same] at holds
    exact locked other holds

theorem Locked.release (locked : Locked idLock pc) (holder : (pc thread).holds = true)
    (outside : next.holds = false) : Locked none (Function.update pc thread next) := by
  intro other holds
  by_cases same : other = thread
  · subst same
    rw [Function.update_self, outside] at holds
    cases holds
  · rw [Function.update_of_ne same] at holds
    have first := locked other holds
    rw [locked thread holder, Option.some.injEq] at first
    exact absurd first.symm same

end LockHolder

end PaintingCPS
