import PaintingCPS.Server.Cleanup.Apart
import PaintingCPS.Server.Cleanup.Structs
import PaintingCPS.Server.Cleanup.Visits

/-!
Contract: a server whose clients cooperate does not fault, and forgets them.

Every pointer that a thread is about to follow leads to a live object: that of
the sender by its registration and its look-up, that of the receiver by the
ledger, that of a child by the struct of its owner.

Owns: the invariant of the process, its preservation in every run, the absence
of faults, and the state after a session.

Does not own: what one user's session looks like.
-/

set_option autoImplicit false

namespace PaintingCPS

open Foundation

/-- What is next to signal has been looked up. -/
theorem Due.known_of_post {known : Bool} {rest : List Action} (due : Due known (.post :: rest)) :
    known = true := by
  cases due with
  | answering only => rcases only _ List.mem_cons_self with reply | submit <;> contradiction
  | handing fileName outward =>
      rcases outward with ⟨name, content, same⟩ | ⟨content, same⟩ <;> cases same
  | signalling has => exact has

namespace Process

/-- The visits of all users are tidy and do not interfere, and every child can
read its struct. -/
structure Intact (process : Process) : Prop where
  apart : process.Apart
  tidy : ∀ user, (process.visit user).Tidy
  fed : process.Fed

section Faults

variable {config : Config} {process : Process} {index : Nat} {fault : Fault}

private theorem liveQueue_ok {address : Option Nat} {queue : Nat} {names : List (List Byte)}
    (held : address = some queue) (live : process.queues[queue]? = some (some names)) :
    process.liveQueue address = .ok names := by
  rw [held]
  simp only [liveQueue, live]

private theorem liveSem_ok {address : Option Nat} {sem value : Nat}
    (held : address = some sem) (live : process.sems[sem]? = some (some value)) :
    process.liveSem address = .ok value := by
  rw [held]
  simp only [liveSem, live]

/-! ### `serverThread` and `server_transmit` -/

private theorem header_faultless {bytes : Option (List Byte)}
    (cooperates : process.Cooperates config (.header index bytes)) :
    process.header config index bytes ≠ some (.error fault) := by
  intro step
  unfold header at step
  split at step
  next sock there =>
    split at step
    next => cases step
    next unread =>
      obtain ⟨⟨command, userID⟩, found, -⟩ := cooperates.resolve_left unread
      cases parsed : parseLogin (padded loginBuffer (bytes.getD [])) with
      | error other =>
          rw [parsed] at found
          cases found
      | ok fields =>
          rw [parsed] at step
          dsimp only [bind, Except.bind] at step
          split at step <;> cases step
  next => cases step

private theorem event_faultless {junk : Nat → Byte} {happened : Event} (intact : process.Intact)
    (served : config.mode ≠ .mf)
    (cooperates : process.Cooperates config (.event index junk happened)) :
    process.event config index junk happened ≠ some (.error fault) := by
  intro step
  unfold event at step
  split at step
  next thread there =>
    split at step
    next => cases step
    next idle =>
      have live : thread.ended = false := by
        by_contra gone
        simp only [TransmitThread.ended, Bool.not_eq_false, Bool.and_eq_true, beq_iff_eq] at gone
        simp [Transmit.step, gone.1] at step
      have sound := ((intact.tidy thread.user).sender thread (intact.apart.sender there live)).sound
      have expects : thread.state.Expects config.mode config.backend happened :=
        cooperates _ (Option.mem_def.mpr there)
      split at step
      next => cases step
      next other stepped =>
        obtain ⟨after, impossible, -⟩ := Transmit.step_fits served sound.fits expects stepped
        cases impossible
      next => cases step
  next => cases step

private theorem act_faultless (intact : process.Intact) :
    process.act index ≠ some (.error fault) := by
  intro step
  unfold act at step
  split at step
  next thread there =>
    split at step
    next => cases step
    next action rest next' =>
      have live := running_of_pending next'
      have here := intact.apart.sender there live
      have known := (intact.tidy thread.user).sender thread here
      cases action with
      | register | submit | reply | store _ _ | forward _ => cases step
      | push fileName =>
          have due : 0 < thread.posts := by
            have pushes := known.sound.due_le live
            simp only [TransmitThread.pushes, next', List.countP_cons, Action.isPush] at pushes
            simp only [if_true] at pushes
            omega
          obtain ⟨queue, held⟩ :=
            Option.ne_none_iff_exists'.mp (known.sound.queue_of_posts due)
          obtain ⟨names, alive⟩ :=
            (intact.tidy thread.user).queueAlive queue (known.entry.trans held)
          rw [perform, liveQueue_ok held alive] at step
          cases step
      | lookup =>
          simp only [perform] at step
          split at step <;> cases step
      | post =>
          have due := known.sound.due
          rw [next'] at due
          obtain ⟨sem, held⟩ := Option.isSome_iff_exists.mp due.known_of_post
          obtain ⟨receiver, shown, started, own⟩ := (intact.tidy thread.user).known here held
          obtain ⟨value, alive⟩ :=
            ((intact.tidy thread.user).receiver receiver shown).semAlive started
          rw [perform, liveSem_ok held (own ▸ alive)] at step
          cases step
      | deleteQueue =>
          have due := known.sound.due
          rw [next'] at due
          exact due.deleteQueue_notMem List.mem_cons_self
  next => cases step

/-! ### `server_result` -/

section Receiver

variable {thread : ResultThread} {call : Call}

/-- The queue that a receiver is about to use is live. -/
private theorem Intact.liveQueue (intact : process.Intact)
    (there : process.threads[index]? = some (.result thread))
    (early : thread.pc.afterUser = false) (uses : thread.pc.hasQueue = true) :
    ∃ queue names, thread.queue = some queue ∧ process.liveQueue thread.queue = .ok names ∧
      process.queues[queue]? = some (some names) := by
  have tidy := (intact.tidy thread.user).receiver thread (intact.apart.receiver there early)
  obtain ⟨queue, held⟩ := Option.ne_none_iff_exists'.mp (tidy.fetched uses)
  obtain ⟨names, live⟩ := tidy.queueAlive queue held
  exact ⟨queue, names, held, liveQueue_ok held live, live⟩

private theorem look_faultless (intact : process.Intact)
    (there : process.threads[index]? = some (.result thread))
    (suits : process.Suits config index call (.result thread)) :
    process.look config thread call ≠ some (.error fault) := by
  intro step
  unfold look at step
  split at step
  next stands =>
    simp only [Suits, stands] at suits
    split at step
    next failed => exact failed.2 (suits failed.1)
    next => split at step <;> cases step
  next => split at step <;> cases step
  next stands =>
    split at step
    next => cases step
    next => cases step
    next noQueue noEntry =>
      have here := intact.apart.receiver there (by rw [stands]; rfl)
      rcases (intact.tidy thread.user).entered_of_woken here stands with held | entered
      · exact held noQueue
      · exact entered noEntry
  next stands =>
    obtain ⟨queue, names, -, live, -⟩ :=
      intact.liveQueue there (by rw [stands]; rfl) (by rw [stands]; rfl)
    rw [live] at step
    cases names <;> cases step
  next => cases step
  next stands =>
    simp only [Suits, stands] at suits
    split at step
    next => cases step
    next => cases step
    next => exact suits rfl
  next stands => split at step <;> cases step
  next => cases step

/-- A receiver that is hungry finds something to eat. -/
private theorem takeFront_faultless (intact : process.Intact) {pc : List Byte → ResultAt}
    (there : process.threads[index]? = some (.result thread))
    (stands : thread.pc = .permitted ∨ thread.pc = .taking) :
    process.takeFront index thread pc ≠ some (.error fault) := by
  intro step
  obtain ⟨early, uses, hungry⟩ : thread.pc.afterUser = false ∧ thread.pc.hasQueue = true ∧
      thread.pc.hungry = true := by
    rcases stands with stands | stands <;> rw [stands] <;> exact ⟨rfl, rfl, rfl⟩
  obtain ⟨queue, names, held, live, alive⟩ := intact.liveQueue there early uses
  have tidy := (intact.tidy thread.user).receiver thread (intact.apart.receiver there early)
  have food : 0 < lengthAt process.queues thread.queue := tidy.hungry hungry
  rw [takeFront, live] at step
  cases names with
  | nil => simp [held, lengthAt, alive] at food
  | cons fileName rest => cases step

private theorem share_faultless (intact : process.Intact)
    (there : process.threads[index]? = some (.result thread)) :
    process.share index thread call ≠ some (.error fault) := by
  intro step
  unfold share at step
  split at step
  next => cases step
  next stands =>
    have here := intact.apart.receiver there (by rw [stands]; rfl)
    obtain ⟨value, alive⟩ :=
      ((intact.tidy thread.user).receiver thread here).semAlive (by rw [stands]; exact nofun)
    rw [liveSem_ok rfl alive] at step
    cases value <;> cases step
  next => cases step
  next => cases step
  next => cases step
  next stands =>
    obtain ⟨-, semAlive⟩ :=
      intact.apart.leaving thread (List.mem_of_getElem? there) (.inl stands)
    obtain ⟨value, alive⟩ := semAlive stands
    rw [liveSem_ok rfl alive] at step
    cases step
  next stands =>
    obtain ⟨⟨queue, names, held, alive⟩, -⟩ :=
      intact.apart.leaving thread (List.mem_of_getElem? there) (.inr stands)
    rw [liveQueue_ok held alive] at step
    cases step
  next => split at step <;> cases step
  next stands => exact takeFront_faultless intact there (.inl stands) step
  next => split at step <;> cases step
  next stands => exact takeFront_faultless intact there (.inr stands) step
  next => cases step
  next stands =>
    have here := intact.apart.receiver there (by rw [stands]; rfl)
    exact ((intact.tidy thread.user).receiver thread here).runs stands
  next => cases step

end Receiver

private theorem result_faultless (intact : process.Intact) {call : Call}
    (cooperates : process.Cooperates config (.result index call)) :
    process.result config index call ≠ some (.error fault) := by
  intro step
  unfold Process.result at step
  split at step
  next thread there =>
    split at step
    next other looked =>
      exact look_faultless intact there (cooperates _ (Option.mem_def.mpr there)) looked
    next => cases step
    next => exact share_faultless intact there step
  next => cases step

/-! ### `result_child` -/

private theorem args_faultless (intact : process.Intact) {child : Thread} {owner : Nat}
    (there : process.threads[index]? = some child) (reads : child.readsArgs owner = true) :
    ∃ info, process.args owner = .ok info := by
  obtain ⟨source, found, feeds⟩ :=
    intact.fed.children owner child (List.mem_of_getElem? there) reads
  cases source with
  | result thread =>
      simp only [Thread.feeds, Bool.and_eq_true, bne_iff_ne] at feeds
      obtain ⟨info, filled⟩ := Option.isSome_iff_exists.mp feeds.2
      exact ⟨info, by simp only [args, found, if_neg feeds.1, filled]⟩
  | connection _ | closed | transmit _ | worker _ => cases feeds

private theorem worker_faultless (intact : process.Intact) {call : Call} :
    process.worker config index call ≠ some (.error fault) := by
  intro step
  unfold Process.worker at step
  split at step
  next owner there =>
    obtain ⟨info, read⟩ := args_faultless intact there (beq_self_eq_true owner)
    rw [read] at step
    cases step
  next owner sock there =>
    obtain ⟨info, read⟩ := args_faultless intact there (beq_self_eq_true owner)
    rw [read] at step
    cases step
  next => cases step
  next => cases step
  next => cases step
  next => cases step

/-- No step faults. -/
theorem Intact.faultless (intact : process.Intact) {label : ProcessStep}
    (served : config.mode ≠ .mf) (cooperates : process.Cooperates config label) :
    process.step config label ≠ some (.error fault) := by
  cases label with
  | accept sock =>
      intro step
      unfold Process.step Process.accept at step
      dsimp only at step
      split at step <;> cases step
  | header index bytes => exact header_faultless cooperates
  | event index junk happened => exact event_faultless intact served cooperates
  | act index => exact act_faultless intact
  | hostMissing | brokenPipe => exact absurd cooperates id
  | result index call => exact result_faultless intact cooperates
  | worker index call => exact worker_faultless intact

end Faults

/-! ## Runs -/

section Runs

variable {config : Config} {process after : Process}

theorem Intact.moves (intact : process.Intact) {label : ProcessStep}
    (served : config.mode ≠ .mf) (cooperates : process.Cooperates config label)
    (moves : Moves config process label after) : after.Intact where
  apart := moves.apart intact.apart intact.tidy cooperates
  tidy user := (intact.tidy user).step (moves.visit intact.apart intact.tidy served cooperates)
  fed := moves.fed intact.fed intact.apart intact.tidy cooperates

private theorem Moves.fault_eq {label : ProcessStep} (moves : Moves config process label after) :
    after.fault = process.fault := by
  cases moves with
  | admitted there parsed login => rcases login_cases login with ⟨-, rfl⟩ | ⟨-, rfl⟩ <;> rfl
  | _ => rfl

/-- Nobody is there. -/
private theorem tidy_empty (opener : Command) :
    Visit.Tidy ⟨none, opener, none, none, none, none, [], []⟩ := by
  constructor
  · exact nofun
  · exact nofun
  · exact nofun
  · exact nofun
  · exact fun entered => absurd rfl entered
  · exact fun _ => ⟨rfl, rfl, rfl⟩
  · exact nofun
  · exact fun present => absurd rfl present
  · exact fun present => absurd rfl present

private theorem intact_init (served : config.mode ≠ .mf) : (init config).Intact := by
  have threads : (init config).threads = [] := if_neg served
  have users : (init config).userMap = fun _ => none := if_neg served
  refine ⟨?_, ?_, ?_⟩
  · constructor
    · rw [threads]
      exact keysApart_nil
    · rw [threads]
      exact keysApart_nil
    · rw [threads]
      exact keysApart_nil
    · rw [threads]
      exact keysApart_nil
    · exact fun _ _ _ entry => by cases entry
    · rw [threads]
      exact fun _ member => by cases member
    · rw [threads]
      exact fun _ member => by cases member
  · intro user
    have empty : (init config).visit user = ⟨none, .unknown, none, none, none, none, [], []⟩ := by
      simp only [visit, threads, users, List.findSome?_nil]
      rfl
    rw [empty]
    exact tidy_empty .unknown
  · constructor
    · rw [threads]
      exact fun _ _ member => by cases member
    · rw [threads]
      exact fun _ member => by cases member

/-- A cooperating run keeps the process intact and never faults. -/
theorem intact_of_reaches (served : config.mode ≠ .mf)
    (reached : (processMachine config).ReachesUnder
      (fun process label => process.Cooperates config label) (init config) after) :
    after.Intact ∧ after.fault = none := by
  induction reached with
  | refl => exact ⟨intact_init served, rfl⟩
  | tail _ cooperates step inductionHypothesis =>
      obtain ⟨intact, -⟩ := inductionHypothesis
      obtain ⟨sound, moves | ⟨fault, faulted, -⟩⟩ := moves_of_next step
      · exact ⟨intact.moves served cooperates moves, moves.fault_eq.trans sound⟩
      · exact absurd faulted (intact.faultless served cooperates)

end Runs

end Process

/-! ## The end of a session -/

/-- A thread of the user has come to its end, or waits without a wake-up. -/
def Thread.Rests (sems : List (Option Nat)) (user : User) : Thread → Prop
  | .transmit thread => thread.user = user → thread.ended = true
  | .result thread => thread.user = user →
      thread.pc = .ended ∨ (thread.pc = .waiting ∧ valueAt sems thread.sem = 0)
  | _ => True

/-- All connections of the user have ended and all wake-ups are consumed;
nobody waits for the second connection of a session. -/
def Process.Over (process : Process) (user : User) : Prop :=
  (∀ thread ∈ process.threads, thread.Rests process.sems user) ∧ process.userMap user ≠ some 1

instance (sems : List (Option Nat)) (user : User) (thread : Thread) :
    Decidable (thread.Rests sems user) :=
  match thread with
  | .transmit thread => inferInstanceAs (Decidable (thread.user = user → thread.ended = true))
  | .result thread => inferInstanceAs (Decidable (thread.user = user →
      thread.pc = .ended ∨ (thread.pc = .waiting ∧ valueAt sems thread.sem = 0)))
  | .connection _ | .closed | .worker _ => inferInstanceAs (Decidable True)

instance (process : Process) (user : User) : Decidable (process.Over user) :=
  inferInstanceAs (Decidable (_ ∧ _))

namespace Process

/-- The user is in none of the three maps. -/
structure Forgotten (process : Process) (user : User) : Prop where
  userMap : process.userMap user = none
  semMap : process.semMap user = none
  queueMap : process.queueMap user = none

theorem Intact.forgotten {process : Process} {user : User} (intact : process.Intact)
    (rests : process.Over user) : process.Forgotten user := by
  have alone : (process.visit user).sender = none := by
    cases shown : (process.visit user).sender with
    | none => rfl
    | some sender =>
        obtain ⟨member, owner, live⟩ := sender_of_visit shown
        have gone := rests.1 _ member owner
        rw [live] at gone
        cases gone
  have idle : ∀ receiver, (process.visit user).receiver = some receiver →
      receiver.pc = .waiting ∧ valueAt (process.visit user).sems receiver.sem = 0 := by
    intro receiver shown
    obtain ⟨member, owner, early⟩ := receiver_of_visit shown
    refine (rests.1 _ member owner).resolve_left fun gone => ?_
    rw [gone] at early
    cases early
  obtain ⟨absent, noSem, noQueue, -⟩ := (intact.tidy user).vanished alone idle rests.2
  exact ⟨absent, noSem, noQueue⟩

end Process

end PaintingCPS
