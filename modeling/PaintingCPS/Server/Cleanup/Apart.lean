import PaintingCPS.Server.Cooperation

/-!
Contract: the visits of a process stay apart.

A thread that moves keeps its user and its objects, gives them up, or takes new
ones that nobody has.

Owns: that lemma for every move of the process.

Does not own: what happens within one visit.
-/

set_option autoImplicit false

namespace PaintingCPS

open Foundation

namespace Process

section Steps

variable {config : Config} {process after : Process} {label : ProcessStep} {index : Nat}
variable {user : User}

private theorem keeps_transmit {thread moved : TransmitThread} (same : moved.user = thread.user)
    (live : thread.ended = false) : (Thread.transmit thread).Keeps (.transmit moved) := by
  constructor
  · intro name named
    simp only [Thread.senderKey] at named ⊢
    split at named
    next => cases named
    next => rw [live, if_neg Bool.false_ne_true, ← named, same]
  · rfl
  · exact fun _ named => by cases named
  · exact fun _ named => by cases named
  · exact fun _ same => by cases same

private theorem keeps_receiver {thread moved : ResultThread}
    (same : moved.user = thread.user ∧ moved.sem = thread.sem ∧ moved.queue = thread.queue)
    (started : thread.pc.holdsSem = true ∧ thread.pc.afterUser = false)
    (stays : moved.pc.holdsSem = true ∧ moved.pc.afterUser = false) :
    (Thread.result thread).Keeps (.result moved) := by
  obtain ⟨user, sem, queue⟩ := same
  obtain ⟨holds, early⟩ := started
  obtain ⟨holds', early'⟩ := stays
  constructor
  · exact fun _ named => by cases named
  · simp only [Thread.receiverKey, early, early', user]
  · simp only [Thread.semKey, holds, holds', sem, if_true, imp_self, implies_true]
  · intro name named
    have running : thread.pc ≠ .ended := by
      intro gone
      rw [gone] at early
      cases early
    simp only [Thread.queueKey] at named ⊢
    split at named
    next => cases named
    next => rw [if_neg running, ← named, queue]
  · intro leaver isMoved leaves
    cases isMoved
    rcases leaves with stands | stands <;> rw [stands] at early' <;> cases early'

private theorem keeps_unkeyed {thread moved : Thread} (sender : moved.senderKey = none)
    (receiver : moved.receiverKey = thread.receiverKey)
    (noResult : ∀ other, moved ≠ .result other) :
    thread.Keeps moved := by
  constructor
  · rw [sender]
    exact fun _ named => by cases named
  · exact receiver
  · cases moved with
    | result other => exact absurd rfl (noResult other)
    | connection _ | closed | transmit _ | worker _ => exact fun _ named => by cases named
  · cases moved with
    | result other => exact absurd rfl (noResult other)
    | connection _ | closed | transmit _ | worker _ => exact fun _ named => by cases named
  · exact fun leaver same => absurd same (noResult leaver)

private theorem looks_apart {thread moved : ResultThread} {call : Call} (apart : process.Apart)
    (suits : process.Suits config index call (.result thread))
    (there : process.threads[index]? = some (.result thread))
    (looks : Looks config process thread call moved) :
    (process.setThread index (.result moved)).Apart := by
  have stays : (moved.user = thread.user ∧ moved.sem = thread.sem ∧ moved.queue = thread.queue) →
      (thread.pc.holdsSem = true ∧ thread.pc.afterUser = false) →
      (moved.pc.holdsSem = true ∧ moved.pc.afterUser = false) →
      (process.setThread index (.result moved)).Apart := by
    intro same started going
    exact apart.moves there rfl rfl (keeps_receiver same started going)
      ⟨fun _ live => live, fun _ live => live⟩
  cases looks with
  | replied stands written =>
      apply stays ⟨rfl, rfl, rfl⟩
      · rw [stands]
        exact ⟨rfl, rfl⟩
      · cases config.storm <;> exact ⟨rfl, rfl⟩
  | bound stands =>
      have success : call = .success := by
        simp only [Suits, stands] at suits
        exact suits
      apply stays ⟨rfl, rfl, rfl⟩
      · rw [stands]
        exact ⟨rfl, rfl⟩
      · rw [if_pos success]
        exact ⟨rfl, rfl⟩
  | fetched stands held =>
      rcases held with held | ⟨before, found⟩
      · apply stays ⟨rfl, rfl, held.symm⟩
        · rw [stands]
          exact ⟨rfl, rfl⟩
        · exact ⟨rfl, rfl⟩
      · exact apart.fetches there stands before found
  | empty stands held live | filled stands | sent stands written =>
      apply stays ⟨rfl, rfl, rfl⟩
      · rw [stands]
        exact ⟨rfl, rfl⟩
      · exact ⟨rfl, rfl⟩
  | nonempty stands held live =>
      apply stays ⟨rfl, rfl, rfl⟩
      · rw [stands]
        exact ⟨rfl, rfl⟩
      · cases config.storm <;> exact ⟨rfl, rfl⟩
  | received stands target =>
      apply stays ⟨rfl, rfl, rfl⟩
      · rw [stands]
        exact ⟨rfl, rfl⟩
      · rcases target with rfl | rfl <;> exact ⟨rfl, rfl⟩
  | unsent stands failed =>
      simp only [Suits, stands] at suits
      exact absurd (suits failed.1) failed.2

/-- Every step keeps the owners apart. -/
theorem Moves.apart (apart : process.Apart) (tidy : ∀ user, (process.visit user).Tidy)
    (cooperates : process.Cooperates config label) (moves : Moves config process label after) :
    after.Apart := by
  have objects : ∀ other : Process, other.sems = process.sems → other.queues = process.queues →
      process.KeepsObjects other := by
    intro other sems queues
    exact ⟨fun sem live => sems ▸ live, fun queue live => queues ▸ live⟩
  cases moves with
  | accept sock => exact apart.created rfl rfl fun _ same => by cases same
  | turnedAway there =>
      exact apart.moves there rfl rfl (keeps_unkeyed rfl rfl fun _ same => by cases same)
        (objects _ rfl rfl)
  | @admitted index sock bytes command owner granted there parsed login =>
      obtain ⟨known, fits⟩ := welcome_cases cooperates parsed login
      obtain ⟨noSender, noReceiver⟩ := newcomer_alone tidy fits login
      have sender : ∀ user, (entry owner sock command).senderKey = some user →
          (process.visit user).sender = none := by
        intro user named
        cases command <;> cases named
        exact noSender rfl
      have receiver : ∀ user, (entry owner sock command).receiverKey = some user →
          (process.visit user).receiver = none := by
        intro user named
        cases command <;> cases named
        exact noReceiver rfl
      have noSem : (entry owner sock command).semKey = none := by cases command <;> rfl
      have noQueue : (entry owner sock command).queueKey = none := by cases command <;> rfl
      have stays : ∀ leaver, entry owner sock command = .result leaver →
          ¬ (leaver.pc = .deletingSem ∨ leaver.pc = .deletingQueue) := by
        intro leaver same
        cases command <;> cases same
        exact fun leaves => by rcases leaves with stands | stands <;> cases stands
      rcases login_cases login with ⟨-, rfl⟩ | ⟨-, rfl⟩
      · exact apart.admits there sender receiver noSem noQueue stays _ _
      · exact apart.admits there sender receiver noSem noQueue stays _ _
  | event there idle stepped =>
      exact apart.moves there rfl rfl (keeps_transmit rfl (running_of_step stepped))
        (objects _ rfl rfl)
  | quiet there next quiet | submit there next | lookup there next first found =>
      exact apart.moves there rfl rfl (keeps_transmit rfl (running_of_pending next))
        (objects _ rfl rfl)
  | register there next =>
      exact apart.registers tidy _ there (keeps_transmit rfl (running_of_pending next))
  | push there next held live =>
      exact apart.moves there rfl rfl (keeps_transmit rfl (running_of_pending next))
        ⟨fun _ alive => alive, keeps_set _ live⟩
  | post there next held live =>
      exact apart.moves there rfl rfl (keeps_transmit rfl (running_of_pending next))
        ⟨keeps_set _ live, fun _ alive => alive⟩
  | @discard index thread rest address names there next held live =>
      have here := apart.sender there (running_of_pending next)
      have due := ((tidy thread.user).sender thread here).sound.due
      rw [next] at due
      exact absurd List.mem_cons_self due.deleteQueue_notMem
  | look there looks =>
      exact looks_apart apart (cooperates _ (Option.mem_def.mpr there)) there looks
  | start there stands => exact apart.starts tidy there stands _
  | wait there stands live =>
      refine apart.moves there rfl rfl (keeps_receiver ⟨rfl, rfl, rfl⟩ ?_ ⟨rfl, rfl⟩)
        ⟨keeps_set _ live, fun _ alive => alive⟩
      rw [stands]
      exact ⟨rfl, rfl⟩
  | eraseSem there stands | finish there stands =>
      refine apart.moves there rfl rfl (keeps_receiver ⟨rfl, rfl, rfl⟩ ?_ ⟨rfl, rfl⟩)
        (objects _ rfl rfl)
      rw [stands]
      exact ⟨rfl, rfl⟩
  | eraseQueue there stands => exact apart.erasesQueue there stands
  | @eraseUser index thread call there stands =>
      have early : thread.pc.afterUser = false := by rw [stands]; rfl
      have tidied := (tidy thread.user).receiver thread (apart.receiver there early)
      obtain ⟨queue, held⟩ :=
        Option.ne_none_iff_exists'.mp (tidied.fetched (by rw [stands]; rfl))
      obtain ⟨names, live⟩ := tidied.queueAlive queue held
      exact apart.erasesUser there stands (tidied.noEntry (by rw [stands]; rfl))
        ⟨queue, names, held, live⟩ (tidied.semAlive (by simp [stands])) _
  | deleteSem there stands live => exact apart.deletesSem there stands
  | deleteQueue there stands held live => exact apart.deletesQueue there stands held
  | grab there stands permit =>
      refine apart.moves there rfl rfl (keeps_receiver ⟨rfl, rfl, rfl⟩ ?_ ⟨rfl, rfl⟩)
        (objects _ rfl rfl)
      rw [stands]
      exact ⟨rfl, rfl⟩
  | take there stands held live =>
      refine apart.moves there rfl rfl (keeps_receiver ⟨rfl, rfl, rfl⟩ ?_ ?_)
        ⟨fun _ alive => alive, keeps_set _ live⟩
      · rcases stands with ⟨stands, -⟩ | ⟨stands, -⟩ <;> rw [stands] <;> exact ⟨rfl, rfl⟩
      · rcases stands with ⟨-, rfl⟩ | ⟨-, rfl⟩ <;> exact ⟨rfl, rfl⟩
  | @spawn index thread fileName there stands =>
      have moved : (process.setThread index (.result { thread with pc := .waiting })).Apart := by
        refine apart.moves there rfl rfl (keeps_receiver ⟨rfl, rfl, rfl⟩ ?_ ⟨rfl, rfl⟩)
          (objects _ rfl rfl)
        rw [stands]
        exact ⟨rfl, rfl⟩
      exact @Apart.created _ moved (.worker ⟨index, .created⟩) rfl rfl fun _ same => by cases same
  | spawnFailed there stands => cases cooperates.created there stands
  | @stop index thread call value there stands live =>
      have early : thread.pc.afterUser = false := by rw [stands]; rfl
      exact absurd stands
        ((tidy thread.user).receiver thread (apart.receiver there early)).runs
  | advance there advances | unwritten there failed | finished there | released there =>
      exact apart.moves there rfl rfl (keeps_unkeyed rfl rfl fun _ same => by cases same)
        (objects _ rfl rfl)

end Steps

end Process

end PaintingCPS
