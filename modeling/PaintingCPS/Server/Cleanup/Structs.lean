import PaintingCPS.Server.Cooperation

/-!
Contract: every child finds the struct of its owner.

The struct is filled before the first child is created, and is there until
`server_result` returns.

Owns: that invariant, and its step lemma.

Does not own: which name is in the struct.
-/

set_option autoImplicit false

namespace PaintingCPS

open Foundation

namespace Process

section Steps

variable {config : Config} {process after : Process} {label : ProcessStep} {index : Nat}
variable {user : User}

/-- A child that is going to read the struct of its owner can do so. -/
structure Fed (process : Process) : Prop where
  children : ∀ owner, ∀ child ∈ process.threads, child.readsArgs owner = true →
    ∃ thread, process.threads[owner]? = some thread ∧ thread.feeds = true
  filled : ∀ thread, .result thread ∈ process.threads → ∀ fileName, thread.pc = .filled fileName →
    thread.transInfo.isSome = true

/-- The thread moves, and its struct stays unless nobody is going to read it. -/
private theorem Fed.moves (fed : process.Fed) {thread moved : Thread}
    (there : process.threads[index]? = some thread)
    (threads : after.threads = process.threads.set index moved)
    (feeds : thread.feeds = true →
      moved.feeds = true ∨ ∀ child ∈ process.threads, child.readsArgs index = false)
    (reads : ∀ owner, moved.readsArgs owner = true → thread.readsArgs owner = true)
    (filled : ∀ result, moved = .result result → ∀ fileName, result.pc = .filled fileName →
      result.transInfo.isSome = true) : after.Fed := by
  constructor
  · intro owner child member needs
    rw [threads] at member ⊢
    have needed : ∃ before ∈ process.threads, before.readsArgs owner = true := by
      rcases List.mem_or_eq_of_mem_set member with old | rfl
      · exact ⟨child, old, needs⟩
      · exact ⟨thread, List.mem_of_getElem? there, reads owner needs⟩
    obtain ⟨before, present, reading⟩ := needed
    obtain ⟨source, found, feeding⟩ := fed.children owner before present reading
    rw [getElem?_set_there moved there]
    by_cases own : owner = index
    · rw [if_pos own]
      subst own
      rw [there] at found
      cases found
      refine ⟨moved, rfl, (feeds feeding).resolve_right fun unread => ?_⟩
      rw [unread before present] at reading
      cases reading
    · rw [if_neg own]
      exact ⟨source, found, feeding⟩
  · intro result member fileName stands
    rw [threads] at member
    rcases List.mem_or_eq_of_mem_set member with old | same
    · exact fed.filled result old fileName stands
    · exact filled result same.symm fileName stands

/-- A thread without a struct moves. -/
private theorem Fed.other (fed : process.Fed) {thread moved : Thread}
    (there : process.threads[index]? = some thread)
    (threads : after.threads = process.threads.set index moved) (noStruct : thread.feeds = false)
    (silent : ∀ owner, moved.readsArgs owner = false)
    (noResult : ∀ result, moved = .result result → ∀ fileName, result.pc ≠ .filled fileName) :
    after.Fed := by
  refine fed.moves there threads ?_ ?_ ?_
  · rw [noStruct]
    exact nofun
  · intro owner reads
    rw [silent owner] at reads
    cases reads
  · exact fun result same fileName stands => absurd stands (noResult result same fileName)

/-- A `server_result` moves and does not return. -/
private theorem Fed.result (fed : process.Fed) {thread moved : ResultThread}
    (there : process.threads[index]? = some (.result thread))
    (threads : after.threads = process.threads.set index (.result moved))
    (running : moved.pc ≠ .ended)
    (struct : moved.transInfo.isSome = true ∨
      (moved.transInfo = thread.transInfo ∧ ∀ fileName, moved.pc ≠ .filled fileName)) :
    after.Fed := by
  refine fed.moves there threads ?_ (fun _ reads => nomatch reads) ?_
  · intro feeds
    simp only [Thread.feeds, Bool.and_eq_true, bne_iff_ne] at feeds ⊢
    refine .inl ⟨running, ?_⟩
    rcases struct with some' | ⟨same, -⟩
    · exact some'
    · rw [same]
      exact feeds.2
  · intro result same fileName stands
    cases same
    rcases struct with some' | ⟨-, other⟩
    · exact some'
    · exact absurd stands (other fileName)

private theorem looks_fed {thread moved : ResultThread} {call : Call} (fed : process.Fed)
    (suits : process.Suits config index call (.result thread))
    (there : process.threads[index]? = some (.result thread))
    (looks : Looks config process thread call moved) :
    (process.setThread index (.result moved)).Fed := by
  have stays : moved.pc ≠ .ended → moved.transInfo = thread.transInfo →
      (∀ fileName, moved.pc ≠ .filled fileName) →
      (process.setThread index (.result moved)).Fed :=
    fun running same other => fed.result there rfl running (.inr ⟨same, other⟩)
  cases looks with
  | replied stands written | nonempty stands held live =>
      cases storm : config.storm <;> rw [storm] at stays <;>
        exact stays (by simp) rfl fun _ same => by simp at same
  | bound stands =>
      have success : call = .success := by
        simp only [Suits, stands] at suits
        exact suits
      rw [if_pos success] at stays ⊢
      exact stays (by simp) rfl fun _ same => by cases same
  | fetched stands held => exact stays (by simp) rfl fun _ same => by cases same
  | empty stands held live => exact stays (by simp) rfl fun _ same => by cases same
  | filled stands => exact fed.result there rfl (by simp) (.inl rfl)
  | received stands target =>
      rcases target with rfl | rfl <;> exact stays (by simp) rfl fun _ same => by cases same
  | sent stands written => exact stays (by simp) rfl fun _ same => by cases same
  | unsent stands failed =>
      simp only [Suits, stands] at suits
      exact absurd (suits failed.1) failed.2

theorem Moves.fed (fed : process.Fed) (apart : process.Apart)
    (tidy : ∀ user, (process.visit user).Tidy)
    (cooperates : process.Cooperates config label) (moves : Moves config process label after) :
    after.Fed := by
  have created : ∀ (before : Process) (new : Thread), before.Fed →
      (∀ owner, new.readsArgs owner = true →
        ∃ thread, before.threads[owner]? = some thread ∧ thread.feeds = true) →
      (∀ result, new ≠ .result result) →
      ({ before with threads := before.threads ++ [new] } : Process).Fed := by
    intro before new fed reads noResult
    constructor
    · intro owner child member needs
      have found : ∃ thread, before.threads[owner]? = some thread ∧ thread.feeds = true := by
        rcases List.mem_append.mp member with old | last
        · exact fed.children owner child old needs
        · exact reads owner (List.mem_singleton.mp last ▸ needs)
      obtain ⟨thread, there, feeds⟩ := found
      obtain ⟨within, -⟩ := List.getElem?_eq_some_iff.mp there
      exact ⟨thread, (List.getElem?_append_left within).trans there, feeds⟩
    · intro result member fileName stands
      rcases List.mem_append.mp member with old | last
      · exact fed.filled result old fileName stands
      · exact absurd (List.mem_singleton.mp last).symm (noResult result)
  cases moves with
  | accept sock =>
      exact created process _ fed (fun _ reads => by cases reads) fun _ same => by cases same
  | turnedAway there => exact fed.other there rfl rfl (fun _ => rfl) fun _ same => by cases same
  | @admitted index sock bytes command owner granted there parsed login =>
      have threads : (granted.setThread index (entry owner sock command)).threads =
          process.threads.set index (entry owner sock command) := by
        rcases login_cases login with ⟨-, rfl⟩ | ⟨-, rfl⟩ <;> rfl
      refine fed.other there threads rfl ?_ ?_
      · cases command <;> exact fun _ => rfl
      · intro result same fileName
        cases command <;> cases same
        exact fun stands => by cases stands
  | event there idle stepped | quiet there next quiet | register there next | submit there next
  | push there next held live | lookup there next first found | post there next held live
  | discard there next held live =>
      exact fed.other there rfl rfl (fun _ => rfl) fun _ same => by cases same
  | look there looks => exact looks_fed fed (cooperates _ (Option.mem_def.mpr there)) there looks
  | start there stands | wait there stands live | eraseSem there stands | eraseQueue there stands
  | eraseUser there stands | deleteSem there stands live | grab there stands permit
  | finish there stands =>
      exact fed.result there rfl (fun gone => by cases gone)
        (.inr ⟨rfl, fun _ stands => by cases stands⟩)
  | @deleteQueue index thread call address names there stands held live =>
      have suits := cooperates _ (Option.mem_def.mpr there)
      simp only [Suits, stands] at suits
      refine fed.moves there rfl (fun _ => .inr suits) (fun _ reads => by cases reads) ?_
      intro result same fileName filled
      cases same
      cases filled
  | take there stands held live =>
      rcases stands with ⟨-, rfl⟩ | ⟨-, rfl⟩ <;>
        exact fed.result there rfl (fun gone => by cases gone)
          (.inr ⟨rfl, fun _ stands => by cases stands⟩)
  | @spawn index thread fileName there stands =>
      have struct := fed.filled thread (List.mem_of_getElem? there) fileName stands
      have moved : (process.setThread index (.result { thread with pc := .waiting })).Fed :=
        fed.result there rfl (fun gone => by cases gone) (.inl struct)
      refine created _ (.worker ⟨index, .created⟩) moved ?_ fun _ same => by cases same
      intro owner reads
      simp only [Thread.readsArgs, beq_iff_eq] at reads
      subst reads
      refine ⟨.result { thread with pc := .waiting }, ?_, ?_⟩
      · rw [setThread, getElem?_set_there _ there, if_pos rfl]
      · simp [Thread.feeds, struct]
  | spawnFailed there stands => cases cooperates.created there stands
  | @stop index thread call value there stands live =>
      have early : thread.pc.afterUser = false := by rw [stands]; rfl
      exact absurd stands
        ((tidy thread.user).receiver thread (apart.receiver there early)).runs
  | @advance index owner pc next call there advances =>
      refine fed.moves there rfl (fun feeds => by cases feeds) ?_
        fun _ same => by cases same
      intro other reads
      cases advances with
      | sock read => exact reads
      | name sock read => cases reads
      | reply sock fileName written => cases reads
  | unwritten there failed | finished there | released there =>
      exact fed.other there rfl rfl (fun _ => rfl) fun _ same => by cases same

end Steps

end Process

end PaintingCPS
