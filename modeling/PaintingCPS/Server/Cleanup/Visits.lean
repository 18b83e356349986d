import PaintingCPS.Server.Cooperation

/-!
Contract: a step of the process is, for every user, a step of the visit.

The thread that moves belongs to one user at most. For that user it is one of
the steps of a visit, and for everybody else it is a step elsewhere.

Owns: that lemma for every move of the process.

Does not own: that visits stay apart, and tidy.
-/

set_option autoImplicit false

namespace PaintingCPS

open Foundation

namespace Process

section Steps

variable {config : Config} {process after : Process} {label : ProcessStep} {index : Nat}
variable {user : User}

private theorem undisturbed_setThread (process : Process) (index : Nat) (thread : Thread) :
    process.Undisturbed (process.setThread index thread) :=
  ⟨rfl, rfl, rfl, rfl, rfl, rfl⟩

private theorem visit_event {junk : Nat → Byte} {happened : Event} {thread : TransmitThread}
    {state : Transmit} (apart : process.Apart) (tidy : ∀ user, (process.visit user).Tidy)
    (served : config.mode ≠ .mf)
    (cooperates : process.Cooperates config (.event index junk happened))
    (there : process.threads[index]? = some (.transmit thread)) (idle : thread.pending = [])
    (stepped : thread.state.step config.mode config.backend junk happened = some (.ok state)) :
    (process.visit user).Step ((process.setThread index (.transmit { thread with
      state := state
      pending := state.actions.drop thread.state.actions.length })).visit user) := by
  have live := running_of_step stepped
  have here := apart.sender there live
  have sound := ((tidy thread.user).sender thread here).sound
  have expects : thread.state.Expects config.mode config.backend happened :=
    cooperates _ (Option.mem_def.mpr there)
  obtain ⟨_, same, fits⟩ := Transmit.step_fits served sound.fits expects stepped
  cases same
  obtain ⟨moved, balance, runs⟩ :=
    sound.event idle expects fits (Transmit.step_emits stepped)
  have running : thread.state.pc ≠ .ended := by
    intro gone
    simp [TransmitThread.ended, gone, idle] at live
  refine apart.transmit_steps there live rfl rfl
    (fun other _ => (undisturbed_setThread process index _).spares other) ?_
  rw [if_neg (by rw [runs]; exact Bool.false_ne_true)]
  refine .sends here moved runs ⟨rfl, rfl⟩ ?_
  have pushes : thread.pushes = 0 := by rw [TransmitThread.pushes, idle]; rfl
  have posts : thread.posts = 0 := by rw [TransmitThread.posts, idle]; rfl
  have left : thread.left = 0 := if_neg running
  omega

/-! ### Actions of `server_transmit` -/

section Acts

variable {thread : TransmitThread} {action : Action} {rest : List Action}

private theorem visit_quiet (apart : process.Apart) (tidy : ∀ user, (process.visit user).Tidy)
    (there : process.threads[index]? = some (.transmit thread))
    (next : thread.pending = action :: rest)
    (plain : Quiet thread action ∨ action = .submit)
    (threads : after.threads =
      process.threads.set index (.transmit { thread with pending := rest }))
    (undisturbed : process.Undisturbed after) :
    (process.visit user).Step (after.visit user) := by
  obtain ⟨notPost, notPush, notRegister, known⟩ : action ≠ .post ∧ action.isPush = false ∧
      action ≠ .register ∧
        thread.semMatch.isSome = (thread.semMatch.isSome || action == .lookup) := by
    rcases plain with quiet | rfl
    · cases action <;> simp_all [Quiet, Action.isPush]
    · simp [Action.isPush]
  have live := running_of_pending next
  have here := apart.sender there live
  have sound := ((tidy thread.user).sender thread here).sound
  have moved : ({ thread with pending := rest } : TransmitThread).Sound :=
    sound.act next rfl rfl ⟨fun none' => ⟨none', notRegister⟩, And.left⟩ known
  have runs : ({ thread with pending := rest } : TransmitThread).ended = false :=
    sound.runs_act next notPost rfl
  obtain ⟨posts, pushes, left⟩ :=
    @TransmitThread.counts_act thread { thread with pending := rest } action rest next rfl rfl
  rw [if_neg notPost] at posts
  rw [notPush, if_neg Bool.false_ne_true] at pushes
  refine apart.transmit_steps there live threads rfl (fun other _ => undisturbed.spares other) ?_
  rw [undisturbed.userMap, undisturbed.opener, undisturbed.semMap, undisturbed.queueMap,
    undisturbed.sems, undisturbed.queues, if_neg (by rw [runs]; exact Bool.false_ne_true)]
  exact .sends here moved runs ⟨rfl, rfl⟩ (by omega)

private theorem visit_registers (apart : process.Apart)
    (tidy : ∀ user, (process.visit user).Tidy)
    (there : process.threads[index]? = some (.transmit thread))
    (next : thread.pending = .register :: rest) :
    (process.visit user).Step (({ process with
      queueMap := Function.update process.queueMap thread.user (some process.queues.length)
      queues := process.queues ++ [some []]
      threads := process.threads.set index (.transmit { thread with
        pending := rest
        queue := some process.queues.length }) } : Process).visit user) := by
  have live := running_of_pending next
  have here := apart.sender there live
  have sound := ((tidy thread.user).sender thread here).sound
  have before : thread.queue = none := sound.registers.mpr (by rw [next]; exact List.mem_cons_self)
  have moved : ({ thread with
      pending := rest
      queue := some process.queues.length } : TransmitThread).Sound :=
    sound.act next rfl rfl ⟨nofun, fun impossible => absurd rfl impossible.2⟩
      (by simp)
  have runs := @TransmitThread.Sound.runs_act thread { thread with
    pending := rest
    queue := some process.queues.length } _ rest sound next nofun rfl
  obtain ⟨posts, pushes, left⟩ := @TransmitThread.counts_act thread { thread with
    pending := rest
    queue := some process.queues.length } _ rest next rfl rfl
  refine apart.transmit_steps there live rfl rfl ?_ ?_
  · intro other owner
    refine ⟨⟨rfl, rfl, rfl, Function.update_of_ne (Ne.symm owner) _ _⟩, fun _ _ => rfl, ?_⟩
    intro queue uses
    obtain ⟨names, used⟩ := (tidy other).queue_alive uses
    obtain ⟨within, -⟩ := List.getElem?_eq_some_iff.mp used
    exact List.getElem?_append_left within
  · simp only [Function.update_self]
    rw [if_neg (by rw [runs]; exact Bool.false_ne_true)]
    exact .registers here moved runs before rfl rfl ⟨posts.symm, pushes.symm, left.symm⟩

private theorem visit_pushes {fileName : List Byte} {address : Nat} {names : List (List Byte)}
    (apart : process.Apart) (tidy : ∀ user, (process.visit user).Tidy)
    (there : process.threads[index]? = some (.transmit thread))
    (next : thread.pending = .push fileName :: rest) (held : thread.queue = some address)
    (live : process.queues[address]? = some (some names)) :
    (process.visit user).Step (({ process with
      threads := process.threads.set index (.transmit { thread with pending := rest })
      queues := process.queues.set address (some (names ++ [fileName])) } :
      Process).visit user) := by
  have running := running_of_pending next
  have here := apart.sender there running
  have known := (tidy thread.user).sender thread here
  have moved : ({ thread with pending := rest } : TransmitThread).Sound :=
    known.sound.act next rfl rfl ⟨fun none' => ⟨none', nofun⟩, And.left⟩ (by simp)
  have runs := @TransmitThread.Sound.runs_act thread { thread with pending := rest } _ rest
    known.sound next nofun rfl
  obtain ⟨posts, pushes, left⟩ :=
    @TransmitThread.counts_act thread { thread with pending := rest } _ rest next rfl rfl
  refine apart.transmit_steps there running rfl rfl ?_ ?_
  · intro other owner
    refine ⟨⟨rfl, rfl, rfl, rfl⟩, fun _ _ => rfl, ?_⟩
    intro queue uses
    apply List.getElem?_set_ne
    rintro rfl
    exact owner (apart.owner_of_entry uses (known.entry.trans held))
  · rw [if_neg (by rw [runs]; exact Bool.false_ne_true)]
    exact .pushes here moved runs ⟨rfl, rfl⟩ held live ⟨posts.symm, pushes, left.symm⟩

private theorem visit_looksUp {address : Nat} (apart : process.Apart)
    (tidy : ∀ user, (process.visit user).Tidy)
    (there : process.threads[index]? = some (.transmit thread))
    (next : thread.pending = .lookup :: rest) (first : thread.semMatch = none)
    (found : process.semMap thread.user = some address) :
    (process.visit user).Step ((process.setThread index (.transmit { thread with
      pending := rest
      semMatch := some address })).visit user) := by
  have running := running_of_pending next
  have here := apart.sender there running
  have known := (tidy thread.user).sender thread here
  have moved : ({ thread with
      pending := rest
      semMatch := some address } : TransmitThread).Sound :=
    known.sound.act next rfl rfl ⟨fun none' => ⟨none', nofun⟩, And.left⟩ (by simp)
  have runs := @TransmitThread.Sound.runs_act thread { thread with
    pending := rest
    semMatch := some address } _ rest known.sound next nofun rfl
  obtain ⟨posts, pushes, left⟩ := @TransmitThread.counts_act thread { thread with
    pending := rest
    semMatch := some address } _ rest next rfl rfl
  refine apart.transmit_steps there running rfl rfl
    (fun other _ => (undisturbed_setThread process index _).spares other) ?_
  rw [if_neg (by rw [runs]; exact Bool.false_ne_true)]
  exact .looksUp here moved runs first found rfl rfl ⟨posts.symm, pushes.symm, left.symm⟩

private theorem visit_signals {address value : Nat} (apart : process.Apart)
    (tidy : ∀ user, (process.visit user).Tidy)
    (there : process.threads[index]? = some (.transmit thread))
    (next : thread.pending = .post :: rest) (held : thread.semMatch = some address)
    (live : process.sems[address]? = some (some value)) :
    (process.visit user).Step (({ process with
      threads := process.threads.set index (.transmit { thread with pending := rest })
      sems := process.sems.set address (some (value + 1)) } : Process).visit user) := by
  have running := running_of_pending next
  have here := apart.sender there running
  have known := (tidy thread.user).sender thread here
  have moved : ({ thread with pending := rest } : TransmitThread).Sound :=
    known.sound.act next rfl rfl ⟨fun none' => ⟨none', nofun⟩, And.left⟩ (by simp)
  obtain ⟨posts, pushes, left⟩ :=
    @TransmitThread.counts_act thread { thread with pending := rest } _ rest next rfl rfl
  refine apart.transmit_steps there running rfl rfl ?_ ?_
  · intro other owner
    refine ⟨⟨rfl, rfl, rfl, rfl⟩, ?_, fun _ _ => rfl⟩
    intro sem uses
    apply List.getElem?_set_ne
    rintro rfl
    obtain ⟨receiver, shown, started, own⟩ := (tidy thread.user).known here held
    obtain ⟨member, isUser, early⟩ := receiver_of_visit shown
    obtain ⟨place, at'⟩ := List.mem_iff_getElem?.mp member
    have holds : receiver.pc.holdsSem = true := by
      cases stands : receiver.pc <;> simp_all [ResultAt.holdsSem, ResultAt.afterUser]
    exact owner (isUser.symm.trans (apart.owner_of_sem uses at' holds own).1)
  · exact .signals here moved ⟨rfl, rfl⟩ held live ⟨posts, pushes.symm, left.symm⟩

end Acts

/-! ### Steps of `server_result` -/

section Serves

variable {thread : ResultThread} {call : Call}

private theorem visit_serves {moved : ResultThread} (apart : process.Apart)
    (there : process.threads[index]? = some (.result thread))
    (threads : after.threads = process.threads.set index (.result moved))
    (undisturbed : process.Undisturbed after)
    (within : thread.pc.serving = true ∧ moved.pc.serving = true)
    (same : moved.user = thread.user ∧ moved.sem = thread.sem ∧ moved.queue = thread.queue)
    (awake : moved.pc.awake = thread.pc.awake)
    (hungry : moved.pc.hungry = true →
      thread.pc.hungry = true ∨ 0 < lengthAt process.queues thread.queue)
    (fetched : moved.pc.hasQueue = true → thread.queue ≠ none) :
    (process.visit user).Step (after.visit user) := by
  have early : ∀ pc : ResultAt, pc.serving = true → pc.afterUser = false := by
    intro pc serves
    cases pc <;> first | rfl | cases serves
  refine apart.result_steps there (early _ within.1) threads same.1
    (fun other _ => undisturbed.spares other) ?_
  rw [undisturbed.userMap, undisturbed.opener, undisturbed.semMap, undisturbed.queueMap,
    undisturbed.sems, undisturbed.queues,
    if_neg (by rw [early _ within.2]; exact Bool.false_ne_true)]
  exact .serves (apart.receiver there (early _ within.1)) within same.2 awake hungry fetched

private theorem visit_looks {moved : ResultThread} (apart : process.Apart)
    (tidy : ∀ user, (process.visit user).Tidy)
    (suits : process.Suits config index call (.result thread))
    (there : process.threads[index]? = some (.result thread))
    (looks : Looks config process thread call moved) :
    (process.visit user).Step ((process.setThread index (.result moved)).visit user) := by
  have undisturbed := undisturbed_setThread process index (.result moved)
  have hasQueue : thread.pc.afterUser = false → thread.pc.hasQueue = true →
      thread.queue ≠ none := fun early =>
    ((tidy thread.user).receiver thread (apart.receiver there early)).fetched
  cases looks with
  | replied stands written =>
      apply visit_serves apart there rfl undisturbed
      · rw [stands]
        cases config.storm <;> exact ⟨rfl, rfl⟩
      · exact ⟨rfl, rfl, rfl⟩
      · rw [stands]
        cases config.storm <;> rfl
      · cases config.storm <;> exact fun impossible => by cases impossible
      · cases config.storm <;> exact fun impossible => by cases impossible
  | bound stands =>
      have success : call = .success := by
        simp only [Suits, stands] at suits
        exact suits
      rw [if_pos success] at undisturbed ⊢
      apply visit_serves apart there rfl undisturbed
      · rw [stands]
        exact ⟨rfl, rfl⟩
      · exact ⟨rfl, rfl, rfl⟩
      · rw [stands]
        rfl
      · exact fun impossible => by cases impossible
      · exact fun impossible => by cases impossible
  | @fetched stands queue held =>
      rcases held with held | ⟨before, found⟩
      · apply visit_serves apart there rfl undisturbed
        · rw [stands]
          exact ⟨rfl, rfl⟩
        · exact ⟨rfl, rfl, held.symm⟩
        · rw [stands]
          rfl
        · exact fun impossible => by cases impossible
        · intro _
          rw [held]
          exact fun impossible => by cases impossible
      · have early : thread.pc.afterUser = false := by rw [stands]; rfl
        refine apart.result_steps there early rfl rfl (fun other _ => undisturbed.spares other) ?_
        exact .fetches (apart.receiver there early) stands before found
  | empty stands held live =>
      have early : thread.pc.afterUser = false := by rw [stands]; rfl
      refine apart.result_steps there early rfl rfl (fun other _ => undisturbed.spares other) ?_
      exact .closes (apart.receiver there early) stands held live
  | @nonempty stands address held fileName rest live =>
      apply visit_serves apart there rfl undisturbed
      · rw [stands]
        cases config.storm <;> exact ⟨rfl, rfl⟩
      · exact ⟨rfl, rfl, rfl⟩
      · rw [stands]
        cases config.storm <;> rfl
      · intro _
        rw [held]
        simp [lengthAt, live]
      · intro _
        rw [held]
        exact fun impossible => by cases impossible
  | filled stands =>
      apply visit_serves apart there rfl undisturbed
      · rw [stands]
        exact ⟨rfl, rfl⟩
      · exact ⟨rfl, rfl, rfl⟩
      · rw [stands]
        rfl
      · exact fun impossible => by cases impossible
      · exact fun _ => hasQueue (by rw [stands]; rfl) (by rw [stands]; rfl)
  | @received next stands target =>
      apply visit_serves apart there rfl undisturbed
      · rw [stands]
        rcases target with rfl | rfl <;> exact ⟨rfl, rfl⟩
      · exact ⟨rfl, rfl, rfl⟩
      · rw [stands]
        rcases target with rfl | rfl <;> rfl
      · rcases target with rfl | rfl <;> exact fun impossible => by cases impossible
      · exact fun _ => hasQueue (by rw [stands]; rfl) (by rw [stands]; rfl)
  | sent stands written =>
      apply visit_serves apart there rfl undisturbed
      · rw [stands]
        exact ⟨rfl, rfl⟩
      · exact ⟨rfl, rfl, rfl⟩
      · rw [stands]
        rfl
      · exact fun impossible => by cases impossible
      · exact fun _ => hasQueue (by rw [stands]; rfl) (by rw [stands]; rfl)
  | unsent stands failed =>
      simp only [Suits, stands] at suits
      exact absurd (suits failed.1) failed.2

/-- The objects of a thread that has erased its user are nobody's. -/
private theorem visit_deletesSem (apart : process.Apart)
    (there : process.threads[index]? = some (.result thread))
    (stands : thread.pc = .deletingSem) :
    (process.visit user).Step (({ process with
      threads := process.threads.set index (.result { thread with pc := .deletingQueue })
      sems := process.sems.set thread.sem none } : Process).visit user) := by
  have spares : process.Spares ({ process with
      threads := process.threads.set index (.result { thread with pc := .deletingQueue })
      sems := process.sems.set thread.sem none } : Process) user := by
    refine ⟨⟨rfl, rfl, rfl, rfl⟩, ?_, fun _ _ => rfl⟩
    intro sem uses
    apply List.getElem?_set_ne
    intro same
    have early := (apart.owner_of_sem uses there (by rw [stands]; rfl) same).2
    rw [stands] at early
    cases early
  apply spares.step_unseen there rfl rfl
  simp [Thread.receiverOf, stands, ResultAt.afterUser]

private theorem visit_deletesQueue {queue : Nat} (apart : process.Apart)
    (there : process.threads[index]? = some (.result thread))
    (stands : thread.pc = .deletingQueue) (held : thread.queue = some queue) :
    (process.visit user).Step (({ process with
      threads := process.threads.set index (.result { thread with pc := .ended })
      queues := process.queues.set queue none } : Process).visit user) := by
  have spares : process.Spares ({ process with
      threads := process.threads.set index (.result { thread with pc := .ended })
      queues := process.queues.set queue none } : Process) user := by
    refine ⟨⟨rfl, rfl, rfl, rfl⟩, fun _ _ => rfl, ?_⟩
    intro other uses
    apply List.getElem?_set_ne
    rintro rfl
    have early := (apart.owner_of_queue uses there (by rw [stands]; exact nofun) held).2
    rw [stands] at early
    cases early
  apply spares.step_unseen there rfl rfl
  simp [Thread.receiverOf, stands, ResultAt.afterUser]

private theorem visit_starts (apart : process.Apart) (tidy : ∀ user, (process.visit user).Tidy)
    (there : process.threads[index]? = some (.result thread)) (stands : thread.pc = .starting) :
    (process.visit user).Step (({ process with
      semMap := Function.update process.semMap thread.user (some process.sems.length)
      sems := process.sems ++ [some 0]
      threads := process.threads.set index (.result { thread with
        sem := process.sems.length
        pc := .replying }) } : Process).visit user) := by
  have early : thread.pc.afterUser = false := by rw [stands]; rfl
  refine apart.result_steps there early rfl rfl ?_ ?_
  · intro other owner
    refine ⟨⟨rfl, rfl, Function.update_of_ne (Ne.symm owner) _ _, rfl⟩, ?_, fun _ _ => rfl⟩
    intro sem uses
    obtain ⟨value, used⟩ := (tidy other).sem_alive uses
    obtain ⟨within, -⟩ := List.getElem?_eq_some_iff.mp used
    exact List.getElem?_append_left within
  · simp only [Function.update_self]
    exact .starts (apart.receiver there early) stands

private theorem visit_wakes {value : Nat} (apart : process.Apart)
    (there : process.threads[index]? = some (.result thread)) (stands : thread.pc = .waiting)
    (live : process.sems[thread.sem]? = some (some (value + 1))) :
    (process.visit user).Step (({ process with
      threads := process.threads.set index (.result { thread with pc := .woken })
      sems := process.sems.set thread.sem (some value) } : Process).visit user) := by
  have early : thread.pc.afterUser = false := by rw [stands]; rfl
  refine apart.result_steps there early rfl rfl ?_ ?_
  · intro other owner
    refine ⟨⟨rfl, rfl, rfl, rfl⟩, ?_, fun _ _ => rfl⟩
    intro sem uses
    apply List.getElem?_set_ne
    intro same
    exact owner (apart.owner_of_sem uses there (by rw [stands]; rfl) same).1
  · exact .wakes (apart.receiver there early) stands live

private theorem visit_takes {address : Nat} {fileName : List Byte} {rest : List (List Byte)}
    {pc : ResultAt} (apart : process.Apart)
    (there : process.threads[index]? = some (.result thread))
    (stands : (thread.pc = .permitted ∧ pc = .popped fileName) ∨
      (thread.pc = .taking ∧ pc = .receiving))
    (held : thread.queue = some address)
    (live : process.queues[address]? = some (some (fileName :: rest))) :
    (process.visit user).Step (({ process with
      threads := process.threads.set index (.result { thread with pc := pc })
      queues := process.queues.set address (some rest) } : Process).visit user) := by
  obtain ⟨early, running, late⟩ : thread.pc.afterUser = false ∧ thread.pc ≠ .ended ∧
      pc.afterUser = false := by
    rcases stands with ⟨stands, rfl⟩ | ⟨stands, rfl⟩ <;> rw [stands] <;> exact ⟨rfl, nofun, rfl⟩
  refine apart.result_steps there early rfl rfl ?_ ?_
  · intro other owner
    refine ⟨⟨rfl, rfl, rfl, rfl⟩, fun _ _ => rfl, ?_⟩
    intro queue uses
    apply List.getElem?_set_ne
    rintro rfl
    exact owner (apart.owner_of_queue uses there running held).1
  · rw [if_neg (by rw [late]; exact Bool.false_ne_true)]
    refine .takes (apart.receiver there early) (stands.imp And.left And.left) held live ?_
    exact stands.imp And.right And.right

/-- The entries are erased one by one. -/
private theorem visit_erases (apart : process.Apart) {moved : ResultThread}
    (there : process.threads[index]? = some (.result thread))
    (early : thread.pc.afterUser = false)
    (threads : after.threads = process.threads.set index (.result moved))
    (owner : moved.user = thread.user) (opener : after.opener = process.opener)
    (objects : after.sems = process.sems ∧ after.queues = process.queues)
    (others : ∀ other, thread.user ≠ other → after.userMap other = process.userMap other ∧
      after.semMap other = process.semMap other ∧ after.queueMap other = process.queueMap other)
    (own : (process.visit thread.user).receiver = some thread →
      (process.visit thread.user).Step { process.visit thread.user with
        count := after.userMap thread.user
        semEntry := after.semMap thread.user
        queueEntry := after.queueMap thread.user
        receiver := if moved.pc.afterUser then none else some moved }) :
    (process.visit user).Step (after.visit user) := by
  refine apart.result_steps there early threads owner ?_ ?_
  · intro other different
    obtain ⟨users, sems, queues⟩ := others other different
    exact ⟨⟨users, by rw [opener], sems, queues⟩, fun _ _ => by rw [objects.1],
      fun _ _ => by rw [objects.2]⟩
  · rw [opener, objects.1, objects.2]
    exact own (apart.receiver there early)

end Serves

/-! ### Logins -/

/-- A user is served by one more thread. -/
private theorem visit_admits {sock : Int} {command : Command} {owner : User} {granted : Process}
    (tidy : ∀ user, (process.visit user).Tidy)
    (there : process.threads[index]? = some (.connection sock))
    (known : command ≠ .unknown)
    (fits : process.userMap owner = none ∨ command ≠ process.opener owner)
    (login : process.login owner command = some granted) :
    (process.visit user).Step
      ((granted.setThread index (entry owner sock command)).visit user) := by
  have kept := login_cases login
  obtain ⟨noSender, noReceiver⟩ := newcomer_alone tidy fits login
  by_cases mine : owner = user
  · subst mine
    have other : process.userMap owner ≠ none → command ≠ process.opener owner :=
      fun present => fits.resolve_left present
    cases command with
    | unknown => exact absurd rfl known
    | transmit =>
        have sender : (process.threads.set index (entry owner sock .transmit)).findSome?
            (Thread.senderOf owner) = some (.init owner) := by
          rw [findSome?_set_new (noSender rfl) there]
          exact if_pos ⟨rfl, rfl⟩
        have receiver : (process.threads.set index (entry owner sock .transmit)).findSome?
            (Thread.receiverOf owner) = (process.visit owner).receiver :=
          findSome?_set_same there rfl
        rcases kept with ⟨new, rfl⟩ | ⟨second, rfl⟩
        · simp only [visit, setThread, sender, receiver, Function.update_self]
          exact .openedTransmit owner new
        · simp only [visit, setThread, sender, receiver, Function.update_self]
          exact .joinedTransmit owner second
            (Ne.symm (other (by simp [second])))
    | result =>
        have sender : (process.threads.set index (entry owner sock .result)).findSome?
            (Thread.senderOf owner) = (process.visit owner).sender :=
          findSome?_set_same there rfl
        have receiver : (process.threads.set index (entry owner sock .result)).findSome?
            (Thread.receiverOf owner) = some (.init owner sock) := by
          rw [findSome?_set_new (noReceiver rfl) there]
          exact if_pos ⟨rfl, rfl⟩
        rcases kept with ⟨new, rfl⟩ | ⟨second, rfl⟩
        · simp only [visit, setThread, sender, receiver, Function.update_self]
          exact .openedResult owner sock new
        · simp only [visit, setThread, sender, receiver, Function.update_self]
          exact .joinedResult owner sock second
            (Ne.symm (other (by simp [second])))
  · have unseen : (entry owner sock command).senderOf user = none ∧
        (entry owner sock command).receiverOf user = none := by
      cases command <;> simp [entry, Thread.senderOf, Thread.receiverOf, TransmitThread.init,
        ResultThread.init, mine]
    have spares : process.Spares (granted.setThread index (entry owner sock command)) user := by
      rcases kept with ⟨-, rfl⟩ | ⟨-, rfl⟩
      · exact ⟨⟨Function.update_of_ne (Ne.symm mine) _ _, Function.update_of_ne (Ne.symm mine) _ _,
          rfl, rfl⟩, fun _ _ => rfl, fun _ _ => rfl⟩
      · exact ⟨⟨Function.update_of_ne (Ne.symm mine) _ _, rfl, rfl, rfl⟩, fun _ _ => rfl,
          fun _ _ => rfl⟩
    have threads : (granted.setThread index (entry owner sock command)).threads =
        process.threads.set index (entry owner sock command) := by
      rcases kept with ⟨-, rfl⟩ | ⟨-, rfl⟩ <;> rfl
    exact spares.step_unseen there threads unseen.1 unseen.2

/-! ### Every step -/

/-- For every user a step of the process is a step of the visit. -/
theorem Moves.visit (apart : process.Apart) (tidy : ∀ user, (process.visit user).Tidy)
    (served : config.mode ≠ .mf) (cooperates : process.Cooperates config label)
    (moves : Moves config process label after) :
    (process.visit user).Step (after.visit user) := by
  cases moves with
  | accept sock =>
      rw [visit_created rfl rfl]
      exact .elsewhere (fun _ _ => rfl) (fun _ _ => rfl)
  | turnedAway there =>
      exact ((undisturbed_setThread process _ _).spares user).step_unseen there rfl rfl rfl
  | admitted there parsed login =>
      obtain ⟨known, fits⟩ := welcome_cases cooperates parsed login
      exact visit_admits tidy there known fits login
  | event there idle stepped => exact visit_event apart tidy served cooperates there idle stepped
  | quiet there next quiet =>
      exact visit_quiet apart tidy there next (.inl quiet) rfl (undisturbed_setThread process _ _)
  | register there next => exact visit_registers apart tidy there next
  | submit there next =>
      exact visit_quiet apart tidy there next (.inr rfl) rfl ⟨rfl, rfl, rfl, rfl, rfl, rfl⟩
  | push there next held live => exact visit_pushes apart tidy there next held live
  | lookup there next first found => exact visit_looksUp apart tidy there next first found
  | post there next held live => exact visit_signals apart tidy there next held live
  | @discard index thread rest address names there next held live =>
      have here := apart.sender there (running_of_pending next)
      have due := ((tidy thread.user).sender thread here).sound.due
      rw [next] at due
      exact absurd List.mem_cons_self due.deleteQueue_notMem
  | look there looks =>
      exact visit_looks apart tidy (cooperates _ (Option.mem_def.mpr there)) there looks
  | start there stands => exact visit_starts apart tidy there stands
  | wait there stands live => exact visit_wakes apart there stands live
  | @eraseSem index thread call there stands =>
      refine visit_erases apart there (by rw [stands]; rfl) rfl rfl rfl ⟨rfl, rfl⟩ ?_ ?_
      · exact fun other different => ⟨rfl, Function.update_of_ne (Ne.symm different) _ _, rfl⟩
      · intro here
        simp only [Function.update_self]
        exact .erasesSem here stands
  | @eraseQueue index thread call there stands =>
      refine visit_erases apart there (by rw [stands]; rfl) rfl rfl rfl ⟨rfl, rfl⟩ ?_ ?_
      · exact fun other different => ⟨rfl, rfl, Function.update_of_ne (Ne.symm different) _ _⟩
      · intro here
        simp only [Function.update_self]
        exact .erasesQueue here stands
  | @eraseUser index thread call there stands =>
      refine visit_erases apart there (by rw [stands]; rfl) rfl rfl rfl ⟨rfl, rfl⟩ ?_ ?_
      · exact fun other different => ⟨Function.update_of_ne (Ne.symm different) _ _, rfl, rfl⟩
      · intro here
        simp only [Function.update_self]
        exact .erasesUser here stands
  | deleteSem there stands live => exact visit_deletesSem apart there stands
  | deleteQueue there stands held live => exact visit_deletesQueue apart there stands held
  | @grab index thread call value there stands permit =>
      have early : thread.pc.afterUser = false := by rw [stands]; rfl
      have fetched := ((tidy thread.user).receiver thread (apart.receiver there early)).fetched
      refine visit_serves apart there rfl ⟨rfl, rfl, rfl, rfl, rfl, rfl⟩ ?_ ?_ ?_ ?_ ?_
      · rw [stands]
        exact ⟨rfl, rfl⟩
      · exact ⟨rfl, rfl, rfl⟩
      · rw [stands]
        rfl
      · exact fun _ => .inl (by rw [stands]; rfl)
      · exact fun _ => fetched (by rw [stands]; rfl)
  | take there stands held live => exact visit_takes apart there stands held live
  | @spawn index thread fileName there stands =>
      have moved : (process.visit user).Step
          ((process.setThread index (.result { thread with pc := .waiting })).visit user) := by
        apply visit_serves apart there rfl (undisturbed_setThread process _ _)
        · rw [stands]
          exact ⟨rfl, rfl⟩
        · exact ⟨rfl, rfl, rfl⟩
        · rw [stands]
          rfl
        · exact nofun
        · exact nofun
      have created := @visit_created
        (process.setThread index (.result { thread with pc := .waiting })) user
        (.worker ⟨index, .created⟩) rfl rfl
      rw [← created] at moved
      exact moved
  | spawnFailed there stands => cases cooperates.created there stands
  | @finish index thread call there stands =>
      refine visit_serves apart there rfl ⟨rfl, rfl, rfl, rfl, rfl, rfl⟩ ?_ ?_ ?_ ?_ ?_
      · rw [stands]
        exact ⟨rfl, rfl⟩
      · exact ⟨rfl, rfl, rfl⟩
      · rw [stands]
        rfl
      · exact nofun
      · exact nofun
  | @stop index thread call value there stands live =>
      have early : thread.pc.afterUser = false := by rw [stands]; rfl
      exact absurd stands
        ((tidy thread.user).receiver thread (apart.receiver there early)).runs
  | advance there advances =>
      exact ((undisturbed_setThread process _ _).spares user).step_unseen there rfl rfl rfl
  | unwritten there failed =>
      exact ((undisturbed_setThread process _ _).spares user).step_unseen there rfl rfl rfl
  | finished there =>
      refine Spares.step_unseen ?_ there rfl rfl rfl
      apply Undisturbed.spares
      exact ⟨rfl, rfl, rfl, rfl, rfl, rfl⟩
  | released there =>
      refine Spares.step_unseen ?_ there rfl rfl rfl
      apply Undisturbed.spares
      exact ⟨rfl, rfl, rfl, rfl, rfl, rfl⟩

end Steps

end Process

end PaintingCPS
