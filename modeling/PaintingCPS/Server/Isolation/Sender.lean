import PaintingCPS.Server.Isolation.Receiver

/-!
Contract: the `server_transmit` of one session.

Each of its actions is the next one of the program of the session, or one that
the session model does not have.

Owns: one lemma for each kind of action, and the lemma about every step of
`server_transmit`.

Does not own: which actions an event causes.
-/

set_option autoImplicit false

namespace PaintingCPS

open Foundation

namespace Cast

section Steps

variable {config : Config} {process after : Process} {cast moved : Cast} {index : Nat}
variable {call : Call}

/-- While `server_transmit` is there, `server_result` does not leave. -/
private theorem On.stays (on : cast.On process) {sender : TransmitThread}
    (isSender : cast.sender = some sender) (live : sender.ended = false) :
    cast.receiver.pc.departing = false ∧ cast.receiver.pc.afterUser = false ∧
      cast.receiver.pc ≠ .ended := by
  have still : ¬ (cast.receiver.pc.departing = true ∨ cast.receiver.pc.afterUser = true) := by
    intro leaves
    have gone := on.gone leaves sender isSender
    rw [live] at gone
    cases gone
  rw [not_or, Bool.not_eq_true, Bool.not_eq_true] at still
  refine ⟨still.1, still.2, fun gone => ?_⟩
  rw [gone] at still
  cases still.2

/-- The thread at the place of `server_transmit` is the one of the cast. -/
private theorem On.sender_eq (on : cast.On process) (isPlace : cast.place = some index)
    {sender : TransmitThread} (there : process.threads[index]? = some (.transmit sender)) :
    cast.sender = some sender := by
  obtain ⟨found, isSender, at'⟩ := on.sender index isPlace
  cases at'.symm.trans there
  exact isSender

/-- The `server_transmit` of the session moves. -/
private theorem On.sends (on : cast.On process) (isPlace : cast.place = some index)
    {sender moved : TransmitThread}
    (there : process.threads[index]? = some (.transmit sender)) (live : sender.ended = false)
    (threads : after.threads = process.threads.set index (.transmit moved))
    (user : moved.user = sender.user) (users : after.userMap = process.userMap)
    (fetched : ∀ queue, cast.receiver.queue = some queue → moved.queue = some queue)
    (entry : cast.receiver.pc.unregistered = false →
      after.queueMap cast.receiver.user = moved.queue)
    (asked : ∀ sem, moved.semMatch = some sem →
      sem = cast.receiver.sem ∧ cast.receiver.pc ≠ .starting) :
    ({ cast with sender := some moved, queue := moved.queue } : Cast).On after := by
  have isSender := on.sender_eq isPlace there
  obtain ⟨present, early, -⟩ := on.stays isSender live
  exact
    { receiver := fun place isIndex => by
        have found := on.receiver place isIndex
        rw [threads, getElem?_set_there _ there, if_neg]
        · exact found
        · rintro rfl
          rw [there] at found
          cases found
      absent := fun isNone => by
        refine ⟨(on.absent isNone).1, ?_⟩
        have nobody := (on.absent isNone).2
        have same : (Thread.transmit moved).receiverOf cast.receiver.user =
            (Thread.transmit sender).receiverOf cast.receiver.user := rfl
        simp only [Process.visit] at nobody ⊢
        rw [threads, findSome?_set_same there same]
        exact nobody
      sender := fun place isOther => by
        obtain rfl : index = place := Option.some.inj (isPlace.symm.trans isOther)
        refine ⟨moved, rfl, ?_⟩
        rw [threads, getElem?_set_there _ there, if_pos rfl]
      nobody := fun isNone => by
        rw [isPlace] at isNone
        cases isNone
      user := by
        rintro other ⟨⟩
        exact user.trans (on.user sender isSender)
      paired := fun still place other found same runs => by
        rw [threads, getElem?_set_there _ there] at found
        split at found
        next here => rw [isPlace, here]
        next => exact on.paired still place other found same runs
      joined := fun here with' still => by
        rw [users]
        exact on.joined here with' still
      fetched := fetched
      entry := entry
      held := by
        rintro other ⟨⟩
        rfl
      asked := by
        rintro other sem ⟨⟩
        exact asked sem
      gone := fun leaves => by
        rw [present, early] at leaves
        rcases leaves with departs | late
        · cases departs
        · cases late }

/-- So does what the process shows. -/
private theorem presents_sends {old future : List Action} {session next : Session}
    (presents : Presents process cast old session) (on : cast.On process)
    (isPlace : cast.place = some index) {sender moved : TransmitThread}
    (there : process.threads[index]? = some (.transmit sender)) (live : sender.ended = false)
    (threads : after.threads = process.threads.set index (.transmit moved))
    (kept : next.fault = session.fault ∧ next.sock = session.sock ∧
      next.result = session.result ∧ next.transInfo = session.transInfo ∧
      next.children = session.children ∧ next.processSem = session.processSem ∧
      next.semMap = session.semMap ∧ next.resultQueue = session.resultQueue)
    (permits : after.permits ≤ process.permits)
    (semMatch : cast.receiver.pc.holdsSem = true → ∃ value,
      after.sems[cast.receiver.sem]? = some (some value) ∧ next.semMatch = some value)
    (queueMap : next.queueMap = moved.queue.isSome)
    (imgQueue : next.imgQueue = moved.queue.bind fun queue => (after.queues[queue]?).join)
    (program : next.program = moved.pending ++ future)
    (transmitSem : next.transmitSem = moved.semMatch.isSome) :
    Presents after { cast with sender := some moved, queue := moved.queue } future next := by
  obtain ⟨fault, sock, result, transInfo, children, processSem, semMap, resultQueue⟩ := kept
  obtain ⟨present, -, running⟩ := on.stays (on.sender_eq isPlace there) live
  exact
    { sound := fault.trans presents.sound
      stands := by rw [result]; exact presents.stands
      sock := sock.trans presents.sock
      transInfo := fun _ => transInfo.trans (presents.transInfo running)
      children := by
        rw [children, presents.children, Cast.children, Cast.children, threads]
        cases cast.index with
        | none => rfl
        | some owner =>
            have same : (Thread.transmit moved).childOf owner =
                (Thread.transmit sender).childOf owner := rfl
            rw [Option.elim_some, Option.elim_some, filterMap_set_same there same]
      permits := by
        have same : next.allPermits = session.allPermits := by
          simp only [Session.allPermits, Session.held, Session.activeChildren, result, children,
            processSem]
        rw [same]
        exact Nat.le_trans permits presents.permits
      semMap := fun started _ => semMap.trans (presents.semMap started running)
      semMatch := semMatch
      resultQueue := resultQueue.trans presents.resultQueue
      queueMap := fun _ => queueMap
      imgQueue := fun _ => imgQueue
      departing := fun departs => by
        rw [present] at departs
        cases departs
      program := program
      transmitSem := transmitSem }

/-- The next action of `server_transmit` is one of the session. -/
private theorem transmit_eq {future rest : List Action} {action : Action} {session : Session}
    (presents : Presents process cast future session) {sender : TransmitThread}
    (isSender : cast.sender = some sender) (next : sender.pending = action :: rest) :
    session.move config.mode .transmit =
      ({ session with program := rest ++ future } : Session).act action := by
  have program := presents.program
  rw [Cast.pending, isSender, Option.elim_some, next, List.cons_append] at program
  simp only [Session.move, Session.transmit, program]

/-- An action that the session knows without an effect. -/
private theorem Tracked.aside (tracked : cast.Tracked config process)
    (isPlace : cast.place = some index) {sender : TransmitThread} {action : Action}
    {rest : List Action} (there : process.threads[index]? = some (.transmit sender))
    (next : sender.pending = action :: rest)
    (threads : after.threads = process.threads.set index
      (.transmit { sender with pending := rest }))
    (same : process.Undisturbed after) (permits : after.permits ≤ process.permits)
    (effect : ∀ session : Session, session.transmitSem = sender.semMatch.isSome →
      session.act action = some (.ok session)) :
    ({ cast with
      sender := some { sender with pending := rest }
      queue := sender.queue } : Cast).Tracked config after := by
  have on := tracked.on
  have isSender := on.sender_eq isPlace there
  have live := Process.running_of_pending next
  have isQueue := on.held sender isSender
  obtain ⟨-, -, running⟩ := on.stays isSender live
  refine tracked.next (on.sends isPlace there live threads rfl same.userMap
    (fun queue fetched => isQueue.trans (on.fetched queue fetched))
    (fun registered => by rw [same.queueMap, on.entry registered, isQueue])
    (fun sem asked => on.asked sender sem isSender asked)) rfl ?_ ?_
  · rw [Cast.program, Cast.program, isSender]
    rfl
  · intro future session presents
    have asks : session.transmitSem = sender.semMatch.isSome := by
      rw [presents.transmitSem, isSender]
      rfl
    refine .inr ⟨.transmit, { session with program := rest ++ future },
      (transmit_eq presents isSender next).trans (effect _ asks), ?_⟩
    refine presents_sends presents on isPlace there live threads
      ⟨rfl, rfl, rfl, rfl, rfl, rfl, rfl, rfl⟩ permits ?_ ?_ ?_ rfl asks
    · intro holds
      rw [same.sems]
      exact presents.semMatch holds
    · rw [isQueue]
      exact presents.queueMap running
    · rw [isQueue, same.queues]
      exact presents.imgQueue running

/-- The queue is created. -/
private theorem Tracked.registers (tracked : cast.Tracked config process)
    (intact : process.Intact) (isPlace : cast.place = some index) {sender : TransmitThread}
    {rest : List Action} (there : process.threads[index]? = some (.transmit sender))
    (next : sender.pending = .register :: rest)
    (permits : ({ process with
      queueMap := Function.update process.queueMap sender.user (some process.queues.length)
      queues := process.queues ++ [some []]
      threads := process.threads.set index (.transmit { sender with
        pending := rest
        queue := some process.queues.length }) } : Process).permits ≤ process.permits) :
    ({ cast with
      sender := some { sender with
        pending := rest
        queue := some process.queues.length }
      queue := some process.queues.length } : Cast).Tracked config { process with
        queueMap := Function.update process.queueMap sender.user (some process.queues.length)
        queues := process.queues ++ [some []]
        threads := process.threads.set index (.transmit { sender with
          pending := rest
          queue := some process.queues.length }) } := by
  have on := tracked.on
  have isSender := on.sender_eq isPlace there
  have live := Process.running_of_pending next
  have isQueue := on.held sender isSender
  have user := on.user sender isSender
  have sound := ((intact.tidy _).sender sender (intact.apart.sender there live)).sound
  have before : sender.queue = none := sound.registers.mpr (by rw [next]; exact List.mem_cons_self)
  rw [before] at isQueue
  refine tracked.next (@On.sends process _ cast index on isPlace sender { sender with
    pending := rest
    queue := some process.queues.length } there live rfl rfl rfl ?_ ?_
    (fun sem asked => on.asked sender sem isSender asked)) rfl ?_ ?_
  · intro queue fetched
    have held := on.fetched queue fetched
    rw [← isQueue] at held
    cases held
  · intro _
    rw [← user]
    exact Function.update_self _ _ _
  · rw [Cast.program, Cast.program, isSender]
    rfl
  · intro future session presents
    refine .inr ⟨.transmit, { session with
      program := rest ++ future
      queueMap := true
      imgQueue := some [] }, transmit_eq presents isSender next, ?_⟩
    refine presents_sends presents on isPlace there live rfl
      ⟨rfl, rfl, rfl, rfl, rfl, rfl, rfl, rfl⟩ permits presents.semMatch rfl ?_ rfl ?_
    · rw [Option.bind_some, List.getElem?_concat_length]
      rfl
    · rw [presents.transmitSem, isSender]
      rfl

/-- A name is queued. -/
private theorem Tracked.pushes (tracked : cast.Tracked config process)
    (isPlace : cast.place = some index) {sender : TransmitThread} {fileName : List Byte}
    {rest : List Action} {address : Nat} {names : List (List Byte)}
    (there : process.threads[index]? = some (.transmit sender))
    (next : sender.pending = .push fileName :: rest) (held : sender.queue = some address)
    (live : process.queues[address]? = some (some names))
    (permits : ({ process with
      threads := process.threads.set index (.transmit { sender with pending := rest })
      queues := process.queues.set address (some (names ++ [fileName])) } :
      Process).permits ≤ process.permits) :
    ({ cast with
      sender := some { sender with pending := rest }
      queue := sender.queue } : Cast).Tracked config { process with
        threads := process.threads.set index (.transmit { sender with pending := rest })
        queues := process.queues.set address (some (names ++ [fileName])) } := by
  have on := tracked.on
  have isSender := on.sender_eq isPlace there
  have runs := Process.running_of_pending next
  have isQueue := on.held sender isSender
  obtain ⟨-, -, running⟩ := on.stays isSender runs
  refine tracked.next (@On.sends process _ cast index on isPlace sender
    { sender with pending := rest } there runs rfl rfl rfl
    (fun queue fetched => isQueue.trans (on.fetched queue fetched))
    (fun registered => (on.entry registered).trans isQueue.symm)
    (fun sem asked => on.asked sender sem isSender asked)) rfl ?_ ?_
  · rw [Cast.program, Cast.program, isSender]
    rfl
  · intro future session presents
    have queued := presents.imgQueue running
    rw [← isQueue, held, Option.bind_some, live, Option.join_some] at queued
    refine .inr ⟨.transmit, { session with
      program := rest ++ future
      imgQueue := some (names ++ [fileName])
      pushed := session.pushed ++ [fileName] },
      (transmit_eq presents isSender next).trans (by simp only [Session.act, queued]), ?_⟩
    refine presents_sends presents on isPlace there runs rfl
      ⟨rfl, rfl, rfl, rfl, rfl, rfl, rfl, rfl⟩ permits presents.semMatch ?_ ?_ rfl ?_
    · rw [isQueue]
      exact presents.queueMap running
    · rw [held, Option.bind_some, getElem?_set_there _ live, if_pos rfl]
      rfl
    · rw [presents.transmitSem, isSender]
      rfl

/-- The semaphore that `server_transmit` finds is the one of the session. -/
private theorem On.found (on : cast.On process) (intact : process.Intact)
    {sender : TransmitThread} (isSender : cast.sender = some sender) (live : sender.ended = false)
    {address : Nat} (found : process.semMap sender.user = some address) :
    address = cast.receiver.sem ∧ cast.receiver.pc ≠ .starting := by
  have user := on.user sender isSender
  obtain ⟨-, early, -⟩ := on.stays isSender live
  obtain ⟨receiver, here, started, kept⟩ := (intact.tidy sender.user).semHeld address found
  have same := ((intact.tidy sender.user).receiver receiver here).semEntry started kept
  rw [user] at here
  cases isIndex : cast.index with
  | none =>
      rw [(on.absent isIndex).2] at here
      cases here
  | some place =>
      rw [intact.apart.receiver (on.receiver place isIndex) early, Option.some.injEq] at here
      subst here
      exact ⟨Option.some.inj (found.symm.trans same), started⟩

/-- `server_transmit` looks for its semaphore. -/
private theorem Tracked.looksUp (tracked : cast.Tracked config process)
    (intact : process.Intact) (isPlace : cast.place = some index) {sender : TransmitThread}
    {rest : List Action} {address : Nat}
    (there : process.threads[index]? = some (.transmit sender))
    (next : sender.pending = .lookup :: rest) (first : sender.semMatch = none)
    (found : process.semMap sender.user = some address)
    (permits : (process.setThread index (.transmit { sender with
      pending := rest
      semMatch := some address })).permits ≤ process.permits) :
    ({ cast with
      sender := some { sender with
        pending := rest
        semMatch := some address }
      queue := sender.queue } : Cast).Tracked config
        (process.setThread index (.transmit { sender with
          pending := rest
          semMatch := some address })) := by
  have on := tracked.on
  have isSender := on.sender_eq isPlace there
  have live := Process.running_of_pending next
  have isQueue := on.held sender isSender
  have own := on.found intact isSender live found
  obtain ⟨-, -, running⟩ := on.stays isSender live
  refine tracked.next (@On.sends process _ cast index on isPlace sender { sender with
    pending := rest
    semMatch := some address } there live rfl rfl rfl
    (fun queue fetched => isQueue.trans (on.fetched queue fetched))
    (fun registered => (on.entry registered).trans isQueue.symm) ?_) rfl ?_ ?_
  · rintro sem ⟨⟩
    exact own
  · rw [Cast.program, Cast.program, isSender]
    rfl
  · intro future session presents
    have asks : session.transmitSem = false := by
      rw [presents.transmitSem, isSender, Option.elim_some, first]
      rfl
    have mapped := presents.semMap own.2 running
    refine .inr ⟨.transmit, { session with program := rest ++ future, transmitSem := true },
      (transmit_eq presents isSender next).trans (by simp [Session.act, asks, mapped]), ?_⟩
    refine presents_sends presents on isPlace there live rfl
      ⟨rfl, rfl, rfl, rfl, rfl, rfl, rfl, rfl⟩ permits presents.semMatch ?_ ?_ rfl rfl
    · rw [isQueue]
      exact presents.queueMap running
    · rw [isQueue]
      exact presents.imgQueue running

/-- `server_transmit` signals. -/
private theorem Tracked.posts (tracked : cast.Tracked config process)
    (isPlace : cast.place = some index) {sender : TransmitThread} {rest : List Action}
    {address value : Nat} (there : process.threads[index]? = some (.transmit sender))
    (next : sender.pending = .post :: rest) (held : sender.semMatch = some address)
    (live : process.sems[address]? = some (some value))
    (permits : ({ process with
      threads := process.threads.set index (.transmit { sender with pending := rest })
      sems := process.sems.set address (some (value + 1)) } : Process).permits ≤
        process.permits) :
    ({ cast with
      sender := some { sender with pending := rest }
      queue := sender.queue } : Cast).Tracked config { process with
        threads := process.threads.set index (.transmit { sender with pending := rest })
        sems := process.sems.set address (some (value + 1)) } := by
  have on := tracked.on
  have isSender := on.sender_eq isPlace there
  have runs := Process.running_of_pending next
  have isQueue := on.held sender isSender
  obtain ⟨rfl, started⟩ := on.asked sender address isSender held
  obtain ⟨present, early, running⟩ := on.stays isSender runs
  have holds : cast.receiver.pc.holdsSem = true := by
    cases stands : cast.receiver.pc <;> simp_all [ResultAt.holdsSem, ResultAt.departing]
  refine tracked.next (@On.sends process _ cast index on isPlace sender
    { sender with pending := rest } there runs rfl rfl rfl
    (fun queue fetched => isQueue.trans (on.fetched queue fetched))
    (fun registered => (on.entry registered).trans isQueue.symm)
    (fun sem asked => on.asked sender sem isSender asked)) rfl ?_ ?_
  · rw [Cast.program, Cast.program, isSender]
    rfl
  · intro future session presents
    have asks : session.transmitSem = true := by
      rw [presents.transmitSem, isSender, Option.elim_some, held]
      rfl
    obtain ⟨found, shown, isSem⟩ := presents.semMatch holds
    rw [live, Option.some.injEq, Option.some.injEq] at shown
    subst shown
    refine .inr ⟨.transmit, { session with
      program := rest ++ future
      semMatch := some (value + 1) },
      (transmit_eq presents isSender next).trans (by simp [Session.act, asks, isSem]), ?_⟩
    refine presents_sends presents on isPlace there runs rfl
      ⟨rfl, rfl, rfl, rfl, rfl, rfl, rfl, rfl⟩ permits ?_ ?_ ?_ rfl ?_
    · intro _
      refine ⟨value + 1, ?_, rfl⟩
      rw [getElem?_set_there _ live, if_pos rfl]
    · rw [isQueue]
      exact presents.queueMap running
    · rw [isQueue]
      exact presents.imgQueue running
    · rw [held]
      exact asks

/-- An event, and what it asks of `server_transmit`. -/
private theorem Tracked.asks (tracked : cast.Tracked config process)
    (isPlace : cast.place = some index) {sender : TransmitThread} {junk : Nat → Byte}
    {happened : Event} {state : Transmit}
    (there : process.threads[index]? = some (.transmit sender)) (idle : sender.pending = [])
    (stepped : sender.state.step config.mode config.backend junk happened = some (.ok state))
    (permits : (process.setThread index (.transmit { sender with
      state := state
      pending := state.actions.drop sender.state.actions.length })).permits ≤ process.permits) :
    ({ cast with
      sender := some { sender with
        state := state
        pending := state.actions.drop sender.state.actions.length }
      queue := sender.queue } : Cast).Tracked config
        (process.setThread index (.transmit { sender with
          state := state
          pending := state.actions.drop sender.state.actions.length })) := by
  have on := tracked.on
  have isSender := on.sender_eq isPlace there
  have live := Process.running_of_step stepped
  have isQueue := on.held sender isSender
  obtain ⟨-, -, running⟩ := on.stays isSender live
  refine ⟨@On.sends process _ cast index on isPlace sender { sender with
    state := state
    pending := state.actions.drop sender.state.actions.length } there live rfl rfl rfl
    (fun queue fetched => isQueue.trans (on.fetched queue fetched))
    (fun registered => (on.entry registered).trans isQueue.symm)
    (fun sem asked => on.asked sender sem isSender asked), fun future => ?_⟩
  -- what is asked now was a part of the future before
  obtain ⟨session, reached, presents⟩ :=
    tracked.session (state.actions.drop sender.state.actions.length ++ future)
  obtain ⟨emitted, asked⟩ := Transmit.step_extends stepped
  have isEmitted : state.actions.drop sender.state.actions.length = emitted := by
    rw [← asked, List.drop_left]
  rw [Cast.program, isSender, Option.elim_some, isEmitted, ← List.append_assoc, asked] at reached
  refine ⟨session, reached, ?_⟩
  refine presents_sends presents on isPlace there live rfl
    ⟨rfl, rfl, rfl, rfl, rfl, rfl, rfl, rfl⟩ permits presents.semMatch ?_ ?_ ?_ ?_
  · rw [isQueue]
    exact presents.queueMap running
  · rw [isQueue]
    exact presents.imgQueue running
  · have program := presents.program
    rw [Cast.pending, isSender, Option.elim_some, idle, List.nil_append] at program
    exact program
  · rw [presents.transmitSem, isSender]
    rfl

/-- A quiet action has no effect in the session. -/
private theorem act_of_quiet {sender : TransmitThread} {action : Action}
    (quiet : Process.Quiet sender action) (session : Session)
    (asks : session.transmitSem = sender.semMatch.isSome) :
    session.act action = some (.ok session) := by
  cases action with
  | reply | store | forward => rfl
  | lookup =>
      rw [show sender.semMatch.isSome = true from quiet] at asks
      simp only [Session.act, asks, if_true]
  | register | submit | push | post | deleteQueue => cases quiet

/-- A step of the `server_transmit` of the session. -/
theorem Tracked.sends {label : ProcessStep} (tracked : cast.Tracked config process)
    (intact : process.Intact) (isPlace : cast.place = some index)
    (own : label = .act index ∨ ∃ junk happened, label = .event index junk happened)
    (moves : Process.Moves config process label after) :
    ∃ sender queue, ({ cast with
      sender := some sender
      queue := queue } : Cast).Tracked config after := by
  have permits := moves.permits_le
  rcases own with rfl | ⟨junk, happened, rfl⟩
  · cases moves with
    | quiet there next quiet =>
        exact ⟨_, _, tracked.aside isPlace there next rfl ⟨rfl, rfl, rfl, rfl, rfl, rfl⟩ permits
          (act_of_quiet quiet)⟩
    | register there next => exact ⟨_, _, tracked.registers intact isPlace there next permits⟩
    | submit there next =>
        exact ⟨_, _, tracked.aside isPlace there next rfl ⟨rfl, rfl, rfl, rfl, rfl, rfl⟩ permits
          fun _ _ => rfl⟩
    | push there next held live =>
        exact ⟨_, _, tracked.pushes isPlace there next held live permits⟩
    | lookup there next first found =>
        exact ⟨_, _, tracked.looksUp intact isPlace there next first found permits⟩
    | post there next held live =>
        exact ⟨_, _, tracked.posts isPlace there next held live permits⟩
    | discard there next held live =>
        -- the code for it is there, but nobody gets there with a queue
        have runs := Process.running_of_pending next
        have due := ((intact.tidy _).sender _ (intact.apart.sender there runs)).sound.due
        rw [next] at due
        exact absurd List.mem_cons_self due.deleteQueue_notMem
  · cases moves with
    | event there idle stepped =>
        exact ⟨_, _, tracked.asks isPlace there idle stepped permits⟩

end Steps

end Cast

end PaintingCPS
