import PaintingCPS.Server.Session

/-!
Contract: dispatch between the transmit and the result thread of a session.

An empty queue means the end of the session, so every wake-up of the result
thread but the last must find a name. `Stage` says how far the transmit thread
is; `Live` balances the semaphore and the result thread's wake-up against the
queue and the transmit thread's outstanding signal.

Owns: the invariant, and exactly-once dispatch in every run.

Does not own: what the children do with the names.
-/

set_option autoImplicit false

namespace PaintingCPS

open Foundation

/-- How far the transmit thread is. The last two numbers count the name it has
queued and not signalled, and its signal for the end of the session. -/
inductive Stage (names : List (List Byte)) :
    List Action → List (List Byte) → Bool → Bool → Nat → Nat → Prop
  | entering : Stage names (.register :: dispatch names) [] false false 0 0
  | between {pushed rest : List (List Byte)} {found : Bool} :
      pushed ++ rest = names → (pushed ≠ [] → found = true) →
      Stage names (dispatch rest) pushed true found 0 0
  | queued {pushed rest : List (List Byte)} {found : Bool} :
      pushed ++ rest = names → pushed ≠ [] →
      Stage names (.lookup :: .post :: dispatch rest) pushed true found 1 0
  | signalling {pushed rest : List (List Byte)} :
      pushed ++ rest = names → pushed ≠ [] →
      Stage names (.post :: dispatch rest) pushed true true 1 0
  | ended : Stage names [] names true true 0 1

namespace Stage

variable {names pushed : List (List Byte)} {rest : List Action} {registered found : Bool}
variable {pending final : Nat}

/-- The first action of a program that dispatches names. -/
private theorem dispatch_eq_cons {left : List (List Byte)} {action : Action}
    (same : dispatch left = action :: rest) :
    (left = [] ∧ action = .post ∧ rest = []) ∨
      ∃ fileName more, left = fileName :: more ∧ action = .push fileName ∧
        rest = .lookup :: .post :: dispatch more := by
  cases left with
  | nil =>
      cases same
      exact .inl ⟨rfl, rfl, rfl⟩
  | cons fileName more =>
      cases same
      exact .inr ⟨fileName, more, rfl, rfl, rfl⟩

/-- The thread does nothing but register, queue, look up and signal. -/
theorem action_cases {action : Action}
    (stage : Stage names (action :: rest) pushed registered found pending final) :
    action = .register ∨ (∃ fileName, action = .push fileName) ∨ action = .lookup ∨
      action = .post := by
  generalize program : action :: rest = actions at stage
  cases stage with
  | entering =>
      cases program
      exact .inl rfl
  | between =>
      rcases dispatch_eq_cons program.symm with ⟨-, isPost, -⟩ | ⟨fileName, _, -, isPush, -⟩
      · exact .inr (.inr (.inr isPost))
      · exact .inr (.inl ⟨fileName, isPush⟩)
  | queued =>
      cases program
      exact .inr (.inr (.inl rfl))
  | signalling =>
      cases program
      exact .inr (.inr (.inr rfl))
  | ended => cases program

theorem register (stage : Stage names (.register :: rest) pushed registered found pending final) :
    Stage names rest pushed true found 0 0 ∧ pushed = [] ∧ found = false ∧ pending = 0 ∧
      final = 0 := by
  generalize program : Action.register :: rest = actions at stage
  cases stage with
  | entering =>
      cases program
      exact ⟨.between rfl (by simp), rfl, rfl, rfl, rfl⟩
  | between =>
      rcases dispatch_eq_cons program.symm with ⟨-, impossible, -⟩ | ⟨_, _, -, impossible, -⟩ <;>
        cases impossible
  | _ => cases program

theorem push {fileName : List Byte}
    (stage : Stage names (.push fileName :: rest) pushed registered found pending final) :
    Stage names rest (pushed ++ [fileName]) true found 1 0 ∧ registered = true ∧ pending = 0 ∧
      final = 0 := by
  generalize program : Action.push fileName :: rest = actions at stage
  cases stage with
  | between split known =>
      rcases dispatch_eq_cons program.symm with ⟨-, impossible, -⟩ | ⟨other, more, rfl, same, rfl⟩
      · cases impossible
      · cases same
        exact ⟨.queued (by simpa using split) (by simp), rfl, rfl, rfl⟩
  | _ => cases program

theorem lookup (stage : Stage names (.lookup :: rest) pushed registered found pending final) :
    Stage names rest pushed true true 1 0 ∧ registered = true ∧ pending = 1 ∧ final = 0 := by
  generalize program : Action.lookup :: rest = actions at stage
  cases stage with
  | between =>
      rcases dispatch_eq_cons program.symm with ⟨-, impossible, -⟩ | ⟨_, _, -, impossible, -⟩ <;>
        cases impossible
  | queued split nonempty =>
      cases program
      exact ⟨.signalling split nonempty, rfl, rfl, rfl⟩
  | _ => cases program

/-- A signal is for a queued name or for the end of the session, and in both
cases an earlier image has found the semaphore. -/
theorem post (hasNames : names ≠ [])
    (stage : Stage names (.post :: rest) pushed registered found pending final) :
    found = true ∧ registered = true ∧ final = 0 ∧
      ∃ last, Stage names rest pushed true true 0 last ∧ pending + last = 1 := by
  generalize program : Action.post :: rest = actions at stage
  cases stage with
  | between split known =>
      rcases dispatch_eq_cons program.symm with ⟨rfl, -, rfl⟩ | ⟨_, _, -, impossible, -⟩
      · rw [List.append_nil] at split
        subst split
        exact ⟨known hasNames, rfl, rfl, 1, .ended, rfl⟩
      · cases impossible
  | signalling split nonempty =>
      cases program
      exact ⟨rfl, rfl, rfl, 0, .between split fun _ => rfl, rfl⟩
  | _ => cases program

/-- Once the last signal is given, everything is queued. -/
theorem finished {program : List Action}
    (stage : Stage names program pushed registered found pending final) (last : 0 < final) :
    program = [] ∧ pushed = names ∧ final = 1 := by
  cases stage with
  | ended => exact ⟨rfl, rfl, rfl⟩
  | _ => omega

/-- Before the queue is registered, nothing is queued or signalled. -/
theorem unregistered {program : List Action}
    (stage : Stage names program pushed false found pending final) :
    pushed = [] ∧ final = 0 := by
  cases stage with
  | entering => exact ⟨rfl, rfl⟩

end Stage

namespace Session

/-- The names in the queue. -/
def queue (session : Session) : List (List Byte) := session.imgQueue.getD []

/-- The value of the semaphore. -/
def permits (session : Session) : Nat := session.semMatch.getD 0

/-- The result thread has been woken and has not popped a name since. -/
def awake (session : Session) : Nat :=
  match session.result with
  | .woken | .testing | .grabbing | .permitted => 1
  | _ => 0

/-- The result thread has seen that the queue is not empty. -/
def committed (session : Session) : Prop :=
  session.result = .grabbing ∨ session.result = .permitted

/-- The invariant of a session whose result thread has not returned. -/
structure Live (names : List (List Byte)) (session : Session) (pending final : Nat) :
    Prop where
  stage : Stage names session.program session.pushed session.queueMap session.transmitSem
    pending final
  registered : session.imgQueue.isSome = session.queueMap
  order : session.popped ++ session.queue = session.pushed
  balance : session.permits + session.awake + pending = session.queue.length + final
  semaphore : session.semMap = session.semMatch.isSome
  starting : session.result = .starting ↔ session.semMatch = none
  found : session.transmitSem = true → session.semMatch.isSome = true
  nonempty : session.committed → session.queue ≠ []
  running : session.result ≠ .returned

/-- The invariant: the session is live, or it is over and complete. -/
structure Dispatching (names : List (List Byte)) (session : Session) : Prop where
  sound : session.fault = none
  phase : (∃ pending final, session.Live names pending final) ∨
    (session.result = .returned ∧ session.program = [] ∧ session.pushed = names ∧
      session.popped = names)

theorem init_dispatching (parallelism : Nat) (sock : Int) (names : List (List Byte)) :
    (init parallelism sock (.register :: dispatch names)).Dispatching names where
  sound := rfl
  phase := .inl ⟨0, 0,
    { stage := .entering
      registered := rfl
      order := rfl
      balance := rfl
      semaphore := rfl
      starting := by simp [init]
      found := by simp [init]
      nonempty := by simp [committed, init]
      running := by simp [init] }⟩

section Steps

variable {mode : Mode} {names : List (List Byte)} {session after : Session}
variable {label : SessionMove} {pending final : Nat}

/-- A woken result thread finds the queue object. -/
private theorem Live.imgQueue_of_awake (live : session.Live names pending final)
    (awake : session.awake = 1) : ∃ queue, session.imgQueue = some queue := by
  rw [← Option.isSome_iff_exists, live.registered]
  by_contra missing
  rw [Bool.not_eq_true] at missing
  have stage := live.stage
  rw [missing] at stage
  obtain ⟨nothing, zero⟩ := stage.unregistered
  have order := live.order
  rw [nothing, List.append_eq_nil_iff] at order
  have balance := live.balance
  rw [order.2, awake, zero, List.length_nil] at balance
  omega

/-- No step of a live session crashes. -/
private theorem Live.no_crash (hasNames : names ≠ []) (live : session.Live names pending final)
    {fault : Fault} : ¬ session.Crash label fault := by
  intro crash
  have stage := live.stage
  cases crash with
  | push atPush deleted =>
      rw [atPush] at stage
      have registered := live.registered
      rw [stage.push.2.1, deleted] at registered
      cases registered
  | postNull atPost unknown =>
      rw [atPost] at stage
      rw [(stage.post hasNames).1] at unknown
      cases unknown
  | postDeleted atPost known deleted =>
      have found := live.found known
      rw [deleted] at found
      cases found
  | fetch atWoken unregistered =>
      obtain ⟨queue, there⟩ := live.imgQueue_of_awake (by simp [awake, atWoken])
      have registered := live.registered
      rw [there, unregistered] at registered
      cases registered
  | test atTest deleted =>
      obtain ⟨queue, there⟩ := live.imgQueue_of_awake (by simp [awake, atTest])
      rw [deleted] at there
      cases there
  | popDeleted atPop deleted =>
      exact live.nonempty (.inr atPop) (by rw [Session.queue, deleted]; rfl)
  | popEmpty atPop empty =>
      exact live.nonempty (.inr atPop) (by rw [Session.queue, empty]; rfl)

/-- Once `sem_match` is there, it stays until the end. -/
private theorem Live.started (live : session.Live names pending final)
    (begun : session.result ≠ .starting) {next : ResultPc} (nextBegun : next ≠ .starting) :
    next = .starting ↔ session.semMatch = none :=
  ⟨fun starting => absurd starting nextBegun,
    fun deleted => absurd (live.starting.mpr deleted) begun⟩

/-- The actions of the transmit thread keep the invariant. -/
private theorem Live.transmit (hasNames : names ≠ []) (live : session.Live names pending final)
    (step : Step mode session .transmit after) (sound : after.fault = none) :
    ∃ pending final, after.Live names pending final := by
  have stage := live.stage
  have balance := live.balance
  cases step with
  | @register rest atRegister =>
      rw [atRegister] at stage
      obtain ⟨next, nothing, unknown, rfl, rfl⟩ := stage.register
      have order := live.order
      rw [nothing, List.append_eq_nil_iff] at order
      refine ⟨0, 0, ⟨?_, rfl, ?_, ?_, live.semaphore, live.starting, live.found, ?_, live.running⟩⟩
      · exact next
      · rw [order.1]
        exact nothing.symm
      · rw [order.2] at balance
        exact balance
      · intro committed
        exact absurd order.2 (live.nonempty committed)
  | @push fileName rest queue atPush there =>
      rw [atPush] at stage
      obtain ⟨next, registered, rfl, rfl⟩ := stage.push
      have before : session.queue = queue := by rw [Session.queue, there]; rfl
      have order := live.order
      rw [before] at order balance
      refine ⟨1, 0, ⟨?_, ?_, ?_, ?_, live.semaphore, live.starting, live.found, ?_, live.running⟩⟩
      · rw [registered]
        exact next
      · rw [registered]
        rfl
      · change session.popped ++ (queue ++ [fileName]) = session.pushed ++ [fileName]
        rw [← List.append_assoc, order]
      · change session.permits + session.awake + 1 = (queue ++ [fileName]).length + 0
        rw [List.length_append, List.length_singleton]
        omega
      · intro _
        change queue ++ [fileName] ≠ []
        simp
  | @lookup rest atLookup found =>
      rw [atLookup] at stage
      obtain ⟨next, registered, rfl, rfl⟩ := stage.lookup
      refine ⟨1, 0, ⟨?_, live.registered, live.order, balance, live.semaphore, live.starting, ?_,
        live.nonempty, live.running⟩⟩
      · rw [registered]
        exact next
      · intro _
        rcases found with known | present
        · exact live.found known
        · rw [← live.semaphore]
          exact present
  | @post rest value atPost known there =>
      rw [atPost] at stage
      obtain ⟨found, registered, rfl, last, next, total⟩ := stage.post hasNames
      have before : session.permits = value := by rw [Session.permits, there]; rfl
      rw [before] at balance
      refine ⟨0, last, ⟨?_, live.registered, live.order, ?_, ?_, ?_, fun _ => rfl, live.nonempty,
        live.running⟩⟩
      · rw [registered, known]
        exact next
      · change value + 1 + session.awake + 0 = session.queue.length + last
        omega
      · rw [live.semaphore, there]
        rfl
      · have starting := live.starting
        rw [there] at starting
        simpa using starting
  | deleteQueue atDelete =>
      rw [atDelete] at stage
      rcases stage.action_cases with other | ⟨_, other⟩ | other | other <;> cases other
  | aside atAside notShared =>
      rw [atAside] at stage
      rcases stage.action_cases with rfl | ⟨_, rfl⟩ | rfl | rfl <;> cases notShared
  | miss => exact ⟨pending, final, ⟨live.stage, live.registered, live.order, live.balance,
      live.semaphore, live.starting, live.found, live.nonempty, live.running⟩⟩
  | crash => cases sound

/-- Every step of a live session keeps the invariant; the session ends only
when all names are popped and the last signal is given. -/
private theorem Live.step (hasNames : names ≠ []) (live : session.Live names pending final)
    (step : Step mode session label after) (sound : after.fault = none) :
    (∃ pending final, after.Live names pending final) ∨
      (after.result = .returned ∧ after.program = [] ∧ after.pushed = names ∧
        after.popped = names) := by
  by_cases isTransmit : label = .transmit
  · subst isTransmit
    exact .inl (live.transmit hasNames step sound)
  have balance := live.balance
  cases step with
  | start atStart =>
      have deleted := live.starting.mp atStart
      have idle : session.awake = 0 := by rw [awake, atStart]
      have zero : session.permits = 0 := by rw [permits, deleted]; rfl
      rw [idle, zero] at balance
      exact .inl ⟨pending, final, live.stage, live.registered, live.order, balance, rfl,
        by simp, fun _ => rfl, by simp [committed], by simp⟩
  | @wait value atWait positive =>
      have idle : session.awake = 0 := by rw [awake, atWait]
      have count : session.permits = value + 1 := by rw [permits, positive]; rfl
      rw [idle, count] at balance
      refine .inl ⟨pending, final, live.stage, live.registered, live.order, ?_, ?_, by simp,
        fun _ => rfl, by simp [committed], by simp⟩
      · change value + 1 + pending = session.queue.length + final
        omega
      · rw [live.semaphore, positive]
        rfl
  | fetch atWoken =>
      have woken : session.awake = 1 := by rw [awake, atWoken]
      rw [woken] at balance
      exact .inl ⟨pending, final, live.stage, live.registered, live.order, balance,
        live.semaphore, live.started (by simp [atWoken]) (by simp), live.found,
        by simp [committed], by simp⟩
  | tearDown atTest empty =>
      have woken : session.awake = 1 := by rw [awake, atTest]
      have nothing : session.queue = [] := by rw [queue, empty]; rfl
      rw [woken, nothing, List.length_nil] at balance
      obtain ⟨done, all, -⟩ := live.stage.finished (by omega)
      have order := live.order
      rw [nothing, List.append_nil] at order
      exact .inr ⟨rfl, done, all, order.trans all⟩
  | @goOn fileName rest atTest there =>
      have woken : session.awake = 1 := by rw [awake, atTest]
      rw [woken] at balance
      refine .inl ⟨pending, final, live.stage, live.registered, live.order, balance,
        live.semaphore, live.started (by simp [atTest]) (by simp), live.found, fun _ => ?_, by simp⟩
      change session.imgQueue.getD [] ≠ []
      rw [there]
      simp
  | grab atGrab =>
      have woken : session.awake = 1 := by rw [awake, atGrab]
      rw [woken] at balance
      exact .inl ⟨pending, final, live.stage, live.registered, live.order, balance,
        live.semaphore, live.started (by simp [atGrab]) (by simp), live.found,
        fun _ => live.nonempty (.inl atGrab), by simp⟩
  | @pop fileName rest atPop there =>
      have woken : session.awake = 1 := by rw [awake, atPop]
      have before : session.queue = fileName :: rest := by rw [queue, there]; rfl
      have order := live.order
      rw [before] at order
      rw [woken, before, List.length_cons] at balance
      have registered := live.registered
      rw [there] at registered
      refine .inl ⟨pending, final, live.stage, registered, ?_, ?_, live.semaphore,
        live.started (by simp [atPop]) (by simp), live.found,
        by simp [committed], by simp⟩
      · change session.popped ++ [fileName] ++ rest = session.pushed
        rw [List.append_assoc, List.singleton_append, order]
      · change session.permits + 0 + pending = rest.length + final
        omega
  | fill atFill =>
      have idle : session.awake = 0 := by rw [awake, atFill]
      rw [idle] at balance
      exact .inl ⟨pending, final, live.stage, live.registered, live.order, balance,
        live.semaphore, live.started (by simp [atFill]) (by simp), live.found,
        by simp [committed], by simp⟩
  | spawn atSpawn =>
      have idle : session.awake = 0 := by rw [awake, atSpawn]
      rw [idle] at balance
      exact .inl ⟨pending, final, live.stage, live.registered, live.order, balance,
        live.semaphore, live.started (by simp [atSpawn]) (by simp), live.found,
        by simp [committed], by simp⟩
  | sock | name | miss | reply | hangUp | permit =>
      exact .inl ⟨pending, final, live.stage, live.registered, live.order, live.balance,
        live.semaphore, live.starting, live.found, live.nonempty, live.running⟩
  | crash => cases sound
  | register | push | lookup | post | deleteQueue | aside => exact absurd rfl isTransmit

/-- Every step keeps the invariant. -/
theorem Dispatching.step (hasNames : names ≠ []) (dispatching : session.Dispatching names)
    (step : Step mode session label after) : after.Dispatching names := by
  obtain ⟨sound, ⟨pending, final, live⟩ | ⟨returned, done, all, complete⟩⟩ := dispatching
  · have soundAfter : after.fault = none := by
      cases step with
      | crash crashed => exact absurd crashed (live.no_crash hasNames)
      | _ => exact sound
    exact ⟨soundAfter, live.step hasNames step soundAfter⟩
  · cases step with
    | sock | name | miss | reply | hangUp | permit =>
        exact ⟨sound, .inr ⟨returned, done, all, complete⟩⟩
    | crash crashed =>
        cases crashed with
        | push there | postNull there | postDeleted there =>
            rw [done] at there
            cases there
        | fetch there | test there | popDeleted there | popEmpty there =>
            rw [returned] at there
            cases there
    | register there | push there | lookup there | post there | deleteQueue there
    | aside there =>
        rw [done] at there
        cases there
    | start there | wait there | fetch there | tearDown there | goOn there | grab there
    | pop there | fill there | spawn there =>
        rw [returned] at there
        cases there

end Steps

end Session

/-- Exactly-once dispatch, in every order of the threads' steps, for a transmit
thread that brings at least one image and then fails to read a header. Names
are popped in the order in which they were queued; the session is torn down
only after all names are popped and the transmit thread has signalled for the
last time; and neither thread uses an empty queue or a dead object. -/
theorem session_dispatches {mode : Mode} {junk : Nat → Byte} {rounds : List (Round mode)}
    (images : rounds ≠ []) {thread : Transmit}
    (ran : Transmit.init.run mode .disk junk (Round.connection rounds) = some (.ok thread))
    {parallelism : Nat} {sock : Int} {finish : Session}
    (reached : (sessionMachine mode).Reaches
      (.init parallelism sock (thread.actions.filter Action.shared)) finish) :
    finish.popped <+: finish.pushed ∧
      (finish.result = .returned →
        finish.popped = rounds.map (fun round => round.upload.fileName) ∧
          finish.program = []) ∧
      finish.fault = none := by
  obtain ⟨same, ranSame, -, actions⟩ := Round.run_connection junk images
  have threads : same = thread := by
    rw [ran, Option.some.injEq, Except.ok.injEq] at ranSame
    exact ranSame.symm
  rw [← threads, actions] at reached
  have hasNames : rounds.map (fun round => round.upload.fileName) ≠ [] := by simpa using images
  have dispatching : finish.Dispatching (rounds.map fun round => round.upload.fileName) :=
    reached.invariant (Session.init_dispatching parallelism sock _)
      fun dispatching _ transition =>
        dispatching.step hasNames (Session.step_of_transition transition).2
  obtain ⟨sound, ⟨pending, final, live⟩ | ⟨-, done, all, complete⟩⟩ := dispatching
  · exact ⟨⟨_, live.order⟩, fun returned => absurd returned live.running, sound⟩
  · exact ⟨complete.trans all.symm ▸ List.prefix_refl _, fun _ => ⟨complete, done⟩, sound⟩

/-- One image of two bytes that arrive one by one. -/
def wholeRound : Round .tcp where
  upload := Attempt.cutUpload
  accepted := by decide
  header := Attempt.cutUpload.info ++ [nul]
  isHeader := List.prefix_refl _
  attempt := .wholeAttempt
  complete := rfl
  sameMode := rfl
  notMf := by decide

/-- The image is dispatched and the session torn down. -/
def wholeSchedule : List SessionMove :=
  [.transmit, .resultStart, .transmit, .transmit, .transmit, .resultWait, .resultFetch,
    .resultTest, .resultGrab, .resultPop, .resultFill, .resultSpawn, .transmit, .resultWait,
    .resultFetch, .resultTest]

theorem session_dispatches_one : ∃ finish : Session,
    finish.result = .returned ∧ finish.popped = [ascii "a"] ∧ finish.program = [] := by
  obtain ⟨thread, ran, -, actions⟩ :=
    Round.run_connection (fun _ => 0) (List.cons_ne_nil wholeRound [])
  obtain ⟨finish, reached, returned⟩ := Machine.exists_of_run
    (show (((sessionMachine .tcp).run (fun _ _ => True)
        (.init 1 4 (.register :: dispatch [ascii "a"])) wholeSchedule).map
      fun finish => decide (finish.result = .returned)) = some true by
      decide +kernel)
  have isReturned := of_decide_eq_true returned
  obtain ⟨-, complete, -⟩ := session_dispatches (List.cons_ne_nil wholeRound []) ran
    (actions ▸ reached)
  exact ⟨finish, isReturned, complete isReturned⟩

end PaintingCPS
