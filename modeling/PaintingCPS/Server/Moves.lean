import PaintingCPS.Foundation.Pool
import PaintingCPS.Server.Process

/-!
Contract: what one step of the server process can do, said once.

`Moves` has one constructor for each effect on what is shared; the steps of
`server_result` that change the thread alone are one constructor.

Owns: the step relation, its agreement with the machine, and where the threads
after a step come from.

Does not own: any invariant, and the steps that fault.
-/

set_option autoImplicit false

namespace PaintingCPS

open Foundation

namespace Process

section Live

variable {process : Process} {address : Option Nat}

theorem liveQueue_eq_ok {names : List (List Byte)} (live : process.liveQueue address = .ok names) :
    ∃ queue, address = some queue ∧ process.queues[queue]? = some (some names) := by
  unfold liveQueue at live
  split at live
  next => cases live
  next queue =>
    split at live
    next found =>
      cases live
      exact ⟨queue, rfl, found⟩
    next => cases live

theorem liveSem_eq_ok {value : Nat} (live : process.liveSem address = .ok value) :
    ∃ sem, address = some sem ∧ process.sems[sem]? = some (some value) := by
  unfold liveSem at live
  split at live
  next => cases live
  next sem =>
    split at live
    next found =>
      cases live
      exact ⟨sem, rfl, found⟩
    next => cases live

end Live

/-- A login finds the user absent, or with one thread. -/
theorem login_cases {process granted : Process} {userID : User} {command : Command}
    (login : process.login userID command = some granted) :
    (process.userMap userID = none ∧
      granted = { process with
        userMap := Function.update process.userMap userID (some 1)
        opener := Function.update process.opener userID command }) ∨
    (process.userMap userID = some 1 ∧
      granted = { process with
        userMap := Function.update process.userMap userID (some 2) }) := by
  unfold Process.login at login
  split at login
  next absent =>
    cases login
    exact .inl ⟨absent, rfl⟩
  next count present =>
    split at login
    next one =>
      cases login
      exact .inr ⟨by rw [present, one], rfl⟩
    next => cases login

/-- An action that changes nothing but the thread. -/
def Quiet (thread : TransmitThread) : Action → Prop
  | .reply | .store .. | .forward .. => True
  | .lookup => thread.semMatch.isSome
  | _ => False

/-- A `result_child` goes on to its reply. -/
inductive Advances (config : Config) (process : Process) (owner : Nat) (call : Call) :
    WorkerAt → WorkerAt → Prop
  | sock {info : ArgResult} (read : process.args owner = .ok info) :
      Advances config process owner call .created (.hasSock info.sock)
  | name {info : ArgResult} (sock : Int) (read : process.args owner = .ok info) :
      Advances config process owner call (.hasSock sock) (.matching sock info.fileName)
  | reply (sock : Int) (fileName : List Byte) (written : config.mode = .tcp → call = .success) :
      Advances config process owner call (.matching sock fileName) .replied

/-- A step of `server_result` that changes the thread alone. -/
inductive Looks (config : Config) (process : Process) (thread : ResultThread) (call : Call) :
    ResultThread → Prop
  | replied (stands : thread.pc = .replying) (written : config.mode = .tcp → call = .success) :
      Looks config process thread call
        { thread with pc := if config.storm then .binding else .waiting }
  | bound (stands : thread.pc = .binding) :
      Looks config process thread call
        { thread with pc := if call = .success then .waiting else .stopping }
  | fetched (stands : thread.pc = .woken) {queue : Nat}
      (held : thread.queue = some queue ∨
        (thread.queue = none ∧ process.queueMap thread.user = some queue)) :
      Looks config process thread call { thread with queue := some queue, pc := .testing }
  | empty (stands : thread.pc = .testing) {address : Nat} (held : thread.queue = some address)
      (live : process.queues[address]? = some (some [])) :
      Looks config process thread call { thread with pc := .erasingSem }
  | nonempty (stands : thread.pc = .testing) {address : Nat} (held : thread.queue = some address)
      {fileName : List Byte} {rest : List (List Byte)}
      (live : process.queues[address]? = some (some (fileName :: rest))) :
      Looks config process thread call
        { thread with pc := if config.storm then .taking else .grabbing }
  | filled {fileName : List Byte} (stands : thread.pc = .popped fileName) :
      Looks config process thread call { thread with
        transInfo := some ⟨thread.sock, fileName⟩
        pc := .filled fileName }
  | received {next : ResultAt} (stands : thread.pc = .receiving)
      (target : next = .sending ∨ next = .finishing) :
      Looks config process thread call { thread with pc := next }
  | sent (stands : thread.pc = .sending) (written : config.mode = .tcp → call = .success) :
      Looks config process thread call { thread with pc := .finishing }
  | unsent (stands : thread.pc = .sending) (failed : config.mode = .tcp ∧ call ≠ .success) :
      Looks config process thread call { thread with pc := .ended }

/-- One step that does not fault. -/
inductive Moves (config : Config) (process : Process) : ProcessStep → Process → Prop
  | accept (sock : Int) :
      Moves config process (.accept sock)
        { process with threads := process.threads ++ [.connection sock] }
  | turnedAway {index : Nat} {sock : Int} {bytes : Option (List Byte)}
      (there : process.threads[index]? = some (.connection sock)) :
      Moves config process (.header index bytes) (process.setThread index .closed)
  | admitted {index : Nat} {sock : Int} {bytes : Option (List Byte)} {command : Command}
      {userID : User} {granted : Process}
      (there : process.threads[index]? = some (.connection sock))
      (parsed : parseLogin (padded loginBuffer (bytes.getD [])) = .ok (command, userID))
      (login : process.login userID command = some granted) :
      Moves config process (.header index bytes)
        (granted.setThread index (entry userID sock command))
  | event {index : Nat} {junk : Nat → Byte} {happened : Event} {thread : TransmitThread}
      {after : Transmit}
      (there : process.threads[index]? = some (.transmit thread)) (idle : thread.pending = [])
      (stepped : thread.state.step config.mode config.backend junk happened = some (.ok after)) :
      Moves config process (.event index junk happened)
        (process.setThread index (.transmit { thread with
          state := after
          pending := after.actions.drop thread.state.actions.length }))
  | quiet {index : Nat} {thread : TransmitThread} {action : Action} {rest : List Action}
      (there : process.threads[index]? = some (.transmit thread))
      (next : thread.pending = action :: rest) (quiet : Quiet thread action) :
      Moves config process (.act index)
        (process.setThread index (.transmit { thread with pending := rest }))
  | register {index : Nat} {thread : TransmitThread} {rest : List Action}
      (there : process.threads[index]? = some (.transmit thread))
      (next : thread.pending = .register :: rest) :
      Moves config process (.act index) { process with
        queueMap := Function.update process.queueMap thread.user (some process.queues.length)
        queues := process.queues ++ [some []]
        threads := process.threads.set index (.transmit { thread with
          pending := rest
          queue := some process.queues.length }) }
  | submit {index : Nat} {thread : TransmitThread} {rest : List Action}
      (there : process.threads[index]? = some (.transmit thread))
      (next : thread.pending = .submit :: rest) :
      Moves config process (.act index) { process with
        threads := process.threads.set index (.transmit { thread with pending := rest })
        requestSubmitted := process.requestSubmitted + 1 }
  | push {index : Nat} {thread : TransmitThread} {fileName : List Byte} {rest : List Action}
      {address : Nat} {names : List (List Byte)}
      (there : process.threads[index]? = some (.transmit thread))
      (next : thread.pending = .push fileName :: rest) (held : thread.queue = some address)
      (live : process.queues[address]? = some (some names)) :
      Moves config process (.act index) { process with
        threads := process.threads.set index (.transmit { thread with pending := rest })
        queues := process.queues.set address (some (names ++ [fileName])) }
  | lookup {index : Nat} {thread : TransmitThread} {rest : List Action} {address : Nat}
      (there : process.threads[index]? = some (.transmit thread))
      (next : thread.pending = .lookup :: rest) (first : thread.semMatch = none)
      (found : process.semMap thread.user = some address) :
      Moves config process (.act index)
        (process.setThread index (.transmit { thread with
          pending := rest
          semMatch := some address }))
  | post {index : Nat} {thread : TransmitThread} {rest : List Action} {address value : Nat}
      (there : process.threads[index]? = some (.transmit thread))
      (next : thread.pending = .post :: rest) (held : thread.semMatch = some address)
      (live : process.sems[address]? = some (some value)) :
      Moves config process (.act index) { process with
        threads := process.threads.set index (.transmit { thread with pending := rest })
        sems := process.sems.set address (some (value + 1)) }
  | discard {index : Nat} {thread : TransmitThread} {rest : List Action} {address : Nat}
      {names : List (List Byte)}
      (there : process.threads[index]? = some (.transmit thread))
      (next : thread.pending = .deleteQueue :: rest) (held : thread.queue = some address)
      (live : process.queues[address]? = some (some names)) :
      Moves config process (.act index) { process with
        threads := process.threads.set index (.transmit { thread with pending := rest })
        queues := process.queues.set address none }
  | look {index : Nat} {thread after : ResultThread} {call : Call}
      (there : process.threads[index]? = some (.result thread))
      (looks : Looks config process thread call after) :
      Moves config process (.result index call) (process.setThread index (.result after))
  | start {index : Nat} {thread : ResultThread} {call : Call}
      (there : process.threads[index]? = some (.result thread)) (stands : thread.pc = .starting) :
      Moves config process (.result index call) { process with
        semMap := Function.update process.semMap thread.user (some process.sems.length)
        sems := process.sems ++ [some 0]
        threads := process.threads.set index (.result { thread with
          sem := process.sems.length
          pc := .replying }) }
  | wait {index : Nat} {thread : ResultThread} {call : Call} {value : Nat}
      (there : process.threads[index]? = some (.result thread)) (stands : thread.pc = .waiting)
      (live : process.sems[thread.sem]? = some (some (value + 1))) :
      Moves config process (.result index call) { process with
        threads := process.threads.set index (.result { thread with pc := .woken })
        sems := process.sems.set thread.sem (some value) }
  | eraseSem {index : Nat} {thread : ResultThread} {call : Call}
      (there : process.threads[index]? = some (.result thread))
      (stands : thread.pc = .erasingSem) :
      Moves config process (.result index call) { process with
        threads := process.threads.set index (.result { thread with pc := .erasingQueue })
        semMap := Function.update process.semMap thread.user none }
  | eraseQueue {index : Nat} {thread : ResultThread} {call : Call}
      (there : process.threads[index]? = some (.result thread))
      (stands : thread.pc = .erasingQueue) :
      Moves config process (.result index call) { process with
        threads := process.threads.set index (.result { thread with pc := .erasingUser })
        queueMap := Function.update process.queueMap thread.user none }
  | eraseUser {index : Nat} {thread : ResultThread} {call : Call}
      (there : process.threads[index]? = some (.result thread))
      (stands : thread.pc = .erasingUser) :
      Moves config process (.result index call) { process with
        threads := process.threads.set index (.result { thread with pc := .deletingSem })
        userMap := Function.update process.userMap thread.user none }
  | deleteSem {index : Nat} {thread : ResultThread} {call : Call} {value : Nat}
      (there : process.threads[index]? = some (.result thread))
      (stands : thread.pc = .deletingSem)
      (live : process.sems[thread.sem]? = some (some value)) :
      Moves config process (.result index call) { process with
        threads := process.threads.set index (.result { thread with pc := .deletingQueue })
        sems := process.sems.set thread.sem none }
  | deleteQueue {index : Nat} {thread : ResultThread} {call : Call} {address : Nat}
      {names : List (List Byte)}
      (there : process.threads[index]? = some (.result thread))
      (stands : thread.pc = .deletingQueue) (held : thread.queue = some address)
      (live : process.queues[address]? = some (some names)) :
      Moves config process (.result index call) { process with
        threads := process.threads.set index (.result { thread with pc := .ended })
        queues := process.queues.set address none }
  | grab {index : Nat} {thread : ResultThread} {call : Call} {value : Nat}
      (there : process.threads[index]? = some (.result thread)) (stands : thread.pc = .grabbing)
      (permit : process.processSem = value + 1) :
      Moves config process (.result index call) { process with
        threads := process.threads.set index (.result { thread with pc := .permitted })
        processSem := value }
  | take {index : Nat} {thread : ResultThread} {call : Call} {address : Nat}
      {fileName : List Byte} {rest : List (List Byte)} {pc : ResultAt}
      (there : process.threads[index]? = some (.result thread))
      (stands : (thread.pc = .permitted ∧ pc = .popped fileName) ∨
        (thread.pc = .taking ∧ pc = .receiving))
      (held : thread.queue = some address)
      (live : process.queues[address]? = some (some (fileName :: rest))) :
      Moves config process (.result index call) { process with
        threads := process.threads.set index (.result { thread with pc := pc })
        queues := process.queues.set address (some rest) }
  | spawn {index : Nat} {thread : ResultThread} {fileName : List Byte}
      (there : process.threads[index]? = some (.result thread))
      (stands : thread.pc = .filled fileName) :
      Moves config process (.result index .success) { process with
        threads := process.threads.set index (.result { thread with pc := .waiting }) ++
          [.worker ⟨index, .created⟩] }
  | spawnFailed {index : Nat} {thread : ResultThread} {fileName : List Byte} {code : Int}
      (there : process.threads[index]? = some (.result thread))
      (stands : thread.pc = .filled fileName) :
      Moves config process (.result index (.failure code))
        (process.setThread index (.result { thread with
          pc := if code = -1 then .stopping else .waiting }))
  | finish {index : Nat} {thread : ResultThread} {call : Call}
      (there : process.threads[index]? = some (.result thread))
      (stands : thread.pc = .finishing) :
      Moves config process (.result index call) { process with
        threads := process.threads.set index (.result { thread with pc := .waiting })
        requestFinished := process.requestFinished + 1 }
  | stop {index : Nat} {thread : ResultThread} {call : Call} {value : Nat}
      (there : process.threads[index]? = some (.result thread)) (stands : thread.pc = .stopping)
      (live : process.sems[thread.sem]? = some (some value)) :
      Moves config process (.result index call) { process with
        threads := process.threads.set index (.result { thread with pc := .ended })
        sems := process.sems.set thread.sem none }
  | advance {index owner : Nat} {pc next : WorkerAt} {call : Call}
      (there : process.threads[index]? = some (.worker ⟨owner, pc⟩))
      (advances : Advances config process owner call pc next) :
      Moves config process (.worker index call)
        (process.setThread index (.worker ⟨owner, next⟩))
  | unwritten {index owner : Nat} {sock : Int} {fileName : List Byte} {call : Call}
      (there : process.threads[index]? = some (.worker ⟨owner, .matching sock fileName⟩))
      (failed : config.mode = .tcp ∧ call ≠ .success) :
      Moves config process (.worker index call) (process.setThread index (.worker ⟨owner, .ended⟩))
  | finished {index owner : Nat} {call : Call}
      (there : process.threads[index]? = some (.worker ⟨owner, .replied⟩)) :
      Moves config process (.worker index call) { process with
        threads := process.threads.set index (.worker ⟨owner, .finished⟩)
        requestFinished := process.requestFinished + 1 }
  | released {index owner : Nat} {call : Call}
      (there : process.threads[index]? = some (.worker ⟨owner, .finished⟩)) :
      Moves config process (.worker index call) { process with
        threads := process.threads.set index (.worker ⟨owner, .ended⟩)
        processSem := process.processSem + 1 }

section Inversion

variable {config : Config} {process after : Process}

private theorem header_moves {index : Nat} {bytes : Option (List Byte)}
    (step : process.header config index bytes = some (.ok after)) :
    Moves config process (.header index bytes) after := by
  unfold header at step
  split at step
  next sock there =>
    split at step
    next =>
      cases step
      exact .turnedAway there
    next =>
      rw [Option.some.injEq] at step
      cases parsed : parseLogin (padded loginBuffer (bytes.getD [])) with
      | error fault => simp [parsed, bind, Except.bind] at step
      | ok fields =>
          obtain ⟨command, userID⟩ := fields
          simp only [parsed, bind, Except.bind] at step
          cases granted : process.login userID command with
          | none =>
              simp only [granted] at step
              cases step
              exact .turnedAway there
          | some admitted =>
              simp only [granted] at step
              cases step
              exact .admitted there parsed granted
  next => cases step

private theorem event_moves {index : Nat} {junk : Nat → Byte} {happened : Event}
    (step : process.event config index junk happened = some (.ok after)) :
    Moves config process (.event index junk happened) after := by
  unfold event at step
  split at step
  next thread there =>
    split at step
    next => cases step
    next idle =>
      split at step
      next => cases step
      next => cases step
      next state stepped =>
        cases step
        exact .event there (not_not.mp idle) stepped
  next => cases step

private theorem act_moves {index : Nat} (step : process.act index = some (.ok after)) :
    Moves config process (.act index) after := by
  unfold act at step
  split at step
  next thread there =>
    split at step
    next => cases step
    next action rest next' =>
      cases action with
      | register =>
          have move : Moves config process (.act index) _ := .register there next'
          cases step
          exact move
      | reply =>
          cases step
          exact .quiet there next' trivial
      | submit =>
          cases step
          exact .submit there next'
      | store fileName content =>
          cases step
          exact .quiet there next' trivial
      | forward content =>
          cases step
          exact .quiet there next' trivial
      | push fileName =>
          cases live : process.liveQueue thread.queue with
          | error fault => simp [perform, live, bind, Except.bind] at step
          | ok names =>
              obtain ⟨address, held, found⟩ := liveQueue_eq_ok live
              have same : thread.queue.getD 0 = address := held ▸ rfl
              simp only [perform, live, bind, Except.bind, same] at step
              cases step
              exact .push there next' held found
      | lookup =>
          obtain ⟨user, queue, semMatch, state, pending⟩ := thread
          cases semMatch with
          | some sem =>
              cases step
              exact .quiet there next' rfl
          | none =>
              cases found : process.semMap user with
              | none => simp [perform, found] at step
              | some sem =>
                  simp only [perform, found] at step
                  cases step
                  exact .lookup there next' rfl found
      | post =>
          cases live : process.liveSem thread.semMatch with
          | error fault => simp [perform, live, bind, Except.bind] at step
          | ok value =>
              obtain ⟨address, held, found⟩ := liveSem_eq_ok live
              have same : thread.semMatch.getD 0 = address := held ▸ rfl
              simp only [perform, live, bind, Except.bind, same] at step
              cases step
              exact .post there next' held found
      | deleteQueue =>
          cases live : process.liveQueue thread.queue with
          | error fault => simp [perform, live, bind, Except.bind] at step
          | ok names =>
              obtain ⟨address, held, found⟩ := liveQueue_eq_ok live
              have same : thread.queue.getD 0 = address := held ▸ rfl
              simp only [perform, live, bind, Except.bind, same] at step
              cases step
              exact .discard there next' held found
  next => cases step

private theorem look_looks {thread moved : ResultThread} {call : Call}
    (looked : process.look config thread call = some (.ok moved)) :
    Looks config process thread call moved := by
  unfold look at looked
  split at looked
  next stands =>
    split at looked
    next => cases looked
    next allowed =>
      have written : config.mode = .tcp → call = .success := by
        intro tcp
        by_contra failed
        exact allowed ⟨tcp, failed⟩
      have target : Looks config process thread call _ := .replied stands written
      split at looked
      next storm =>
        cases looked
        rwa [if_pos storm] at target
      next storm =>
        cases looked
        rwa [if_neg storm] at target
  next stands =>
    have target : Looks config process thread call _ := .bound stands
    split at looked
    next success =>
      cases looked
      rwa [if_pos success] at target
    next failure =>
      cases looked
      rwa [if_neg failure] at target
  next stands =>
    obtain ⟨user, sock, pc, sem, queue, transInfo⟩ := thread
    cases queue with
    | some address =>
        cases looked
        exact .fetched stands (.inl rfl)
    | none =>
        cases found : process.queueMap user with
        | none => simp [found] at looked
        | some address =>
            simp only [found] at looked
            cases looked
            exact .fetched stands (.inr ⟨rfl, found⟩)
  next stands =>
    cases live : process.liveQueue thread.queue with
    | error fault => simp [live] at looked
    | ok names =>
        obtain ⟨address, held, found⟩ := liveQueue_eq_ok live
        cases names with
        | nil =>
            simp only [live] at looked
            cases looked
            exact .empty stands held found
        | cons fileName rest =>
            simp only [live] at looked
            cases looked
            exact .nonempty stands held found
  next fileName stands =>
    cases looked
    exact .filled stands
  next stands =>
    split at looked
    next =>
      cases looked
      exact .received stands (.inl rfl)
    next =>
      cases looked
      exact .received stands (.inr rfl)
    next => cases looked
  next stands =>
    split at looked
    next failed =>
      cases looked
      exact .unsent stands failed
    next allowed =>
      cases looked
      refine .sent stands fun tcp => ?_
      by_contra failed
      exact allowed ⟨tcp, failed⟩
  next => cases looked

private theorem takeFront_moves {index : Nat} {thread : ResultThread} {call : Call}
    {target : List Byte → ResultAt}
    (there : process.threads[index]? = some (.result thread))
    (stands : ∀ fileName, (thread.pc = .permitted ∧ target fileName = .popped fileName) ∨
      (thread.pc = .taking ∧ target fileName = .receiving))
    (step : process.takeFront index thread target = some (.ok after)) :
    Moves config process (.result index call) after := by
  cases live : process.liveQueue thread.queue with
  | error fault => simp [takeFront, live, bind, Except.bind] at step
  | ok names =>
      obtain ⟨address, held, found⟩ := liveQueue_eq_ok live
      cases names with
      | nil => simp [takeFront, live, bind, Except.bind] at step
      | cons fileName rest =>
          have same : thread.queue.getD 0 = address := held ▸ rfl
          simp only [takeFront, live, bind, Except.bind, same] at step
          cases step
          exact .take there (stands fileName) held found

private theorem share_moves {index : Nat} {thread : ResultThread} {call : Call}
    (there : process.threads[index]? = some (.result thread))
    (step : process.share index thread call = some (.ok after)) :
    Moves config process (.result index call) after := by
  unfold share at step
  split at step
  next stands =>
    cases step
    exact .start there stands
  next stands =>
    split at step
    next => cases step
    next => cases step
    next value live =>
      obtain ⟨sem, held, found⟩ := liveSem_eq_ok live
      cases held
      cases step
      exact .wait there stands found
  next stands =>
    cases step
    exact .eraseSem there stands
  next stands =>
    cases step
    exact .eraseQueue there stands
  next stands =>
    cases step
    exact .eraseUser there stands
  next stands =>
    cases live : process.liveSem (some thread.sem) with
    | error fault => simp [live, bind, Except.bind] at step
    | ok value =>
        obtain ⟨sem, held, found⟩ := liveSem_eq_ok live
        cases held
        simp only [live, bind, Except.bind] at step
        cases step
        exact .deleteSem there stands found
  next stands =>
    cases live : process.liveQueue thread.queue with
    | error fault => simp [live, bind, Except.bind] at step
    | ok names =>
        obtain ⟨address, held, found⟩ := liveQueue_eq_ok live
        have same : thread.queue.getD 0 = address := held ▸ rfl
        simp only [live, bind, Except.bind, same] at step
        cases step
        exact .deleteQueue there stands held found
  next stands =>
    split at step
    next => cases step
    next value permit =>
      cases step
      exact .grab there stands permit
  next stands => exact takeFront_moves there (fun _ => .inl ⟨stands, rfl⟩) step
  next fileName stands =>
    cases call with
    | success =>
        cases step
        exact .spawn there stands
    | failure code =>
        cases step
        exact .spawnFailed there stands
    | unreadable => cases step
  next stands => exact takeFront_moves there (fun _ => .inr ⟨stands, rfl⟩) step
  next stands =>
    cases step
    exact .finish there stands
  next stands =>
    cases live : process.liveSem (some thread.sem) with
    | error fault => simp [live, bind, Except.bind] at step
    | ok value =>
        obtain ⟨sem, held, found⟩ := liveSem_eq_ok live
        cases held
        simp only [live, bind, Except.bind] at step
        cases step
        exact .stop there stands found
  next => cases step

private theorem worker_moves {index : Nat} {call : Call}
    (step : process.worker config index call = some (.ok after)) :
    Moves config process (.worker index call) after := by
  unfold worker at step
  split at step
  next owner there =>
    cases read : process.args owner with
    | error fault => simp [read, bind, Except.bind] at step
    | ok info =>
        simp only [read, bind, Except.bind] at step
        cases step
        exact .advance there (.sock read)
  next owner sock there =>
    cases read : process.args owner with
    | error fault => simp [read, bind, Except.bind] at step
    | ok info =>
        simp only [read, bind, Except.bind] at step
        cases step
        exact .advance there (.name sock read)
  next owner sock fileName there =>
    by_cases failed : config.mode = .tcp ∧ call ≠ .success
    · rw [if_pos failed] at step
      cases step
      exact .unwritten there failed
    · rw [if_neg failed] at step
      cases step
      refine .advance there (.reply sock fileName fun tcp => ?_)
      by_contra unwritten
      exact failed ⟨tcp, unwritten⟩
  next owner there =>
    cases step
    exact .finished there
  next owner there =>
    cases step
    exact .released there
  next => cases step

/-- Every step that does not fault is one of the moves. -/
theorem moves_of_step {label : ProcessStep} (step : process.step config label = some (.ok after)) :
    Moves config process label after := by
  cases label with
  | accept sock =>
      simp only [Process.step, Process.accept] at step
      split at step
      next => cases step
      next =>
        cases step
        exact .accept sock
  | header index bytes => exact header_moves step
  | event index junk happened => exact event_moves step
  | act index => exact act_moves step
  | hostMissing index =>
      simp only [Process.step, hostMissing] at step
      split at step
      next =>
        split at step
        next => cases step
        next => cases step
      next => cases step
  | result index call =>
      simp only [Process.step, Process.result] at step
      split at step
      next thread there =>
        split at step
        next => cases step
        next moved looked =>
          cases step
          exact .look there (look_looks looked)
        next => exact share_moves there step
      next => cases step
  | worker index call => exact worker_moves step
  | brokenPipe index bytes =>
      simp only [Process.step, brokenPipe] at step
      split at step
      next =>
        split at step
        next => cases step
        next => cases step
      next => cases step

/-- A transition of the machine is a move or the end of the process. -/
theorem moves_of_next {label : ProcessStep}
    (step : (processMachine config).next process label = some after) :
    process.fault = none ∧ (Moves config process label after ∨
      ∃ fault, process.step config label = some (.error fault) ∧
        after = { process with fault := some fault }) := by
  simp only [processMachine] at step
  split at step
  next => cases step
  next sound =>
    refine ⟨Option.not_isSome_iff_eq_none.mp sound, ?_⟩
    split at step
    next => cases step
    next fault stepped =>
      cases step
      exact .inr ⟨fault, stepped, rfl⟩
    next moved stepped =>
      cases step
      exact .inl (moves_of_step stepped)

end Inversion

/-! ## Single threads -/

/-- Where a thread comes from: it was there before the step, it is new, or it
is the one that has moved. -/
inductive Arises (config : Config) (process : Process) : Thread → Prop
  | before {thread : Thread} (member : thread ∈ process.threads) : Arises config process thread
  | connection (sock : Int) : Arises config process (.connection sock)
  | closed : Arises config process .closed
  | entered (userID : User) (sock : Int) (command : Command) :
      Arises config process (entry userID sock command)
  | event {thread : TransmitThread} {junk : Nat → Byte} {happened : Event} {state : Transmit}
      (stepped : thread.state.step config.mode config.backend junk happened = some (.ok state)) :
      Arises config process (.transmit { thread with
        state := state
        pending := state.actions.drop thread.state.actions.length })
  | act {thread : TransmitThread} {action : Action} {rest : List Action}
      (there : .transmit thread ∈ process.threads) (next : thread.pending = action :: rest)
      (queue semMatch : Option Nat) :
      Arises config process
        (.transmit { thread with pending := rest, queue := queue, semMatch := semMatch })
  | result {moved : ResultThread} (started : moved.pc ≠ .starting) :
      Arises config process (.result moved)
  | worker (child : Worker) : Arises config process (.worker child)

section Arising

variable {config : Config} {process after : Process} {label : ProcessStep}

private theorem Looks.started {thread moved : ResultThread} {call : Call}
    (looks : Looks config process thread call moved) : moved.pc ≠ .starting := by
  cases looks with
  | replied stands written => cases storm : config.storm <;> simp
  | bound stands => by_cases success : call = .success <;> simp [success]
  | nonempty stands held live => cases storm : config.storm <;> simp
  | received stands target => rcases target with rfl | rfl <;> exact nofun
  | fetched | empty | filled | sent | unsent => exact nofun

/-- What is proved of every thread is proved for each way to arise. -/
theorem Moves.arises (moves : Moves config process label after) :
    ∀ thread ∈ after.threads, Arises config process thread := by
  have old : ∀ thread ∈ process.threads, Arises config process thread := fun _ => .before
  cases moves with
  | accept sock =>
      exact List.forall_mem_append.mpr ⟨old, List.forall_mem_singleton.mpr (.connection sock)⟩
  | turnedAway there => exact forall_mem_set old .closed
  | @admitted index sock bytes command userID granted there parsed login =>
      have entered : Arises config process (entry userID sock command) :=
        .entered userID sock command
      rcases login_cases login with ⟨-, rfl⟩ | ⟨-, rfl⟩ <;> exact forall_mem_set old entered
  | event there idle stepped => exact forall_mem_set old (.event stepped)
  | quiet there next _ | register there next | submit there next | push there next _ _
  | lookup there next _ _ | post there next _ _ | discard there next _ _ =>
      exact forall_mem_set old (.act (List.mem_of_getElem? there) next _ _)
  | look there looks => exact forall_mem_set old (.result looks.started)
  | spawn there stands =>
      exact List.forall_mem_append.mpr
        ⟨forall_mem_set old (.result nofun), List.forall_mem_singleton.mpr (.worker _)⟩
  | @spawnFailed index thread fileName code there stands =>
      refine forall_mem_set old (.result ?_)
      by_cases failed : code = -1 <;> simp [failed]
  | take there stands held live =>
      rcases stands with ⟨-, rfl⟩ | ⟨-, rfl⟩ <;> exact forall_mem_set old (.result nofun)
  | start | wait | eraseSem | eraseQueue | eraseUser | deleteSem | deleteQueue | grab | finish
  | stop => exact forall_mem_set old (.result nofun)
  | advance | unwritten | finished | released => exact forall_mem_set old (.worker _)

end Arising

end Process

end PaintingCPS
