import PaintingCPS.Server.Emission
import PaintingCPS.Server.Lobby
import PaintingCPS.Server.Moves

/-!
Contract: who may be logged in under one user id.

The server refines the lobby of every user as long as a session is joined by
the other kind of thread than the one that opened it, and opened when no thread
of the user is left. `user_map` checks neither.

Owns: the refinement, and what it says about live threads and map entries.

Does not own: whether a session is ever cleaned up.
-/

set_option autoImplicit false

namespace PaintingCPS

open Foundation

/-! ## The lobby of a user -/

def ResultAt.seat (queue : Option Nat) : ResultAt → Seat
  | .starting => .starting
  | .erasingSem => .fetched
  | .erasingQueue => .semErased
  | .erasingUser => .queueErased
  | .deletingSem | .deletingQueue => .userErased
  | .ended => .absent
  | _ => if queue.isSome then .fetched else .serving

namespace Thread

/-- A `server_transmit` of the user that has not returned. -/
def transmitsFor (userID : User) : Thread → Bool
  | .transmit thread => thread.user == userID && !thread.ended
  | _ => false

/-- A `server_result` of the user that has not returned. -/
def resultsFor (userID : User) : Thread → Bool
  | .result thread => thread.user == userID && thread.pc != .ended
  | _ => false

def seat (userID : User) : Thread → Seat
  | .transmit thread =>
      if thread.user = userID ∧ thread.ended = false then
        if .register ∈ thread.pending then .registering else .transmitting
      else .absent
  | .result thread =>
      if thread.user = userID then thread.pc.seat thread.queue else .absent
  | _ => .absent

/-- Nothing has happened before a thread registers. -/
def Fresh : Thread → Prop
  | .transmit thread =>
      .register ∈ thread.pending → thread.pending = [.register] ∧ thread.state.pc = .starting
  | .result thread => thread.pc = .starting → thread.queue = none
  | _ => True

end Thread

namespace Process

def lobby (process : Process) (userID : User) : Lobby where
  count := process.userMap userID
  opener := process.opener userID
  semSet := (process.semMap userID).isSome
  queueSet := (process.queueMap userID).isSome
  seats := process.threads.map (Thread.seat userID)

/-- An admitted login finds no live thread of its user, or it is the second one
of the session and of the other kind than the first. -/
def LoginApart (process : Process) (command : Command) (userID : User) : Prop :=
  (process.login userID command).isSome = true →
    (process.userMap userID = some 1 ∧ command ≠ process.opener userID) ∨
    ∀ thread ∈ process.threads,
      thread.transmitsFor userID = false ∧ thread.resultsFor userID = false

instance (process : Process) (command : Command) (userID : User) :
    Decidable (process.LoginApart command userID) :=
  inferInstanceAs (Decidable (_ → _))

/-- Every login that a step makes is such a login. -/
def AdmitsApart (process : Process) : ProcessStep → Prop
  | .header _ bytes => ∀ fields ∈ (parseLogin (padded loginBuffer (bytes.getD []))).toOption,
      process.LoginApart fields.1 fields.2
  | _ => True

instance (process : Process) : ∀ label, Decidable (process.AdmitsApart label)
  | .header _ _ => inferInstanceAs (Decidable (∀ fields ∈ Except.toOption _, _))
  | .accept .. | .event .. | .act .. | .hostMissing .. | .result .. | .worker ..
  | .brokenPipe .. =>
      inferInstanceAs (Decidable True)

section Refinement

variable {config : Config} {process after : Process} {label : ProcessStep} {userID : User}

private theorem seat_of_pc (pc : ResultAt) (queue : Option Nat) :
    (pc.seat queue).isTransmit = false ∧ (pc.seat queue).isResult = (pc != .ended) := by
  cases pc <;> cases queue <;> exact ⟨rfl, rfl⟩

private theorem seat_kind (thread : Thread) :
    (thread.seat userID).isTransmit = thread.transmitsFor userID ∧
      (thread.seat userID).isResult = thread.resultsFor userID := by
  cases thread with
  | transmit thread =>
      by_cases owner : thread.user = userID <;> cases gone : thread.ended <;>
        by_cases registers : Action.register ∈ thread.pending <;>
          simp [Thread.seat, Thread.transmitsFor, Thread.resultsFor, Seat.isTransmit,
            Seat.isResult, owner, gone, registers]
  | result thread =>
      by_cases owner : thread.user = userID
      · simp [Thread.seat, Thread.transmitsFor, Thread.resultsFor, owner,
          seat_of_pc thread.pc thread.queue]
      · simp [Thread.seat, Thread.transmitsFor, Thread.resultsFor, Seat.isTransmit,
          Seat.isResult, owner]
  | connection | closed | worker => exact ⟨rfl, rfl⟩

/-- The lobby counts the live threads. -/
theorem lobby_counts (process : Process) (userID : User) :
    Lobby.transmits (process.lobby userID).seats =
        process.threads.countP (Thread.transmitsFor userID) ∧
      Lobby.results (process.lobby userID).seats =
        process.threads.countP (Thread.resultsFor userID) := by
  constructor
  · rw [Lobby.transmits, lobby, List.countP_map]
    exact List.countP_congr fun thread _ => by
      rw [Function.comp_apply, (seat_kind thread).1]
  · rw [Lobby.results, lobby, List.countP_map]
    exact List.countP_congr fun thread _ => by
      rw [Function.comp_apply, (seat_kind thread).2]

section Moving

variable {index : Nat} {thread moved : Thread}

/-- The seat of the thread at `index`. -/
private theorem seat_there (there : process.threads[index]? = some thread) (userID : User) :
    (process.lobby userID).seats[index]? = some (thread.seat userID) := by
  rw [lobby, List.getElem?_map, there]
  rfl

/-- The entries of the user and the seat stay. -/
private theorem lobby_stays (there : process.threads[index]? = some thread)
    (threads : after.threads = process.threads.set index moved)
    (same : moved.seat userID = thread.seat userID)
    (users : after.userMap userID = process.userMap userID)
    (openers : after.opener userID = process.opener userID)
    (sems : after.semMap userID = process.semMap userID)
    (queues : after.queueMap userID = process.queueMap userID) :
    Lobby.Step (process.lobby userID) (after.lobby userID) := by
  have unchanged : after.lobby userID = process.lobby userID := by
    simp only [lobby, threads, List.map_set, same, users, openers, sems, queues,
      Lobby.mk.injEq, true_and]
    exact set_same (seat_there there userID)
  rw [unchanged]
  exact .stay

/-- The entries of the user stay, and the thread leaves its seat or keeps it. -/
private theorem lobby_leaves (there : process.threads[index]? = some thread)
    (threads : after.threads = process.threads.set index moved)
    (registered : thread.seat userID ≠ .registering ∧ thread.seat userID ≠ .starting)
    (seat : moved.seat userID = thread.seat userID ∨ moved.seat userID = .absent)
    (users : after.userMap userID = process.userMap userID)
    (openers : after.opener userID = process.opener userID)
    (sems : after.semMap userID = process.semMap userID)
    (queues : after.queueMap userID = process.queueMap userID) :
    Lobby.Step (process.lobby userID) (after.lobby userID) := by
  rcases seat with same | gone
  · exact lobby_stays there threads same users openers sems queues
  · have left : after.lobby userID = { process.lobby userID with
        seats := (process.lobby userID).seats.set index .absent } := by
      simp only [lobby, threads, List.map_set, gone, users, openers, sems, queues]
    rw [left]
    exact .leave (seat_there there userID) registered

/-- The seat of a thread in `server_transmit` that has registered. -/
private theorem seat_transmitting {thread : TransmitThread}
    (registered : .register ∉ thread.pending) :
    (Thread.transmit thread).seat userID =
      if thread.user = userID ∧ thread.ended = false then .transmitting else .absent := by
  simp only [Thread.seat, if_neg registered]

/-- A step of `server_transmit` after its registration. -/
private theorem lobby_transmits {thread moved : TransmitThread}
    (there : process.threads[index]? = some (.transmit thread))
    (threads : after.threads = process.threads.set index (.transmit moved))
    (owner : moved.user = thread.user) (registered : .register ∉ thread.pending)
    (rest : .register ∉ moved.pending) (running : thread.ended = false)
    (users : after.userMap = process.userMap) (openers : after.opener = process.opener)
    (sems : after.semMap = process.semMap) (queues : after.queueMap = process.queueMap) :
    Lobby.Step (process.lobby userID) (after.lobby userID) := by
  refine lobby_leaves there threads ?_ ?_ (by rw [users]) (by rw [openers]) (by rw [sems])
    (by rw [queues])
  · rw [seat_transmitting registered]
    split <;> exact ⟨nofun, nofun⟩
  · rw [seat_transmitting registered, seat_transmitting rest, owner]
    by_cases mine : thread.user = userID
    · cases gone : moved.ended <;> simp [mine, running]
    · simp [mine]

end Moving

/-- A thread that waits has not ended. -/
theorem running_of_step {thread : TransmitThread} {junk : Nat → Byte} {happened : Event}
    {state : Transmit}
    (stepped : thread.state.step config.mode config.backend junk happened = some (.ok state)) :
    thread.ended = false := by
  cases stands : thread.state.pc <;> simp_all [TransmitThread.ended, Transmit.step]

theorem running_of_pending {thread : TransmitThread} {action : Action}
    {rest : List Action} (next : thread.pending = action :: rest) : thread.ended = false := by
  simp [TransmitThread.ended, next]

/-- No event asks for a registration. -/
private theorem register_notMem {before state : Transmit} {happened : Event}
    {emitted : List Action}
    (emits : Transmit.Emits config.mode config.backend before happened state emitted) :
    Action.register ∉ emitted := by
  have harmless : ∀ actions : List Action,
      (∀ action ∈ actions, before.Harmless config.mode happened action) →
        Action.register ∉ actions := by
    intro actions allowed member
    rcases allowed _ member with reply | ⟨post, -⟩
    · cases reply
    · cases post
  cases emits with
  | receiving allowed outside within running semSame => exact harmless _ allowed
  | refused stands tcp gone semSame => exact List.not_mem_nil
  | leaving known outside gone semSame => simp
  | complete allowed outside within semSame =>
      have none' := harmless _ allowed
      simp [none']
  | announced outward within opened next known =>
      rcases outward with ⟨name, content, rfl⟩ | ⟨content, rfl⟩ <;> simp
  | abandoned discards blocking within gone semSame =>
      rcases discards with rfl | rfl <;> simp

/-- An action other than the registration. -/
private theorem lobby_acts {index : Nat} {thread moved : TransmitThread} {action : Action}
    {rest : List Action} (fresh : (Thread.transmit thread).Fresh)
    (there : process.threads[index]? = some (.transmit thread))
    (next : thread.pending = action :: rest) (other : action ≠ .register)
    (threads : after.threads = process.threads.set index (.transmit moved))
    (owner : moved.user = thread.user) (pending : moved.pending = rest)
    (users : after.userMap = process.userMap) (openers : after.opener = process.opener)
    (sems : after.semMap = process.semMap) (queues : after.queueMap = process.queueMap) :
    Lobby.Step (process.lobby userID) (after.lobby userID) := by
  have registered : Action.register ∉ thread.pending := by
    intro member
    obtain ⟨only, -⟩ := fresh member
    rw [next, List.cons.injEq] at only
    exact other only.1
  refine lobby_transmits there threads owner registered ?_ (running_of_pending next)
    users openers sems queues
  rw [pending]
  intro member
  exact registered (next ▸ List.mem_cons_of_mem action member)

/-- A login that finds no live thread, or joins the other kind. -/
private theorem lobby_login {index : Nat} {sock : Int} {command : Command} {owner : User}
    {granted : Process} (there : process.threads[index]? = some (.connection sock))
    (login : process.login owner command = some granted)
    (loginApart : process.LoginApart command owner) :
    Lobby.Step (process.lobby userID)
      ((granted.setThread index (entry owner sock command)).lobby userID) := by
  have apart := loginApart (by rw [login]; rfl)
  have noSeat : (entry owner sock command).seat owner = .ofCommand command := by
    cases command <;>
      simp [entry, Thread.seat, Seat.ofCommand, TransmitThread.init, TransmitThread.ended,
        Transmit.init, ResultThread.init, ResultAt.seat]
  have elsewhere : userID ≠ owner → (entry owner sock command).seat userID = .absent := by
    intro other
    cases command <;>
      simp [entry, Thread.seat, TransmitThread.init, ResultThread.init, Ne.symm other]
  have free : (∀ thread ∈ process.threads,
      thread.transmitsFor owner = false ∧ thread.resultsFor owner = false) →
      Lobby.transmits (process.lobby owner).seats = 0 ∧
        Lobby.results (process.lobby owner).seats = 0 := by
    intro gone
    obtain ⟨transmits, results⟩ := lobby_counts process owner
    rw [transmits, results]
    constructor <;> refine List.countP_eq_zero.mpr fun thread member => ?_
    · rw [(gone thread member).1]
      exact Bool.false_ne_true
    · rw [(gone thread member).2]
      exact Bool.false_ne_true
  have seat := seat_there there owner
  rcases login_cases login with ⟨new, rfl⟩ | ⟨second, rfl⟩
  · by_cases mine : userID = owner
    · subst mine
      have gone := apart.resolve_left fun joins => by simp [new] at joins
      have opens := Lobby.Step.opened command seat new (free gone)
      simpa only [lobby, setThread, List.map_set, Function.update_self, noSeat] using opens
    · exact lobby_stays there rfl (elsewhere mine) (Function.update_of_ne mine _ _)
        (Function.update_of_ne mine _ _) rfl rfl
  · by_cases mine : userID = owner
    · subst mine
      have joins := Lobby.Step.joined command seat second (apart.imp And.right free)
      simpa only [lobby, setThread, List.map_set, Function.update_self, noSeat] using joins
    · exact lobby_stays there rfl (elsewhere mine) (Function.update_of_ne mine _ _) rfl rfl rfl

private theorem fresh_act {thread : TransmitThread} {action : Action} {rest : List Action}
    (fresh : (Thread.transmit thread).Fresh) (next : thread.pending = action :: rest) :
    Action.register ∉ rest := by
  intro member
  obtain ⟨only, -⟩ := fresh (next ▸ List.mem_cons_of_mem action member)
  rw [next, List.cons.injEq] at only
  rw [only.2] at member
  cases member

section Serving

variable {index : Nat} {thread moved : ResultThread}

/-- A step of `server_result` that leaves the entries alone. -/
private theorem lobby_serves (there : process.threads[index]? = some (.result thread))
    (threads : after.threads = process.threads.set index (.result moved))
    (owner : moved.user = thread.user)
    (same : moved.pc.seat moved.queue = thread.pc.seat thread.queue)
    (users : after.userMap = process.userMap) (openers : after.opener = process.opener)
    (sems : after.semMap = process.semMap) (queues : after.queueMap = process.queueMap) :
    Lobby.Step (process.lobby userID) (after.lobby userID) := by
  refine lobby_stays there threads ?_ (by rw [users]) (by rw [openers]) (by rw [sems])
    (by rw [queues])
  simp only [Thread.seat, owner, same]

/-- `server_result` returns. -/
private theorem lobby_returns (there : process.threads[index]? = some (.result thread))
    (threads : after.threads = process.threads.set index (.result moved))
    (started : thread.pc ≠ .starting) (gone : moved.pc = .ended)
    (users : after.userMap = process.userMap) (openers : after.opener = process.opener)
    (sems : after.semMap = process.semMap) (queues : after.queueMap = process.queueMap) :
    Lobby.Step (process.lobby userID) (after.lobby userID) := by
  refine lobby_leaves there threads ?_ (.inr ?_) (by rw [users]) (by rw [openers])
    (by rw [sems]) (by rw [queues])
  · simp only [Thread.seat]
    split
    · cases stands : thread.pc <;> cases thread.queue <;>
        first | exact absurd stands started | exact ⟨nofun, nofun⟩
    · exact ⟨nofun, nofun⟩
  · simp only [Thread.seat, gone, ResultAt.seat, ite_self]

/-- A step of `server_result` changes the lobby of its own user only. -/
private theorem lobby_own (there : process.threads[index]? = some (.result thread))
    (threads : after.threads = process.threads.set index (.result moved))
    (owner : moved.user = thread.user)
    (others : userID ≠ thread.user → after.userMap userID = process.userMap userID ∧
      after.opener userID = process.opener userID ∧
      after.semMap userID = process.semMap userID ∧
      after.queueMap userID = process.queueMap userID)
    (own : userID = thread.user →
      (process.lobby userID).seats[index]? = some (thread.pc.seat thread.queue) →
      Lobby.Step (process.lobby userID) ⟨after.userMap userID, after.opener userID,
        (after.semMap userID).isSome, (after.queueMap userID).isSome,
        (process.lobby userID).seats.set index (moved.pc.seat moved.queue)⟩) :
    Lobby.Step (process.lobby userID) (after.lobby userID) := by
  by_cases mine : userID = thread.user
  · have seat := seat_there there userID
    simp only [Thread.seat, if_pos mine.symm] at seat
    have step := own mine seat
    rwa [lobby, lobby, threads, List.map_set, Thread.seat, owner, if_pos mine.symm]
  · obtain ⟨users, openers, sems, queues⟩ := others mine
    refine lobby_stays there threads ?_ users openers sems queues
    simp only [Thread.seat, owner, if_neg (Ne.symm mine)]

/-- The steps of `server_result` that change the thread alone. -/
private theorem Looks.lobby {call : Call} (looks : Looks config process thread call moved)
    (there : process.threads[index]? = some (.result thread)) :
    Lobby.Step (process.lobby userID)
      ((process.setThread index (.result moved)).lobby userID) := by
  cases looks with
  | replied stands written =>
      refine lobby_serves there rfl rfl ?_ rfl rfl rfl rfl
      cases storm : config.storm <;> simp [stands, ResultAt.seat]
  | bound stands =>
      refine lobby_serves there rfl rfl ?_ rfl rfl rfl rfl
      by_cases success : call = .success <;> simp [stands, success, ResultAt.seat]
  | @fetched stands queue held =>
      rcases held with held | ⟨held, found⟩
      · refine lobby_serves there rfl rfl ?_ rfl rfl rfl rfl
        simp [stands, held, ResultAt.seat]
      · refine lobby_own there rfl rfl (fun _ => ⟨rfl, rfl, rfl, rfl⟩) fun mine seat => ?_
        simp only [stands, held, ResultAt.seat] at seat
        exact .fetch seat (by rw [lobby, mine, found]; rfl)
  | empty stands held live =>
      refine lobby_serves there rfl rfl ?_ rfl rfl rfl rfl
      simp [stands, held, ResultAt.seat]
  | nonempty stands held live =>
      refine lobby_serves there rfl rfl ?_ rfl rfl rfl rfl
      cases storm : config.storm <;> simp [stands, ResultAt.seat]
  | filled stands =>
      refine lobby_serves there rfl rfl ?_ rfl rfl rfl rfl
      simp [stands, ResultAt.seat]
  | received stands target =>
      refine lobby_serves there rfl rfl ?_ rfl rfl rfl rfl
      rcases target with rfl | rfl <;> simp [stands, ResultAt.seat]
  | sent stands written =>
      refine lobby_serves there rfl rfl ?_ rfl rfl rfl rfl
      simp [stands, ResultAt.seat]
  | unsent stands failed =>
      exact lobby_returns there rfl (by simp [stands]) rfl rfl rfl rfl rfl

end Serving

/-- Every step keeps to the lobby, if logins do. -/
theorem Moves.lobby (fresh : ∀ thread ∈ process.threads, thread.Fresh)
    (apart : process.AdmitsApart label) (moves : Moves config process label after) :
    Lobby.Step (process.lobby userID) (after.lobby userID) := by
  cases moves with
  | accept sock =>
      have arrived : ({ process with threads := process.threads ++ [.connection sock] } :
          Process).lobby userID = { process.lobby userID with
            seats := (process.lobby userID).seats ++ [.absent] } := by
        simp [lobby, Thread.seat]
      rw [arrived]
      exact .arrive
  | turnedAway there => exact lobby_stays there rfl rfl rfl rfl rfl rfl
  | admitted there parsed login =>
      exact lobby_login there login (apart (_, _) (by rw [parsed]; rfl))
  | event there idle stepped =>
      refine lobby_transmits there rfl rfl (by simp [idle]) ?_ (running_of_step stepped)
        rfl rfl rfl rfl
      exact register_notMem (Transmit.step_emits stepped)
  | quiet there next quiet =>
      refine lobby_acts (fresh _ (List.mem_of_getElem? there)) there next ?_ rfl rfl rfl
        rfl rfl rfl rfl
      rintro rfl
      exact quiet
  | @register index thread rest there next =>
      by_cases mine : thread.user = userID
      · obtain ⟨only, stands⟩ := fresh _ (List.mem_of_getElem? there) (next ▸ List.mem_cons_self)
        obtain ⟨-, rfl⟩ := List.cons.inj (next.symm.trans only)
        have seat := seat_there there userID
        simp [Thread.seat, mine, running_of_pending next, next] at seat
        have registered : ({ process with
            queueMap := Function.update process.queueMap thread.user (some process.queues.length)
            queues := process.queues ++ [some []]
            threads := process.threads.set index (.transmit { thread with
              pending := []
              queue := some process.queues.length }) } : Process).lobby userID =
            { process.lobby userID with
              queueSet := true
              seats := (process.lobby userID).seats.set index .transmitting } := by
          simp [lobby, List.map_set, Thread.seat, mine, TransmitThread.ended, stands]
        rw [registered]
        exact .register seat
      · refine lobby_stays there rfl ?_ rfl rfl rfl (Function.update_of_ne (Ne.symm mine) _ _)
        simp only [Thread.seat, mine, false_and, if_false]
  | submit there next | push there next _ _ | lookup there next _ _ | post there next _ _
  | discard there next _ _ =>
      exact lobby_acts (fresh _ (List.mem_of_getElem? there)) there next nofun rfl rfl rfl
        rfl rfl rfl rfl
  | look there looks => exact looks.lobby there
  | start there stands =>
      have noQueue := fresh _ (List.mem_of_getElem? there) stands
      refine lobby_own there rfl rfl
        (fun other => ⟨rfl, rfl, Function.update_of_ne other _ _, rfl⟩) fun mine seat => ?_
      subst mine
      simp only [stands, ResultAt.seat] at seat
      simp only [Function.update_self, noQueue]
      exact .start seat
  | eraseSem there stands =>
      refine lobby_own there rfl rfl
        (fun other => ⟨rfl, rfl, Function.update_of_ne other _ _, rfl⟩) fun mine seat => ?_
      subst mine
      simp only [stands, ResultAt.seat] at seat
      simp only [Function.update_self]
      exact .eraseSem seat
  | eraseQueue there stands =>
      refine lobby_own there rfl rfl
        (fun other => ⟨rfl, rfl, rfl, Function.update_of_ne other _ _⟩) fun mine seat => ?_
      subst mine
      simp only [stands, ResultAt.seat] at seat
      simp only [Function.update_self]
      exact .eraseQueue seat
  | eraseUser there stands =>
      refine lobby_own there rfl rfl
        (fun other => ⟨Function.update_of_ne other _ _, rfl, rfl, rfl⟩) fun mine seat => ?_
      subst mine
      simp only [stands, ResultAt.seat] at seat
      simp only [Function.update_self]
      exact .eraseUser seat
  | @spawnFailed index thread fileName code there stands =>
      refine lobby_serves there rfl rfl ?_ rfl rfl rfl rfl
      by_cases failed : code = -1 <;> simp [stands, failed, ResultAt.seat]
  | wait there stands _ | deleteSem there stands _ | grab there stands _ | finish there stands =>
      refine lobby_serves there rfl rfl ?_ rfl rfl rfl rfl
      simp [stands, ResultAt.seat]
  | take there stands held live =>
      refine lobby_serves there rfl rfl ?_ rfl rfl rfl rfl
      rcases stands with ⟨stands, rfl⟩ | ⟨stands, rfl⟩ <;> simp [stands, ResultAt.seat]
  | @spawn index thread fileName there stands =>
      have same : (Thread.result { thread with pc := .waiting }).seat userID =
          (Thread.result thread).seat userID := by
        simp only [Thread.seat, stands, ResultAt.seat]
      have arrived : ({ process with
          threads := process.threads.set index (.result { thread with pc := .waiting }) ++
            [.worker ⟨index, .created⟩] } : Process).lobby userID = { process.lobby userID with
              seats := (process.lobby userID).seats ++ [.absent] } := by
        simp only [lobby, List.map_append, List.map_set, List.map_singleton, same]
        exact congrArg (fun seats => Lobby.mk _ _ _ _ (seats ++ _))
          (set_same (seat_there there userID))
      rw [arrived]
      exact .arrive
  | deleteQueue there stands _ _ | stop there stands _ =>
      exact lobby_returns there rfl (by simp [stands]) rfl rfl rfl rfl rfl
  | advance there advances => exact lobby_stays there rfl rfl rfl rfl rfl rfl
  | unwritten there failed => exact lobby_stays there rfl rfl rfl rfl rfl rfl
  | finished there => exact lobby_stays there rfl rfl rfl rfl rfl rfl
  | released there => exact lobby_stays there rfl rfl rfl rfl rfl rfl

/-- Only a new thread has not registered. -/
theorem Moves.fresh (fresh : ∀ thread ∈ process.threads, thread.Fresh)
    (moves : Moves config process label after) : ∀ thread ∈ after.threads, thread.Fresh := by
  intro thread member
  cases moves.arises thread member with
  | before member => exact fresh thread member
  | entered userID sock command =>
      cases command
      · exact fun _ => ⟨rfl, rfl⟩
      · exact fun _ => rfl
      · trivial
  | event stepped =>
      exact fun member => absurd member (register_notMem (Transmit.step_emits stepped))
  | act there next => exact fun member => absurd member (fresh_act (fresh _ there) next)
  | result started => exact fun starting => absurd starting started
  | connection | closed | worker => trivial

end Refinement

/-! ## Runs -/

private theorem fresh_init (config : Config) :
    ∀ thread ∈ (Process.init config).threads, thread.Fresh := by
  intro thread member
  unfold Process.init at member
  split at member
  next =>
    rcases List.mem_pair.mp member with rfl | rfl
    · exact fun _ => rfl
    · exact fun _ => ⟨rfl, rfl⟩
  next => cases member

/-- In MF mode both threads are there and their user counts them; nobody is
there in the other modes. -/
private theorem orderly_init (config : Config) (userID : User) :
    ((Process.init config).lobby userID).Orderly := by
  have empty : Lobby.Orderly ⟨none, .unknown, false, false, []⟩ := by
    constructor <;> decide
  have elsewhere : Lobby.Orderly ⟨none, .unknown, false, false, [.absent, .absent]⟩ := by
    constructor <;> decide
  have both : Lobby.Orderly ⟨some 2, .unknown, false, false, [.starting, .registering]⟩ := by
    constructor <;> decide
  by_cases mf : config.mode = .mf
  · by_cases mine : userID = mfUser
    · subst mine
      simpa [lobby, Process.init, mf, Thread.seat, ResultThread.init, ResultAt.seat,
        TransmitThread.init, TransmitThread.ended, Transmit.init] using both
    · simpa [lobby, Process.init, mf, Thread.seat, ResultThread.init, TransmitThread.init, mine,
        Ne.symm mine, Function.update_of_ne] using elsewhere
  · simpa [lobby, Process.init, mf] using empty

/-- The lobby of every user is in order, as long as logins keep to it. -/
theorem orderly_of_reaches {config : Config} {state : Process}
    (reached : (processMachine config).ReachesUnder AdmitsApart (.init config) state) :
    (∀ thread ∈ state.threads, thread.Fresh) ∧ ∀ userID, (state.lobby userID).Orderly := by
  induction reached with
  | refl => exact ⟨fresh_init config, orderly_init config⟩
  | tail _ apart step inductionHypothesis =>
      obtain ⟨fresh, orderly⟩ := inductionHypothesis
      obtain ⟨-, moves | ⟨fault, -, rfl⟩⟩ := moves_of_next step
      · exact ⟨moves.fresh fresh, fun userID => (orderly userID).step (moves.lobby fresh apart)⟩
      · exact ⟨fresh, orderly⟩

end Process

/-- As long as a session is joined by the other kind of thread and opened when
no thread of its user is left, a user has one thread of each kind at most, and
an entry is free when a thread registers, or nobody else is left to use it. -/
theorem login_exclusive (config : Config) {state : Process}
    (reached : (processMachine config).ReachesUnder Process.AdmitsApart (.init config) state)
    (userID : User) :
    state.threads.countP (Thread.transmitsFor userID) ≤ 1 ∧
    state.threads.countP (Thread.resultsFor userID) ≤ 1 ∧
    (∀ thread, .transmit thread ∈ state.threads → thread.user = userID →
      .register ∈ thread.pending → state.queueMap userID = none ∨
        state.threads.countP (Thread.resultsFor userID) = 0) ∧
    (∀ thread, .result thread ∈ state.threads → thread.user = userID →
      thread.pc = .starting → state.semMap userID = none ∨
        state.threads.countP (Thread.transmitsFor userID) = 0) := by
  obtain ⟨fresh, orderly⟩ := Process.orderly_of_reaches reached
  obtain ⟨transmits, results⟩ := Process.lobby_counts state userID
  refine ⟨transmits ▸ (orderly userID).oneTransmit, results ▸ (orderly userID).oneResult, ?_, ?_⟩
  · intro thread member owner registers
    have counted : 0 < Lobby.registering (state.lobby userID).seats := by
      refine List.countP_pos_iff.mpr ⟨.registering, ?_, rfl⟩
      refine List.mem_map.mpr ⟨_, member, ?_⟩
      obtain ⟨only, -⟩ := fresh _ member registers
      simp [Thread.seat, owner, TransmitThread.ended, only]
    rcases (orderly userID).queueFree counted with free | ⟨alone, -⟩
    · exact .inl (by simpa [Process.lobby] using free)
    · exact .inr (results ▸ alone)
  · intro thread member owner starts
    have counted : 0 < Lobby.starting (state.lobby userID).seats := by
      refine List.countP_pos_iff.mpr ⟨.starting, ?_, rfl⟩
      refine List.mem_map.mpr ⟨_, member, ?_⟩
      simp [Thread.seat, owner, starts, ResultAt.seat]
    rcases (orderly userID).semFree counted with free | ⟨alone, -⟩
    · exact .inl (by simpa [Process.lobby] using free)
    · exact .inr (transmits ▸ alone)

/-- The two connections of one client. -/
theorem login_exclusive_pair :
    ∃ state : Process, state.userMap (ascii "user") = some 2 ∧
      state.threads.countP (Thread.transmitsFor (ascii "user")) ≤ 1 := by
  obtain ⟨state, reached, holds⟩ := Machine.exists_of_run
    (show (((processMachine ⟨.tcp, .disk, 1⟩).run Process.AdmitsApart (.init ⟨.tcp, .disk, 1⟩)
      [.accept 4, .header 0 (some (ascii "transmit,user")), .accept 5,
        .header 1 (some (ascii "result,user"))]).map fun state =>
          decide (state.userMap (ascii "user") = some 2)) = some true
      by decide +kernel)
  exact ⟨state, of_decide_eq_true holds, (login_exclusive _ reached (ascii "user")).1⟩

/-- Two connections of one kind are both admitted. -/
theorem login_admits_twice :
    ¬ ∀ (config : Config) (state : Process) (userID : User),
      (processMachine config).Reaches (.init config) state →
      state.threads.countP (Thread.transmitsFor userID) ≤ 1 := by
  intro exclusive
  obtain ⟨state, reached, holds⟩ := Machine.exists_of_run
    (show (((processMachine ⟨.tcp, .disk, 1⟩).run (fun _ _ => True) (.init ⟨.tcp, .disk, 1⟩)
      [.accept 4, .header 0 (some (ascii "transmit,user")), .accept 5,
        .header 1 (some (ascii "transmit,user"))]).map fun state =>
          decide (state.threads.countP (Thread.transmitsFor (ascii "user")) = 2)) = some true
      by decide +kernel)
  have atMost := exclusive _ state (ascii "user") reached
  rw [of_decide_eq_true holds] at atMost
  exact absurd atMost (by decide)

end PaintingCPS
