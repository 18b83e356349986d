import PaintingCPS.Server.Permits

/-!
Contract: the UDP port on which the server gets the results of Storm.

Every `server_result` binds a socket of its own to the same port. The system
refuses that while another socket has the port. The socket is closed at the
label `stop` only: a `server_result` that has found its queue empty returns
without it, and so does one that ends in `errorSocket`.

Owns: the server with its port, and who is ever served in Storm mode.

Does not own: the datagrams.
-/

set_option autoImplicit false

namespace PaintingCPS

open Foundation

namespace ResultAt

/-- Its `bind` has succeeded; not known of one that has ended. -/
def bound : ResultAt → Bool
  | starting | replying | binding | stopping | ended => false
  | _ => true

/-- It hands an image to a child. -/
def dispatching : ResultAt → Bool
  | grabbing | permitted | popped _ | filled _ => true
  | _ => false

end ResultAt

/-- The server, and whose socket has the port. -/
structure Bound where
  process : Process
  port : Option Nat

namespace Bound

def init (config : Config) : Bound := ⟨.init config, none⟩

/-- The port after a step. `none` is a `bind` that cannot succeed. -/
def portAfter (state : Bound) : ProcessStep → Option (Option Nat)
  | .result index call =>
      match state.process.threads[index]? with
      | some (.result thread) =>
          match thread.pc with
          | .binding =>
              if call = .success then
                if state.port = none then some (some index) else none
              else some state.port
          | .stopping => some (if state.port = some index then none else state.port)
          | _ => some state.port
      | _ => some state.port
  | _ => some state.port

end Bound

/-- All threads of the server in any order, over one port. -/
def boundMachine (config : Config) : Machine Bound ProcessStep where
  next state label :=
    if state.process.fault.isSome then none
    else
      match state.portAfter label, state.process.step config label with
      | some _, some (.error fault) =>
          some { state with process := { state.process with fault := some fault } }
      | some port, some (.ok after) => some ⟨after, port⟩
      | _, _ => none

namespace Bound

/-- The port takes steps away from the server and adds none. -/
theorem refines_process (config : Config) :
    Simulation (boundMachine config).transition (processMachine config).transition
      (fun _ _ => True) (fun _ _ => True) (fun state process => state.process = process) where
  matched := by
    rintro state after label - rfl - step
    refine .inr ⟨label, after.process, trivial, ?_, rfl⟩
    simp only [Machine.transition, boundMachine, processMachine] at step ⊢
    split at step
    next => cases step
    next running =>
      rw [if_neg running]
      split at step
      next stepped =>
        cases step
        rw [stepped]
      next stepped =>
        cases step
        rw [stepped]
      next => cases step

/-- Every run with the port is one of the server. -/
theorem process_reached {config : Config} {state : Bound}
    (reached : (boundMachine config).Reaches (.init config) state) :
    (processMachine config).Reaches (.init config) state.process := by
  obtain ⟨_, rfl, run⟩ := (refines_process config).reaches rfl reached
  exact run

/-- Who is served has the port, and who has the port was served. -/
structure Held (state : Bound) : Prop where
  served : ∀ (index : Nat) (thread : ResultThread),
    state.process.threads[index]? = some (.result thread) → thread.pc.bound = true →
      state.port = some index
  holder : ∀ index, state.port = some index → ∃ thread : ResultThread,
    state.process.threads[index]? = some (.result thread) ∧
      (thread.pc.bound = true ∨ thread.pc = .ended)
  remote : ∀ thread : ResultThread, .result thread ∈ state.process.threads →
    thread.pc.dispatching = false

section Steps

variable {config : Config} {state : Bound} {after : Process} {index : Nat}

/-- A thread moves that is no `server_result`. -/
private theorem Held.aside (held : state.Held) {thread moved : Thread}
    (there : state.process.threads[index]? = some thread)
    (threads : after.threads = state.process.threads.set index moved)
    (before : ∀ receiver, thread ≠ .result receiver)
    (fresh : ∀ receiver, moved = .result receiver → receiver.pc = .starting) :
    Held ⟨after, state.port⟩ where
  served := fun place receiver found serves => by
    rw [threads, getElem?_set_there moved there] at found
    split at found
    next =>
      rw [fresh receiver (Option.some.inj found)] at serves
      cases serves
    next => exact held.served place receiver found serves
  holder := fun place isPort => by
    obtain ⟨receiver, found, was⟩ := held.holder place isPort
    refine ⟨receiver, ?_, was⟩
    rw [threads, getElem?_set_there moved there, if_neg]
    · exact found
    · rintro rfl
      rw [there] at found
      exact before receiver (Option.some.inj found)
  remote := by
    rw [threads]
    intro receiver member
    rcases List.mem_or_eq_of_mem_set member with old | new
    · exact held.remote receiver old
    · rw [fresh receiver new.symm]
      rfl

/-- A `server_result` moves without the port, -/
private theorem Held.serves (held : state.Held) {thread moved : ResultThread}
    (there : state.process.threads[index]? = some (.result thread))
    (threads : after.threads = state.process.threads.set index (.result moved))
    (remote : moved.pc.dispatching = false)
    (same : moved.pc.bound = true → thread.pc.bound = true)
    (stays : thread.pc.bound = true → moved.pc.bound = true ∨ moved.pc = .ended)
    (running : thread.pc ≠ .ended) : Held ⟨after, state.port⟩ where
  served := fun place receiver found serves => by
    rw [threads, getElem?_set_there _ there] at found
    split at found
    next here =>
      cases found
      rw [here]
      exact held.served index thread there (same serves)
    next => exact held.served place receiver found serves
  holder := fun place isPort => by
    obtain ⟨receiver, found, was⟩ := held.holder place isPort
    rw [threads, getElem?_set_there _ there]
    split
    next here =>
      rw [here, there, Option.some.injEq, Thread.result.injEq] at found
      subst found
      exact ⟨moved, rfl, stays (was.resolve_right running)⟩
    next => exact ⟨receiver, found, was⟩
  remote := by
    rw [threads]
    intro receiver member
    rcases List.mem_or_eq_of_mem_set member with old | new
    · exact held.remote receiver old
    · cases new
      exact remote

/-- or takes it. -/
private theorem Held.takes (held : state.Held) {thread moved : ResultThread}
    (there : state.process.threads[index]? = some (.result thread))
    (threads : after.threads = state.process.threads.set index (.result moved))
    (remote : moved.pc.dispatching = false) (serves : moved.pc.bound = true)
    (free : state.port = none) : Held ⟨after, some index⟩ where
  served := fun place receiver found isBound => by
    rw [threads, getElem?_set_there _ there] at found
    split at found
    next here => rw [here]
    next =>
      have other := held.served place receiver found isBound
      rw [free] at other
      cases other
  holder := fun place isPort => by
    cases isPort
    exact ⟨moved, by rw [threads, getElem?_set_there _ there, if_pos rfl], .inl serves⟩
  remote := by
    rw [threads]
    intro receiver member
    rcases List.mem_or_eq_of_mem_set member with old | new
    · exact held.remote receiver old
    · cases new
      exact remote

/-- A thread is created that is no `server_result`. -/
private theorem Held.appends (held : state.Held) {new : Thread}
    (threads : after.threads = state.process.threads ++ [new])
    (other : ∀ receiver, new ≠ .result receiver) : Held ⟨after, state.port⟩ where
  served := fun place receiver found serves => by
    rw [threads] at found
    by_cases old : place < state.process.threads.length
    · rw [List.getElem?_append_left old] at found
      exact held.served place receiver found serves
    · rw [List.getElem?_append_right (Nat.le_of_not_lt old)] at found
      exact absurd (List.mem_singleton.mp (List.mem_of_getElem? found)).symm (other receiver)
  holder := fun place isPort => by
    obtain ⟨receiver, found, was⟩ := held.holder place isPort
    obtain ⟨old, -⟩ := List.getElem?_eq_some_iff.mp found
    exact ⟨receiver, by rw [threads, List.getElem?_append_left old, found], was⟩
  remote := by
    rw [threads]
    intro receiver member
    rcases List.mem_append.mp member with old | new
    · exact held.remote receiver old
    · exact absurd (List.mem_singleton.mp new).symm (other receiver)

/-- Who has not been served does not have the port. -/
private theorem Held.elsewhere (held : state.Held) {thread : ResultThread}
    (there : state.process.threads[index]? = some (.result thread))
    (unserved : thread.pc.bound = false) (running : thread.pc ≠ .ended) :
    state.port ≠ some index := by
  intro isPort
  obtain ⟨receiver, found, was⟩ := held.holder index isPort
  rw [there, Option.some.injEq, Thread.result.injEq] at found
  subst found
  rcases was with serves | ended
  · rw [unserved] at serves
    cases serves
  · exact running ended

/-- Nothing but `bind` and `close` changes the port. -/
private theorem portAfter_same {call : Call} {port : Option Nat} {thread : ResultThread}
    (isPort : state.portAfter (.result index call) = some port)
    (there : state.process.threads[index]? = some (.result thread))
    (binds : thread.pc ≠ .binding) (closes : thread.pc ≠ .stopping) : port = state.port := by
  simp only [portAfter, there] at isPort
  exact (Option.some.inj isPort).symm

/-- A `server_result` moves that neither binds nor closes. -/
private theorem Held.keeps (held : state.Held) {call : Call} {port : Option Nat}
    {thread moved : ResultThread} (isPort : state.portAfter (.result index call) = some port)
    (there : state.process.threads[index]? = some (.result thread))
    (binds : thread.pc ≠ .binding) (closes : thread.pc ≠ .stopping)
    (threads : after.threads = state.process.threads.set index (.result moved))
    (remote : moved.pc.dispatching = false)
    (same : moved.pc.bound = true → thread.pc.bound = true)
    (stays : thread.pc.bound = true → moved.pc.bound = true ∨ moved.pc = .ended)
    (running : thread.pc ≠ .ended) :
    Held ⟨after, port⟩ ∧ (state.port ≠ none → port = state.port) := by
  obtain rfl := portAfter_same isPort there binds closes
  exact ⟨held.serves there threads remote same stays running, fun _ => rfl⟩

private theorem Held.look (held : state.Held) (storm : config.storm = true) {call : Call}
    {port : Option Nat} {thread moved : ResultThread}
    (isPort : state.portAfter (.result index call) = some port)
    (there : state.process.threads[index]? = some (.result thread))
    (looks : Process.Looks config state.process thread call moved)
    (threads : after.threads = state.process.threads.set index (.result moved)) :
    Held ⟨after, port⟩ ∧ (state.port ≠ none → port = state.port) := by
  have remote := held.remote thread (List.mem_of_getElem? there)
  cases looks with
  | replied stands =>
      exact held.keeps isPort there (by simp [stands]) (by simp [stands]) threads
        (by simp [storm, ResultAt.dispatching]) (by simp [storm, ResultAt.bound])
        (by simp [stands, ResultAt.bound]) (by simp [stands])
  | bound stands =>
      simp only [portAfter, there, stands] at isPort
      split at isPort
      next success =>
        split at isPort
        next free =>
          cases isPort
          refine ⟨held.takes there threads ?_ ?_ free, fun taken => absurd free taken⟩ <;>
            simp [success, ResultAt.dispatching, ResultAt.bound]
        next => cases isPort
      next failed =>
        cases isPort
        refine ⟨held.serves there threads ?_ ?_ ?_ (by simp [stands]), fun _ => rfl⟩ <;>
          simp [failed, stands, ResultAt.dispatching, ResultAt.bound]
  | fetched stands | empty stands | sent stands | unsent stands =>
      exact held.keeps isPort there (by simp [stands]) (by simp [stands]) threads rfl
        (by simp [stands, ResultAt.bound]) (by simp [ResultAt.bound]) (by simp [stands])
  | nonempty stands =>
      exact held.keeps isPort there (by simp [stands]) (by simp [stands]) threads
        (by simp [storm, ResultAt.dispatching]) (by simp [stands, ResultAt.bound])
        (by simp [storm, ResultAt.bound]) (by simp [stands])
  | filled stands =>
      rw [stands] at remote
      cases remote
  | received stands target =>
      rcases target with rfl | rfl <;>
        exact held.keeps isPort there (by simp [stands]) (by simp [stands]) threads rfl
          (by simp [stands, ResultAt.bound]) (by simp [ResultAt.bound]) (by simp [stands])

/-- A step leaves the port to who has it. -/
private theorem Held.moves (held : state.Held) (storm : config.storm = true)
    {label : ProcessStep} {port : Option Nat} (isPort : state.portAfter label = some port)
    (moves : Process.Moves config state.process label after) :
    Held ⟨after, port⟩ ∧ (state.port ≠ none → port = state.port) := by
  have remote : ∀ {index : Nat} {thread : ResultThread},
      state.process.threads[index]? = some (.result thread) → thread.pc.dispatching = false :=
    fun there => held.remote _ (List.mem_of_getElem? there)
  cases moves with
  | accept sock =>
      cases isPort
      exact ⟨held.appends rfl (by simp), fun _ => rfl⟩
  | turnedAway there =>
      cases isPort
      exact ⟨held.aside there rfl (by simp) (by simp), fun _ => rfl⟩
  | @admitted index sock bytes command userID granted there parsed login =>
      cases isPort
      have fresh : ∀ receiver, Process.entry userID sock command = .result receiver →
          receiver.pc = .starting := by
        cases command <;> rintro receiver ⟨⟩
        rfl
      rcases Process.login_cases login with ⟨-, rfl⟩ | ⟨-, rfl⟩ <;>
        exact ⟨held.aside there rfl (by simp) fresh, fun _ => rfl⟩
  | event there | quiet there | register there | submit there | push there | lookup there
  | post there | discard there | advance there | unwritten there | finished there
  | released there =>
      cases isPort
      exact ⟨held.aside there rfl (by simp) (by simp), fun _ => rfl⟩
  | look there looks => exact held.look storm isPort there looks rfl
  | start there stands | wait there stands | eraseSem there stands | eraseQueue there stands
  | eraseUser there stands | deleteSem there stands | deleteQueue there stands
  | finish there stands =>
      exact held.keeps isPort there (by simp [stands]) (by simp [stands]) rfl rfl
        (by simp [stands, ResultAt.bound]) (by simp [stands, ResultAt.bound]) (by simp [stands])
  | take there stands =>
      rcases stands with ⟨stands, -⟩ | ⟨stands, rfl⟩
      · have impossible := remote there
        rw [stands] at impossible
        cases impossible
      · exact held.keeps isPort there (by simp [stands]) (by simp [stands]) rfl rfl
          (by simp [stands, ResultAt.bound]) (by simp [ResultAt.bound]) (by simp [stands])
  | grab there stands | spawn there stands | spawnFailed there stands =>
      have impossible := remote there
      rw [stands] at impossible
      cases impossible
  | @stop index thread call value there stands =>
      have other := held.elsewhere there (by rw [stands]; rfl) (by simp [stands])
      simp only [portAfter, there, stands, if_neg other] at isPort
      cases isPort
      exact ⟨held.serves there rfl rfl (by simp [ResultAt.bound]) (by simp [stands, ResultAt.bound])
        (by simp [stands]), fun _ => rfl⟩

theorem Held.step (held : state.Held) (storm : config.storm = true) {label : ProcessStep}
    {later : Bound} (step : (boundMachine config).transition state label later) :
    later.Held ∧ (state.port ≠ none → later.port = state.port) := by
  simp only [Machine.transition, boundMachine] at step
  split at step
  next => cases step
  next =>
    split at step
    next =>
      cases step
      exact ⟨⟨held.served, held.holder, held.remote⟩, fun _ => rfl⟩
    next isPort stepped =>
      cases step
      exact held.moves storm isPort (Process.moves_of_step stepped)
    next => cases step

theorem held_init (config : Config) : (init config).Held := by
  have threads : ∀ (index : Nat) (thread : ResultThread),
      (Process.init config).threads[index]? = some (.result thread) → thread.pc = .starting := by
    intro index thread found
    have member := List.mem_of_getElem? found
    simp only [Process.init] at member
    split at member
    next =>
      rcases List.mem_cons.mp member with same | other
      · cases same
        rfl
      · cases List.mem_singleton.mp other
    next => cases member
  refine ⟨?_, by simp [init], ?_⟩
  · intro index thread found serves
    rw [threads index thread found] at serves
    cases serves
  · intro thread member
    obtain ⟨index, found⟩ := List.mem_iff_getElem?.mp member
    rw [threads index thread found]
    rfl

end Steps

end Bound

/-- In Storm mode one `server_result` gets results, for as long as the server
runs: once it has bound its socket no other one ever does, also after the
session has ended and whoever logs in then. -/
theorem storm_serves_one {config : Config} (storm : config.storm = true) {state later : Bound}
    (reached : (boundMachine config).Reaches (.init config) state)
    (further : (boundMachine config).Reaches state later)
    {index other : Nat} {server thread : ResultThread}
    (there : state.process.threads[index]? = some (.result server))
    (served : server.pc.bound = true)
    (found : later.process.threads[other]? = some (.result thread)) (differs : other ≠ index) :
    thread.pc.bound = false := by
  have held : state.Held := reached.invariant (Bound.held_init config)
    fun held _ step => (held.step storm step).1
  have isPort := held.served index server there served
  have kept : later.Held ∧ later.port = some index := by
    apply further.invariant ⟨held, isPort⟩
    rintro before after label ⟨stays, same⟩ _ step
    obtain ⟨next, keeps⟩ := stays.step storm step
    exact ⟨next, (keeps (by simp [same])).trans same⟩
  by_contra serves
  have own := kept.1.served other thread found (eq_true_of_ne_false serves)
  rw [kept.2, Option.some.injEq] at own
  exact differs own.symm

/-- The user logs in with threads at these places, and `bind` is tried. -/
def stormLogin (user : String) (transmit result : Nat) (bind : Call) : List ProcessStep :=
  [.accept 4, .header transmit (some (ascii ("transmit," ++ user))), .accept 5,
    .header result (some (ascii ("result," ++ user))), .result result .success,
    .result result .success, .result result bind]

/-- An image goes to Storm. -/
def stormImage (transmit : Nat) : List ProcessStep :=
  let waitFor := ProcessStep.event transmit fun _ => 0
  [.act transmit, waitFor (.wrote true), .act transmit, waitFor (.received (ascii "x,1")),
    waitFor (.wrote true), .act transmit, waitFor (.received [7]), .act transmit, .act transmit,
    waitFor (.opened true)] ++ List.replicate 4 (.act transmit)

/-- The rest of the session of that user, until no thread of it runs. -/
def stormRest : List ProcessStep :=
  stormImage 0 ++ List.replicate 7 (.result 1 .success) ++
    [.event 0 (fun _ => 0) (.received []), .act 0] ++ List.replicate 8 (.result 1 .success)

/-- The user comes back, and is not served again. -/
theorem storm_serves_one_returning : ∃ (state later : Bound) (server thread : ResultThread),
    state.process.threads[1]? = some (.result server) ∧ server.pc.bound = true ∧
      later.process.threads[3]? = some (.result thread) ∧ thread.user = server.user ∧
        thread.pc = .stopping ∧ thread.pc.bound = false := by
  let machine := boundMachine ⟨.tcp, .spout, 1⟩
  let server : ResultThread := ⟨ascii "a", 5, .waiting, 0, none, none⟩
  let thread : ResultThread := ⟨ascii "a", 5, .stopping, 1, none, none⟩
  have executed : ((machine.run (fun _ _ => True) (.init ⟨.tcp, .spout, 1⟩)
      (stormLogin "a" 0 1 .success)).bind fun state =>
        (machine.run (fun _ _ => True) state
          (stormRest ++ stormLogin "a" 2 3 (.failure (-1)))).map fun later =>
            decide (state.process.threads[1]? = some (.result server) ∧
              later.process.threads[3]? = some (.result thread))) = some true := by
    decide +kernel
  obtain ⟨state, first, second⟩ := Option.bind_eq_some_iff.mp executed
  obtain ⟨later, further, shown⟩ := Machine.exists_of_run second
  obtain ⟨there, found⟩ := of_decide_eq_true shown
  exact ⟨state, later, server, thread, there, rfl, found, rfl, rfl,
    storm_serves_one rfl (Machine.reachesUnder_of_run first) further there rfl
      found (by decide)⟩

end PaintingCPS
