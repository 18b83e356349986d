import PaintingCPS.Server.Order
import PaintingCPS.Server.Rest

/-!
Contract: the part of the server process that belongs to one session.

A session is one `server_result`, the children it has created, and the
`server_transmit` of the same user. What they see of the process is what the
session model describes: one queue, one semaphore, one argument struct, and the
permits that the sessions of other users leave.

`server_result` takes the objects of its user apart in five steps. The session
model does that in one, which is the last of them.

Owns: who plays in a session, what the process shows of it, and the frame rule
for everybody else.

Does not own: that every session is one of the session model.
-/

set_option autoImplicit false

namespace PaintingCPS

open Foundation

/-! ## Places -/

namespace ResultAt

/-- The place of the session model. There is none in Storm mode, and none after
a failed `pthread_create`. -/
def stage : ResultAt → Option ResultPc
  | starting => some .starting
  | replying | waiting => some .waiting
  | woken => some .woken
  | testing | erasingSem | erasingQueue | erasingUser | deletingSem | deletingQueue =>
      some .testing
  | grabbing => some .grabbing
  | permitted => some .permitted
  | popped fileName => some (.popped fileName)
  | filled fileName => some (.filled fileName)
  | ended => some .returned
  | binding | taking | receiving | sending | finishing | stopping => none

/-- It takes the objects of its user apart. -/
def departing : ResultAt → Bool
  | erasingSem | erasingQueue | erasingUser | deletingSem | deletingQueue => true
  | _ => false

/-- The queue is not in `queue_map` any more. -/
def unregistered : ResultAt → Bool
  | erasingUser | deletingSem | deletingQueue | ended => true
  | _ => false

/-- From its reply to the last pass through its loop. -/
def looping : ResultAt → Bool
  | replying | waiting | woken | testing | grabbing | permitted | popped _ | filled _ => true
  | _ => false

/-- What is known of a `server_result` in its loop. -/
structure Looping (pc : ResultAt) : Prop where
  started : pc ≠ starting
  running : pc ≠ ended
  holds : pc.holdsSem = true
  present : pc.departing = false
  registered : pc.unregistered = false
  early : pc.afterUser = false

theorem looping_facts {pc : ResultAt} (loops : pc.looping = true) : pc.Looping := by
  cases pc <;> simp only [looping, Bool.false_eq_true] at loops <;>
    exact ⟨nofun, nofun, rfl, rfl, rfl, rfl⟩

end ResultAt

/-- The place of the session model. It counts with the call to `sem_post`. -/
def WorkerAt.stage : WorkerAt → ChildPc
  | .created => .created
  | .hasSock sock => .hasSock sock
  | .matching sock fileName => .matching sock fileName
  | .replied | .finished => .replied
  | .ended => .ended

/-- Where a child of the `server_result` at `owner` stands. -/
def Thread.childOf (owner : Nat) : Thread → Option ChildPc
  | .worker child => if child.owner = owner then some child.pc.stage else none
  | _ => none

/-- All permits of a session. -/
def Session.allPermits (session : Session) : Nat :=
  session.processSem + session.held + session.activeChildren

/-- No step makes permits. -/
theorem Process.Moves.permits_le {config : Config} {process after : Process}
    {label : ProcessStep} (moves : Process.Moves config process label after) :
    after.permits ≤ process.permits := by
  rcases moves.permits with ⟨-, same⟩ | ⟨-, lost⟩ <;> omega

/-! ## Casts -/

/-- Who plays in a session, at which places, and where its queue is. The
`server_result` may not have logged in yet. -/
structure Cast where
  index : Option Nat
  receiver : ResultThread
  place : Option Nat
  sender : Option TransmitThread
  queue : Option Nat

namespace Cast

/-- What `server_transmit` has been asked to do. -/
def program (cast : Cast) : List Action := cast.sender.elim [] fun sender => sender.state.actions

def pending (cast : Cast) : List Action := cast.sender.elim [] TransmitThread.pending

def children (cast : Cast) (threads : List Thread) : List ChildPc :=
  cast.index.elim [] fun index => threads.filterMap (Thread.childOf index)

/-- These threads are there, and there is no other `server_transmit` for the
session. -/
structure On (process : Process) (cast : Cast) : Prop where
  receiver : ∀ index, cast.index = some index →
    process.threads[index]? = some (.result cast.receiver)
  absent : cast.index = none → cast.receiver = .init cast.receiver.user cast.receiver.sock ∧
    (process.visit cast.receiver.user).receiver = none
  sender : ∀ place, cast.place = some place → ∃ sender, cast.sender = some sender ∧
    process.threads[place]? = some (.transmit sender)
  nobody : cast.place = none → cast.sender = none ∧ cast.queue = none
  user : ∀ sender, cast.sender = some sender → sender.user = cast.receiver.user
  paired : cast.receiver.pc.afterUser = false → ∀ (place : Nat) (sender : TransmitThread),
    process.threads[place]? = some (.transmit sender) → sender.user = cast.receiver.user →
      sender.ended = false → cast.place = some place
  joined : cast.index ≠ none → cast.place ≠ none → cast.receiver.pc.afterUser = false →
    process.userMap cast.receiver.user ≠ some 1
  fetched : ∀ queue, cast.receiver.queue = some queue → cast.queue = some queue
  entry : cast.receiver.pc.unregistered = false →
    process.queueMap cast.receiver.user = cast.queue
  held : ∀ sender, cast.sender = some sender → sender.queue = cast.queue
  asked : ∀ sender sem, cast.sender = some sender → sender.semMatch = some sem →
    sem = cast.receiver.sem ∧ cast.receiver.pc ≠ .starting
  gone : cast.receiver.pc.departing = true ∨ cast.receiver.pc.afterUser = true →
    ∀ sender, cast.sender = some sender → sender.ended = true

end Cast

/-- The session is what the process shows of the cast. `future` is what
`server_transmit` is going to be asked to do. -/
structure Presents (process : Process) (cast : Cast) (future : List Action)
    (session : Session) : Prop where
  sound : session.fault = none
  stands : cast.receiver.pc.stage = some session.result
  sock : session.sock = cast.receiver.sock
  transInfo : cast.receiver.pc ≠ .ended → session.transInfo = cast.receiver.transInfo
  children : session.children.map Child.pc = cast.children process.threads
  permits : process.permits ≤ session.allPermits
  semMap : cast.receiver.pc ≠ .starting → cast.receiver.pc ≠ .ended → session.semMap = true
  semMatch : cast.receiver.pc.holdsSem = true → ∃ value,
    process.sems[cast.receiver.sem]? = some (some value) ∧ session.semMatch = some value
  resultQueue : session.resultQueue = cast.receiver.queue.isSome
  queueMap : cast.receiver.pc ≠ .ended → session.queueMap = cast.queue.isSome
  imgQueue : cast.receiver.pc ≠ .ended →
    session.imgQueue = cast.queue.bind fun queue => (process.queues[queue]?).join
  departing : cast.receiver.pc.departing = true → session.imgQueue = some []
  program : session.program = cast.pending ++ future
  transmitSem : session.transmitSem = cast.sender.elim false fun sender => sender.semMatch.isSome

/-- Whatever `server_transmit` is asked to do later, the process shows a session
of the session model. -/
structure Cast.Tracked (config : Config) (process : Process) (cast : Cast) : Prop where
  on : cast.On process
  session : ∀ future, ∃ session,
    (sessionMachine config.mode).Reaches
      (.init config.parallelism cast.receiver.sock (cast.program ++ future)) session ∧
    Presents process cast future session

/-! ## Frames -/

/-- What a step leaves to a session, but for the children and the permits. -/
structure Cast.Untouched (process after : Process) (cast : Cast) : Prop where
  receiver : ∀ index, cast.index = some index → after.threads[index]? = process.threads[index]?
  sender : ∀ place, cast.place = some place → after.threads[place]? = process.threads[place]?
  absent : cast.index = none → (process.visit cast.receiver.user).receiver = none →
    (after.visit cast.receiver.user).receiver = none
  paired : cast.receiver.pc.afterUser = false → ∀ (place : Nat) (sender : TransmitThread),
    after.threads[place]? = some (.transmit sender) → sender.user = cast.receiver.user →
      sender.ended = false → ∃ old, process.threads[place]? = some (.transmit old) ∧
        old.user = cast.receiver.user ∧ old.ended = false
  joined : cast.index ≠ none → cast.receiver.pc.afterUser = false →
    after.userMap cast.receiver.user = some 1 → process.userMap cast.receiver.user = some 1
  entry : cast.receiver.pc.unregistered = false →
    after.queueMap cast.receiver.user = process.queueMap cast.receiver.user
  sems : cast.receiver.pc.holdsSem = true →
    after.sems[cast.receiver.sem]? = process.sems[cast.receiver.sem]?
  queues : cast.receiver.pc ≠ .ended → ∀ queue, cast.queue = some queue →
    after.queues[queue]? = process.queues[queue]?

/-- What a step leaves to a session that it does not belong to. -/
structure Cast.Spared (process after : Process) (cast : Cast) : Prop
    extends cast.Untouched process after where
  children : cast.children after.threads = cast.children process.threads
  permits : after.permits ≤ process.permits

namespace Cast

section Frames

variable {config : Config} {process after : Process} {cast : Cast} {index : Nat}

/-- The threads of the session do not move. -/
theorem On.untouched (on : cast.On process) (untouched : cast.Untouched process after) :
    cast.On after where
  receiver := fun index isIndex => by
    rw [untouched.receiver index isIndex]
    exact on.receiver index isIndex
  absent := fun isNone =>
    ⟨(on.absent isNone).1, untouched.absent isNone (on.absent isNone).2⟩
  sender := fun place isPlace => by
    rw [untouched.sender place isPlace]
    exact on.sender place isPlace
  nobody := on.nobody
  user := on.user
  paired := fun early place sender there same live => by
    obtain ⟨old, before, owner, lived⟩ := untouched.paired early place sender there same live
    exact on.paired early place old before owner lived
  joined := fun here with' early one =>
    on.joined here with' early (untouched.joined here early one)
  fetched := on.fetched
  entry := fun registered => by
    rw [untouched.entry registered]
    exact on.entry registered
  held := on.held
  asked := on.asked
  gone := on.gone

/-- What they see does not change. -/
theorem presents_untouched {future : List Action} {session next : Session}
    (presents : Presents process cast future session) (untouched : cast.Untouched process after)
    (same : next = { session with
      children := next.children
      processSem := next.processSem
      matched := next.matched
      sent := next.sent })
    (children : next.children.map Child.pc = cast.children after.threads)
    (permits : after.permits ≤ next.allPermits) : Presents after cast future next := by
  rw [same] at children permits ⊢
  exact
    { presents with
      children := children
      permits := permits
      semMatch := fun holds => by
        rw [untouched.sems holds]
        exact presents.semMatch holds
      imgQueue := fun running => by
        rw [presents.imgQueue running]
        cases isQueue : cast.queue with
        | none => rfl
        | some queue =>
            rw [Option.bind_some, Option.bind_some, untouched.queues running queue isQueue] }

/-- A session of which nothing changes goes on as it was. -/
theorem Tracked.spared (tracked : cast.Tracked config process)
    (spared : cast.Spared process after) : cast.Tracked config after := by
  refine ⟨tracked.on.untouched spared.toUntouched, fun future => ?_⟩
  obtain ⟨session, reached, presents⟩ := tracked.session future
  exact ⟨session, reached, presents_untouched presents spared.toUntouched rfl
    (presents.children.trans spared.children.symm)
    (Nat.le_trans spared.permits presents.permits)⟩

/-- A thread moves that plays no part in the session, or is a child. -/
theorem untouched_of_set {thread moved : Thread} (there : process.threads[index]? = some thread)
    (threads : after.threads = process.threads.set index moved)
    (notReceiver : cast.index ≠ some index) (notSender : cast.place ≠ some index)
    (unseen : cast.index = none → thread.receiverOf cast.receiver.user = none →
      moved.receiverOf cast.receiver.user = none)
    (paired : cast.receiver.pc.afterUser = false → ∀ sender, moved = .transmit sender →
      sender.user = cast.receiver.user → sender.ended = false →
        ∃ old, thread = .transmit old ∧ old.user = cast.receiver.user ∧ old.ended = false)
    (joined : cast.index ≠ none → cast.receiver.pc.afterUser = false →
      after.userMap cast.receiver.user = some 1 → process.userMap cast.receiver.user = some 1)
    (entry : cast.receiver.pc.unregistered = false →
      after.queueMap cast.receiver.user = process.queueMap cast.receiver.user)
    (sems : cast.receiver.pc.holdsSem = true →
      after.sems[cast.receiver.sem]? = process.sems[cast.receiver.sem]?)
    (queues : cast.receiver.pc ≠ .ended → ∀ queue, cast.queue = some queue →
      after.queues[queue]? = process.queues[queue]?) : cast.Untouched process after where
  receiver := fun place isPlace => by
    rw [threads, getElem?_set_there moved there, if_neg]
    rintro rfl
    exact notReceiver isPlace
  sender := fun place isPlace => by
    rw [threads, getElem?_set_there moved there, if_neg]
    rintro rfl
    exact notSender isPlace
  absent := fun isNone nobody => by
    have before : ∀ other ∈ process.threads, other.receiverOf cast.receiver.user = none :=
      List.findSome?_eq_none_iff.mp nobody
    apply List.findSome?_eq_none_iff.mpr
    rw [threads]
    exact forall_mem_set before (unseen isNone (before thread (List.mem_of_getElem? there)))
  paired := fun early place sender found same live => by
    rw [threads, getElem?_set_there moved there] at found
    split at found
    next here =>
      subst here
      obtain ⟨old, rfl, owner, lived⟩ := paired early sender (Option.some.inj found) same live
      exact ⟨old, there, owner, lived⟩
    next => exact ⟨sender, found, same, live⟩
  joined := joined
  entry := entry
  sems := sems
  queues := queues

/-- It is no child. -/
theorem Untouched.spared (untouched : cast.Untouched process after) {thread moved : Thread}
    (there : process.threads[index]? = some thread)
    (threads : after.threads = process.threads.set index moved)
    (children : ∀ owner, cast.index = some owner → moved.childOf owner = thread.childOf owner)
    (permits : after.permits ≤ process.permits) : cast.Spared process after where
  toUntouched := untouched
  children := by
    rw [Cast.children, Cast.children, threads]
    cases isIndex : cast.index with
    | none => rfl
    | some owner => exact filterMap_set_same there (children owner isIndex)
  permits := permits

end Frames

/-! ## Owners -/

section Owners

variable {process : Process} {cast : Cast} {index : Nat}

/-- Only after its login `server_result` has a semaphore. -/
theorem On.logged (on : cast.On process) (started : cast.receiver.pc ≠ .starting) :
    ∃ place, cast.index = some place ∧ process.threads[place]? = some (.result cast.receiver) := by
  cases isIndex : cast.index with
  | none =>
      rw [(on.absent isIndex).1] at started
      exact absurd rfl started
  | some place => exact ⟨place, rfl, on.receiver place isIndex⟩

/-- Who leaves has fetched the queue. -/
theorem On.early_of_unfetched (on : cast.On process) (intact : process.Intact)
    (unfetched : cast.receiver.queue = none) (running : cast.receiver.pc ≠ .ended) :
    cast.receiver.pc.unregistered = false ∧ cast.receiver.pc.afterUser = false := by
  by_cases started : cast.receiver.pc = .starting
  · rw [started]
    exact ⟨rfl, rfl⟩
  · obtain ⟨place, -, there⟩ := on.logged started
    have early : cast.receiver.pc.afterUser = false := by
      by_contra late
      have leaves : cast.receiver.pc = .deletingSem ∨ cast.receiver.pc = .deletingQueue := by
        cases stands : cast.receiver.pc <;> simp_all [ResultAt.afterUser]
      obtain ⟨⟨queue, -, held, -⟩, -⟩ :=
        intact.apart.leaving _ (List.mem_of_getElem? there) leaves
      rw [unfetched] at held
      cases held
    refine ⟨?_, early⟩
    have fetched := ((intact.tidy _).receiver _ (intact.apart.receiver there early)).fetched
    cases stands : cast.receiver.pc <;> simp_all [ResultAt.unregistered, ResultAt.hasQueue]

/-- A `server_transmit` that has found the semaphore is the one of the session, -/
theorem On.sem_foreign (on : cast.On process) (intact : process.Intact)
    (holds : cast.receiver.pc.holdsSem = true) {sender : TransmitThread}
    (there : process.threads[index]? = some (.transmit sender)) (live : sender.ended = false)
    (other : cast.place ≠ some index) : sender.semMatch ≠ some cast.receiver.sem := by
  intro asked
  have started : cast.receiver.pc ≠ .starting := by
    intro starts
    rw [starts] at holds
    cases holds
  obtain ⟨place, -, found⟩ := on.logged started
  have tidy := intact.tidy sender.user
  have entry := (tidy.sender sender (intact.apart.sender there live)).asked _ asked
  obtain ⟨receiver, here, begun, kept⟩ := tidy.semHeld _ entry
  have same := (tidy.receiver receiver here).semEntry begun kept
  rw [entry, Option.some.injEq] at same
  obtain ⟨owner, early⟩ :=
    intact.apart.owner_of_sem ⟨receiver, here, begun, same.symm⟩ found holds rfl
  exact other (on.paired early index sender there owner.symm live)

/-- and so is one that has the queue. -/
theorem On.queue_foreign (on : cast.On process) (intact : process.Intact)
    (running : cast.receiver.pc ≠ .ended) {sender : TransmitThread}
    (there : process.threads[index]? = some (.transmit sender)) (live : sender.ended = false)
    (other : cast.place ≠ some index) {queue : Nat} (held : sender.queue = some queue) :
    cast.queue ≠ some queue := by
  intro same
  have entry : process.queueMap sender.user = some queue :=
    ((intact.tidy sender.user).sender sender (intact.apart.sender there live)).entry.trans held
  cases fetched : cast.receiver.queue with
  | none =>
      obtain ⟨registered, early⟩ := on.early_of_unfetched intact fetched running
      have owner := intact.apart.entries _ _ queue ((on.entry registered).trans same) entry
      exact other (on.paired early index sender there owner.symm live)
  | some address =>
      have started : cast.receiver.pc ≠ .starting := by
        intro starts
        cases isIndex : cast.index with
        | none =>
            rw [(on.absent isIndex).1] at fetched
            cases fetched
        | some place =>
            have early : cast.receiver.pc.afterUser = false := by rw [starts]; rfl
            have here := intact.apart.receiver (on.receiver place isIndex) early
            rw [((intact.tidy _).receiver _ here).fresh starts] at fetched
            cases fetched
      obtain ⟨place, -, found⟩ := on.logged started
      have isQueue := on.fetched address fetched
      rw [same, Option.some.injEq] at isQueue
      subst isQueue
      obtain ⟨owner, early⟩ := intact.apart.owner_of_queue (.inl entry) found running fetched
      exact other (on.paired early index sender there owner.symm live)

/-- Another `server_result` of the user has left already. -/
theorem On.receiver_foreign (on : cast.On process) (intact : process.Intact)
    (early : cast.receiver.pc.afterUser = false) {other : ResultThread}
    (there : process.threads[index]? = some (.result other)) (alone : cast.index ≠ some index)
    (live : other.pc.afterUser = false) : other.user ≠ cast.receiver.user := by
  intro same
  have here := intact.apart.receiver there live
  rw [same] at here
  cases isIndex : cast.index with
  | none =>
      rw [(on.absent isIndex).2] at here
      cases here
  | some place =>
      have found := on.receiver place isIndex
      obtain rfl := intact.apart.receivers place index _ _ cast.receiver.user found there
        (by rw [Thread.receiverKey, early, if_neg Bool.false_ne_true])
        (by rw [Thread.receiverKey, live, if_neg Bool.false_ne_true, same])
      exact alone isIndex

/-- Another `server_result` has another semaphore, -/
theorem On.sem_apart (on : cast.On process) (intact : process.Intact)
    (holds : cast.receiver.pc.holdsSem = true) {other : ResultThread}
    (there : process.threads[index]? = some (.result other)) (alone : cast.index ≠ some index)
    (has : other.pc.holdsSem = true) : other.sem ≠ cast.receiver.sem := by
  intro same
  have started : cast.receiver.pc ≠ .starting := by
    intro starts
    rw [starts] at holds
    cases holds
  obtain ⟨place, isIndex, found⟩ := on.logged started
  obtain rfl := intact.apart.sems place index _ _ cast.receiver.sem found there
    (by rw [Thread.semKey, if_pos holds]) (by rw [Thread.semKey, if_pos has, same])
  exact alone isIndex

/-- and another queue. -/
theorem On.queue_apart (on : cast.On process) (intact : process.Intact)
    (running : cast.receiver.pc ≠ .ended) {other : ResultThread}
    (there : process.threads[index]? = some (.result other)) (alone : cast.index ≠ some index)
    (has : other.pc ≠ .ended) {queue : Nat} (held : other.queue = some queue) :
    cast.queue ≠ some queue := by
  intro same
  have key : (Thread.result other).queueKey = some queue := by
    rw [Thread.queueKey, if_neg has, held]
  cases fetched : cast.receiver.queue with
  | none =>
      obtain ⟨registered, early⟩ := on.early_of_unfetched intact fetched running
      have named := intact.apart.registered _ (List.mem_of_getElem? there) _ queue key
        ((on.entry registered).trans same)
      simp only [Thread.receiverKey] at named
      split at named
      next => cases named
      next live =>
        exact on.receiver_foreign intact early there alone (eq_false_of_ne_true live)
          (Option.some.inj named)
  | some address =>
      have isQueue := on.fetched address fetched
      rw [same, Option.some.injEq] at isQueue
      subst isQueue
      cases isIndex : cast.index with
      | none =>
          rw [(on.absent isIndex).1] at fetched
          cases fetched
      | some place =>
          obtain rfl := intact.apart.queues place index _ _ queue (on.receiver place isIndex) there
            (by rw [Thread.queueKey, if_neg running, fetched]) key
          exact alone isIndex

/-- The semaphore of the session is there, -/
theorem On.sem_within (on : cast.On process) (intact : process.Intact)
    (holds : cast.receiver.pc.holdsSem = true) : cast.receiver.sem < process.sems.length := by
  have started : cast.receiver.pc ≠ .starting := by
    intro starts
    rw [starts] at holds
    cases holds
  obtain ⟨place, -, found⟩ := on.logged started
  have key : (Thread.result cast.receiver).semKey = some cast.receiver.sem := by
    rw [Thread.semKey, if_pos holds]
  obtain ⟨value, live⟩ := intact.apart.sem_alive intact.tidy (List.mem_of_getElem? found) key
  exact (List.getElem?_eq_some_iff.mp live).1

/-- and its queue. -/
theorem On.queue_within (on : cast.On process) (intact : process.Intact)
    (running : cast.receiver.pc ≠ .ended) {queue : Nat} (isQueue : cast.queue = some queue) :
    queue < process.queues.length := by
  have alive : ∃ names, process.queues[queue]? = some (some names) := by
    cases fetched : cast.receiver.queue with
    | none =>
        have entry := on.entry (on.early_of_unfetched intact fetched running).1
        exact (intact.tidy _).queueAlive queue (entry.trans isQueue)
    | some address =>
        have same := on.fetched address fetched
        rw [isQueue, Option.some.injEq] at same
        subst same
        cases isIndex : cast.index with
        | none =>
            rw [(on.absent isIndex).1] at fetched
            cases fetched
        | some place =>
            apply intact.apart.queue_alive intact.tidy
              (List.mem_of_getElem? (on.receiver place isIndex))
            rw [Thread.queueKey, if_neg running, fetched]
  obtain ⟨names, live⟩ := alive
  exact (List.getElem?_eq_some_iff.mp live).1

end Owners

/-! ## Steps of others -/

/-- The step is one of a thread of the session. -/
def Plays (process : Process) (cast : Cast) : ProcessStep → Prop
  | .accept _ | .header .. | .brokenPipe .. => False
  | .event index _ _ | .act index | .hostMissing index => cast.place = some index
  | .result index _ => cast.index = some index
  | .worker index _ => ∃ owner pc, process.threads[index]? = some (.worker ⟨owner, pc⟩) ∧
      cast.index = some owner

section Others

variable {config : Config} {process after : Process} {cast : Cast} {index : Nat}
variable {label : ProcessStep}

theorem looks_keeps {thread moved : ResultThread} {call : Call}
    (looks : Process.Looks config process thread call moved) :
    moved.user = thread.user ∧ (moved.pc.afterUser = false → thread.pc.afterUser = false) := by
  cases looks <;> exact ⟨rfl, fun _ => by simp [*, ResultAt.afterUser]⟩

/-- Another `server_transmit` moves. -/
private theorem On.spared_sender (on : cast.On process) {thread moved : TransmitThread}
    (there : process.threads[index]? = some (.transmit thread)) (live : thread.ended = false)
    (other : cast.place ≠ some index)
    (threads : after.threads = process.threads.set index (.transmit moved))
    (same : moved.user = thread.user) (users : after.userMap = process.userMap)
    (entry : cast.receiver.pc.unregistered = false → thread.user ≠ cast.receiver.user →
      after.queueMap cast.receiver.user = process.queueMap cast.receiver.user)
    (sems : cast.receiver.pc.holdsSem = true →
      after.sems[cast.receiver.sem]? = process.sems[cast.receiver.sem]?)
    (queues : cast.receiver.pc ≠ .ended → ∀ queue, cast.queue = some queue →
      after.queues[queue]? = process.queues[queue]?)
    (permits : after.permits ≤ process.permits) : cast.Spared process after := by
  refine (untouched_of_set there threads ?_ other (fun _ _ => rfl) ?_ ?_ ?_ sems
    queues).spared there threads (fun _ _ => rfl) permits
  · intro isIndex
    have found := on.receiver index isIndex
    rw [there] at found
    cases found
  · rintro - sender ⟨⟩ owner -
    exact ⟨thread, rfl, same.symm.trans owner, live⟩
  · intro _ _ one
    rw [← users]
    exact one
  · intro registered
    apply entry registered
    intro owner
    have early : cast.receiver.pc.afterUser = false := by
      cases stands : cast.receiver.pc <;>
        simp_all [ResultAt.unregistered, ResultAt.afterUser]
    exact other (on.paired early index thread there owner live)

/-- Another `server_result` moves. -/
private theorem On.spared_receiver (on : cast.On process) {thread moved : ResultThread}
    (there : process.threads[index]? = some (.result thread)) (other : cast.index ≠ some index)
    (threads : after.threads = process.threads.set index (.result moved))
    (same : moved.user = thread.user)
    (early : moved.pc.afterUser = false → thread.pc.afterUser = false)
    (joined : after.userMap cast.receiver.user = some 1 →
      process.userMap cast.receiver.user = some 1)
    (entry : cast.receiver.pc.unregistered = false →
      after.queueMap cast.receiver.user = process.queueMap cast.receiver.user)
    (sems : cast.receiver.pc.holdsSem = true →
      after.sems[cast.receiver.sem]? = process.sems[cast.receiver.sem]?)
    (queues : cast.receiver.pc ≠ .ended → ∀ queue, cast.queue = some queue →
      after.queues[queue]? = process.queues[queue]?)
    (permits : after.permits ≤ process.permits) : cast.Spared process after := by
  refine (untouched_of_set there threads other ?_ ?_ (fun _ _ impossible => nomatch impossible)
    (fun _ _ => joined) entry sems queues).spared there threads (fun _ _ => rfl) permits
  · intro isPlace
    obtain ⟨sender, -, found⟩ := on.sender index isPlace
    rw [there] at found
    cases found
  · intro _ unseen
    simp only [Thread.receiverOf] at unseen ⊢
    split at unseen
    next => cases unseen
    next hidden =>
      rw [if_neg]
      rintro ⟨owner, live⟩
      exact hidden ⟨same.symm.trans owner, early live⟩

/-- A child moves. -/
theorem On.untouched_worker (on : cast.On process) {owner : Nat} {pc next : WorkerAt}
    (there : process.threads[index]? = some (.worker ⟨owner, pc⟩))
    (threads : after.threads = process.threads.set index (.worker ⟨owner, next⟩))
    (same : process.Undisturbed after) : cast.Untouched process after := by
  refine untouched_of_set there threads ?_ ?_ (fun _ _ => rfl)
    (fun _ _ impossible => nomatch impossible) ?_ ?_ ?_ ?_
  · intro isIndex
    have found := on.receiver index isIndex
    rw [there] at found
    cases found
  · intro isPlace
    obtain ⟨sender, -, found⟩ := on.sender index isPlace
    rw [there] at found
    cases found
  · intro _ _ one
    rw [← same.userMap]
    exact one
  · exact fun _ => congrFun same.queueMap _
  · intro _
    rw [same.sems]
  · intro _ queue _
    rw [same.queues]

/-- A child of another session moves. -/
private theorem On.spared_worker (on : cast.On process) {owner : Nat} {pc next : WorkerAt}
    (there : process.threads[index]? = some (.worker ⟨owner, pc⟩))
    (other : cast.index ≠ some owner)
    (threads : after.threads = process.threads.set index (.worker ⟨owner, next⟩))
    (same : process.Undisturbed after) (permits : after.permits ≤ process.permits) :
    cast.Spared process after := by
  refine (on.untouched_worker there threads same).spared there threads ?_ permits
  intro mine isIndex
  have differs : owner ≠ mine := fun same => other (same ▸ isIndex)
  simp only [Thread.childOf, if_neg differs]

theorem Spared.refl (process : Process) (cast : Cast) : cast.Spared process process where
  receiver := fun _ _ => rfl
  sender := fun _ _ => rfl
  absent := fun _ nobody => nobody
  paired := fun _ _ sender there owner live => ⟨sender, there, owner, live⟩
  joined := fun _ _ one => one
  entry := fun _ => rfl
  sems := fun _ => rfl
  queues := fun _ _ _ => rfl
  children := rfl
  permits := Nat.le_refl _

/-- Then a thread is created that plays no part in the session. -/
private theorem Spared.append {middle : Process} (spared : cast.Spared process middle)
    (on : cast.On process) {new : Thread} (threads : after.threads = middle.threads ++ [new])
    (unseen : new.receiverOf cast.receiver.user = none)
    (noSender : ∀ sender, new ≠ .transmit sender)
    (children : ∀ owner, cast.index = some owner → new.childOf owner = none)
    (same : middle.Undisturbed after) (permits : after.permits ≤ process.permits) :
    cast.Spared process after := by
  have within : ∀ (place : Nat) (thread : Thread), process.threads[place]? = some thread →
      middle.threads[place]? = process.threads[place]? →
        after.threads[place]? = process.threads[place]? := by
    intro place thread found kept
    obtain ⟨early, -⟩ := List.getElem?_eq_some_iff.mp (kept.trans found)
    rw [threads, List.getElem?_append_left early, kept]
  refine ⟨⟨?_, ?_, ?_, ?_, ?_, ?_, ?_, ?_⟩, ?_, permits⟩
  · exact fun place isIndex =>
      within place _ (on.receiver place isIndex) (spared.receiver place isIndex)
  · intro place isPlace
    obtain ⟨sender, -, found⟩ := on.sender place isPlace
    exact within place _ found (spared.sender place isPlace)
  · intro isNone nobody
    have before := spared.absent isNone nobody
    simp only [Process.visit] at before ⊢
    rw [threads, List.findSome?_append, before, List.findSome?_cons, unseen]
    rfl
  · intro early place sender found owner live
    rw [threads] at found
    by_cases old : place < middle.threads.length
    · rw [List.getElem?_append_left old] at found
      exact spared.paired early place sender found owner live
    · rw [List.getElem?_append_right (Nat.le_of_not_lt old)] at found
      have last := List.mem_singleton.mp (List.mem_of_getElem? found)
      exact absurd last.symm (noSender sender)
  · intro here early one
    rw [same.userMap] at one
    exact spared.joined here early one
  · intro registered
    rw [same.queueMap]
    exact spared.entry registered
  · intro holds
    rw [same.sems]
    exact spared.sems holds
  · intro running queue isQueue
    rw [same.queues]
    exact spared.queues running queue isQueue
  · rw [← spared.children, Cast.children, Cast.children, threads]
    cases isIndex : cast.index with
    | none => rfl
    | some owner =>
        simp only [Option.elim_some, List.filterMap_append, List.filterMap_cons,
          children owner isIndex, List.filterMap_nil, List.append_nil]

/-- A step of a thread that plays no part in the session, and no login. -/
theorem On.spared (on : cast.On process) (intact : process.Intact)
    (moves : Process.Moves config process label after) (other : ¬ cast.Plays process label)
    (noLogin : ∀ index bytes, label ≠ .header index bytes) : cast.Spared process after := by
  have permits := moves.permits_le
  cases moves with
  | accept sock =>
      exact (Spared.refl process cast).append on rfl rfl (by simp) (fun _ _ => rfl)
        ⟨rfl, rfl, rfl, rfl, rfl, rfl⟩ permits
  | turnedAway there => exact absurd rfl (noLogin _ _)
  | admitted there parsed login => exact absurd rfl (noLogin _ _)
  | event there idle stepped =>
      exact on.spared_sender there (Process.running_of_step stepped) other rfl rfl rfl
        (fun _ _ => rfl) (fun _ => rfl) (fun _ _ _ => rfl) permits
  | quiet there next quiet =>
      exact on.spared_sender there (Process.running_of_pending next) other rfl rfl rfl
        (fun _ _ => rfl) (fun _ => rfl) (fun _ _ _ => rfl) permits
  | register there next =>
      refine on.spared_sender there (Process.running_of_pending next) other rfl rfl rfl
        (fun _ owner => Function.update_of_ne (Ne.symm owner) _ _) (fun _ => rfl) ?_ permits
      intro serving queue isQueue
      exact List.getElem?_append_left (on.queue_within intact serving isQueue)
  | submit there next =>
      exact on.spared_sender there (Process.running_of_pending next) other rfl rfl rfl
        (fun _ _ => rfl) (fun _ => rfl) (fun _ _ _ => rfl) permits
  | push there next held live =>
      have running := Process.running_of_pending next
      refine on.spared_sender there running other rfl rfl rfl
        (fun _ _ => rfl) (fun _ => rfl) ?_ permits
      intro serving queue isQueue
      apply List.getElem?_set_ne
      rintro rfl
      exact on.queue_foreign intact serving there running other held isQueue
  | lookup there next first found =>
      exact on.spared_sender there (Process.running_of_pending next) other rfl rfl rfl
        (fun _ _ => rfl) (fun _ => rfl) (fun _ _ _ => rfl) permits
  | post there next held live =>
      have running := Process.running_of_pending next
      refine on.spared_sender there running other rfl rfl rfl
        (fun _ _ => rfl) ?_ (fun _ _ _ => rfl) permits
      intro holds
      apply List.getElem?_set_ne
      rintro rfl
      exact on.sem_foreign intact holds there running other held
  | discard there next held live =>
      have running := Process.running_of_pending next
      refine on.spared_sender there running other rfl rfl rfl
        (fun _ _ => rfl) (fun _ => rfl) ?_ permits
      intro serving queue isQueue
      apply List.getElem?_set_ne
      rintro rfl
      exact on.queue_foreign intact serving there running other held isQueue
  | look there looks =>
      obtain ⟨same, early⟩ := looks_keeps looks
      exact on.spared_receiver there other rfl same early id (fun _ => rfl) (fun _ => rfl)
        (fun _ _ _ => rfl) permits
  | start there stands =>
      refine on.spared_receiver there other rfl rfl (fun _ => by rw [stands]; rfl) id
        (fun _ => rfl) ?_ (fun _ _ _ => rfl) permits
      intro holds
      exact List.getElem?_append_left (on.sem_within intact holds)
  | wait there stands live =>
      refine on.spared_receiver there other rfl rfl (fun _ => by rw [stands]; rfl) id
        (fun _ => rfl) ?_ (fun _ _ _ => rfl) permits
      intro holds
      exact List.getElem?_set_ne (on.sem_apart intact holds there other (by rw [stands]; rfl))
  | eraseSem there stands =>
      exact on.spared_receiver there other rfl rfl (fun _ => by rw [stands]; rfl) id
        (fun _ => rfl) (fun _ => rfl) (fun _ _ _ => rfl) permits
  | eraseQueue there stands =>
      refine on.spared_receiver there other rfl rfl (fun _ => by rw [stands]; rfl) id ?_
        (fun _ => rfl) (fun _ _ _ => rfl) permits
      intro registered
      have early : cast.receiver.pc.afterUser = false := by
        cases stands : cast.receiver.pc <;>
          simp_all [ResultAt.unregistered, ResultAt.afterUser]
      exact Function.update_of_ne
        (Ne.symm (on.receiver_foreign intact early there other (by rw [stands]; rfl))) _ _
  | eraseUser there stands =>
      refine on.spared_receiver there other rfl rfl (by simp [ResultAt.afterUser]) ?_ (fun _ => rfl)
        (fun _ => rfl) (fun _ _ _ => rfl) permits
      intro one
      simp only [Function.update_apply] at one
      split at one
      next => cases one
      next => exact one
  | deleteSem there stands live =>
      refine on.spared_receiver there other rfl rfl (by simp [ResultAt.afterUser]) id
        (fun _ => rfl) ?_ (fun _ _ _ => rfl) permits
      intro holds
      exact List.getElem?_set_ne (on.sem_apart intact holds there other (by rw [stands]; rfl))
  | deleteQueue there stands held live =>
      refine on.spared_receiver there other rfl rfl (by simp [ResultAt.afterUser]) id
        (fun _ => rfl) (fun _ => rfl) ?_ permits
      intro serving queue isQueue
      apply List.getElem?_set_ne
      rintro rfl
      exact on.queue_apart intact serving there other (by simp [stands]) held isQueue
  | grab there stands permit =>
      exact on.spared_receiver there other rfl rfl (fun _ => by rw [stands]; rfl) id
        (fun _ => rfl) (fun _ => rfl) (fun _ _ _ => rfl) permits
  | take there stands held live =>
      have running : ∀ thread : ResultThread,
          (thread.pc = .permitted ∨ thread.pc = .taking) →
            thread.pc ≠ .ended ∧ thread.pc.afterUser = false := by
        rintro thread (stands | stands) <;> simp [stands, ResultAt.afterUser]
      obtain ⟨serves, early⟩ := running _ (stands.imp And.left And.left)
      refine on.spared_receiver there other rfl rfl (fun _ => early) id
        (fun _ => rfl) (fun _ => rfl) ?_ permits
      intro serving queue isQueue
      apply List.getElem?_set_ne
      rintro rfl
      exact on.queue_apart intact serving there other serves held isQueue
  | @spawn index thread fileName there stands =>
      have middle : cast.Spared process
          (process.setThread index (.result { thread with pc := .waiting })) := by
        refine on.spared_receiver there other rfl rfl (fun _ => by rw [stands]; rfl) id
          (fun _ => rfl) (fun _ => rfl) (fun _ _ _ => rfl) ?_
        have children := countP_set_there Thread.liveChild
          (.result { thread with pc := .waiting }) there
        have holders := countP_set_there Thread.holdsPermit
          (.result { thread with pc := .waiting }) there
        simp only [Thread.liveChild, Thread.holdsPermit, stands, Bool.false_eq_true, if_false,
          if_true] at children holders
        simp only [Process.permits, Process.setThread]
        omega
      refine middle.append on rfl rfl (by simp) ?_ ⟨rfl, rfl, rfl, rfl, rfl, rfl⟩ permits
      intro owner isIndex
      have differs : index ≠ owner := fun same => other (same ▸ isIndex)
      simp only [Thread.childOf, if_neg differs]
  | spawnFailed there stands =>
      exact on.spared_receiver there other rfl rfl (fun _ => by rw [stands]; rfl) id
        (fun _ => rfl) (fun _ => rfl) (fun _ _ _ => rfl) permits
  | finish there stands =>
      exact on.spared_receiver there other rfl rfl (fun _ => by rw [stands]; rfl) id
        (fun _ => rfl) (fun _ => rfl) (fun _ _ _ => rfl) permits
  | stop there stands live =>
      refine on.spared_receiver there other rfl rfl (by simp [ResultAt.afterUser]) id
        (fun _ => rfl) ?_ (fun _ _ _ => rfl) permits
      intro holds
      exact List.getElem?_set_ne (on.sem_apart intact holds there other (by rw [stands]; rfl))
  | advance there advances =>
      exact on.spared_worker there (fun mine => other ⟨_, _, there, mine⟩) rfl
        ⟨rfl, rfl, rfl, rfl, rfl, rfl⟩ permits
  | unwritten there failed =>
      exact on.spared_worker there (fun mine => other ⟨_, _, there, mine⟩) rfl
        ⟨rfl, rfl, rfl, rfl, rfl, rfl⟩ permits
  | finished there =>
      exact on.spared_worker there (fun mine => other ⟨_, _, there, mine⟩) rfl
        ⟨rfl, rfl, rfl, rfl, rfl, rfl⟩ permits
  | released there =>
      exact on.spared_worker there (fun mine => other ⟨_, _, there, mine⟩) rfl
        ⟨rfl, rfl, rfl, rfl, rfl, rfl⟩ permits

end Others

end Cast

end PaintingCPS
