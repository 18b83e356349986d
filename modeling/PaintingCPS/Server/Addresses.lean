import PaintingCPS.Server.Login
import PaintingCPS.Server.Visit.Ends

/-!
Contract: the visits of all users in one process do not interfere.

A user's visit is a view of the process: the entries of the user, and the
threads that are still there. No semaphore and no queue belongs to two
`server_result` threads, and the entries of different users are different; so
what one user's threads do is, for everybody else, a step elsewhere.

Owns: the view, who owns which address, and the frame rules.

Does not own: what a step of the process does to the visit of its own user.
-/

set_option autoImplicit false

namespace PaintingCPS

open Foundation

/-- It has a semaphore that nobody has deleted. -/
def ResultAt.holdsSem : ResultAt → Bool
  | starting | deletingQueue | ended => false
  | _ => true

namespace Thread

/-- The `server_transmit` of a user, until it returns. -/
def senderOf (user : User) : Thread → Option TransmitThread
  | .transmit thread => if thread.user = user ∧ thread.ended = false then some thread else none
  | _ => none

/-- The `server_result` of a user, until it has erased the user. -/
def receiverOf (user : User) : Thread → Option ResultThread
  | .result thread =>
      if thread.user = user ∧ thread.pc.afterUser = false then some thread else none
  | _ => none

/-- Whose `server_transmit` it is, and so on. -/
def senderKey : Thread → Option User
  | .transmit thread => if thread.ended then none else some thread.user
  | _ => none

def receiverKey : Thread → Option User
  | .result thread => if thread.pc.afterUser then none else some thread.user
  | _ => none

def semKey : Thread → Option Nat
  | .result thread => if thread.pc.holdsSem then some thread.sem else none
  | _ => none

def queueKey : Thread → Option Nat
  | .result thread => if thread.pc = .ended then none else thread.queue
  | _ => none

theorem senderKey_of_senderOf {user : User} {thread : Thread} {seen : TransmitThread}
    (here : thread.senderOf user = some seen) : thread.senderKey = some user := by
  cases thread with
  | transmit thread =>
      simp only [senderOf] at here
      split at here
      next live =>
        rw [senderKey, live.2, if_neg Bool.false_ne_true, live.1]
      next => cases here
  | connection _ | closed | result _ | worker _ => cases here

theorem receiverKey_of_receiverOf {user : User} {thread : Thread} {seen : ResultThread}
    (here : thread.receiverOf user = some seen) :
    thread = .result seen ∧ thread.receiverKey = some user := by
  cases thread with
  | result thread =>
      simp only [receiverOf] at here
      split at here
      next live =>
        cases here
        refine ⟨rfl, ?_⟩
        rw [receiverKey, live.2, if_neg Bool.false_ne_true, live.1]
      next => cases here
  | connection _ | closed | transmit _ | worker _ => cases here

/-- The thread takes no key, keeps that of its user, and does not leave. -/
structure Keeps (thread moved : Thread) : Prop where
  sender : ∀ name, moved.senderKey = some name → thread.senderKey = some name
  receiver : moved.receiverKey = thread.receiverKey
  sem : ∀ name, moved.semKey = some name → thread.semKey = some name
  queue : ∀ name, moved.queueKey = some name → thread.queueKey = some name
  stays : ∀ leaver, moved = .result leaver →
    ¬ (leaver.pc = .deletingSem ∨ leaver.pc = .deletingQueue)

end Thread

namespace Process

/-- What the process holds for a user. -/
def visit (process : Process) (user : User) : Visit where
  count := process.userMap user
  opener := process.opener user
  semEntry := process.semMap user
  queueEntry := process.queueMap user
  sender := process.threads.findSome? (Thread.senderOf user)
  receiver := process.threads.findSome? (Thread.receiverOf user)
  sems := process.sems
  queues := process.queues

/-- Every user has one thread of each kind, and every object one user. -/
structure Apart (process : Process) : Prop where
  senders : KeysApart Thread.senderKey process.threads
  receivers : KeysApart Thread.receiverKey process.threads
  sems : KeysApart Thread.semKey process.threads
  queues : KeysApart Thread.queueKey process.threads
  entries : ∀ user other queue, process.queueMap user = some queue →
    process.queueMap other = some queue → user = other
  registered : ∀ thread ∈ process.threads, ∀ user queue, thread.queueKey = some queue →
    process.queueMap user = some queue → thread.receiverKey = some user
  /-- Who has erased the user has two objects left to delete. -/
  leaving : ∀ thread, .result thread ∈ process.threads →
    thread.pc = .deletingSem ∨ thread.pc = .deletingQueue →
    (∃ queue names, thread.queue = some queue ∧ process.queues[queue]? = some (some names)) ∧
      (thread.pc = .deletingSem → ∃ value, process.sems[thread.sem]? = some (some value))

section Frames

variable {process after : Process} {index : Nat} {user : User}

/-! ## Owners -/

/-- The receiver that a visit shows is one of the threads. -/
theorem receiver_of_visit {receiver : ResultThread}
    (here : (process.visit user).receiver = some receiver) :
    .result receiver ∈ process.threads ∧ receiver.user = user ∧
      receiver.pc.afterUser = false := by
  obtain ⟨thread, member, sees⟩ := List.exists_of_findSome?_eq_some here
  obtain ⟨rfl, -⟩ := Thread.receiverKey_of_receiverOf sees
  simp only [Thread.receiverOf] at sees
  split at sees
  next live => exact ⟨member, live⟩
  next => cases sees

theorem sender_of_visit {sender : TransmitThread}
    (here : (process.visit user).sender = some sender) :
    .transmit sender ∈ process.threads ∧ sender.user = user ∧ sender.ended = false := by
  obtain ⟨thread, member, sees⟩ := List.exists_of_findSome?_eq_some here
  cases thread with
  | transmit thread =>
      simp only [Thread.senderOf] at sees
      split at sees
      next live =>
        cases sees
        exact ⟨member, live⟩
      next => cases sees
  | connection _ | closed | result _ | worker _ => cases sees

/-- A thread that is there is shown. -/
theorem Apart.receiver (apart : process.Apart) {receiver : ResultThread}
    (there : process.threads[index]? = some (.result receiver))
    (live : receiver.pc.afterUser = false) :
    (process.visit receiver.user).receiver = some receiver :=
  apart.receivers.findSome? (fun _ _ sees => (Thread.receiverKey_of_receiverOf sees).2) there
    (if_pos ⟨rfl, live⟩)

theorem Apart.sender (apart : process.Apart) {sender : TransmitThread}
    (there : process.threads[index]? = some (.transmit sender)) (live : sender.ended = false) :
    (process.visit sender.user).sender = some sender :=
  apart.senders.findSome? (fun _ _ sees => Thread.senderKey_of_senderOf sees) there
    (if_pos ⟨rfl, live⟩)

/-- The semaphore of a thread is used by its own user. -/
theorem Apart.owner_of_sem (apart : process.Apart) {sem : Nat} {thread : ResultThread}
    (uses : (process.visit user).UsesSem sem)
    (there : process.threads[index]? = some (.result thread)) (holds : thread.pc.holdsSem = true)
    (same : thread.sem = sem) : thread.user = user ∧ thread.pc.afterUser = false := by
  obtain ⟨receiver, here, started, own⟩ := uses
  obtain ⟨member, owner, early⟩ := receiver_of_visit here
  obtain ⟨place, at'⟩ := List.mem_iff_getElem?.mp member
  have holds' : receiver.pc.holdsSem = true := by
    cases stands : receiver.pc <;> simp_all [ResultAt.holdsSem, ResultAt.afterUser]
  obtain rfl := apart.sems place index _ _ sem at' there
    (by rw [Thread.semKey, if_pos holds', own]) (by rw [Thread.semKey, if_pos holds, same])
  rw [there] at at'
  cases at'
  exact ⟨owner, early⟩

/-- A queue is used by the user of the thread that holds it, -/
theorem Apart.owner_of_queue (apart : process.Apart) {queue : Nat} {thread : ResultThread}
    (uses : (process.visit user).UsesQueue queue)
    (there : process.threads[index]? = some (.result thread)) (running : thread.pc ≠ .ended)
    (held : thread.queue = some queue) :
    thread.user = user ∧ thread.pc.afterUser = false := by
  have key : (Thread.result thread).queueKey = some queue := by
    rw [Thread.queueKey, if_neg running, held]
  rcases uses with entry | ⟨receiver, here, own⟩
  · have named := apart.registered _ (List.mem_of_getElem? there) user queue key entry
    simp only [Thread.receiverKey] at named
    split at named
    next => cases named
    next early => exact ⟨Option.some.inj named, eq_false_of_ne_true early⟩
  · obtain ⟨member, owner, early⟩ := receiver_of_visit here
    obtain ⟨place, at'⟩ := List.mem_iff_getElem?.mp member
    have running' : receiver.pc ≠ .ended := by
      intro gone
      rw [gone] at early
      cases early
    obtain rfl := apart.queues place index _ _ queue at' there
      (by rw [Thread.queueKey, if_neg running', own]) key
    rw [there] at at'
    cases at'
    exact ⟨owner, early⟩

/-- and by the user under whom it is registered. -/
theorem Apart.owner_of_entry (apart : process.Apart) {queue : Nat} {owner : User}
    (uses : (process.visit user).UsesQueue queue) (entry : process.queueMap owner = some queue) :
    owner = user := by
  rcases uses with own | ⟨receiver, here, held⟩
  · exact apart.entries owner user queue entry own
  · obtain ⟨member, isUser, early⟩ := receiver_of_visit here
    have running : receiver.pc ≠ .ended := by
      intro gone
      rw [gone] at early
      cases early
    have named := apart.registered _ member owner queue
      (by rw [Thread.queueKey, if_neg running, held]) entry
    rw [Thread.receiverKey, early, if_neg Bool.false_ne_true, isUser] at named
    exact (Option.some.inj named).symm

/-! ## Frame rules -/

/-- What a step leaves to a user whose threads do not move. -/
structure Spares (process after : Process) (user : User) : Prop where
  entries : after.userMap user = process.userMap user ∧ after.opener user = process.opener user ∧
    after.semMap user = process.semMap user ∧ after.queueMap user = process.queueMap user
  sems : ∀ sem, (process.visit user).UsesSem sem → after.sems[sem]? = process.sems[sem]?
  queues : ∀ queue, (process.visit user).UsesQueue queue →
    after.queues[queue]? = process.queues[queue]?

/-- Only threads move, and counters. -/
structure Undisturbed (process after : Process) : Prop where
  userMap : after.userMap = process.userMap
  opener : after.opener = process.opener
  semMap : after.semMap = process.semMap
  queueMap : after.queueMap = process.queueMap
  sems : after.sems = process.sems
  queues : after.queues = process.queues

theorem Undisturbed.spares (undisturbed : process.Undisturbed after) (user : User) :
    process.Spares after user where
  entries := ⟨congrFun undisturbed.userMap user, congrFun undisturbed.opener user,
    congrFun undisturbed.semMap user, congrFun undisturbed.queueMap user⟩
  sems := fun sem _ => by rw [undisturbed.sems]
  queues := fun queue _ => by rw [undisturbed.queues]

/-- For everybody else the step happens elsewhere. -/
theorem Spares.step (spares : process.Spares after user)
    (sender : after.threads.findSome? (Thread.senderOf user) =
      process.threads.findSome? (Thread.senderOf user))
    (receiver : after.threads.findSome? (Thread.receiverOf user) =
      process.threads.findSome? (Thread.receiverOf user)) :
    (process.visit user).Step (after.visit user) := by
  obtain ⟨counts, openers, sems, queues⟩ := spares.entries
  have same : after.visit user = { process.visit user with
      sems := after.sems
      queues := after.queues } := by
    simp only [visit, counts, openers, sems, queues, sender, receiver]
  rw [same]
  exact .elsewhere spares.sems spares.queues

/-- A thread that the user does not see moves. -/
theorem Spares.step_unseen (spares : process.Spares after user) {thread moved : Thread}
    (there : process.threads[index]? = some thread)
    (threads : after.threads = process.threads.set index moved)
    (sender : moved.senderOf user = thread.senderOf user)
    (receiver : moved.receiverOf user = thread.receiverOf user) :
    (process.visit user).Step (after.visit user) := by
  apply spares.step
  · rw [threads, findSome?_set_same there sender]
  · rw [threads, findSome?_set_same there receiver]

/-- Nobody sees a thread that is created. -/
theorem visit_created {new : Thread} (sender : new.senderOf user = none)
    (receiver : new.receiverOf user = none) :
    ({ process with threads := process.threads ++ [new] } : Process).visit user =
      process.visit user := by
  simp [visit, List.findSome?_append, sender, receiver]

/-- A `server_transmit` moves. -/
theorem Apart.transmit_steps (apart : process.Apart) {thread moved : TransmitThread}
    (there : process.threads[index]? = some (.transmit thread)) (live : thread.ended = false)
    (threads : after.threads = process.threads.set index (.transmit moved))
    (same : moved.user = thread.user)
    (spares : ∀ other, thread.user ≠ other → process.Spares after other)
    (own : (process.visit thread.user).Step {
      count := after.userMap thread.user
      opener := after.opener thread.user
      semEntry := after.semMap thread.user
      queueEntry := after.queueMap thread.user
      sender := if moved.ended then none else some moved
      receiver := (process.visit thread.user).receiver
      sems := after.sems
      queues := after.queues }) :
    (process.visit user).Step (after.visit user) := by
  have receivers : ∀ other, after.threads.findSome? (Thread.receiverOf other) =
      process.threads.findSome? (Thread.receiverOf other) := by
    intro other
    rw [threads]
    exact findSome?_set_same there rfl
  by_cases owner : thread.user = user
  · subst owner
    have seen : (Thread.transmit thread).senderOf thread.user ≠ none := by
      rw [Thread.senderOf, if_pos ⟨rfl, live⟩]
      exact nofun
    have sender : after.threads.findSome? (Thread.senderOf thread.user) =
        if moved.ended then none else some moved := by
      rw [threads, apart.senders.findSome?_set (fun _ _ sees => Thread.senderKey_of_senderOf sees)
        there seen, Thread.senderOf, same]
      cases moved.ended <;> simp
    rw [← sender] at own
    simp only [visit, receivers] at own ⊢
    exact own
  · apply (spares user owner).step
    · rw [threads]
      apply findSome?_set_same there
      simp only [Thread.senderOf, same, owner, false_and, if_false]
    · exact receivers user

/-- A `server_result` moves that has not erased its user. -/
theorem Apart.result_steps (apart : process.Apart) {thread moved : ResultThread}
    (there : process.threads[index]? = some (.result thread))
    (live : thread.pc.afterUser = false)
    (threads : after.threads = process.threads.set index (.result moved))
    (same : moved.user = thread.user)
    (spares : ∀ other, thread.user ≠ other → process.Spares after other)
    (own : (process.visit thread.user).Step {
      count := after.userMap thread.user
      opener := after.opener thread.user
      semEntry := after.semMap thread.user
      queueEntry := after.queueMap thread.user
      sender := (process.visit thread.user).sender
      receiver := if moved.pc.afterUser then none else some moved
      sems := after.sems
      queues := after.queues }) :
    (process.visit user).Step (after.visit user) := by
  have senders : ∀ other, after.threads.findSome? (Thread.senderOf other) =
      process.threads.findSome? (Thread.senderOf other) := by
    intro other
    rw [threads]
    exact findSome?_set_same there rfl
  by_cases owner : thread.user = user
  · subst owner
    have seen : (Thread.result thread).receiverOf thread.user ≠ none := by
      rw [Thread.receiverOf, if_pos ⟨rfl, live⟩]
      exact nofun
    have receiver : after.threads.findSome? (Thread.receiverOf thread.user) =
        if moved.pc.afterUser then none else some moved := by
      rw [threads, apart.receivers.findSome?_set
        (fun _ _ sees => (Thread.receiverKey_of_receiverOf sees).2) there seen,
        Thread.receiverOf, same]
      cases moved.pc.afterUser <;> simp
    rw [← receiver] at own
    simp only [visit, senders] at own ⊢
    exact own
  · apply (spares user owner).step
    · exact senders user
    · rw [threads]
      apply findSome?_set_same there
      simp only [Thread.receiverOf, same, owner, false_and, if_false]

/-! ## Apartness is kept -/

/-- Objects that are there stay there. -/
structure KeepsObjects (process after : Process) : Prop where
  sems : ∀ sem : Nat, (∃ value, process.sems[sem]? = some (some value)) →
    ∃ value, after.sems[sem]? = some (some value)
  queues : ∀ queue : Nat, (∃ names, process.queues[queue]? = some (some names)) →
    ∃ names, after.queues[queue]? = some (some names)

/-- An object that is used stays there. -/
theorem keeps_set {Item : Type} {items : List (Option Item)} {address : Nat} {old : Item}
    (new : Item) (live : items[address]? = some (some old)) (other : Nat)
    (there : ∃ item, items[other]? = some (some item)) :
    ∃ item, (items.set address (some new))[other]? = some (some item) := by
  rw [getElem?_set_there _ live]
  by_cases same : other = address
  · rw [if_pos same]
    exact ⟨new, rfl⟩
  · rw [if_neg same]
    exact there

theorem keeps_append {Item : Type} {items : List (Option Item)} (new : Option Item) (other : Nat)
    (there : ∃ item, items[other]? = some (some item)) :
    ∃ item, (items ++ [new])[other]? = some (some item) := by
  obtain ⟨item, found⟩ := there
  obtain ⟨within, -⟩ := List.getElem?_eq_some_iff.mp found
  exact ⟨item, (List.getElem?_append_left within).trans found⟩

/-- A thread moves that takes no key and does not leave. -/
theorem Apart.moves (apart : process.Apart) {thread moved : Thread}
    (there : process.threads[index]? = some thread)
    (threads : after.threads = process.threads.set index moved)
    (queueMap : after.queueMap = process.queueMap) (keeps : thread.Keeps moved)
    (objects : process.KeepsObjects after) : after.Apart := by
  constructor
  · rw [threads]
    exact apart.senders.set there fun name named => .inl (keeps.sender name named)
  · rw [threads]
    exact apart.receivers.set there fun name named => .inl (keeps.receiver ▸ named)
  · rw [threads]
    exact apart.sems.set there fun name named => .inl (keeps.sem name named)
  · rw [threads]
    exact apart.queues.set there fun name named => .inl (keeps.queue name named)
  · rw [queueMap]
    exact apart.entries
  · rw [threads, queueMap]
    apply forall_mem_set apart.registered
    intro user queue key entry
    rw [keeps.receiver]
    exact apart.registered thread (List.mem_of_getElem? there) user queue (keeps.queue queue key)
      entry
  · intro leaver member stands
    rw [threads] at member
    have before : .result leaver ∈ process.threads := by
      rcases List.mem_or_eq_of_mem_set member with old | rfl
      · exact old
      · exact absurd stands (keeps.stays leaver rfl)
    obtain ⟨⟨queue, names, held, live⟩, sem⟩ := apart.leaving leaver before stands
    obtain ⟨names', live'⟩ := objects.queues queue ⟨names, live⟩
    exact ⟨⟨queue, names', held, live'⟩, fun atSem => objects.sems leaver.sem (sem atSem)⟩

/-- Threads without keys are created. -/
theorem Apart.created (apart : process.Apart) {new : Thread} (sender : new.senderKey = none)
    (receiver : new.receiverKey = none) (noResult : ∀ thread, new ≠ .result thread) :
    ({ process with threads := process.threads ++ [new] } : Process).Apart := by
  have noSem : new.semKey = none := by
    cases new with
    | result thread => exact absurd rfl (noResult thread)
    | connection _ | closed | transmit _ | worker _ => rfl
  have noQueue : new.queueKey = none := by
    cases new with
    | result thread => exact absurd rfl (noResult thread)
    | connection _ | closed | transmit _ | worker _ => rfl
  constructor
  · exact apart.senders.append sender
  · exact apart.receivers.append receiver
  · exact apart.sems.append noSem
  · exact apart.queues.append noQueue
  · exact apart.entries
  · intro thread member user queue key entry
    rcases List.mem_append.mp member with old | last
    · exact apart.registered thread old user queue key entry
    · rw [List.mem_singleton.mp last, noQueue] at key
      cases key
  · intro leaver member stands
    rcases List.mem_append.mp member with old | last
    · exact apart.leaving leaver old stands
    · exact absurd (List.mem_singleton.mp last).symm (noResult leaver)

/-- The semaphore of a thread is there, -/
theorem Apart.sem_alive (apart : process.Apart) (tidy : ∀ user, (process.visit user).Tidy)
    {thread : Thread} (member : thread ∈ process.threads) {sem : Nat}
    (key : thread.semKey = some sem) : ∃ value, process.sems[sem]? = some (some value) := by
  cases thread with
  | result thread =>
      simp only [Thread.semKey] at key
      split at key
      next holds =>
        cases key
        obtain ⟨place, there⟩ := List.mem_iff_getElem?.mp member
        cases late : thread.pc.afterUser with
        | true =>
            have leaves : thread.pc = .deletingSem := by
              cases stands : thread.pc <;> simp_all [ResultAt.afterUser, ResultAt.holdsSem]
            exact (apart.leaving thread member (.inl leaves)).2 leaves
        | false =>
            have here := apart.receiver there late
            apply ((tidy thread.user).receiver thread here).semAlive
            intro starts
            rw [starts] at holds
            cases holds
      next => cases key
  | connection _ | closed | transmit _ | worker _ => cases key

/-- and so is its queue. -/
theorem Apart.queue_alive (apart : process.Apart) (tidy : ∀ user, (process.visit user).Tidy)
    {thread : Thread} (member : thread ∈ process.threads) {queue : Nat}
    (key : thread.queueKey = some queue) : ∃ names, process.queues[queue]? = some (some names) := by
  cases thread with
  | result thread =>
      simp only [Thread.queueKey] at key
      split at key
      next => cases key
      next running =>
        obtain ⟨place, there⟩ := List.mem_iff_getElem?.mp member
        cases late : thread.pc.afterUser with
        | true =>
            have leaves : thread.pc = .deletingSem ∨ thread.pc = .deletingQueue := by
              cases stands : thread.pc <;> simp_all [ResultAt.afterUser]
            obtain ⟨⟨other, names, held, live⟩, -⟩ := apart.leaving thread member leaves
            rw [key] at held
            cases held
            exact ⟨names, live⟩
        | false =>
            have here := apart.receiver there late
            exact ((tidy thread.user).receiver thread here).queueAlive queue key
  | connection _ | closed | transmit _ | worker _ => cases key

/-- An address that is not used yet is nobody's. -/
private theorem fresh_address {Item : Type} {items : List (Option Item)}
    (there : ∃ item, items[items.length]? = some (some item)) : False := by
  obtain ⟨item, found⟩ := there
  rw [List.getElem?_eq_none (Nat.le_refl _)] at found
  cases found

/-! ### Steps that change what belongs to whom -/

theorem Apart.registers (apart : process.Apart) (tidy : ∀ user, (process.visit user).Tidy)
    {thread moved : Thread} (owner : User) (there : process.threads[index]? = some thread)
    (keeps : thread.Keeps moved) :
    ({ process with
      queueMap := Function.update process.queueMap owner (some process.queues.length)
      queues := process.queues ++ [some []]
      threads := process.threads.set index moved } : Process).Apart := by
  have moves : ({ process with
      queues := process.queues ++ [some []]
      threads := process.threads.set index moved } : Process).Apart :=
    apart.moves there rfl rfl keeps ⟨fun _ live => live, keeps_append _⟩
  have unregistered : ∀ user, process.queueMap user ≠ some process.queues.length := by
    intro user entry
    exact fresh_address ((tidy user).queueAlive _ entry)
  refine { moves with entries := ?_, registered := ?_ }
  · intro user other queue one two
    simp only [Function.update_apply] at one two
    split at one <;> split at two
    next own also => rw [own, also]
    next =>
      cases one
      exact absurd two (unregistered other)
    next =>
      cases two
      exact absurd one (unregistered user)
    next => exact apart.entries user other queue one two
  · intro holder member user queue key entry
    simp only [Function.update_apply] at entry
    split at entry
    next =>
      cases entry
      have held : ∃ holder ∈ process.threads, holder.queueKey = some process.queues.length := by
        rcases List.mem_or_eq_of_mem_set member with old | rfl
        · exact ⟨holder, old, key⟩
        · exact ⟨thread, List.mem_of_getElem? there, keeps.queue _ key⟩
      obtain ⟨one, present, holds⟩ := held
      exact absurd (apart.queue_alive tidy present holds) fresh_address
    next => exact moves.registered holder member user queue key entry

theorem Apart.starts (apart : process.Apart) (tidy : ∀ user, (process.visit user).Tidy)
    {thread : ResultThread} (there : process.threads[index]? = some (.result thread))
    (stands : thread.pc = .starting) (semMap : User → Option Nat) :
    ({ process with
      semMap := semMap
      sems := process.sems ++ [some 0]
      threads := process.threads.set index (.result { thread with
        sem := process.sems.length
        pc := .replying }) } : Process).Apart := by
  have receivers : (Thread.result thread).receiverKey = some thread.user := by
    rw [Thread.receiverKey, stands]
    rfl
  have queues : (Thread.result thread).queueKey = thread.queue := by
    rw [Thread.queueKey, stands]
    rfl
  constructor
  · exact apart.senders.set there nofun
  · exact apart.receivers.set there fun name named => .inl (receivers.trans named)
  · apply apart.sems.set there
    intro name named
    refine .inr fun other member held => ?_
    cases named
    exact fresh_address (apart.sem_alive tidy member held)
  · exact apart.queues.set there fun name named => .inl (queues.trans named)
  · exact apart.entries
  · apply forall_mem_set apart.registered
    intro user queue key entry
    have named :=
      apart.registered _ (List.mem_of_getElem? there) user queue (queues.trans key) entry
    rw [receivers] at named
    exact named
  · intro leaver member leaves
    rcases List.mem_or_eq_of_mem_set member with old | new
    · obtain ⟨queue, sem⟩ := apart.leaving leaver old leaves
      exact ⟨queue, fun atSem => keeps_append _ _ (sem atSem)⟩
    · cases new
      rcases leaves with atSem | atQueue
      · cases atSem
      · cases atQueue

theorem Apart.fetches (apart : process.Apart) {thread : ResultThread} {queue : Nat}
    (there : process.threads[index]? = some (.result thread)) (stands : thread.pc = .woken)
    (before : thread.queue = none) (found : process.queueMap thread.user = some queue) :
    (process.setThread index (.result { thread with
      queue := some queue
      pc := .testing })).Apart := by
  have receivers : (Thread.result thread).receiverKey = some thread.user := by
    rw [Thread.receiverKey, stands]
    rfl
  have sems : (Thread.result thread).semKey = some thread.sem := by
    rw [Thread.semKey, stands]
    rfl
  constructor
  · exact apart.senders.set there nofun
  · exact apart.receivers.set there fun name named => .inl (receivers.trans named)
  · exact apart.sems.set there fun name named => .inl (sems.trans named)
  · apply apart.queues.set there
    intro name named
    refine .inr fun other member held => ?_
    cases named
    have key := apart.registered other member thread.user queue held found
    obtain ⟨place, at'⟩ := List.mem_iff_getElem?.mp member
    obtain rfl := apart.receivers place index _ _ _ at' there key receivers
    rw [there] at at'
    cases at'
    rw [Thread.queueKey, before] at held
    split at held <;> cases held
  · exact apart.entries
  · apply forall_mem_set apart.registered
    intro user other key entry
    cases key
    rw [apart.entries user thread.user queue entry found]
    rfl
  · intro leaver member leaves
    rcases List.mem_or_eq_of_mem_set member with old | new
    · exact apart.leaving leaver old leaves
    · cases new
      rcases leaves with atSem | atQueue
      · cases atSem
      · cases atQueue

theorem Apart.erasesQueue (apart : process.Apart) {thread : ResultThread}
    (there : process.threads[index]? = some (.result thread))
    (stands : thread.pc = .erasingQueue) :
    ({ process with
      threads := process.threads.set index (.result { thread with pc := .erasingUser })
      queueMap := Function.update process.queueMap thread.user none } : Process).Apart := by
  have keeps : (Thread.result thread).Keeps (.result { thread with pc := .erasingUser }) := by
    constructor <;> simp [Thread.senderKey, Thread.receiverKey, Thread.semKey, Thread.queueKey,
      stands, ResultAt.afterUser, ResultAt.holdsSem]
  have moves : (process.setThread index (.result { thread with pc := .erasingUser })).Apart :=
    apart.moves there rfl rfl keeps ⟨fun _ live => live, fun _ live => live⟩
  have fewer : ∀ user queue,
      Function.update process.queueMap thread.user none user = some queue →
        process.queueMap user = some queue := by
    intro user queue entry
    rw [Function.update_apply] at entry
    split at entry
    next => cases entry
    next => exact entry
  exact { moves with
    entries := fun user other queue one two =>
      apart.entries user other queue (fewer user queue one) (fewer other queue two)
    registered := fun holder member user queue key entry =>
      moves.registered holder member user queue key (fewer user queue entry) }

theorem Apart.erasesUser (apart : process.Apart) {thread : ResultThread}
    (there : process.threads[index]? = some (.result thread)) (stands : thread.pc = .erasingUser)
    (erased : process.queueMap thread.user = none)
    (queue : ∃ queue names, thread.queue = some queue ∧ process.queues[queue]? = some (some names))
    (sem : ∃ value, process.sems[thread.sem]? = some (some value))
    (userMap : User → Option Nat) :
    ({ process with
      threads := process.threads.set index (.result { thread with pc := .deletingSem })
      userMap := userMap } : Process).Apart := by
  have receivers : (Thread.result thread).receiverKey = some thread.user := by
    rw [Thread.receiverKey, stands]
    rfl
  have sems : (Thread.result thread).semKey = some thread.sem := by
    rw [Thread.semKey, stands]
    rfl
  have queues : (Thread.result thread).queueKey = thread.queue := by
    rw [Thread.queueKey, stands]
    rfl
  constructor
  · exact apart.senders.set there nofun
  · exact apart.receivers.set there nofun
  · exact apart.sems.set there fun name named => .inl (sems.trans named)
  · exact apart.queues.set there fun name named => .inl (queues.trans named)
  · exact apart.entries
  · apply forall_mem_set apart.registered
    intro user address key entry
    have named := apart.registered _ (List.mem_of_getElem? there) user address
      (queues.trans key) entry
    rw [receivers] at named
    cases named
    rw [erased] at entry
    cases entry
  · intro leaver member leaves
    rcases List.mem_or_eq_of_mem_set member with old | new
    · exact apart.leaving leaver old leaves
    · cases new
      exact ⟨queue, fun _ => sem⟩

theorem Apart.deletesSem (apart : process.Apart) {thread : ResultThread}
    (there : process.threads[index]? = some (.result thread))
    (stands : thread.pc = .deletingSem) :
    ({ process with
      threads := process.threads.set index (.result { thread with pc := .deletingQueue })
      sems := process.sems.set thread.sem none } : Process).Apart := by
  have sems : (Thread.result thread).semKey = some thread.sem := by
    rw [Thread.semKey, stands]
    rfl
  have queues : (Thread.result thread).queueKey = thread.queue := by
    rw [Thread.queueKey, stands]
    rfl
  constructor
  · exact apart.senders.set there nofun
  · exact apart.receivers.set there nofun
  · exact apart.sems.set there nofun
  · exact apart.queues.set there fun name named => .inl (queues.trans named)
  · exact apart.entries
  · apply forall_mem_set apart.registered
    intro user address key entry
    have named := apart.registered _ (List.mem_of_getElem? there) user address
      (queues.trans key) entry
    rw [Thread.receiverKey, stands] at named
    cases named
  · intro leaver member leaves
    obtain ⟨place, at'⟩ := List.mem_iff_getElem?.mp member
    rw [getElem?_set_there _ there] at at'
    split at at'
    next =>
      cases at'
      exact ⟨(apart.leaving thread (List.mem_of_getElem? there) (.inl stands)).1, nofun⟩
    next other =>
      obtain ⟨queue, sem⟩ := apart.leaving leaver (List.mem_of_getElem? at') leaves
      refine ⟨queue, fun atSem => ?_⟩
      obtain ⟨value, live⟩ := sem atSem
      refine ⟨value, (List.getElem?_set_ne ?_).trans live⟩
      intro same
      have key : (Thread.result leaver).semKey = some thread.sem := by
        rw [Thread.semKey, atSem, same]
        rfl
      exact other (apart.sems place index _ _ _ at' there key sems)

theorem Apart.deletesQueue (apart : process.Apart) {thread : ResultThread} {queue : Nat}
    (there : process.threads[index]? = some (.result thread))
    (stands : thread.pc = .deletingQueue) (held : thread.queue = some queue) :
    ({ process with
      threads := process.threads.set index (.result { thread with pc := .ended })
      queues := process.queues.set queue none } : Process).Apart := by
  have queues : (Thread.result thread).queueKey = some queue := by
    rw [Thread.queueKey, stands, held]
    rfl
  constructor
  · exact apart.senders.set there nofun
  · exact apart.receivers.set there nofun
  · exact apart.sems.set there nofun
  · exact apart.queues.set there nofun
  · exact apart.entries
  · apply forall_mem_set apart.registered
    intro user address key
    cases key
  · intro leaver member leaves
    obtain ⟨place, at'⟩ := List.mem_iff_getElem?.mp member
    rw [getElem?_set_there _ there] at at'
    split at at'
    next =>
      cases at'
      rcases leaves with atSem | atQueue
      · cases atSem
      · cases atQueue
    next other =>
      obtain ⟨⟨address, names, own, live⟩, sem⟩ :=
        apart.leaving leaver (List.mem_of_getElem? at') leaves
      refine ⟨⟨address, names, own, (List.getElem?_set_ne ?_).trans live⟩, sem⟩
      rintro rfl
      have key : (Thread.result leaver).queueKey = some queue := by
        rw [Thread.queueKey, if_neg (by rcases leaves with stands | stands <;> rw [stands] <;>
          exact nofun), own]
      exact other (apart.queues place index _ _ _ at' there key queues)

/-- A connection becomes a thread of a kind that its user does not have. -/
theorem Apart.admits (apart : process.Apart) {sock : Int} {new : Thread}
    (there : process.threads[index]? = some (.connection sock))
    (sender : ∀ user, new.senderKey = some user → (process.visit user).sender = none)
    (receiver : ∀ user, new.receiverKey = some user → (process.visit user).receiver = none)
    (noSem : new.semKey = none) (noQueue : new.queueKey = none)
    (stays : ∀ leaver, new = .result leaver →
      ¬ (leaver.pc = .deletingSem ∨ leaver.pc = .deletingQueue))
    (userMap : User → Option Nat) (opener : User → Command) :
    ({ process with
      userMap := userMap
      opener := opener
      threads := process.threads.set index new } : Process).Apart := by
  constructor
  · apply apart.senders.set there
    intro user named
    refine .inr fun other member held => ?_
    have unseen := List.findSome?_eq_none_iff.mp (sender user named) other member
    cases other with
    | transmit thread =>
        simp only [Thread.senderKey] at held
        split at held <;> simp_all [Thread.senderOf]
    | connection _ | closed | result _ | worker _ => cases held
  · apply apart.receivers.set there
    intro user named
    refine .inr fun other member held => ?_
    have unseen := List.findSome?_eq_none_iff.mp (receiver user named) other member
    cases other with
    | result thread =>
        simp only [Thread.receiverKey] at held
        split at held <;> simp_all [Thread.receiverOf]
    | connection _ | closed | transmit _ | worker _ => cases held
  · apply apart.sems.set there
    rw [noSem]
    exact nofun
  · apply apart.queues.set there
    rw [noQueue]
    exact nofun
  · exact apart.entries
  · apply forall_mem_set apart.registered
    intro user queue key
    rw [noQueue] at key
    cases key
  · intro leaver member leaves
    rcases List.mem_or_eq_of_mem_set member with old | same
    · exact apart.leaving leaver old leaves
    · exact absurd leaves (stays leaver same.symm)

end Frames

end Process

end PaintingCPS
