import PaintingCPS.Foundation.Pool
import PaintingCPS.Server.Conduct

/-!
Contract: one user's session, from the first login to the clean-up.

A visit is what the process holds for one user: the three entries, the live
`server_transmit`, the live `server_result`, and the memory behind their
addresses. What other users do is one step, which leaves that memory alone.

The two threads of a visit never meet except through the semaphore and the
queue. The invariant is therefore a ledger: the wake-ups that are there or due
are the names that are queued or due, and one more after the sender has left.

Owns: the steps of a visit, its invariant, and what a step of somebody else
leaves.

Does not own: the steps of the two threads, which visits the server has, and why
they do not interfere.
-/

set_option autoImplicit false

namespace PaintingCPS

open Foundation

/-! ## Places of `server_result` -/

namespace ResultAt

/-- A wake-up is consumed and not yet answered by a `pop`. -/
def awake : ResultAt → Nat
  | woken | testing | grabbing | permitted | taking => 1
  | erasingSem | erasingQueue | erasingUser => 1
  | _ => 0

/-- It has found its queue empty. -/
def closing : ResultAt → Bool
  | erasingSem | erasingQueue | erasingUser => true
  | _ => false

/-- After `sem_map.erase`, and so on. -/
def afterSem : ResultAt → Bool
  | erasingQueue | erasingUser => true
  | _ => false

def afterQueue : ResultAt → Bool
  | erasingUser => true
  | _ => false

/-- What it does then concerns nobody else. -/
def afterUser : ResultAt → Bool
  | deletingSem | deletingQueue | ended => true
  | _ => false

/-- It has found its queue not empty. -/
def hungry : ResultAt → Bool
  | grabbing | permitted | taking => true
  | _ => false

/-- Its pointer to the queue is set. -/
def hasQueue : ResultAt → Bool
  | starting | replying | binding | waiting | woken | stopping | ended => false
  | _ => true

/-- In the loop or before it, and not on the way out. -/
def serving : ResultAt → Bool
  | starting | stopping => false
  | pc => !pc.closing && !pc.afterUser

end ResultAt

/-! ## Visits -/

structure Visit where
  count : Option Nat
  opener : Command
  semEntry : Option Nat
  queueEntry : Option Nat
  sender : Option TransmitThread
  receiver : Option ResultThread
  sems : List (Option Nat)
  queues : List (Option (List (List Byte)))

/-- The value of a semaphore; 0 when it was deleted. -/
def valueAt (sems : List (Option Nat)) (address : Nat) : Nat :=
  ((sems[address]?).getD none).getD 0

/-- The length of a queue; 0 when there is none. -/
def lengthAt (queues : List (Option (List (List Byte)))) (address : Option Nat) : Nat :=
  ((address.bind fun queue => (queues[queue]?).getD none).getD []).length

namespace Visit

/-- A queue that was not deleted. -/
def Alive (visit : Visit) (queue : Nat) : Prop :=
  ∃ names, visit.queues[queue]? = some (some names)

/-- The address of a name queue or of a semaphore that the visit uses. -/
def UsesSem (visit : Visit) (sem : Nat) : Prop :=
  ∃ receiver, visit.receiver = some receiver ∧ receiver.pc ≠ .starting ∧ receiver.sem = sem

def UsesQueue (visit : Visit) (queue : Nat) : Prop :=
  visit.queueEntry = some queue ∨
    ∃ receiver, visit.receiver = some receiver ∧ receiver.queue = some queue

/-- One step of a thread of the user, a login, or a step of somebody else. -/
inductive Step (visit : Visit) : Visit → Prop
  | elsewhere {sems : List (Option Nat)} {queues : List (Option (List (List Byte)))}
      (semSame : ∀ sem, visit.UsesSem sem → sems[sem]? = visit.sems[sem]?)
      (queueSame : ∀ queue, visit.UsesQueue queue → queues[queue]? = visit.queues[queue]?) :
      Step visit { visit with sems := sems, queues := queues }
  /-- The first login, of either kind. -/
  | openedTransmit (user : User) (new : visit.count = none) :
      Step visit { visit with
        count := some 1
        opener := .transmit
        sender := some (.init user) }
  | openedResult (user : User) (sock : Int) (new : visit.count = none) :
      Step visit { visit with
        count := some 1
        opener := .result
        receiver := some (.init user sock) }
  /-- The second login, of the other kind. -/
  | joinedTransmit (user : User) (second : visit.count = some 1)
      (other : visit.opener ≠ .transmit) :
      Step visit { visit with
        count := some 2
        sender := some (.init user) }
  | joinedResult (user : User) (sock : Int) (second : visit.count = some 1)
      (other : visit.opener ≠ .result) :
      Step visit { visit with
        count := some 2
        receiver := some (.init user sock) }
  /-- The sender waits for something, or does what nobody else sees. -/
  | sends {sender moved : TransmitThread} (here : visit.sender = some sender)
      (sound : moved.Sound) (runs : moved.ended = false)
      (same : moved.queue = sender.queue ∧ moved.semMatch = sender.semMatch)
      (balance : moved.posts + sender.pushes + sender.left =
        sender.posts + moved.pushes + moved.left) :
      Step visit { visit with sender := some moved }
  | registers {sender moved : TransmitThread} (here : visit.sender = some sender)
      (sound : moved.Sound) (runs : moved.ended = false) (before : sender.queue = none)
      (queue : moved.queue = some visit.queues.length) (sem : moved.semMatch = sender.semMatch)
      (same : moved.posts = sender.posts ∧ moved.pushes = sender.pushes ∧
        moved.left = sender.left) :
      Step visit { visit with
        queueEntry := some visit.queues.length
        queues := visit.queues ++ [some []]
        sender := some moved }
  | pushes {sender moved : TransmitThread} {queue : Nat} {names : List (List Byte)}
      {fileName : List Byte} (here : visit.sender = some sender) (sound : moved.Sound)
      (runs : moved.ended = false)
      (same : moved.queue = sender.queue ∧ moved.semMatch = sender.semMatch)
      (held : sender.queue = some queue) (live : visit.queues[queue]? = some (some names))
      (balance : moved.posts = sender.posts ∧ sender.pushes = moved.pushes + 1 ∧
        moved.left = sender.left) :
      Step visit { visit with
        queues := visit.queues.set queue (some (names ++ [fileName]))
        sender := some moved }
  | looksUp {sender moved : TransmitThread} {sem : Nat} (here : visit.sender = some sender)
      (sound : moved.Sound) (runs : moved.ended = false) (first : sender.semMatch = none)
      (found : visit.semEntry = some sem) (asked : moved.semMatch = some sem)
      (queue : moved.queue = sender.queue)
      (same : moved.posts = sender.posts ∧ moved.pushes = sender.pushes ∧
        moved.left = sender.left) :
      Step visit { visit with sender := some moved }
  /-- The last signal is the end of the sender. -/
  | signals {sender moved : TransmitThread} {sem value : Nat} (here : visit.sender = some sender)
      (sound : moved.Sound)
      (same : moved.queue = sender.queue ∧ moved.semMatch = sender.semMatch)
      (held : sender.semMatch = some sem) (live : visit.sems[sem]? = some (some value))
      (balance : sender.posts = moved.posts + 1 ∧ moved.pushes = sender.pushes ∧
        moved.left = sender.left) :
      Step visit { visit with
        sems := visit.sems.set sem (some (value + 1))
        sender := if moved.ended then none else some moved }
  /-- The receiver does what nobody else sees. -/
  | serves {receiver moved : ResultThread} (here : visit.receiver = some receiver)
      (within : receiver.pc.serving = true ∧ moved.pc.serving = true)
      (same : moved.sem = receiver.sem ∧ moved.queue = receiver.queue)
      (awake : moved.pc.awake = receiver.pc.awake)
      (hungry : moved.pc.hungry = true →
        receiver.pc.hungry = true ∨ 0 < lengthAt visit.queues receiver.queue)
      (fetched : moved.pc.hasQueue = true → receiver.queue ≠ none) :
      Step visit { visit with receiver := some moved }
  | starts {receiver : ResultThread} (here : visit.receiver = some receiver)
      (stands : receiver.pc = .starting) :
      Step visit { visit with
        semEntry := some visit.sems.length
        sems := visit.sems ++ [some 0]
        receiver := some { receiver with sem := visit.sems.length, pc := .replying } }
  | wakes {receiver : ResultThread} {value : Nat} (here : visit.receiver = some receiver)
      (stands : receiver.pc = .waiting)
      (live : visit.sems[receiver.sem]? = some (some (value + 1))) :
      Step visit { visit with
        sems := visit.sems.set receiver.sem (some value)
        receiver := some { receiver with pc := .woken } }
  | fetches {receiver : ResultThread} {queue : Nat} (here : visit.receiver = some receiver)
      (stands : receiver.pc = .woken) (before : receiver.queue = none)
      (found : visit.queueEntry = some queue) :
      Step visit { visit with
        receiver := some { receiver with queue := some queue, pc := .testing } }
  | takes {receiver : ResultThread} {queue : Nat} {fileName : List Byte}
      {rest : List (List Byte)} {pc : ResultAt} (here : visit.receiver = some receiver)
      (stands : receiver.pc = .permitted ∨ receiver.pc = .taking)
      (held : receiver.queue = some queue)
      (live : visit.queues[queue]? = some (some (fileName :: rest)))
      (next : pc = .popped fileName ∨ pc = .receiving) :
      Step visit { visit with
        queues := visit.queues.set queue (some rest)
        receiver := some { receiver with pc := pc } }
  | closes {receiver : ResultThread} {queue : Nat} (here : visit.receiver = some receiver)
      (stands : receiver.pc = .testing) (held : receiver.queue = some queue)
      (live : visit.queues[queue]? = some (some [])) :
      Step visit { visit with receiver := some { receiver with pc := .erasingSem } }
  | erasesSem {receiver : ResultThread} (here : visit.receiver = some receiver)
      (stands : receiver.pc = .erasingSem) :
      Step visit { visit with
        semEntry := none
        receiver := some { receiver with pc := .erasingQueue } }
  | erasesQueue {receiver : ResultThread} (here : visit.receiver = some receiver)
      (stands : receiver.pc = .erasingQueue) :
      Step visit { visit with
        queueEntry := none
        receiver := some { receiver with pc := .erasingUser } }
  | erasesUser {receiver : ResultThread} (here : visit.receiver = some receiver)
      (stands : receiver.pc = .erasingUser) :
      Step visit { visit with
        count := none
        receiver := none }

/-- Wake-ups and names agree: with the sender, after it has left, and before it
has come. -/
structure Ledger (visit : Visit) (receiver : ResultThread) : Prop where
  present : ∀ sender, visit.sender = some sender →
    valueAt visit.sems receiver.sem + receiver.pc.awake + sender.posts =
      lengthAt visit.queues sender.queue + sender.pushes + sender.left
  gone : visit.sender = none → ∀ queue,
    (receiver.queue = some queue ∨ visit.queueEntry = some queue) →
    valueAt visit.sems receiver.sem + receiver.pc.awake =
      lengthAt visit.queues (some queue) + 1
  missing : visit.sender = none → receiver.queue = none → visit.queueEntry = none →
    valueAt visit.sems receiver.sem + receiver.pc.awake = 0

/-- What holds of the sender. -/
structure SenderTidy (visit : Visit) (sender : TransmitThread) : Prop where
  sound : sender.Sound
  runs : sender.ended = false
  entry : visit.queueEntry = sender.queue
  asked : ∀ sem, sender.semMatch = some sem → visit.semEntry = some sem
  unasked : sender.semMatch = none →
    sender.posts = lengthAt visit.queues sender.queue + sender.pushes

/-- What holds of the receiver. -/
structure ReceiverTidy (visit : Visit) (receiver : ResultThread) : Prop where
  runs : receiver.pc ≠ .stopping
  fresh : receiver.pc = .starting → receiver.queue = none
  fetched : receiver.pc.hasQueue = true → receiver.queue ≠ none
  hungry : receiver.pc.hungry = true → 0 < lengthAt visit.queues receiver.queue
  semEntry : receiver.pc ≠ .starting → receiver.pc.afterSem = false →
    visit.semEntry = some receiver.sem
  queueEntry : ∀ queue, receiver.queue = some queue → receiver.pc.afterQueue = false →
    visit.queueEntry = some queue
  semAlive : receiver.pc ≠ .starting → ∃ value, visit.sems[receiver.sem]? = some (some value)
  queueAlive : ∀ queue, receiver.queue = some queue → visit.Alive queue
  closing : receiver.pc.closing = true →
    visit.sender = none ∧ lengthAt visit.queues receiver.queue = 0
  noEntry : receiver.pc.afterQueue = true → visit.queueEntry = none
  ledger : receiver.pc ≠ .starting → visit.Ledger receiver
  counted : receiver.queue ≠ none → visit.count ≠ some 1

structure Tidy (visit : Visit) : Prop where
  sender : ∀ sender, visit.sender = some sender → visit.SenderTidy sender
  receiver : ∀ receiver, visit.receiver = some receiver → visit.ReceiverTidy receiver
  semHeld : ∀ sem, visit.semEntry = some sem →
    ∃ receiver, visit.receiver = some receiver ∧ receiver.pc ≠ .starting ∧
      receiver.pc.afterSem = false
  queueAlive : ∀ queue, visit.queueEntry = some queue → visit.Alive queue
  /-- A queue is registered, so somebody uses it. -/
  entered : visit.queueEntry ≠ none → visit.sender ≠ none ∨
    ∃ receiver, visit.receiver = some receiver ∧ receiver.pc ≠ .starting
  /-- Nobody is left where nobody is counted. -/
  absent : visit.count = none →
    visit.sender = none ∧ visit.queueEntry = none ∧ visit.receiver = none
  first : visit.count = some 1 →
    (visit.opener ≠ .transmit → visit.sender = none ∧ visit.queueEntry = none) ∧
    (visit.opener ≠ .result → visit.receiver = none)
  /-- Whoever is counted will clean up. -/
  occupied : visit.count ≠ none → visit.sender ≠ none ∨ visit.receiver ≠ none
  joined : visit.count ≠ none → visit.count ≠ some 1 →
    visit.sender ≠ none ∨ visit.queueEntry ≠ none ∨
      ∃ receiver, visit.receiver = some receiver ∧ receiver.pc = .erasingUser

/-! ## The memory of a visit -/

section Memory

variable {sems sems' : List (Option Nat)} {queues queues' : List (Option (List (List Byte)))}

private theorem valueAt_congr {sem : Nat} (same : sems'[sem]? = sems[sem]?) :
    valueAt sems' sem = valueAt sems sem := by
  rw [valueAt, valueAt, same]

private theorem lengthAt_congr {address : Option Nat}
    (same : ∀ queue, address = some queue → queues'[queue]? = queues[queue]?) :
    lengthAt queues' address = lengthAt queues address := by
  cases address with
  | none => rfl
  | some queue => rw [lengthAt, lengthAt, Option.bind_some, Option.bind_some, same queue rfl]

theorem lengthAt_of_live {queue : Nat} {names : List (List Byte)}
    (live : queues[queue]? = some (some names)) :
    lengthAt queues (some queue) = names.length := by
  simp [lengthAt, live]

theorem valueAt_of_live {sem value : Nat} (live : sems[sem]? = some (some value)) :
    valueAt sems sem = value := by
  simp [valueAt, live]

end Memory

section Preservation

variable {visit : Visit}

theorem Tidy.elsewhere {sems : List (Option Nat)}
    {queues : List (Option (List (List Byte)))} (tidy : visit.Tidy)
    (semSame : ∀ sem, visit.UsesSem sem → sems[sem]? = visit.sems[sem]?)
    (queueSame : ∀ queue, visit.UsesQueue queue → queues[queue]? = visit.queues[queue]?) :
    Tidy { visit with sems := sems, queues := queues } := by
  have alive : ∀ queue, visit.UsesQueue queue → visit.Alive queue →
      Alive { visit with sems := sems, queues := queues } queue := by
    intro queue uses ⟨names, live⟩
    exact ⟨names, (queueSame queue uses).trans live⟩
  constructor
  · intro sender here
    have old := tidy.sender sender here
    have length : lengthAt queues sender.queue = lengthAt visit.queues sender.queue :=
      lengthAt_congr fun queue held => queueSame queue (.inl (old.entry.trans held))
    exact { old with unasked := fun unknown => length ▸ old.unasked unknown }
  · intro receiver here
    have old := tidy.receiver receiver here
    have length : lengthAt queues receiver.queue = lengthAt visit.queues receiver.queue :=
      lengthAt_congr fun queue held => queueSame queue (.inr ⟨receiver, here, held⟩)
    have uses : receiver.pc ≠ .starting → sems[receiver.sem]? = visit.sems[receiver.sem]? :=
      fun started => semSame receiver.sem ⟨receiver, here, started, rfl⟩
    refine { old with hungry := ?_, semAlive := ?_, queueAlive := ?_, closing := ?_, ledger := ?_ }
    · exact fun hungry => length ▸ old.hungry hungry
    · intro started
      obtain ⟨value, live⟩ := old.semAlive started
      exact ⟨value, (uses started).trans live⟩
    · exact fun queue held => alive queue (.inr ⟨receiver, here, held⟩) (old.queueAlive queue held)
    · exact fun closes => ⟨(old.closing closes).1, length ▸ (old.closing closes).2⟩
    · intro started
      have value := valueAt_congr (uses started)
      have ledger := old.ledger started
      constructor
      · intro sender there
        have entry := (tidy.sender sender there).entry
        have names : lengthAt queues sender.queue = lengthAt visit.queues sender.queue :=
          lengthAt_congr fun queue held => queueSame queue (.inl (entry.trans held))
        simp only [value, names]
        exact ledger.present sender there
      · intro none' queue held
        have names : lengthAt queues (some queue) = lengthAt visit.queues (some queue) := by
          refine lengthAt_congr fun other same => ?_
          cases same
          exact queueSame queue (held.elim (fun own => .inr ⟨receiver, here, own⟩) .inl)
        simp only [value, names]
        exact ledger.gone none' queue held
      · intro none' noQueue noEntry
        simp only [value]
        exact ledger.missing none' noQueue noEntry
  · exact tidy.semHeld
  · exact fun queue held => alive queue (.inl held) (tidy.queueAlive queue held)
  · exact tidy.entered
  · exact tidy.absent
  · exact tidy.first
  · exact tidy.occupied
  · exact tidy.joined

theorem afterQueue_closing {pc : ResultAt} (late : pc.afterQueue = true) :
    pc.closing = true := by
  cases pc <;> first | rfl | cases late

/-- While the sender is there, the receiver is not on its way out. -/
theorem Tidy.open {sender : TransmitThread} {receiver : ResultThread} (tidy : visit.Tidy)
    (here : visit.sender = some sender) (there : visit.receiver = some receiver) :
    receiver.pc.closing = false := by
  by_contra closes
  have gone := ((tidy.receiver receiver there).closing (eq_true_of_ne_false closes)).1
  rw [here] at gone
  cases gone

theorem Tidy.entry {sender : TransmitThread} {receiver : ResultThread} (tidy : visit.Tidy)
    (here : visit.sender = some sender) (there : visit.receiver = some receiver) {queue : Nat}
    (held : receiver.queue = some queue) : visit.queueEntry = some queue := by
  refine (tidy.receiver receiver there).queueEntry queue held ?_
  by_contra late
  have closes := afterQueue_closing (eq_true_of_ne_false late)
  rw [tidy.open here there] at closes
  cases closes

/-- A thread that has not asked for its semaphore has not left. -/
theorem left_of_unasked {sender : TransmitThread} (sound : sender.Sound)
    (unknown : sender.semMatch = none) : sender.left = 0 := by
  rw [TransmitThread.left, if_neg]
  intro gone
  have has := (sound.leaves gone).1
  rw [unknown] at has
  cases has

end Preservation

end Visit

end PaintingCPS
