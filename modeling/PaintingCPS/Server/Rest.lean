import PaintingCPS.Foundation.Termination
import PaintingCPS.Server.Faultless
import PaintingCPS.Server.Permits

/-!
Contract: what the server does without its clients.

Between two messages of the outside the threads work off what they have: images
are queued, announced, taken, matched and answered, and sessions are cleaned
up. This comes to an end, and where it ends nothing is left behind: a thread
that still waits does so for its client, for Storm, or for the second
connection of its user.

Owns: the steps of the threads on their own, the measure of their work, and the
state of rest.

Does not own: what the clients do next.
-/

set_option autoImplicit false

namespace PaintingCPS

open Foundation

/-! ## Work -/

/-- Steps that `server_result` takes until it waits again. Its child takes
five. -/
def ResultAt.work : ResultAt → Nat
  | starting => 4
  | replying => 3
  | binding => 2
  | waiting => 1
  | woken => 13
  | testing => 12
  | grabbing | taking => 11
  | permitted | receiving => 10
  | popped _ | sending => 9
  | filled _ | finishing => 8
  | erasingSem => 6
  | erasingQueue => 5
  | erasingUser => 4
  | deletingSem => 3
  | deletingQueue | stopping => 2
  | ended => 0

def WorkerAt.work : WorkerAt → Nat
  | created => 5
  | hasSock _ => 4
  | matching _ _ => 3
  | replied => 2
  | finished => 1
  | ended => 0

/-- A signal that is due wakes `server_result` once. -/
def Thread.work : Thread → Nat
  | .connection _ | .closed => 0
  | .transmit thread => 14 * thread.pending.length
  | .result thread => thread.pc.work
  | .worker child => child.pc.work

namespace Process

/-- Wake-ups that nobody has consumed. -/
def signals (process : Process) : Nat := (process.sems.map fun sem => sem.getD 0).sum

def work (process : Process) : Nat :=
  (process.threads.map Thread.work).sum + 13 * process.signals

/-- A step of a thread that nobody outside takes part in, with a call that
succeeds. -/
def Own (process : Process) : ProcessStep → Prop
  | .act _ => True
  | .result index call => call = .success ∧ ∀ thread,
      process.threads[index]? = some (.result thread) → thread.pc ≠ .receiving
  | .worker _ call => call = .success
  | _ => False

/-- Such a step, while the children of a thread that returns have read their
structs. -/
def Internal (config : Config) (process : Process) (label : ProcessStep) : Prop :=
  process.Own label ∧ process.Cooperates config label

/-- Every name that was queued for the user has been taken. -/
def Served (process : Process) (user : User) : Prop :=
  ∀ queue, process.queueMap user = some queue → process.queues[queue]? = some (some [])

/-- Where a thread stands when nothing inside is left to do. -/
def Resting (process : Process) : Thread → Prop
  | .connection _ | .closed => True
  | .transmit thread =>
      -- it waits for its client, or has ended, or nobody has asked for its results
      thread.pending = [] ∨ (thread.semMatch = none ∧ process.semMap thread.user = none)
  | .result thread =>
      -- it has ended, or waits for Storm, or for the next name
      thread.pc = .ended ∨ thread.pc = .receiving ∨
        (thread.pc = .waiting ∧ process.Served thread.user)
  | .worker child => child.pc = .ended

section Measure

variable {config : Config} {process after : Process} {label : ProcessStep}

/-- Who cooperates loses no permit. -/
theorem Cooperates.keepsPermit (cooperates : process.Cooperates config label) :
    process.KeepsPermit config label := by
  cases label with
  | result index call =>
      intro thread fileName there stands
      exact cooperates.created there stands
  | worker index call =>
      intro owner sock fileName there
      exact cooperates _ (Option.mem_def.mpr there)
  | accept | header | event | act | hostMissing | brokenPipe => trivial

/-- One thread moves, and the signals change. -/
private theorem work_lt_of_moved {index : Nat} {thread moved : Thread}
    (there : process.threads[index]? = some thread)
    (threads : after.threads = process.threads.set index moved)
    (less : moved.work + 13 * after.signals < thread.work + 13 * process.signals) :
    after.work < process.work := by
  have sum := sum_map_set Thread.work moved there
  rw [work, work, threads]
  omega

/-- A semaphore changes its value. -/
private theorem signals_set {sem : Nat} {old : Option Nat} (new : Option Nat)
    (there : process.sems[sem]? = some old) :
    ((process.sems.set sem new).map fun sem => sem.getD 0).sum + old.getD 0 =
      process.signals + new.getD 0 :=
  sum_map_set (fun sem : Option Nat => sem.getD 0) new there

private theorem Looks.work_lt {thread moved : ResultThread}
    (looks : Looks config process thread .success moved) (own : thread.pc ≠ .receiving) :
    moved.pc.work < thread.pc.work := by
  cases looks with
  | replied stands =>
      rw [stands]
      dsimp only
      split <;> simp [ResultAt.work]
  | nonempty stands =>
      rw [stands]
      dsimp only
      split <;> simp [ResultAt.work]
  | bound stands | fetched stands | empty stands | filled stands | sent stands =>
      simp [stands, ResultAt.work]
  | received stands => exact absurd stands own
  | unsent stands failed => exact absurd rfl failed.2

private theorem Advances.work_lt {owner : Nat} {pc next : WorkerAt} {call : Call}
    (advances : Advances config process owner call pc next) : next.work < pc.work := by
  cases advances <;> simp [WorkerAt.work]

/-- Every step of the threads on their own leaves less to do. -/
theorem Moves.work_lt (moves : Moves config process label after) (own : process.Own label) :
    after.work < process.work := by
  cases moves with
  | accept | turnedAway | admitted | event => exact own.elim
  | quiet there next | register there next | submit there next | push there next
  | lookup there next | discard there next =>
      apply work_lt_of_moved there rfl
      simp [Thread.work, next, signals, setThread, Nat.mul_add]
  | @post index thread rest address value there next held live =>
      apply work_lt_of_moved there rfl
      have changed := signals_set (some (value + 1)) live
      simp only [Option.getD_some] at changed
      simp only [Thread.work, next, List.length_cons, signals] at changed ⊢
      omega
  | look there looks =>
      obtain ⟨rfl, running⟩ := own
      apply work_lt_of_moved there rfl
      have less := looks.work_lt (running _ there)
      simp only [Thread.work, signals, setThread]
      omega
  | start there stands =>
      apply work_lt_of_moved there rfl
      simp [Thread.work, stands, ResultAt.work, signals]
  | @wait index thread call value there stands live =>
      apply work_lt_of_moved there rfl
      have changed := signals_set (some value) live
      simp only [Option.getD_some] at changed
      simp only [Thread.work, stands, ResultAt.work, signals] at changed ⊢
      omega
  | eraseSem there stands | eraseQueue there stands | eraseUser there stands
  | deleteQueue there stands | grab there stands | finish there stands =>
      apply work_lt_of_moved there rfl
      simp [Thread.work, stands, ResultAt.work, signals]
  | deleteSem there stands live | stop there stands live =>
      apply work_lt_of_moved there rfl
      have changed := signals_set none live
      simp only [Option.getD_some, Option.getD_none] at changed
      simp only [Thread.work, stands, ResultAt.work, signals] at changed ⊢
      omega
  | take there stands =>
      apply work_lt_of_moved there rfl
      rcases stands with ⟨stands, rfl⟩ | ⟨stands, rfl⟩ <;>
        simp [Thread.work, stands, ResultAt.work, signals]
  | @spawn index thread fileName there stands =>
      have sum := sum_map_set Thread.work (.result { thread with pc := .waiting }) there
      simp only [Thread.work, stands, ResultAt.work] at sum
      simp only [work, signals, List.map_append, List.sum_append, List.map_cons, List.map_nil,
        List.sum_cons, List.sum_nil, Thread.work, WorkerAt.work]
      omega
  | spawnFailed => cases own.1
  | advance there advances =>
      apply work_lt_of_moved there rfl
      have less := advances.work_lt
      simp only [Thread.work, signals, setThread]
      omega
  | unwritten there failed => exact absurd own failed.2
  | finished there | released there =>
      apply work_lt_of_moved there rfl
      simp [Thread.work, WorkerAt.work, signals]

end Measure

/-! ## Rest -/

section Rest

variable {config : Config} {process : Process} {index : Nat}

/-- A thread that could move without anybody outside has moved. -/
structure Still (process : Process) : Prop where
  workers : ∀ child, .worker child ∈ process.threads → child.pc = .ended
  senders : ∀ thread, .transmit thread ∈ process.threads →
    thread.pending = [] ∨ (thread.semMatch = none ∧ process.semMap thread.user = none)
  receivers : ∀ thread, .result thread ∈ process.threads →
    thread.pc = .ended ∨ thread.pc = .receiving ∨
      (thread.pc = .waiting ∧ valueAt process.sems thread.sem = 0) ∨
      (thread.pc = .grabbing ∧ process.processSem = 0)

/-- Nobody holds a permit. -/
private theorem Still.processSem (still : process.Still) :
    process.processSem = process.permits := by
  have children : process.threads.countP Thread.liveChild = 0 := by
    rw [List.countP_eq_zero]
    intro thread member
    cases thread with
    | worker child => simp [Thread.liveChild, still.workers child member]
    | connection | closed | transmit | result => simp [Thread.liveChild]
  have holders : process.threads.countP Thread.holdsPermit = 0 := by
    rw [List.countP_eq_zero]
    intro thread member
    cases thread with
    | result thread =>
        rcases still.receivers thread member with at' | at' | ⟨at', -⟩ | ⟨at', -⟩ <;>
          simp [Thread.holdsPermit, at']
    | connection | closed | transmit | worker => simp [Thread.holdsPermit]
  rw [permits, children, holders]
  rfl

/-- A receiver that waits without a signal has taken every name. -/
private theorem Still.served (still : process.Still) (intact : process.Intact)
    {thread : ResultThread} (member : .result thread ∈ process.threads)
    (stands : thread.pc = .waiting) (asleep : valueAt process.sems thread.sem = 0) :
    process.Served thread.user := by
  obtain ⟨index, there⟩ := List.mem_iff_getElem?.mp member
  have here : (process.visit thread.user).receiver = some thread :=
    intact.apart.receiver there (by rw [stands]; rfl)
  have tidy := intact.tidy thread.user
  have receiver := tidy.receiver thread here
  have started : thread.pc ≠ .starting := by
    rw [stands]
    exact nofun
  have ledger := receiver.ledger started
  intro queue entry
  obtain ⟨names, live⟩ := tidy.queueAlive queue entry
  have length : lengthAt process.queues (some queue) = names.length := by
    simp [lengthAt, show process.queues[queue]? = some (some names) from live]
  have awake : thread.pc.awake = 0 := by
    rw [stands]
    rfl
  have value : valueAt (process.visit thread.user).sems thread.sem = 0 := asleep
  have none' : names.length = 0 := by
    cases shown : (process.visit thread.user).sender with
    | none =>
        -- after the sender one more signal than names is left
        have balance := ledger.gone shown queue (.inr entry)
        rw [value, awake] at balance
        omega
    | some sender =>
        obtain ⟨isThread, owner, -⟩ := sender_of_visit shown
        have sends := tidy.sender sender shown
        have known : process.semMap thread.user = some thread.sem :=
          receiver.semEntry started (by rw [stands]; rfl)
        have idle : sender.pending = [] := by
          refine (still.senders sender isThread).resolve_right fun blocked => ?_
          rw [owner, known] at blocked
          cases blocked.2
        have balance := ledger.present sender shown
        have queue' : sender.queue = some queue := sends.entry.symm.trans entry
        have posts : sender.posts = 0 := by rw [TransmitThread.posts, idle]; rfl
        have same : lengthAt (process.visit thread.user).queues sender.queue = names.length := by
          rw [queue']
          exact length
        rw [value, awake, posts, same] at balance
        omega
  rw [List.length_eq_zero_iff.mp none'] at live
  exact live

/-- Every thread is at rest and every permit is back. -/
private theorem Still.resting (still : process.Still) (intact : process.Intact)
    (permits : 0 < process.permits) :
    ∀ thread ∈ process.threads, process.Resting thread := by
  intro thread member
  cases thread with
  | connection | closed => trivial
  | worker child => exact still.workers child member
  | transmit thread => exact still.senders thread member
  | result thread =>
      rcases still.receivers thread member with ended | storm | ⟨waits, asleep⟩ | ⟨-, none'⟩
      · exact .inl ended
      · exact .inr (.inl storm)
      · exact .inr (.inr ⟨waits, still.served intact member waits asleep⟩)
      · rw [still.processSem] at none'
        omega

end Rest

/-! ## Results -/

/-- What the process is known to be in a run of cooperating clients that lose no
permit. -/
structure Kept (config : Config) (process : Process) : Prop where
  intact : process.Intact
  sound : process.fault = none
  permits : process.permits = config.parallelism

theorem kept_of_reaches {config : Config} {process : Process} (served : config.mode ≠ .mf)
    (reached : (processMachine config).ReachesUnder (Cooperates config) (init config) process) :
    process.Kept config := by
  obtain ⟨intact, sound⟩ := intact_of_reaches served reached
  refine ⟨intact, sound, ?_⟩
  apply reached.invariant (permits_init config)
  intro state after label before cooperates step
  obtain ⟨-, moves | ⟨fault, -, rfl⟩⟩ := moves_of_next step
  · rcases moves.permits with ⟨-, same⟩ | ⟨violated, -⟩
    · exact same.trans before
    · exact absurd cooperates.keepsPermit violated
  · exact before

private theorem decreasing {config : Config} (served : config.mode ≠ .mf) :
    Decreasing (processMachine config).transition (Internal config)
      (fun process => (processMachine config).ReachesUnder (Cooperates config) (init config) process)
      work where
  preserved reached internal step := reached.tail internal.2 step
  decreases reached internal step := by
    have kept := kept_of_reaches served reached
    obtain ⟨-, moves | ⟨fault, faulted, -⟩⟩ := moves_of_next step
    · exact moves.work_lt internal.1
    · exact absurd faulted (kept.intact.faultless served internal.2)

end Process

end PaintingCPS
