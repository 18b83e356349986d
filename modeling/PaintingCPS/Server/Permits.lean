import PaintingCPS.Foundation.Pool
import PaintingCPS.Server.Moves

/-!
Contract: the permits of `process_sem`.

A permit is taken by `server_result` and given back at the very end of the
`result_child` that it was taken for. It is with the semaphore, with a
`server_result` that has not created its child yet, or with a live child.

Owns: the balance of permits, for every run, and the exact steps that lose one.

Does not own: the images that the permits are for.
-/

set_option autoImplicit false

namespace PaintingCPS

open Foundation

/-- A `result_child` that has not ended. -/
def Thread.liveChild : Thread → Bool
  | .worker child => child.pc != .ended
  | _ => false

/-- A `server_result` that has taken a permit and not yet created a child. -/
def Thread.holdsPermit : Thread → Bool
  | .result thread =>
      match thread.pc with
      | .permitted | .popped _ | .filled _ => true
      | _ => false
  | _ => false

/-- A `result_child` that is matching its image. -/
def Thread.matching : Thread → Bool
  | .worker ⟨_, .matching _ _⟩ => true
  | _ => false

namespace Process

/-- All permits there are. -/
def permits (process : Process) : Nat :=
  process.processSem + process.threads.countP Thread.liveChild +
    process.threads.countP Thread.holdsPermit

/-- In TCP mode the result of a child is written, and a child that is due is
created. -/
def KeepsPermit (config : Config) (process : Process) : ProcessStep → Prop
  | .worker index call => ∀ owner sock fileName,
      process.threads[index]? = some (.worker ⟨owner, .matching sock fileName⟩) →
      config.mode = .tcp → call = .success
  | .result index call => ∀ thread fileName,
      process.threads[index]? = some (.result thread) → thread.pc = .filled fileName →
      call = .success
  | _ => True

section Balance

variable {config : Config} {process after : Process} {label : ProcessStep}

/-- What a thread has of the permits. -/
private def permitShare (thread : Thread) : Nat :=
  (if thread.liveChild then 1 else 0) + (if thread.holdsPermit then 1 else 0)

/-- When one thread moves, the permits change with its share and the semaphore. -/
private theorem permits_moved {index : Nat} {thread moved : Thread}
    (there : process.threads[index]? = some thread)
    (threads : after.threads = process.threads.set index moved) :
    after.permits + (process.processSem + permitShare thread) =
      process.permits + (after.processSem + permitShare moved) := by
  have children := countP_set_there Thread.liveChild moved there
  have holders := countP_set_there Thread.holdsPermit moved there
  simp only [Process.permits, permitShare, threads]
  omega

/-- The semaphore gives what the thread gets. -/
private theorem permits_kept {index : Nat} {thread moved : Thread}
    (there : process.threads[index]? = some thread)
    (threads : after.threads = process.threads.set index moved)
    (balance : process.processSem + permitShare thread = after.processSem + permitShare moved) :
    after.permits = process.permits := by
  have moves := permits_moved there threads
  omega

/-- The thread gives up its share, and nobody gets it. -/
private theorem permits_lost {index : Nat} {thread moved : Thread}
    (there : process.threads[index]? = some thread)
    (threads : after.threads = process.threads.set index moved)
    (balance : process.processSem + permitShare thread =
      after.processSem + permitShare moved + 1) :
    after.permits + 1 = process.permits := by
  have moves := permits_moved there threads
  omega

/-- A step of `server_result` alone keeps its permit. -/
private theorem Looks.share {thread moved : ResultThread} {call : Call}
    (looks : Looks config process thread call moved) :
    permitShare (.result moved) = permitShare (.result thread) := by
  cases looks with
  | replied stands _ =>
      cases storm : config.storm <;>
        simp [permitShare, Thread.liveChild, Thread.holdsPermit, stands]
  | bound stands =>
      by_cases success : call = .success <;>
        simp [permitShare, Thread.liveChild, Thread.holdsPermit, stands, success]
  | nonempty stands _ _ =>
      cases storm : config.storm <;>
        simp [permitShare, Thread.liveChild, Thread.holdsPermit, stands]
  | received stands target =>
      rcases target with rfl | rfl <;>
        simp [permitShare, Thread.liveChild, Thread.holdsPermit, stands]
  | fetched stands _ | empty stands _ _ | filled stands | sent stands _ | unsent stands _ =>
      simp [permitShare, Thread.liveChild, Thread.holdsPermit, stands]

/-- The condition is about a thread that is due to create a child. -/
private theorem keepsPermit_result {index : Nat} {thread : ResultThread} {call : Call}
    (there : process.threads[index]? = some (.result thread))
    (elsewhere : ∀ fileName, thread.pc ≠ .filled fileName) :
    KeepsPermit config process (.result index call) := by
  intro other fileName otherThere stands
  rw [there, Option.some.injEq, Thread.result.injEq] at otherThere
  subst otherThere
  exact absurd stands (elsewhere fileName)

/-- The condition is about a child that is due to write its result. -/
private theorem keepsPermit_worker {index : Nat} {child : Worker} {call : Call}
    (there : process.threads[index]? = some (.worker child))
    (elsewhere : ∀ sock fileName, child.pc = .matching sock fileName → config.mode = .tcp →
      call = .success) :
    KeepsPermit config process (.worker index call) := by
  intro owner sock fileName otherThere
  rw [there, Option.some.injEq, Thread.worker.injEq] at otherThere
  subst otherThere
  exact elsewhere sock fileName rfl

/-- A step of `server_result` that is not the creation of a child. -/
private theorem keeps_result {index : Nat} {thread moved : ResultThread} {call : Call}
    (there : process.threads[index]? = some (.result thread))
    (elsewhere : ∀ fileName, thread.pc ≠ .filled fileName)
    (threads : after.threads = process.threads.set index (.result moved))
    (balance : process.processSem + permitShare (.result thread) =
      after.processSem + permitShare (.result moved)) :
    (KeepsPermit config process (.result index call) ∧ after.permits = process.permits) ∨
    (¬ KeepsPermit config process (.result index call) ∧
      after.permits + 1 = process.permits) := by
  exact .inl ⟨keepsPermit_result there elsewhere, permits_kept there threads balance⟩

/-- A step keeps the permits, or it violates the condition and loses one. -/
theorem Moves.permits (moves : Moves config process label after) :
    (KeepsPermit config process label ∧ after.permits = process.permits) ∨
    (¬ KeepsPermit config process label ∧ after.permits + 1 = process.permits) := by
  cases moves with
  | accept sock =>
      refine .inl ⟨trivial, ?_⟩
      simp [Process.permits, List.countP_append, Thread.liveChild, Thread.holdsPermit]
  | turnedAway there => exact .inl ⟨trivial, permits_kept there rfl rfl⟩
  | @admitted index sock bytes command userID granted there parsed login =>
      have noShare : permitShare (.connection sock) = permitShare (entry userID sock command) := by
        cases command <;> rfl
      rcases login_cases login with ⟨-, rfl⟩ | ⟨-, rfl⟩ <;>
        exact .inl ⟨trivial, permits_kept there rfl (by rw [noShare]; rfl)⟩
  | event there _ _ => exact .inl ⟨trivial, permits_kept there rfl rfl⟩
  | quiet there _ _ => exact .inl ⟨trivial, permits_kept there rfl rfl⟩
  | register there _ => exact .inl ⟨trivial, permits_kept there rfl rfl⟩
  | submit there _ => exact .inl ⟨trivial, permits_kept there rfl rfl⟩
  | push there _ _ _ => exact .inl ⟨trivial, permits_kept there rfl rfl⟩
  | lookup there _ _ _ => exact .inl ⟨trivial, permits_kept there rfl rfl⟩
  | post there _ _ _ => exact .inl ⟨trivial, permits_kept there rfl rfl⟩
  | discard there _ _ _ => exact .inl ⟨trivial, permits_kept there rfl rfl⟩
  | @look index thread moved call there looks =>
      have elsewhere : ∀ fileName, thread.pc ≠ .filled fileName := by
        intro fileName stands
        cases looks <;> simp_all
      refine keeps_result there elsewhere rfl ?_
      rw [looks.share]
      rfl
  | start there stands | wait there stands _ | eraseSem there stands | eraseQueue there stands
  | eraseUser there stands | deleteSem there stands _ | deleteQueue there stands _ _
  | finish there stands | stop there stands _ =>
      refine keeps_result there (by simp [stands]) rfl ?_
      simp [permitShare, stands, Thread.liveChild, Thread.holdsPermit]
  | grab there stands permit =>
      exact keeps_result there (by simp [stands]) rfl (by simp [permitShare, stands, permit,
        Thread.liveChild, Thread.holdsPermit])
  | take there stands _ _ =>
      rcases stands with ⟨stands, rfl⟩ | ⟨stands, rfl⟩ <;>
        exact keeps_result there (by simp [stands]) rfl (by simp [permitShare, stands,
          Thread.liveChild, Thread.holdsPermit])
  | @spawn index thread fileName there stands =>
      refine .inl ⟨fun _ _ _ _ => rfl, ?_⟩
      have children := countP_set_there Thread.liveChild
        (.result { thread with pc := .waiting }) there
      have holders := countP_set_there Thread.holdsPermit
        (.result { thread with pc := .waiting }) there
      simp [Thread.liveChild, Thread.holdsPermit, stands] at children holders
      simp [Process.permits, List.countP_append, Thread.liveChild, Thread.holdsPermit]
      omega
  | @spawnFailed index thread fileName code there stands =>
      have violated : ¬ KeepsPermit config process (.result index (.failure code)) := by
        intro keeps
        cases keeps thread fileName there stands
      refine .inr ⟨violated, permits_lost there rfl ?_⟩
      by_cases failed : code = -1 <;>
        simp [permitShare, setThread, stands, failed, Thread.liveChild, Thread.holdsPermit]
  | advance there advances =>
      cases advances with
      | sock read =>
          exact .inl ⟨keepsPermit_worker there nofun, permits_kept there rfl rfl⟩
      | name sock read =>
          exact .inl ⟨keepsPermit_worker there nofun, permits_kept there rfl rfl⟩
      | reply sock fileName written =>
          exact .inl ⟨keepsPermit_worker there fun _ _ _ tcp => written tcp,
            permits_kept there rfl rfl⟩
  | @unwritten index owner sock fileName call there failed =>
      have violated : ¬ KeepsPermit config process (.worker index call) := by
        intro keeps
        exact failed.2 (keeps owner sock fileName there failed.1)
      exact .inr ⟨violated, permits_lost there rfl rfl⟩
  | finished there =>
      exact .inl ⟨keepsPermit_worker there nofun, permits_kept there rfl rfl⟩
  | released there =>
      exact .inl ⟨keepsPermit_worker there nofun, permits_kept there rfl rfl⟩

/-- A step that violates the condition is not the end of the process. -/
private theorem moves_of_violation (violated : ¬ KeepsPermit config process label)
    (step : (processMachine config).next process label = some after) :
    Moves config process label after := by
  obtain ⟨-, moves | ⟨fault, stepped, -⟩⟩ := moves_of_next step
  · exact moves
  refine absurd ?_ violated
  cases label with
  | result index call =>
      intro thread fileName there stands
      simp only [Process.step, Process.result, there, look, stands, share] at stepped
      cases call with
      | success => rfl
      | failure code => cases stepped
      | unreadable => cases stepped
  | worker index call =>
      intro owner sock fileName there
      simp only [Process.step, Process.worker, there] at stepped
      cases stepped
  | accept | header | event | act | hostMissing | brokenPipe => trivial

/-- No step adds a permit. -/
private theorem permits_antitone
    (step : (processMachine config).next process label = some after) :
    after.permits ≤ process.permits := by
  obtain ⟨-, moves | ⟨fault, -, rfl⟩⟩ := moves_of_next step
  · rcases moves.permits with ⟨-, same⟩ | ⟨-, lost⟩
    · exact Nat.le_of_eq same
    · omega
  · exact Nat.le_refl _

private theorem permits_le_of_reaches {later : Process}
    (reached : (processMachine config).Reaches process later) :
    later.permits ≤ process.permits :=
  reached.invariant (Nat.le_refl _) fun bound _ step => (permits_antitone step).trans bound

end Balance

theorem permits_init (config : Config) :
    (Process.init config).permits = config.parallelism := by
  by_cases mf : config.mode = .mf <;>
    simp [Process.permits, Process.init, mf, Thread.liveChild, Thread.holdsPermit,
      ResultThread.init]

/-- A child that matches is alive. -/
private theorem matching_le_permits (process : Process) :
    process.threads.countP Thread.matching ≤ process.permits := by
  have alive : process.threads.countP Thread.matching ≤
      process.threads.countP Thread.liveChild := by
    apply List.countP_mono_left
    intro thread _ matching
    cases thread with
    | worker child =>
        obtain ⟨owner, pc⟩ := child
        cases pc <;> first | rfl | cases matching
    | connection | closed | transmit | result => cases matching
  rw [Process.permits]
  omega

end Process

/-- As long as every child writes its result and every child that is due is
created, no permit is lost and at most `parallelism` images are matched at once.
The first step that violates this loses a permit for ever. -/
theorem permits_conserved (config : Config) {state : Process}
    (reached : (processMachine config).ReachesUnder (Process.KeepsPermit config)
      (.init config) state) :
    state.permits = config.parallelism ∧
    state.threads.countP Thread.matching ≤ config.parallelism ∧
    ∀ label after later, ¬ state.KeepsPermit config label →
      (processMachine config).next state label = some after →
      (processMachine config).Reaches after later → later.permits < config.parallelism := by
  have balance : state.permits = config.parallelism := by
    induction reached with
    | refl => exact Process.permits_init config
    | tail _ keeps step inductionHypothesis =>
        obtain ⟨-, moves | ⟨fault, -, rfl⟩⟩ := Process.moves_of_next step
        · rcases moves.permits with ⟨-, same⟩ | ⟨violated, -⟩
          · rw [same, inductionHypothesis]
          · exact absurd keeps violated
        · exact inductionHypothesis
  refine ⟨balance, balance ▸ state.matching_le_permits, ?_⟩
  intro label after later violated step run
  have never := Process.permits_le_of_reaches run
  rcases (Process.moves_of_violation violated step).permits with ⟨keeps, -⟩ | ⟨-, lost⟩
  · exact absurd keeps violated
  · omega

/-! ## One upload -/

/-- No call fails in the step. -/
def ProcessStep.succeeds : ProcessStep → Bool
  | .header _ bytes => bytes.isSome
  | .event _ _ (.wrote success) | .event _ _ (.opened success) => success
  | .event _ _ .failed | .hostMissing _ | .brokenPipe .. => false
  | .result _ call | .worker _ call => call == .success
  | _ => true

/-- Both connections of a TCP client, and one image up to its submission. -/
def uploadOne : List ProcessStep :=
  let waitFor := ProcessStep.event 0 fun _ => 0
  [.accept 4, .header 0 (some (ascii "transmit,user")), .act 0, waitFor (.wrote true), .act 0,
    .accept 5, .header 1 (some (ascii "result,user")), .result 1 .success, .result 1 .success,
    waitFor (.received (ascii "a.jpg,3")), waitFor (.wrote true), .act 0,
    waitFor (.received [255, 216, 255]), .act 0, .act 0]

/-- The image goes on to its child. -/
def handOverOne : List ProcessStep :=
  .event 0 (fun _ => 0) (.opened true) :: List.replicate 4 (.act 0) ++
    List.replicate 7 (.result 1 .success) ++ List.replicate 2 (.worker 2 .success)

/-- A disk server that matches one image at a time. -/
def onePermit : Config := ⟨.tcp, .disk, 1⟩

/-- The permit comes back with the end of the child. -/
theorem permits_conserved_upload :
    ∃ finish : Process, finish.permits = 1 ∧ finish.processSem = 1 ∧
      finish.requestFinished = 1 := by
  obtain ⟨finish, reached, holds⟩ := Machine.exists_of_run
    (show (((processMachine onePermit).run (fun _ label => label.succeeds = true) (.init onePermit)
      (uploadOne ++ handOverOne ++ List.replicate 3 (.worker 2 .success))).map fun finish =>
        decide (finish.processSem = 1 ∧ finish.requestFinished = 1)) = some true
      by decide +kernel)
  have keeps : (processMachine onePermit).ReachesUnder (Process.KeepsPermit onePermit)
      (.init onePermit) finish := by
    refine reached.mono fun process label succeeds => ?_
    cases label with
    | result => exact fun _ _ _ _ => eq_of_beq succeeds
    | worker => exact fun _ _ _ _ _ => eq_of_beq succeeds
    | accept | header | event | act | hostMissing | brokenPipe => trivial
  obtain ⟨semaphore, counted⟩ := of_decide_eq_true holds
  exact ⟨finish, (permits_conserved onePermit keeps).1, semaphore, counted⟩

/-- A client that resets its connection early takes the only permit with it. -/
theorem permit_lost_unwritten :
    ¬ ∀ (config : Config) (finish : Process), 1 ≤ config.parallelism →
      (processMachine config).Reaches (.init config) finish →
      finish.permits = config.parallelism := by
  intro conserved
  obtain ⟨finish, reached, holds⟩ := Machine.exists_of_run
    (show (((processMachine onePermit).run (fun _ _ => True) (.init onePermit)
      (uploadOne ++ handOverOne ++ [.worker 2 (.failure (-1))])).map fun finish =>
        decide (finish.permits = 0)) = some true
      by decide +kernel)
  have kept := conserved onePermit finish (Nat.le_refl 1) reached
  rw [of_decide_eq_true holds] at kept
  cases kept

end PaintingCPS
