import PaintingCPS.JClient.Pending

/-!
Contract: the hand-over of a result from `ResultThread` to `getResult`.

Each step of a thread alone brings the result that is under way nearer to the
call that waits for it. With two images under way `offer` and `poll` meet.

Owns: what the calls return, and that they do.

Does not own: where the result is in between.
-/

set_option autoImplicit false

namespace PaintingCPS

open Foundation

namespace ResultQueue

section Delivery

variable {queue after : ResultQueue} {pending : Option Answer} {index : Nat}

private theorem enter_eq {moved : ResultQueue} (apart : (queue.enter moved).overlapped = false) :
    queue.enter moved = moved := by
  unfold enter at apart ⊢
  split at apart
  next => cases apart
  next unused => exact if_neg unused

/-- A call that moves has fewer steps left. -/
private theorem weight_set {pc moved : GetResultPc} (there : queue.calls[index]? = some pc)
    (less : moved.weight < pc.weight) :
    ((queue.calls.set index moved).map GetResultPc.weight).sum <
      (queue.calls.map GetResultPc.weight).sum := by
  have changed := sum_map_set GetResultPc.weight moved there
  omega

/-- A step of a thread brings the end nearer. -/
private def Nearer (queue after : ResultQueue) : Prop :=
  after.answers = queue.answers ∧ after.exited = queue.exited ∧
    after.globalStop = queue.globalStop ∧ after.effort < queue.effort

private theorem threadStep_nearer (stepped : queue.threadStep true = some after)
    (apart : after.overlapped = false) : queue.Nearer after := by
  unfold ResultQueue.threadStep at stepped
  split at stepped
  next at' =>
    cases stepped
    have light : (if queue.globalStop then .ended else .receive : ResultThreadPc).weight = 0 := by
      split <;> rfl
    refine ⟨rfl, rfl, rfl, ?_⟩
    simp only [effort, light, at']
    rw [show ResultThreadPc.loop.weight = 1 from rfl]
    omega
  next at' =>
    rw [if_pos rfl] at stepped
    split at stepped
    next => cases stepped
    next message rest waiting =>
      cases stepped
      refine ⟨rfl, rfl, rfl, ?_⟩
      simp only [effort, at', waiting, List.length_cons]
      -- a message is worth five steps, and the way back to `receive` takes four
      split
      next =>
        simp only [ResultThreadPc.weight]
        omega
      next =>
        simp only [ResultThreadPc.weight]
        omega
  next result at' =>
    cases stepped
    rw [enter_eq apart]
    refine ⟨rfl, rfl, rfl, ?_⟩
    simp only [effort, at', ResultThreadPc.weight]
    omega
  next result at' =>
    cases stepped
    refine ⟨rfl, rfl, rfl, ?_⟩
    simp only [effort, at', ResultThreadPc.weight]
    omega
  next at' =>
    cases stepped
    refine ⟨rfl, rfl, rfl, ?_⟩
    simp only [effort, at', ResultThreadPc.weight]
    omega
  next => cases stepped

private theorem callStep_nearer (stepped : queue.callStep index = some after)
    (apart : after.overlapped = false) : queue.Nearer after := by
  obtain ⟨pc, there, moved⟩ := Option.bind_eq_some_iff.mp stepped
  have lighter : ∀ next : GetResultPc, next.weight < pc.weight →
      5 * queue.messages.length + queue.thread.weight +
        ((queue.calls.set index next).map GetResultPc.weight).sum < queue.effort :=
    fun next less => Nat.add_lt_add_left (weight_set there less) _
  cases pc with
  | entry =>
      dsimp only at moved
      split at moved
      next => cases moved
      next =>
        cases moved
        exact ⟨rfl, rfl, rfl, lighter _ (by decide)⟩
  | acquired =>
      cases moved
      rw [enter_eq apart]
      exact ⟨rfl, rfl, rfl, lighter _ (by decide)⟩
  | polling =>
      cases moved
      exact ⟨rfl, rfl, rfl, lighter _ Nat.zero_lt_one⟩
  | returned => cases moved

/-- An own step of a machine in order keeps it so and brings the end nearer. -/
private theorem Tracks.own (tracks : queue.Tracks pending) {label : ResultQueueStep}
    (own : label.Own) (step : resultQueueMachine.next queue label = some after) :
    (∃ pending, after.Tracks pending) ∧ queue.Nearer after := by
  have turn : queue.OneByOne label := by
    cases label with
    | request => exact own.elim
    | answer | thread | call | stop => trivial
  obtain ⟨later, next⟩ := tracks.step turn step
  refine ⟨⟨later, next⟩, ?_⟩
  simp only [resultQueueMachine] at step
  split at step
  next => cases step
  next =>
    cases label with
    | request | answer | stop => exact own.elim
    | thread answered =>
        obtain rfl : answered = true := own
        exact threadStep_nearer step next.apart
    | call index => exact callStep_nearer step next.apart

private theorem decreasing : Decreasing resultQueueMachine.transition (fun _ label => label.Own)
    (fun queue => ∃ pending, queue.Tracks pending) effort where
  preserved := by
    rintro queue after label ⟨pending, tracks⟩ own step
    exact (tracks.own own step).1
  decreases := by
    rintro queue after label ⟨pending, tracks⟩ own step
    exact (tracks.own own step).2.2.2.2

/-- While a result waits for a call, the threads can go on. -/
private theorem Tracks.progress {answer : Answer} (tracks : queue.Tracks (some answer))
    (live : queue.exited = false) (going : queue.globalStop = false)
    {pc : GetResultPc} (there : queue.calls[index]? = some pc)
    (waits : ∀ result, pc ≠ .returned result) :
    ∃ label, ResultQueueStep.Own label ∧ (resultQueueMachine.next queue label).isSome := by
  have up : ¬ (queue.overlapped = true ∨ queue.exited = true) := by
    simp [tracks.apart, live]
  have threadRuns : resultQueueMachine.next queue (.thread true) = queue.threadStep true :=
    if_neg up
  have callRuns (place : Nat) :
      resultQueueMachine.next queue (.call place) = queue.callStep place :=
    if_neg up
  have calls : ∀ {place : Nat} {its : GetResultPc}, queue.calls[place]? = some its →
      (its.busy = true ∨ its = .entry ∧ queue.resultSem ≠ 0) →
      ∃ label, ResultQueueStep.Own label ∧ (resultQueueMachine.next queue label).isSome := by
    intro place its found able
    refine ⟨.call place, trivial, ?_⟩
    rw [callRuns]
    cases its with
    | entry =>
        have permit := (able.resolve_left (by simp [GetResultPc.busy])).2
        simp [ResultQueue.callStep, found, permit]
    | acquired | polling => simp [ResultQueue.callStep, found]
    | returned result => simp [GetResultPc.busy] at able
  cases tracks.holds with
  | sent _ junk message free one =>
      refine ⟨.thread true, rfl, ?_⟩
      rw [threadRuns]
      cases at' : queue.thread with
      | loop => simp [ResultQueue.threadStep, at']
      | receive => simp [ResultQueue.threadStep, at', one]
      | ended =>
          have stopped := tracks.running at'
          rw [going] at stopped
          cases stopped
      | offer | offering | release =>
          rw [at'] at free
          cases free
  | received _ thread =>
      refine ⟨.thread true, rfl, ?_⟩
      rw [threadRuns]
      rcases thread with at' | at' <;> simp [ResultQueue.threadStep, at']
  | offered _ thread =>
      refine ⟨.thread true, rfl, ?_⟩
      rw [threadRuns]
      simp [ResultQueue.threadStep, thread]
  | released _ _ _ _ permit idle =>
      apply calls there
      have isIdle := idle pc (List.mem_of_getElem? there)
      cases pc with
      | entry => exact .inr ⟨rfl, by rw [permit]; decide⟩
      | acquired | polling => cases isIdle
      | returned result => exact absurd rfl (waits result)
  | taken _ place _ _ _ _ at' =>
      rcases at' with found | found <;> exact calls found (.inl rfl)

theorem Tracks.fetches (tracks : queue.Tracks pending) : queue.Fetches := by
  refine ⟨fun steps finish run => ?_, decreasing.exists_exhausted ⟨pending, tracks⟩, ?_⟩
  · have bounded := decreasing.bounded ⟨pending, tracks⟩ run
    omega
  · intro live going finish further exhausted
    have kept : (∃ pending, finish.Tracks pending) ∧ finish.answers = queue.answers ∧
        finish.exited = false ∧ finish.globalStop = false := by
      apply further.invariant ⟨⟨pending, tracks⟩, rfl, live, going⟩
      rintro before after label ⟨⟨_, tracks⟩, same, running, going⟩ own step
      obtain ⟨next, kept, exits, stops, -⟩ := tracks.own own step
      exact ⟨next, kept.trans same, exits.trans running, stops.trans going⟩
    obtain ⟨⟨last, finishTracks⟩, answers, stillLive, stillGoing⟩ := kept
    refine ⟨answers, ?_⟩
    have counted := finishTracks.polled_length
    rw [← answers]
    cases last with
    | none => exact .inl counted.symm
    | some answer =>
        refine .inr fun pc member => ?_
        by_contra waits
        obtain ⟨index, there⟩ := List.mem_iff_getElem?.mp member
        obtain ⟨label, own, moved⟩ := finishTracks.progress stillLive stillGoing there
          fun result at' => waits ⟨result, at'⟩
        obtain ⟨after, step⟩ := Option.isSome_iff_exists.mp moved
        exact exhausted label after own step

end Delivery

end ResultQueue

/-- A client that sends its images one by one gets the results from `getResult`
in the order of the server, with any number of threads that call it. No two
threads are ever inside methods of the queue, and no call waits while a result
is there. -/
theorem getResult_in_order {calls : Nat} {queue : ResultQueue}
    (reached : resultQueueMachine.ReachesUnder (fun queue label => queue.OneByOne label)
      (.init calls) queue) : queue.InOrder ∧ queue.Fetches := by
  obtain ⟨pending, tracks⟩ : ∃ pending, queue.Tracks pending := by
    apply reached.invariant ⟨none, ResultQueue.init_tracks calls⟩
    rintro before after label ⟨_, tracks⟩ turn step
    exact tracks.step turn step
  exact ⟨tracks.inOrder, tracks.fetches⟩

/-- `ResultThread` processes one result. -/
def ResultQueueStep.delivers : List ResultQueueStep := List.replicate 5 (.thread true)

/-- Two calls get the results of two images. -/
theorem getResult_in_order_two : ∃ queue : ResultQueue,
    queue.polled = [(1, some (ascii "t,p,y")), (0, some (ascii "none"))] ∧
      queue.InOrder ∧ queue.Fetches := by
  obtain ⟨queue, reached, polled⟩ := Machine.exists_of_run
    (show ((resultQueueMachine.run (fun queue label => queue.OneByOne label) (.init 2)
      ([.request, .answer (.found .resultChild shortLine 7) (fun _ => 44)] ++
        ResultQueueStep.delivers ++ List.replicate 3 (.call 1) ++
        [.request, .answer .none (fun _ => 44)] ++ ResultQueueStep.delivers ++
        List.replicate 3 (.call 0))).map fun queue =>
          decide (queue.polled =
            [(1, some (ascii "t,p,y")), (0, some (ascii "none"))])) = some true by
      decide +kernel)
  exact ⟨queue, of_decide_eq_true polled, getResult_in_order reached⟩

/-- With two images under way the thread is inside `offer` when a call enters
`poll`. -/
theorem getResult_overlaps : ∃ queue : ResultQueue,
    resultQueueMachine.Reaches (.init 1) queue ∧ queue.overlapped = true :=
  Machine.exists_of_run
    (show ((resultQueueMachine.run (fun _ _ => True) (.init 1)
      ([.request, .request, .answer .none (fun _ => 44), .answer .none (fun _ => 44)] ++
        ResultQueueStep.delivers ++ List.replicate 3 (.thread true) ++
        List.replicate 2 (.call 0))).map ResultQueue.overlapped) = some true by
      decide +kernel)

end PaintingCPS
