import Mathlib.Algebra.Order.Field.Rat
import Mathlib.Tactic.NormNum
import PaintingCPS.Server.Emission
import PaintingCPS.Server.Permits

/-!
Contract: the load that `Metrics` publishes.

An image is under way from `submit_request` until `finish_request`: with its
`server_transmit`, in a queue, with a `server_result`, or with a `result_child`.
The counters and the images under way sit in different threads, so they are
compared as sums over all threads and queues.

Owns: the balance of the counters, for every run, and the steps that abandon
an image without counting it as finished.

Does not own: the order of the images, and the rounding of `double`.
-/

set_option autoImplicit false

namespace PaintingCPS

open Foundation

/-! ## `Metrics` -/

namespace Process

variable (process : Process)

/-- `get_num_ongoing` -/
def getNumOngoing : Int := process.requestSubmitted - process.requestFinished

/-- `max_num_of_requests` -/
def maxNumOfRequests : Rat := 100

/-- `get_metrics` -/
def getMetrics : Rat :=
  if process.requestSubmitted = 0 then 0
  else if maxNumOfRequests ≤ process.getNumOngoing then 1
  else process.getNumOngoing / maxNumOfRequests

end Process

/-! ## Images under way -/

/-- An image that is submitted and not yet pushed. -/
def TransmitThread.carries (thread : TransmitThread) : Nat :=
  thread.pending.countP Action.isPush +
    if thread.state.pc.isSubmitting then 1 - thread.pending.count .submit else 0

/-- An image that is taken from the queue, and not yet finished or given to a
child. -/
def ResultAt.carries : ResultAt → Nat
  | .popped _ | .filled _ | .receiving | .sending | .finishing => 1
  | _ => 0

def WorkerAt.carries : WorkerAt → Nat
  | .finished | .ended => 0
  | _ => 1

def Thread.carries : Thread → Nat
  | .transmit thread => thread.carries
  | .result thread => thread.pc.carries
  | .worker child => child.pc.carries
  | _ => 0

/-- `submit_request` is due once at most, and only while an image is complete. -/
def Thread.CountsOnce : Thread → Prop
  | .transmit thread =>
      thread.pending.count .submit ≤ if thread.state.pc.isSubmitting then 1 else 0
  | _ => True

namespace Process

/-- The images in a queue; none when it was deleted. -/
def waitingIn : Option (List (List Byte)) → Nat
  | some names => names.length
  | none => 0

def queued (process : Process) : Nat := (process.queues.map waitingIn).sum

/-- The images that are submitted and neither finished nor abandoned. -/
def underWay (process : Process) : Nat :=
  (process.threads.map Thread.carries).sum + process.queued

/-- The result thread gives up an image, or the rest of its queue. -/
def LeavesImage (config : Config) (process : Process) (thread : ResultThread) (call : Call) :
    Prop :=
  match thread.pc with
  | .filled _ => call ≠ .success
  | .sending => config.mode = .tcp ∧ call ≠ .success
  | .deletingQueue => ∃ names, process.liveQueue thread.queue = .ok names ∧ names ≠ []
  | _ => False

/-- The steps after which an image is neither finished nor under way: its file
or the spout cannot be opened, its child cannot be created, its result cannot
be written in TCP mode, or its queue is deleted. -/
def Abandons (config : Config) (process : Process) : ProcessStep → Prop
  | .event index _ (.opened false) => ∃ thread,
      process.threads[index]? = some (.transmit thread) ∧
      thread.state.pc.isSubmitting = true ∧ config.backend ≠ .kafka
  | .act index => ∃ thread rest names,
      process.threads[index]? = some (.transmit thread) ∧ thread.pending = .deleteQueue :: rest ∧
      process.liveQueue thread.queue = .ok names ∧ names ≠ []
  | .result index call => ∃ thread,
      process.threads[index]? = some (.result thread) ∧ LeavesImage config process thread call
  | .worker index call => ∃ owner sock fileName,
      process.threads[index]? = some (.worker ⟨owner, .matching sock fileName⟩) ∧
      config.mode = .tcp ∧ call ≠ .success
  | _ => False

/-- What is counted as ongoing and not under way any more. -/
def drift (process : Process) : Int := process.getNumOngoing - process.underWay

section Balance

variable {config : Config} {process after : Process} {label : ProcessStep}

/-- When one thread moves, the drift changes with the counters, the queues and
what the thread carries. -/
private theorem drift_moved {index : Nat} {thread moved : Thread}
    (there : process.threads[index]? = some thread)
    (threads : after.threads = process.threads.set index moved) :
    after.drift + after.queued + moved.carries - after.getNumOngoing =
      process.drift + process.queued + thread.carries - process.getNumOngoing := by
  have carried := sum_map_set Thread.carries moved there
  simp only [drift, underWay, threads]
  omega

/-- Nothing is counted and no queue changes. -/
private theorem drift_kept {index : Nat} {thread moved : Thread}
    (there : process.threads[index]? = some thread)
    (threads : after.threads = process.threads.set index moved)
    (queued : after.queued = process.queued)
    (ongoing : after.getNumOngoing = process.getNumOngoing)
    (carries : moved.carries = thread.carries) : after.drift = process.drift := by
  have moves := drift_moved there threads
  omega

/-- The thread takes an image from a queue. -/
private theorem drift_taken {index : Nat} {thread moved : Thread}
    (there : process.threads[index]? = some thread)
    (threads : after.threads = process.threads.set index moved)
    (queued : after.queued + 1 = process.queued)
    (ongoing : after.getNumOngoing = process.getNumOngoing)
    (carries : moved.carries = thread.carries + 1) : after.drift = process.drift := by
  have moves := drift_moved there threads
  omega

/-- The thread counts its image as finished. -/
private theorem drift_finished {index : Nat} {thread moved : Thread}
    (there : process.threads[index]? = some thread)
    (threads : after.threads = process.threads.set index moved)
    (queued : after.queued = process.queued)
    (counted : after.requestSubmitted = process.requestSubmitted ∧
      after.requestFinished = process.requestFinished + 1)
    (carries : moved.carries + 1 = thread.carries) : after.drift = process.drift := by
  have moves := drift_moved there threads
  simp only [getNumOngoing, counted] at moves
  omega

/-- A queue that is created is empty. -/
private theorem queued_register (queues : after.queues = process.queues ++ [some []]) :
    after.queued = process.queued := by
  simp [queued, queues, waitingIn]

/-- A queue changes. -/
private theorem queued_set {address : Nat} {names changed : Option (List (List Byte))}
    (live : process.queues[address]? = some names)
    (queues : after.queues = process.queues.set address changed) :
    after.queued + waitingIn names = process.queued + waitingIn changed := by
  simp only [queued, queues]
  exact sum_map_set waitingIn changed live

private theorem queued_push {address : Nat} {names : List (List Byte)} {fileName : List Byte}
    (live : process.queues[address]? = some (some names))
    (queues : after.queues = process.queues.set address (some (names ++ [fileName]))) :
    after.queued = process.queued + 1 := by
  have balance := queued_set live queues
  simp only [waitingIn, List.length_append, List.length_singleton] at balance
  omega

private theorem queued_take {address : Nat} {rest : List (List Byte)} {fileName : List Byte}
    (live : process.queues[address]? = some (some (fileName :: rest)))
    (queues : after.queues = process.queues.set address (some rest)) :
    after.queued + 1 = process.queued := by
  have balance := queued_set live queues
  simp only [waitingIn, List.length_cons] at balance
  omega

private theorem queued_delete {address : Nat} {names : List (List Byte)}
    (live : process.queues[address]? = some (some names))
    (queues : after.queues = process.queues.set address none) :
    after.queued + names.length = process.queued :=
  queued_set live queues

/-- A queue is deleted: its images are abandoned, if there are any. -/
private theorem drift_delete {index address : Nat} {thread moved : Thread}
    {names : List (List Byte)} (there : process.threads[index]? = some thread)
    (threads : after.threads = process.threads.set index moved)
    (live : process.queues[address]? = some (some names))
    (queues : after.queues = process.queues.set address none)
    (ongoing : after.getNumOngoing = process.getNumOngoing)
    (carries : moved.carries = thread.carries) :
    after.drift = process.drift + names.length := by
  have moves := drift_moved there threads
  have balance := queued_delete live queues
  omega

/-- The thread gives up one image. -/
private theorem drift_lost {index : Nat} {thread moved : Thread}
    (there : process.threads[index]? = some thread)
    (threads : after.threads = process.threads.set index moved)
    (queued : after.queued = process.queued)
    (ongoing : after.getNumOngoing = process.getNumOngoing)
    (carries : moved.carries + 1 = thread.carries) : process.drift < after.drift := by
  have moves := drift_moved there threads
  omega

/-- Replies and signals neither submit nor push. -/
private theorem counts_of_harmless {mode : Mode} {thread : Transmit} {event : Event}
    {emitted : List Action}
    (harmless : ∀ action ∈ emitted, thread.Harmless mode event action) :
    emitted.countP Action.isPush = 0 ∧ emitted.count .submit = 0 := by
  refine ⟨List.countP_eq_zero.mpr ?_, List.count_eq_zero.mpr ?_⟩
  · intro action member
    rcases harmless action member with rfl | ⟨rfl, -⟩ <;> exact Bool.false_ne_true
  · intro member
    rcases harmless _ member with reply | ⟨post, -⟩
    · cases reply
    · cases post

/-- What one event adds leaves the image with its thread, or abandons it. -/
private theorem carries_event {thread : TransmitThread} {happened : Event} {state : Transmit}
    {emitted : List Action} (idle : thread.pending = [])
    (emits : Transmit.Emits config.mode config.backend thread.state happened state emitted) :
    (({ thread with state := state, pending := emitted } : TransmitThread).carries =
        thread.carries ∧
      ¬ (happened = .opened false ∧ thread.state.pc.isSubmitting = true ∧
        config.backend ≠ .kafka)) ∨
    (({ thread with state := state, pending := emitted } : TransmitThread).carries + 1 =
        thread.carries ∧
      happened = .opened false ∧ thread.state.pc.isSubmitting = true ∧
        config.backend ≠ .kafka) := by
  simp only [TransmitThread.carries, idle, List.countP_nil, List.count_nil]
  cases emits with
  | receiving harmless outside within running semSame =>
      obtain ⟨pushes, -⟩ := counts_of_harmless harmless
      simp [pushes, outside, within]
  | refused stands tcp gone semSame =>
      simp [stands, gone, TransmitPc.isSubmitting]
  | leaving known outside gone semSame =>
      have left : state.pc.isSubmitting = false := by rw [gone]; rfl
      simp [outside, left, Action.isPush]
  | complete harmless outside within semSame =>
      obtain ⟨pushes, submits⟩ := counts_of_harmless harmless
      simp [pushes, submits, outside, within, Action.isPush]
  | announced outward within opened next known =>
      have left : state.pc.isSubmitting = false := by rw [next]; rfl
      rcases outward with ⟨name, content, rfl⟩ | ⟨content, rfl⟩ <;>
        simpa [within, left, List.countP_cons, Action.isPush] using opened
  | abandoned discards blocking within gone semSame =>
      have left : state.pc.isSubmitting = false := by rw [gone]; rfl
      rcases discards with rfl | rfl <;> simp [within, left, blocking, Action.isPush]

/-- The next action is done. -/
private theorem carries_act {thread : TransmitThread} {action : Action} {rest : List Action}
    (next : thread.pending = action :: rest)
    (once : thread.pending.count .submit ≤ if thread.state.pc.isSubmitting then 1 else 0) :
    thread.carries + (if action = .submit then 1 else 0) =
      ({ thread with pending := rest } : TransmitThread).carries +
        if action.isPush then 1 else 0 := by
  simp only [TransmitThread.carries, next, List.countP_cons, List.count_cons] at once ⊢
  by_cases submit : action = .submit
  · subst submit
    by_cases within : thread.state.pc.isSubmitting = true
    · simp only [within, beq_self_eq_true, if_true, Action.isPush] at once ⊢
      simp only [Bool.false_eq_true, if_false]
      omega
    · simp [within] at once
  · simp only [beq_iff_eq, submit, if_false, Nat.add_zero]
    omega

/-- Whether an image is left is seen at the thread that moves. -/
private theorem abandons_result {index : Nat} {thread : ResultThread} {call : Call}
    (there : process.threads[index]? = some (.result thread)) :
    Abandons config process (.result index call) ↔ LeavesImage config process thread call := by
  constructor
  · intro ⟨other, found, leaves⟩
    cases there.symm.trans found
    exact leaves
  · intro leaves
    exact ⟨thread, there, leaves⟩

/-- The child at `index` leaves its image only where it stands at its reply. -/
private theorem abandons_worker {index : Nat} {child : Worker} {call : Call}
    (there : process.threads[index]? = some (.worker child)) :
    Abandons config process (.worker index call) ↔
      (∃ sock fileName, child.pc = .matching sock fileName) ∧
        config.mode = .tcp ∧ call ≠ .success := by
  constructor
  · intro ⟨owner, sock, fileName, found, failed⟩
    cases there.symm.trans found
    exact ⟨⟨sock, fileName, rfl⟩, failed⟩
  · obtain ⟨owner, pc⟩ := child
    rintro ⟨⟨sock, fileName, rfl⟩, failed⟩
    exact ⟨owner, sock, fileName, there, failed⟩

/-- An event abandons an image only where its thread has submitted it. -/
private theorem abandons_event {index : Nat} {thread : TransmitThread} {junk : Nat → Byte}
    {happened : Event} (there : process.threads[index]? = some (.transmit thread)) :
    Abandons config process (.event index junk happened) ↔
      happened = .opened false ∧ thread.state.pc.isSubmitting = true ∧
        config.backend ≠ .kafka := by
  constructor
  · intro abandons
    rcases happened with _ | _ | _ | ⟨_ | _⟩
    · cases abandons
    · cases abandons
    · cases abandons
    · obtain ⟨other, found, within⟩ := abandons
      cases there.symm.trans found
      exact ⟨rfl, within⟩
    · cases abandons
  · rintro ⟨rfl, within⟩
    exact ⟨thread, there, within⟩

/-- An action abandons images only where it deletes the queue. -/
private theorem abandons_act {index : Nat} {thread : TransmitThread} {action : Action}
    {rest : List Action} (there : process.threads[index]? = some (.transmit thread))
    (next : thread.pending = action :: rest) :
    Abandons config process (.act index) ↔
      action = .deleteQueue ∧ ∃ names, process.liveQueue thread.queue = .ok names ∧ names ≠ [] := by
  constructor
  · intro ⟨other, otherRest, names, found, deletes, live, filled⟩
    cases there.symm.trans found
    cases next.symm.trans deletes
    exact ⟨rfl, names, live, filled⟩
  · rintro ⟨rfl, names, live, filled⟩
    exact ⟨thread, rest, names, there, next, live, filled⟩

/-- A step of `server_result` alone gives up an image only if it ends there. -/
private theorem Looks.carries {thread moved : ResultThread} {call : Call}
    (looks : Looks config process thread call moved) :
    (¬ LeavesImage config process thread call ∧ moved.pc.carries = thread.pc.carries) ∨
    (LeavesImage config process thread call ∧ moved.pc.carries + 1 = thread.pc.carries) := by
  cases looks with
  | replied stands _ =>
      cases storm : config.storm <;> simp [LeavesImage, ResultAt.carries, stands]
  | bound stands =>
      by_cases success : call = .success <;>
        simp [LeavesImage, ResultAt.carries, stands, success]
  | nonempty stands _ _ =>
      cases storm : config.storm <;> simp [LeavesImage, ResultAt.carries, stands]
  | received stands target =>
      rcases target with rfl | rfl <;> simp [LeavesImage, ResultAt.carries, stands]
  | sent stands written =>
      simp only [LeavesImage, ResultAt.carries, stands, not_and, not_not]
      exact .inl ⟨written, trivial⟩
  | unsent stands failed =>
      simp only [LeavesImage, ResultAt.carries, stands]
      exact .inr ⟨failed, trivial⟩
  | fetched stands _ | empty stands _ _ | filled stands =>
      simp [LeavesImage, ResultAt.carries, stands]

/-- An action that keeps the image with its thread, counts it or pushes it. -/
private theorem kept_act {index : Nat} {thread moved : TransmitThread} {action : Action}
    {rest : List Action} (there : process.threads[index]? = some (.transmit thread))
    (next : thread.pending = action :: rest)
    (counts : ∀ thread ∈ process.threads, thread.CountsOnce)
    (stays : action ≠ .deleteQueue)
    (threads : after.threads = process.threads.set index (.transmit moved))
    (carries : moved.carries = ({ thread with pending := rest } : TransmitThread).carries)
    (queued : after.queued = process.queued + if action.isPush then 1 else 0)
    (ongoing : after.getNumOngoing =
      process.getNumOngoing + (if action = .submit then 1 else 0 : Nat)) :
    ¬ Abandons config process (.act index) ∧ after.drift = process.drift := by
  constructor
  · rw [abandons_act there next]
    exact fun deletes => stays deletes.1
  · have moves := drift_moved there threads
    have balance := carries_act next (counts _ (List.mem_of_getElem? there))
    simp only [Thread.carries, carries] at moves
    omega

/-- A step of `server_result` that keeps what it carries. -/
private theorem kept_result {index : Nat} {thread moved : ResultThread} {call : Call}
    (there : process.threads[index]? = some (.result thread))
    (stays : ¬ LeavesImage config process thread call)
    (threads : after.threads = process.threads.set index (.result moved))
    (queued : after.queued = process.queued)
    (ongoing : after.getNumOngoing = process.getNumOngoing)
    (carries : moved.pc.carries = thread.pc.carries) :
    ¬ Abandons config process (.result index call) ∧ after.drift = process.drift :=
  ⟨(abandons_result there).not.mpr stays, drift_kept there threads queued ongoing carries⟩

/-- A step of a child that writes its result if it has to. -/
private theorem kept_worker {index : Nat} {child : Worker} {call : Call}
    (there : process.threads[index]? = some (.worker child))
    (stays : ∀ sock fileName, child.pc = .matching sock fileName → config.mode = .tcp →
      call = .success)
    (same : after.drift = process.drift) :
    ¬ Abandons config process (.worker index call) ∧ after.drift = process.drift := by
  refine ⟨?_, same⟩
  rw [abandons_worker there]
  rintro ⟨⟨sock, fileName, stands⟩, tcp, failed⟩
  exact failed (stays sock fileName stands tcp)

private theorem liveQueue_of_live {address : Option Nat} {queue : Nat}
    {names : List (List Byte)} (held : address = some queue)
    (live : process.queues[queue]? = some (some names)) :
    process.liveQueue address = .ok names := by
  simp only [held, liveQueue, live]

/-- Deleting a queue abandons what is in it. -/
private theorem drift_deleted {address : Option Nat} {queue : Nat} {names : List (List Byte)}
    (held : address = some queue) (live : process.queues[queue]? = some (some names))
    (abandons : Abandons config process label ↔
      ∃ names, process.liveQueue address = .ok names ∧ names ≠ [])
    (grows : after.drift = process.drift + names.length) :
    (¬ Abandons config process label ∧ after.drift = process.drift) ∨
    (Abandons config process label ∧ process.drift < after.drift) := by
  rw [abandons, liveQueue_of_live held live]
  cases names with
  | nil =>
      refine .inl ⟨?_, by simpa using grows⟩
      rintro ⟨names, live, filled⟩
      cases live
      exact filled rfl
  | cons fileName rest =>
      refine .inr ⟨⟨_, rfl, List.cons_ne_nil fileName rest⟩, ?_⟩
      rw [List.length_cons] at grows
      omega

/-- A step keeps the drift, or it abandons an image and adds to the drift. -/
private theorem Moves.drift (counts : ∀ thread ∈ process.threads, thread.CountsOnce)
    (moves : Moves config process label after) :
    (¬ Abandons config process label ∧ after.drift = process.drift) ∨
    (Abandons config process label ∧ process.drift < after.drift) := by
  cases moves with
  | accept sock =>
      refine .inl ⟨not_false, ?_⟩
      simp [Process.drift, underWay, queued, getNumOngoing, Thread.carries]
  | turnedAway there => exact .inl ⟨not_false, drift_kept there rfl rfl rfl rfl⟩
  | @admitted index sock bytes command userID granted there parsed login =>
      have nothing : (entry userID sock command).carries = 0 := by cases command <;> rfl
      rcases login_cases login with ⟨-, rfl⟩ | ⟨-, rfl⟩ <;>
        exact .inl ⟨not_false, drift_kept there rfl rfl rfl nothing⟩
  | @event index junk happened thread state there idle stepped =>
      rcases carries_event idle (Transmit.step_emits stepped) with ⟨same, keeps⟩ | ⟨lost, leaves⟩
      · exact .inl ⟨(abandons_event there).not.mpr keeps, drift_kept there rfl rfl rfl same⟩
      · exact .inr ⟨(abandons_event there).mpr leaves, drift_lost there rfl rfl rfl lost⟩
  | @quiet index thread action rest there next quiet =>
      have inward : action ≠ .deleteQueue ∧ action ≠ .submit ∧ action.isPush = false := by
        cases action <;> simp_all [Quiet, Action.isPush]
      obtain ⟨stays, submit, push⟩ := inward
      exact .inl (kept_act there next counts stays rfl rfl (by rw [push]; rfl)
        (by rw [if_neg submit]; exact (Int.add_zero _).symm))
  | register there next =>
      exact .inl (kept_act there next counts nofun rfl rfl (queued_register rfl)
        (Int.add_zero _).symm)
  | submit there next =>
      refine .inl (kept_act there next counts nofun rfl rfl rfl ?_)
      simp only [getNumOngoing]
      push_cast
      omega
  | push there next held live =>
      exact .inl (kept_act there next counts nofun rfl rfl (queued_push live rfl)
        (Int.add_zero _).symm)
  | lookup there next first found =>
      exact .inl (kept_act there next counts nofun rfl rfl rfl (Int.add_zero _).symm)
  | post there next held live =>
      exact .inl (kept_act there next counts nofun rfl rfl rfl (Int.add_zero _).symm)
  | discard there next held live =>
      refine drift_deleted held live ?_ (drift_delete there rfl live rfl rfl ?_)
      · rw [abandons_act there next]
        exact and_iff_right rfl
      · simp [Thread.carries, TransmitThread.carries, next, Action.isPush]
  | look there looks =>
      rcases looks.carries with ⟨stays, same⟩ | ⟨leaves, lost⟩
      · exact .inl (kept_result there stays rfl rfl rfl same)
      · exact .inr ⟨(abandons_result there).mpr leaves, drift_lost there rfl rfl rfl lost⟩
  | start there stands | wait there stands _ | eraseSem there stands
  | eraseQueue there stands | eraseUser there stands | deleteSem there stands _
  | grab there stands _ | stop there stands _ =>
      exact .inl (kept_result there (by simp [LeavesImage, stands]) rfl rfl rfl
        (by simp [ResultAt.carries, stands]))
  | deleteQueue there stands held live =>
      refine drift_deleted held live ?_ (drift_delete there rfl live rfl rfl ?_)
      · rw [abandons_result there]
        simp only [LeavesImage, stands]
      · simp only [Thread.carries, ResultAt.carries, stands]
  | take there stands held live =>
      rcases stands with ⟨stands, rfl⟩ | ⟨stands, rfl⟩ <;>
        exact .inl ⟨(abandons_result there).not.mpr (by simp [LeavesImage, stands]),
          drift_taken there rfl (queued_take live rfl) rfl
            (by simp [Thread.carries, ResultAt.carries, stands])⟩
  | @spawn index thread fileName there stands =>
      refine .inl ⟨(abandons_result there).not.mpr (by simp [LeavesImage, stands]), ?_⟩
      have carried := sum_map_set Thread.carries (.result { thread with pc := .waiting }) there
      simp only [Thread.carries, ResultAt.carries, stands] at carried
      simp only [Process.drift, underWay, List.map_append, List.sum_append, List.map_singleton,
        List.sum_singleton, Thread.carries, WorkerAt.carries, queued, getNumOngoing]
      omega
  | @spawnFailed index thread fileName code there stands =>
      refine .inr ⟨(abandons_result there).mpr ?_, drift_lost there rfl rfl rfl ?_⟩
      · simp [LeavesImage, stands]
      · by_cases failed : code = -1 <;>
          simp [Thread.carries, ResultAt.carries, stands, failed]
  | finish there stands =>
      exact .inl ⟨(abandons_result there).not.mpr (by simp [LeavesImage, stands]),
        drift_finished there rfl rfl ⟨rfl, rfl⟩
          (by simp [Thread.carries, ResultAt.carries, stands])⟩
  | advance there advances =>
      cases advances with
      | sock read => exact .inl (kept_worker there nofun (drift_kept there rfl rfl rfl rfl))
      | name sock read => exact .inl (kept_worker there nofun (drift_kept there rfl rfl rfl rfl))
      | reply sock fileName written =>
          exact .inl (kept_worker there (fun _ _ _ tcp => written tcp)
            (drift_kept there rfl rfl rfl rfl))
  | unwritten there failed =>
      refine .inr ⟨(abandons_worker there).mpr ⟨⟨_, _, rfl⟩, failed⟩, ?_⟩
      exact drift_lost there rfl rfl rfl rfl
  | finished there =>
      exact .inl (kept_worker there nofun (drift_finished there rfl rfl ⟨rfl, rfl⟩ rfl))
  | released there => exact .inl (kept_worker there nofun (drift_kept there rfl rfl rfl rfl))

/-- What one event adds counts once, and only a complete image. -/
private theorem countsOnce_event {thread : TransmitThread} {happened : Event} {state : Transmit}
    {emitted : List Action}
    (emits : Transmit.Emits config.mode config.backend thread.state happened state emitted) :
    (Thread.transmit { thread with state := state, pending := emitted }).CountsOnce := by
  simp only [Thread.CountsOnce]
  cases emits with
  | receiving harmless outside within running semSame =>
      rw [(counts_of_harmless harmless).2]
      exact Nat.zero_le _
  | refused stands tcp gone semSame => exact Nat.zero_le _
  | leaving known outside gone semSame => exact Nat.zero_le _
  | complete harmless outside within semSame =>
      rw [List.count_append, (counts_of_harmless harmless).2, if_pos within]
      exact Nat.le_refl 1
  | announced outward within opened next known =>
      rcases outward with ⟨name, content, rfl⟩ | ⟨content, rfl⟩ <;> exact Nat.zero_le _
  | abandoned discards blocking within gone semSame =>
      rcases discards with rfl | rfl <;> exact Nat.zero_le _

private theorem countsOnce_act {thread : TransmitThread} {action : Action} {rest : List Action}
    (next : thread.pending = action :: rest) (once : (Thread.transmit thread).CountsOnce) :
    (Thread.transmit { thread with pending := rest }).CountsOnce := by
  simp only [Thread.CountsOnce, next, List.count_cons] at once ⊢
  omega

private theorem Moves.countsOnce (counts : ∀ thread ∈ process.threads, thread.CountsOnce)
    (moves : Moves config process label after) :
    ∀ thread ∈ after.threads, thread.CountsOnce := by
  intro thread member
  cases moves.arises thread member with
  | before member => exact counts thread member
  | entered userID sock command =>
      cases command
      · exact Nat.zero_le _
      · trivial
      · trivial
  | event stepped => exact countsOnce_event (Transmit.step_emits stepped)
  | act there next => exact countsOnce_act next (counts _ there)
  | connection | closed | result | worker => trivial

/-- A step that abandons an image is not the end of the process. -/
private theorem moves_of_abandons (abandons : Abandons config process label)
    (step : (processMachine config).next process label = some after) :
    Moves config process label after := by
  obtain ⟨-, moves | ⟨fault, stepped, -⟩⟩ := moves_of_next step
  · exact moves
  exfalso
  cases label with
  | event index junk happened =>
      simp only [Process.step, Process.event] at stepped
      split at stepped
      next thread there =>
        obtain ⟨rfl, within, blocking⟩ := (abandons_event there).mp abandons
        obtain ⟨fileName, fileSize, img, stands⟩ :
            ∃ fileName fileSize img, thread.state.pc = .submitting fileName fileSize img := by
          cases pc : thread.state.pc <;> simp_all [TransmitPc.isSubmitting]
        split at stepped
        next => cases stepped
        next =>
          cases backend : config.backend <;>
            simp_all [Transmit.step, Transmit.handOver]
      next => cases stepped
  | act index =>
      obtain ⟨thread, rest, names, there, next, live, -⟩ := abandons
      simp only [Process.step, act, there, next, perform, live, bind, Except.bind] at stepped
      cases stepped
  | result index call =>
      obtain ⟨thread, there, leaves⟩ := abandons
      simp only [Process.step, Process.result, there, look, share] at stepped
      cases stands : thread.pc with
      | filled fileName =>
          simp only [stands] at stepped
          cases call <;> cases stepped
      | sending =>
          simp only [LeavesImage, stands] at leaves
          simp only [stands, if_pos leaves] at stepped
          cases stepped
      | deletingQueue =>
          simp only [LeavesImage, stands] at leaves
          obtain ⟨names, live, -⟩ := leaves
          simp only [stands, live, bind, Except.bind] at stepped
          cases stepped
      | _ => simp only [LeavesImage, stands] at leaves
  | worker index call =>
      obtain ⟨owner, sock, fileName, there, -⟩ := abandons
      simp only [Process.step, Process.worker, there] at stepped
      cases stepped
  | accept | header | hostMissing | brokenPipe => cases abandons

/-- No step takes from the drift. -/
private theorem drift_monotone (counts : ∀ thread ∈ process.threads, thread.CountsOnce)
    (step : (processMachine config).next process label = some after) :
    (∀ thread ∈ after.threads, thread.CountsOnce) ∧ process.drift ≤ after.drift := by
  obtain ⟨-, moves | ⟨fault, -, rfl⟩⟩ := moves_of_next step
  · refine ⟨moves.countsOnce counts, ?_⟩
    rcases moves.drift counts with ⟨-, same⟩ | ⟨-, more⟩
    · exact Int.le_of_eq same.symm
    · exact Int.le_of_lt more
  · exact ⟨counts, Int.le_refl _⟩

private theorem drift_le_of_reaches {later : Process}
    (counts : ∀ thread ∈ process.threads, thread.CountsOnce)
    (reached : (processMachine config).Reaches process later) :
    (∀ thread ∈ later.threads, thread.CountsOnce) ∧ process.drift ≤ later.drift := by
  induction reached with
  | refl => exact ⟨counts, Int.le_refl _⟩
  | tail _ _ step inductionHypothesis =>
      obtain ⟨once, grows⟩ := drift_monotone inductionHypothesis.1 step
      exact ⟨once, inductionHypothesis.2.trans grows⟩

end Balance

private theorem countsOnce_init (config : Config) :
    ∀ thread ∈ (Process.init config).threads, thread.CountsOnce := by
  intro thread member
  unfold Process.init at member
  split at member
  next =>
    rcases List.mem_pair.mp member with rfl | rfl
    · trivial
    · exact Nat.zero_le _
  next => cases member

private theorem drift_init (config : Config) : (Process.init config).drift = 0 := by
  by_cases mf : config.mode = .mf <;>
    simp [drift, getNumOngoing, underWay, queued, Process.init, mf, Thread.carries,
      ResultThread.init, ResultAt.carries, TransmitThread.init, TransmitThread.carries,
      Transmit.init, TransmitPc.isSubmitting, Action.isPush]

/-- A load that is not negative is published as a fraction. -/
private theorem getMetrics_bounds {process : Process} (ongoing : 0 ≤ process.getNumOngoing) :
    0 ≤ process.getMetrics ∧ process.getMetrics ≤ 1 := by
  have numerator : (0 : Rat) ≤ process.getNumOngoing := by exact_mod_cast ongoing
  have positive : (0 : Rat) < maxNumOfRequests := by norm_num [maxNumOfRequests]
  unfold getMetrics
  split
  · exact ⟨le_refl 0, zero_le_one⟩
  split
  · exact ⟨zero_le_one, le_refl 1⟩
  next below =>
    exact ⟨div_nonneg numerator positive.le,
      (div_le_one₀ positive).mpr (le_of_lt (not_le.mp below))⟩

end Process

/-- As long as no image is abandoned, the published number is the number of the
images under way. An image that is abandoned is counted as ongoing for ever. -/
theorem load_conserved (config : Config) {state : Process}
    (reached : (processMachine config).ReachesUnder
      (fun process label => ¬ process.Abandons config label) (.init config) state) :
    (state.getNumOngoing = state.underWay ∧ 0 ≤ state.getNumOngoing ∧
      (state.underWay = 0 → state.getNumOngoing = 0)) ∧
    (0 ≤ state.getMetrics ∧ state.getMetrics ≤ 1) ∧
    ∀ label after later, state.Abandons config label →
      (processMachine config).next state label = some after →
      (processMachine config).Reaches after later → later.underWay < later.getNumOngoing := by
  have balance : (∀ thread ∈ state.threads, thread.CountsOnce) ∧ state.drift = 0 := by
    induction reached with
    | refl => exact ⟨Process.countsOnce_init config, Process.drift_init config⟩
    | tail _ keeps step inductionHypothesis =>
        obtain ⟨counts, balanced⟩ := inductionHypothesis
        refine ⟨(Process.drift_monotone counts step).1, ?_⟩
        obtain ⟨-, moves | ⟨fault, -, rfl⟩⟩ := Process.moves_of_next step
        · rcases moves.drift counts with ⟨-, same⟩ | ⟨abandons, -⟩
          · rw [same, balanced]
          · exact absurd abandons keeps
        · exact balanced
  obtain ⟨counts, balanced⟩ := balance
  have ongoing : state.getNumOngoing = state.underWay := by
    rw [Process.drift] at balanced
    omega
  have notNegative : 0 ≤ state.getNumOngoing := by omega
  refine ⟨⟨ongoing, notNegative, fun none' => by omega⟩,
    Process.getMetrics_bounds notNegative, ?_⟩
  intro label after later abandons step run
  have moves := Process.moves_of_abandons abandons step
  rcases moves.drift counts with ⟨keeps, -⟩ | ⟨-, more⟩
  · exact absurd abandons keeps
  have grows := (Process.drift_le_of_reaches (moves.countsOnce counts) run).2
  have counted : 0 < later.drift := balanced ▸ more.trans_le grows
  rw [Process.drift] at counted
  omega

/-- The step deletes a queue. -/
def Process.deletes (process : Process) : ProcessStep → Bool
  | .act index =>
      match process.threads[index]? with
      | some (.transmit thread) => thread.pending.head? == some .deleteQueue
      | _ => false
  | .result index _ =>
      match process.threads[index]? with
      | some (.result thread) => thread.pc == .deletingQueue
      | _ => false
  | _ => false

/-- Steps that succeed and delete no queue abandon nothing. -/
private theorem keeps_of_succeeds {config : Config} {process : Process} {label : ProcessStep}
    (succeeds : label.succeeds = true) (stays : process.deletes label = false) :
    ¬ process.Abandons config label := by
  cases label with
  | event index junk happened =>
      rcases happened with _ | _ | _ | ⟨_ | _⟩
      · exact not_false
      · exact not_false
      · exact not_false
      · cases succeeds
      · exact not_false
  | act index =>
      rintro ⟨thread, rest, names, there, next, -⟩
      simp [Process.deletes, there, next] at stays
  | result index call =>
      rintro ⟨thread, there, leaves⟩
      cases eq_of_beq succeeds
      simp only [Process.deletes, there, beq_eq_false_iff_ne] at stays
      cases stands : thread.pc <;> simp_all [Process.LeavesImage]
  | worker index call =>
      rintro ⟨owner, sock, fileName, there, tcp, failed⟩
      exact failed (eq_of_beq succeeds)
  | accept | header | hostMissing | brokenPipe => exact not_false

/-- An image is under way while its child matches it. -/
theorem load_conserved_upload :
    ∃ state : Process, state.getNumOngoing = 1 ∧ state.getNumOngoing = state.underWay ∧
      state.getMetrics ≤ 1 := by
  obtain ⟨state, reached, holds⟩ := Machine.exists_of_run
    (show (((processMachine onePermit).run
        (fun process label => label.succeeds = true ∧ process.deletes label = false)
        (.init onePermit) (uploadOne ++ handOverOne)).map fun state =>
          decide (state.getNumOngoing = 1)) = some true
      by decide +kernel)
  have balance := load_conserved onePermit
    (reached.mono fun _ _ allowed => keeps_of_succeeds allowed.1 allowed.2)
  exact ⟨state, of_decide_eq_true holds, balance.1.1, balance.2.1.2⟩

/-- A file that cannot be opened stays in the published load. -/
theorem load_kept_unopened :
    ¬ ∀ (config : Config) (state : Process), (processMachine config).Reaches (.init config) state →
      state.getNumOngoing = state.underWay := by
  intro conserved
  obtain ⟨finish, reached, holds⟩ := Machine.exists_of_run
    (show (((processMachine onePermit).run (fun _ _ => True) (.init onePermit)
      (uploadOne ++ [.event 0 (fun _ => 0) (.opened false), .act 0])).map fun finish =>
        decide (finish.getNumOngoing = 1 ∧ finish.underWay = 0)) = some true
      by decide +kernel)
  obtain ⟨ongoing, nothing⟩ := of_decide_eq_true holds
  have same := conserved onePermit finish reached
  rw [ongoing, nothing] at same
  cases same

end PaintingCPS
