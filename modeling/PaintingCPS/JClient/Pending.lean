import PaintingCPS.JClient.ResultQueue

/-!
Contract: at most one result is under way.

Two threads must not be inside the methods of `resultQueue` at once. A client
that sends an image only after it has got the result of the one before, as
`TestClient` does, keeps them apart: the permit comes after the end of `offer`,
and nothing else is under way.

Owns: the place of the result that no call has got yet, and the invariant.

Does not own: that a call gets it.
-/

set_option autoImplicit false

namespace PaintingCPS

open Foundation

namespace ResultQueue

/-- Where the result is that no call has got yet. -/
inductive Holds (queue : ResultQueue) : Option Answer → Prop
  | nobody (thread : queue.thread.free = true) (messages : queue.messages = [])
      (results : queue.resultQueue = []) (permits : queue.resultSem = 0)
      (idle : ∀ pc ∈ queue.calls, pc.busy = false) : queue.Holds none
  | sent (answer : Answer) (junk : Nat → Byte) (message : List Byte)
      (thread : queue.thread.free = true) (messages : queue.messages = [message])
      (written : answer.result.bytes junk = .ok message) (results : queue.resultQueue = [])
      (permits : queue.resultSem = 0) (idle : ∀ pc ∈ queue.calls, pc.busy = false) :
      queue.Holds (some answer)
  | received (answer : Answer)
      (thread : queue.thread = .offer answer.text ∨ queue.thread = .offering answer.text)
      (messages : queue.messages = []) (results : queue.resultQueue = [])
      (permits : queue.resultSem = 0) (idle : ∀ pc ∈ queue.calls, pc.busy = false) :
      queue.Holds (some answer)
  | offered (answer : Answer) (thread : queue.thread = .release)
      (messages : queue.messages = []) (results : queue.resultQueue = [answer.text])
      (permits : queue.resultSem = 0) (idle : ∀ pc ∈ queue.calls, pc.busy = false) :
      queue.Holds (some answer)
  | released (answer : Answer) (thread : queue.thread.free = true)
      (messages : queue.messages = []) (results : queue.resultQueue = [answer.text])
      (permits : queue.resultSem = 1) (idle : ∀ pc ∈ queue.calls, pc.busy = false) :
      queue.Holds (some answer)
  | taken (answer : Answer) (index : Nat) (thread : queue.thread.free = true)
      (messages : queue.messages = []) (results : queue.resultQueue = [answer.text])
      (permits : queue.resultSem = 0)
      (there : queue.calls[index]? = some .acquired ∨ queue.calls[index]? = some .polling)
      (alone : ∀ pc ∈ queue.calls.set index .entry, pc.busy = false) :
      queue.Holds (some answer)

structure Tracks (queue : ResultQueue) (pending : Option Answer) : Prop where
  apart : queue.overlapped = false
  running : queue.thread = .ended → queue.globalStop = true
  answered : queue.answers.length ≤ queue.requested
  asked : queue.requested ≤ queue.polled.length + 1
  history : ∃ got : List Answer, queue.answers = got ++ pending.toList ∧
    queue.polled.map Prod.snd = got.map fun answer => some answer.text
  holds : queue.Holds pending
  once : (queue.polled.map Prod.fst).Nodup
  returned : ∀ (index : Nat) (result : Option (List Byte)),
    queue.calls[index]? = some (.returned result) ↔ (index, result) ∈ queue.polled

section Invariant

variable {queue after : ResultQueue} {pending : Option Answer} {index : Nat}

theorem init_tracks (calls : Nat) : (init calls).Tracks none where
  apart := rfl
  running := by simp [init]
  answered := Nat.le_refl 0
  asked := Nat.zero_le 1
  history := ⟨[], rfl, rfl⟩
  holds := .nobody rfl rfl rfl rfl fun pc member => by
    rw [List.eq_of_mem_replicate member]
    rfl
  once := List.nodup_nil
  returned := by
    intro index result
    constructor
    · intro there
      have entry := List.eq_of_mem_replicate (List.mem_of_getElem? there)
      cases entry
    · intro member
      cases member

/-- As many calls have polled as there are results before the pending one. -/
theorem Tracks.polled_length (tracks : queue.Tracks pending) :
    queue.answers.length = queue.polled.length + pending.toList.length := by
  obtain ⟨got, answers, polled⟩ := tracks.history
  have same := congrArg List.length polled
  rw [List.length_map, List.length_map] at same
  rw [answers, List.length_append, same]

theorem Tracks.inOrder (tracks : queue.Tracks pending) : queue.InOrder where
  apart := tracks.apart
  results := by
    obtain ⟨got, answers, polled⟩ := tracks.history
    have same := congrArg List.length polled
    rw [List.length_map, List.length_map] at same
    rw [polled, answers, same, List.take_left']
    rfl
  once := tracks.once
  returned := tracks.returned

/-- A call that is not at its end moves to a place that is not its end. -/
private theorem returned_set {pc moved : GetResultPc}
    (there : queue.calls[index]? = some pc) (before : ∀ result, pc ≠ .returned result)
    (behind : ∀ result, moved ≠ .returned result) (other : Nat)
    (result : Option (List Byte)) :
    (queue.calls.set index moved)[other]? = some (.returned result) ↔
      queue.calls[other]? = some (.returned result) := by
  rw [getElem?_set_there moved there]
  split
  next here =>
    subst here
    rw [there, Option.some.injEq, Option.some.injEq]
    exact iff_of_false (behind result) (before result)
  next => rfl

/-- No call polls while all of them are idle. -/
private theorem inUse_of_idle (idle : ∀ pc ∈ queue.calls, pc.busy = false)
    (thread : ∀ result, queue.thread ≠ .offering result) : queue.inUse = false := by
  have outside : queue.calls.any (· == .polling) = false := by
    rw [List.any_eq_false]
    intro pc member polls
    have isIdle := idle pc member
    rw [beq_iff_eq.mp polls] at isIdle
    cases isIdle
  rw [inUse, outside, Bool.or_false]
  split
  next result at' => exact absurd at' (thread result)
  next => rfl

/-- The server sends a result when no other one is under way. -/
private theorem Tracks.answerStep (tracks : queue.Tracks pending) {answer : Answer}
    {junk : Nat → Byte} (stepped : queue.answerStep answer junk = some after) :
    after.Tracks (some answer) := by
  have counted := tracks.polled_length
  have asked := tracks.asked
  unfold ResultQueue.answerStep at stepped
  split at stepped
  next room =>
    split at stepped
    next => cases stepped
    next message written =>
      cases stepped
      obtain rfl : pending = none := by
        cases pending with
        | none => rfl
        | some answer =>
            rw [Option.toList_some, List.length_singleton] at counted
            omega
      obtain ⟨got, answers, polled⟩ := tracks.history
      rw [Option.toList_none, List.append_nil] at answers
      cases tracks.holds with
      | nobody thread messages results permits idle =>
          exact { tracks with
            answered := by
              dsimp only
              rw [List.length_append]
              exact room
            history := ⟨got, by rw [answers]; rfl, polled⟩
            holds := .sent answer junk message thread (by dsimp only; rw [messages]; rfl) written
              results permits idle }
  next => cases stepped

/-- What a step of a thread leaves alone. -/
private theorem Tracks.frame (tracks : queue.Tracks pending) (apart : after.overlapped = false)
    (running : after.thread = .ended → after.globalStop = true)
    (requested : after.requested = queue.requested) (answers : after.answers = queue.answers)
    (polled : after.polled = queue.polled) (holds : after.Holds pending)
    (returned : ∀ (other : Nat) (result : Option (List Byte)),
      after.calls[other]? = some (.returned result) ↔
        queue.calls[other]? = some (.returned result)) : after.Tracks pending where
  apart := apart
  running := running
  answered := by rw [answers, requested]; exact tracks.answered
  asked := by rw [requested, polled]; exact tracks.asked
  history := by rw [answers, polled]; exact tracks.history
  holds := holds
  once := by rw [polled]; exact tracks.once
  returned := fun other result => by
    rw [polled, returned]
    exact tracks.returned other result

/-- `ResultThread` moves without a result, or nothing moves. -/
private theorem Holds.stays (holds : queue.Holds pending)
    (thread : after.thread = queue.thread ∨
      queue.thread.free = true ∧ after.thread.free = true)
    (messages : after.messages = queue.messages)
    (results : after.resultQueue = queue.resultQueue)
    (permits : after.resultSem = queue.resultSem) (calls : after.calls = queue.calls) :
    after.Holds pending := by
  have moved : queue.thread.free = true → after.thread.free = true := by
    intro free
    rcases thread with same | ⟨-, free'⟩
    · rw [same]
      exact free
    · exact free'
  have kept : queue.thread.free = false → after.thread = queue.thread := by
    intro holding
    apply thread.resolve_right
    rintro ⟨free, -⟩
    rw [holding] at free
    cases free
  cases holds with
  | nobody free none' empty zero idle =>
      exact .nobody (moved free) (messages.trans none') (results.trans empty)
        (permits.trans zero) (by rw [calls]; exact idle)
  | sent answer junk message free one written empty zero idle =>
      exact .sent answer junk message (moved free) (messages.trans one) written
        (results.trans empty) (permits.trans zero) (by rw [calls]; exact idle)
  | received answer at' none' empty zero idle =>
      have same := kept (by rcases at' with at' | at' <;> rw [at'] <;> rfl)
      exact .received answer (by rw [same]; exact at') (messages.trans none')
        (results.trans empty) (permits.trans zero) (by rw [calls]; exact idle)
  | offered answer at' none' one zero idle =>
      exact .offered answer ((kept (by rw [at']; rfl)).trans at') (messages.trans none')
        (results.trans one) (permits.trans zero) (by rw [calls]; exact idle)
  | released answer free none' one permit idle =>
      exact .released answer (moved free) (messages.trans none') (results.trans one)
        (permits.trans permit) (by rw [calls]; exact idle)
  | taken answer index free none' one zero there alone =>
      exact .taken answer index (moved free) (messages.trans none') (results.trans one)
        (permits.trans zero) (by rw [calls]; exact there) (by rw [calls]; exact alone)

/-- `recv` returns the message, and the thread has its text. -/
private theorem Holds.receives (holds : queue.Holds pending) {message : List Byte}
    {rest : List (List Byte)} (waiting : queue.messages = message :: rest) :
    ∃ answer : Answer, pending = some answer ∧
      JClient.offered (filled (List.replicate bufferSize 0) message bufferSize) =
        .ok answer.text ∧
      Holds { queue with
        messages := rest
        thread := .offer answer.text } (some answer) := by
  cases holds with
  | sent answer junk found thread one written empty zero idle =>
      rw [one] at waiting
      cases waiting
      exact ⟨answer, rfl, Answer.offered written, .received answer (.inl rfl) rfl empty zero idle⟩
  | nobody _ none' | received _ _ none' | offered _ _ none' | released _ _ none'
  | taken _ _ _ none' =>
      rw [none'] at waiting
      cases waiting

/-- What the thread has in its hands is the pending result, and no other thread
has one. -/
private theorem Holds.hands (holds : queue.Holds pending) {result : List Byte}
    (thread : queue.thread = .offer result ∨ queue.thread = .offering result) :
    ∃ answer : Answer, pending = some answer ∧ result = answer.text ∧ queue.messages = [] ∧
      queue.resultQueue = [] ∧ queue.resultSem = 0 ∧ ∀ pc ∈ queue.calls, pc.busy = false := by
  cases holds with
  | received answer at' none' empty zero idle =>
      refine ⟨answer, rfl, ?_, none', empty, zero, idle⟩
      rcases thread with one | one <;> rcases at' with other | other <;>
        rw [one] at other <;> cases other <;> rfl
  | nobody free | sent _ _ _ free | released _ free | taken _ _ free =>
      rcases thread with one | one <;> rw [one] at free <;> cases free
  | offered _ at' =>
      rcases thread with one | one <;> rw [one] at at' <;> cases at'

/-- The permit follows the result into the queue. -/
private theorem Holds.releases (holds : queue.Holds pending) (thread : queue.thread = .release) :
    Holds { queue with
      resultSem := queue.resultSem + 1
      thread := .loop } pending := by
  cases holds with
  | offered answer _ none' one zero idle =>
      exact .released answer rfl none' one (by dsimp only; rw [zero]) idle
  | received _ at' =>
      rcases at' with other | other <;> rw [thread] at other <;> cases other
  | nobody free | sent _ _ _ free | released _ free | taken _ _ free =>
      rw [thread] at free
      cases free

private theorem Tracks.threadStep (tracks : queue.Tracks pending) {answered : Bool}
    (stepped : queue.threadStep answered = some after) : after.Tracks pending := by
  have holds := tracks.holds
  unfold ResultQueue.threadStep at stepped
  split at stepped
  next at' =>
    cases stepped
    refine tracks.frame tracks.apart ?_ rfl rfl rfl
      (holds.stays (.inr ⟨by rw [at']; rfl, by dsimp only; split <;> rfl⟩) rfl rfl rfl rfl)
      fun _ _ => Iff.rfl
    dsimp only
    split
    next stopped => exact fun _ => stopped
    next => simp
  next at' =>
    split at stepped
    next =>
      split at stepped
      next => cases stepped
      next message rest waiting =>
        obtain ⟨answer, rfl, offered, next⟩ := holds.receives waiting
        rw [offered] at stepped
        cases stepped
        exact tracks.frame tracks.apart (by simp) rfl rfl rfl next fun _ _ => Iff.rfl
    next =>
      cases stepped
      exact tracks.frame tracks.apart tracks.running rfl rfl rfl
        (holds.stays (.inl rfl) rfl rfl rfl rfl)
        fun _ _ => Iff.rfl
  next result at' =>
    obtain ⟨answer, rfl, rfl, none', empty, zero, idle⟩ := holds.hands (.inl at')
    have unused := inUse_of_idle idle fun other => by
      rw [at']
      exact ResultThreadPc.noConfusion
    rw [enter, if_neg (by rw [unused]; decide)] at stepped
    cases stepped
    exact tracks.frame tracks.apart (by simp) rfl rfl rfl
      (.received answer (.inr rfl) none' empty zero idle) fun _ _ => Iff.rfl
  next result at' =>
    obtain ⟨answer, rfl, rfl, none', empty, zero, idle⟩ := holds.hands (.inr at')
    cases stepped
    exact tracks.frame tracks.apart (by simp) rfl rfl rfl
      (.offered answer rfl none' (by dsimp only; rw [empty]; rfl) zero idle) fun _ _ => Iff.rfl
  next at' =>
    cases stepped
    exact tracks.frame tracks.apart (by simp) rfl rfl rfl (holds.releases at') fun _ _ => Iff.rfl
  next => cases stepped

/-- A call takes the permit, -/
private theorem Tracks.acquires (tracks : queue.Tracks pending)
    (there : queue.calls[index]? = some .entry) (permit : queue.resultSem ≠ 0) :
    Tracks { queue with
      resultSem := queue.resultSem - 1
      calls := queue.calls.set index .acquired } pending := by
  cases tracks.holds with
  | released answer thread none' one permits idle =>
      refine tracks.frame tracks.apart tracks.running rfl rfl rfl
        (.taken answer index thread none' one ?_ (.inl ?_) ?_)
        (returned_set there (by simp) (by simp))
      · dsimp only
        rw [permits]
      · rw [getElem?_set_there _ there, if_pos rfl]
      · dsimp only
        rw [List.set_set]
        exact forall_mem_set idle rfl
  | nobody _ _ _ zero | sent _ _ _ _ _ _ _ zero | received _ _ _ _ zero | offered _ _ _ _ zero
  | taken _ _ _ _ _ zero => exact absurd zero permit

/-- A call that has a permit is the only one that does. -/
private theorem Holds.taker (holds : queue.Holds pending) {pc : GetResultPc}
    (there : queue.calls[index]? = some pc) (busy : pc.busy = true) :
    ∃ answer : Answer, pending = some answer ∧ queue.thread.free = true ∧ queue.messages = [] ∧
      queue.resultQueue = [answer.text] ∧ queue.resultSem = 0 ∧
      ∀ pc ∈ queue.calls.set index .entry, pc.busy = false := by
  cases holds with
  | taken answer place thread none' one zero _ alone =>
      by_cases same : index = place
      · subst same
        exact ⟨answer, rfl, thread, none', one, zero, alone⟩
      · have elsewhere : (queue.calls.set place .entry)[index]? = some pc := by
          rw [List.getElem?_set_ne (Ne.symm same)]
          exact there
        rw [alone pc (List.mem_of_getElem? elsewhere)] at busy
        cases busy
  | nobody _ _ _ _ idle | sent _ _ _ _ _ _ _ _ idle | received _ _ _ _ _ idle
  | offered _ _ _ _ _ idle | released _ _ _ _ _ idle =>
      rw [idle pc (List.mem_of_getElem? there)] at busy
      cases busy

/-- enters `poll` while no other thread is inside, -/
private theorem Tracks.enters (tracks : queue.Tracks pending)
    (there : queue.calls[index]? = some .acquired) :
    (queue.enter { queue with calls := queue.calls.set index .polling }).Tracks pending := by
  obtain ⟨answer, rfl, thread, none', one, zero, alone⟩ := tracks.holds.taker there rfl
  have outside : queue.calls.any (· == .polling) = false := by
    rw [List.any_eq_false]
    intro pc member polls
    obtain ⟨other, found⟩ := List.mem_iff_getElem?.mp member
    rw [beq_iff_eq.mp polls] at found
    by_cases same : other = index
    · subst same
      rw [there] at found
      cases found
    · rw [← List.getElem?_set_ne (Ne.symm same)] at found
      have isIdle := alone _ (List.mem_of_getElem? found)
      cases isIdle
  have unused : queue.inUse = false := by
    rw [inUse, outside, Bool.or_false]
    split
    next at' =>
      rw [at'] at thread
      cases thread
    next => rfl
  rw [enter, if_neg (by rw [unused]; decide)]
  refine tracks.frame tracks.apart tracks.running rfl rfl rfl
    (.taken answer index thread none' one zero (.inr ?_) ?_)
    (returned_set there (by simp) (by simp))
  · rw [getElem?_set_there _ there, if_pos rfl]
  · dsimp only
    rw [List.set_set]
    exact alone

/-- and returns the pending result. -/
private theorem Tracks.polls (tracks : queue.Tracks pending)
    (there : queue.calls[index]? = some .polling) :
    Tracks { queue with
      resultQueue := queue.resultQueue.tail
      calls := queue.calls.set index (.returned queue.resultQueue.head?)
      polled := queue.polled ++ [(index, queue.resultQueue.head?)] } none := by
  obtain ⟨answer, rfl, thread, none', one, zero, alone⟩ := tracks.holds.taker there rfl
  obtain ⟨got, answers, polled⟩ := tracks.history
  have asked := tracks.asked
  have new : index ∉ queue.polled.map Prod.fst := by
    intro member
    obtain ⟨⟨place, result⟩, polledThere, rfl⟩ := List.mem_map.mp member
    have back := (tracks.returned place result).mpr polledThere
    rw [there] at back
    cases back
  rw [one, List.head?_cons, List.tail_cons]
  exact
    { apart := tracks.apart
      running := tracks.running
      answered := tracks.answered
      asked := by
        dsimp only
        rw [List.length_append]
        exact Nat.le_succ_of_le asked
      history := ⟨got ++ [answer], by rw [answers]; simp, by
        dsimp only
        rw [List.map_append, List.map_append, polled]
        rfl⟩
      holds := .nobody thread none' rfl zero (by
        have idle : ∀ pc ∈ (queue.calls.set index .entry).set index
            (.returned (some answer.text)), pc.busy = false := forall_mem_set alone rfl
        rw [List.set_set] at idle
        exact idle)
      once := by
        dsimp only
        rw [List.map_append, List.nodup_append]
        refine ⟨tracks.once, by simp, fun one member other last same => ?_⟩
        rw [List.map_singleton, List.mem_singleton] at last
        rw [same, last] at member
        exact new member
      returned := fun other result => by
        dsimp only
        rw [getElem?_set_there _ there, List.mem_append, List.mem_singleton]
        split
        next here =>
          subst here
          constructor
          · intro same
            cases same
            exact .inr rfl
          · rintro (old | last)
            · exact absurd (List.mem_map_of_mem old) new
            · cases last
              rfl
        next elsewhere =>
          rw [tracks.returned other result]
          constructor
          · exact .inl
          · rintro (old | last)
            · exact old
            · cases last
              exact absurd rfl elsewhere }

private theorem Tracks.callStep (tracks : queue.Tracks pending)
    (stepped : queue.callStep index = some after) : ∃ pending, after.Tracks pending := by
  obtain ⟨pc, there, moved⟩ := Option.bind_eq_some_iff.mp stepped
  cases pc with
  | entry =>
      dsimp only at moved
      split at moved
      next => cases moved
      next permit =>
        cases moved
        exact ⟨_, tracks.acquires there permit⟩
  | acquired =>
      cases moved
      exact ⟨_, tracks.enters there⟩
  | polling =>
      cases moved
      exact ⟨_, tracks.polls there⟩
  | returned => cases moved

theorem Tracks.step (tracks : queue.Tracks pending) {label : ResultQueueStep}
    (turn : queue.OneByOne label) (step : resultQueueMachine.next queue label = some after) :
    ∃ pending, after.Tracks pending := by
  simp only [resultQueueMachine] at step
  split at step
  next => cases step
  next =>
    cases label with
    | request =>
        cases step
        have answered := tracks.answered
        exact ⟨pending, { tracks with
          answered := Nat.le_succ_of_le answered
          asked := Nat.succ_le_succ (Nat.le_of_eq turn.symm)
          holds := tracks.holds.stays (.inl rfl) rfl rfl rfl rfl }⟩
    | answer answer junk => exact ⟨_, tracks.answerStep step⟩
    | thread answered => exact ⟨_, tracks.threadStep step⟩
    | call index => exact tracks.callStep step
    | stop =>
        cases step
        exact ⟨pending, tracks.frame tracks.apart (fun _ => rfl) rfl rfl rfl
          (tracks.holds.stays (.inl rfl) rfl rfl rfl rfl) fun _ _ => Iff.rfl⟩

end Invariant

end ResultQueue

end PaintingCPS
