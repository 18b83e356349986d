import PaintingCPS.Server.Emission
import PaintingCPS.Server.Process

/-!
Contract: what `server_transmit` needs of its client, of the disk and of Storm
to come to a proper end.

`Expects` is about one event and the place of the thread; a thread that gets
what it expects never faults, and it leaves only after an image.

Owns: that a step with an expected event succeeds, and what it adds.

Does not own: the result thread.
-/

set_option autoImplicit false

namespace PaintingCPS

open Foundation

/-- A header with a name that fits and a size that `new char[size]` accepts. -/
def Announces (buffer : List Byte) : Prop :=
  ∃ fileName fileSize, parseHeader buffer = .ok (fileName, fileSize) ∧ 0 ≤ fileSize

instance (buffer : List Byte) : Decidable (Announces buffer) :=
  decidable_of_iff (∃ info ∈ (parseHeader buffer).toOption, 0 ≤ info.2) (by
    unfold Announces
    cases parseHeader buffer with
    | error fault => simp [Except.toOption]
    | ok info => simp [Except.toOption, Prod.ext_iff])

/-- The image buffer has the announced size. -/
def TransmitPc.Fits : TransmitPc → Prop
  | .replying _ fileSize => 0 ≤ fileSize
  | .body _ fileSize img offset => img.length = fileSize ∧ offset ≤ fileSize
  | .submitting _ fileSize img => img.length = fileSize
  | _ => True

namespace Transmit

/-- The replies are written and the file or the spout takes the image. Headers
announce what follows, and no more than that follows. The client leaves at a
header, and not before its first image is complete. -/
def Expects (mode : Mode) (backend : Backend) (thread : Transmit) : Event → Prop
  | .received bytes =>
      match thread.pc, mode with
      | .header, .tcp =>
          if bytes = [] then thread.semMatch = true else Announces (padded bufferSize bytes)
      | .header, .orbit => Announces (padded recvLength bytes)
      | .body _ fileSize _ offset, .tcp => (offset + bytes.length : Nat) ≤ fileSize
      | .body .., .orbit => bytes.length ≤ recvLength
      | _, _ => True
  | .failed =>
      match thread.pc, mode with
      | .header, _ => thread.semMatch = true
      | .body .., .orbit => False
      | _, _ => True
  | .wrote success =>
      match thread.pc with
      | .starting => mode = .tcp → success = true
      | .replying .. => success = true ∨ thread.semMatch = true
      | _ => True
  | .opened success => backend = .kafka ∨ success = true

instance (mode : Mode) (backend : Backend) (thread : Transmit) (event : Event) :
    Decidable (thread.Expects mode backend event) := by
  cases event <;> unfold Expects <;> dsimp only <;> (try split) <;> infer_instance

section Success

variable {mode : Mode} {backend : Backend} {junk : Nat → Byte} {thread : Transmit}

/-- A signal succeeds, and the thread has ended. -/
private theorem signal_fits {pc : TransmitPc} (known : thread.semMatch = true) :
    thread.signal pc = .ok (thread.emit [.post] pc) := by
  rw [signal, if_pos known]

private theorem newArray_fits (junk : Nat → Byte) {fileSize : Int} (size : 0 ≤ fileSize) :
    ∃ img, newArray junk fileSize = .ok img ∧ (img.length : Int) = fileSize := by
  refine ⟨uninitialised junk fileSize.toNat, by rw [newArray, if_neg (by omega)], ?_⟩
  rw [uninitialised_length]
  omega

private theorem tcpHeader_fits {event : Event} (stands : thread.pc = .header)
    (expects : thread.Expects .tcp backend event) {outcome : Except Fault Transmit}
    (step : thread.tcpHeader event = some outcome) :
    ∃ after, outcome = .ok after ∧ after.pc.Fits := by
  cases event with
  | received bytes =>
      simp only [Expects, stands] at expects
      by_cases empty : bytes = []
      · rw [if_pos empty] at expects
        rw [tcpHeader, if_pos empty, signal_fits expects] at step
        exact ⟨_, (Option.some.inj step).symm, trivial⟩
      · rw [if_neg empty] at expects
        obtain ⟨fileName, fileSize, parsed, size⟩ := expects
        simp only [tcpHeader, if_neg empty, parsed, bind, Except.bind] at step
        exact ⟨_, (Option.some.inj step).symm, size⟩
  | failed =>
      simp only [Expects, stands] at expects
      rw [tcpHeader, signal_fits expects] at step
      exact ⟨_, (Option.some.inj step).symm, trivial⟩
  | wrote success => cases step
  | opened success => cases step

private theorem tcpReply_fits {fileName : List Byte} {fileSize : Int} {success : Bool}
    (stands : thread.pc = .replying fileName fileSize) (fits : thread.pc.Fits)
    (expects : thread.Expects .tcp backend (.wrote success)) :
    ∃ after, thread.tcpReply junk fileName fileSize success = .ok after ∧ after.pc.Fits := by
  rw [stands] at fits
  simp only [Expects, stands] at expects
  cases success with
  | true =>
      obtain ⟨img, allocated, length⟩ := newArray_fits junk fits
      refine ⟨thread.emit [.reply] (.body fileName fileSize img 0), ?_, length, fits⟩
      simp only [tcpReply, if_true, allocated, bind, Except.bind, pure, Except.pure]
  | false =>
      have known := expects.resolve_left Bool.false_ne_true
      refine ⟨thread.emit [.post] .ended, ?_, trivial⟩
      rw [tcpReply, if_neg Bool.false_ne_true, signal_fits known]

/-- A write within the image. -/
private theorem writeBytes_fits (bytes : List Byte) (offset : Nat) {img : List Byte}
    {fileSize : Int} (length : (img.length : Int) = fileSize)
    (within : (offset + bytes.length : Nat) ≤ fileSize) :
    ∃ filled, writeBytes img offset bytes = .ok filled ∧ (filled.length : Int) = fileSize := by
  have written := writeBytes_eq (show offset + bytes.length ≤ img.length by omega)
  exact ⟨_, written, by rw [writeBytes_length written, length]⟩

private theorem tcpBody_fits {fileName : List Byte} {fileSize : Int} {img : List Byte}
    {offset : Nat} {event : Event} (stands : thread.pc = .body fileName fileSize img offset)
    (fits : thread.pc.Fits) (expects : thread.Expects .tcp backend event)
    {outcome : Except Fault Transmit}
    (step : thread.tcpBody fileName fileSize img offset event = some outcome) :
    ∃ after, outcome = .ok after ∧ after.pc.Fits := by
  rw [stands] at fits
  obtain ⟨length, -⟩ := fits
  cases event with
  | received bytes =>
      simp only [Expects, stands] at expects
      by_cases empty : bytes = []
      · rw [tcpBody, if_pos empty] at step
        exact ⟨_, (Option.some.inj step).symm, length⟩
      · obtain ⟨filled, written, same⟩ := writeBytes_fits bytes offset length expects
        simp only [tcpBody, if_neg empty, written, bind, Except.bind, pure, Except.pure] at step
        split at step
        · exact ⟨_, (Option.some.inj step).symm, same⟩
        · exact ⟨_, (Option.some.inj step).symm, same, expects⟩
  | failed =>
      rw [tcpBody] at step
      exact ⟨_, (Option.some.inj step).symm, length⟩
  | wrote success => cases step
  | opened success => cases step

private theorem orbitHeader_fits {event : Event} (stands : thread.pc = .header)
    (expects : thread.Expects .orbit backend event) {outcome : Except Fault Transmit}
    (step : thread.orbitHeader junk event = some outcome) :
    ∃ after, outcome = .ok after ∧ after.pc.Fits := by
  cases event with
  | received bytes =>
      simp only [Expects, stands] at expects
      obtain ⟨fileName, fileSize, parsed, size⟩ := expects
      obtain ⟨img, allocated, length⟩ := newArray_fits junk size
      simp only [orbitHeader, parsed, allocated, bind, Except.bind] at step
      exact ⟨_, (Option.some.inj step).symm, length, size⟩
  | failed =>
      simp only [Expects, stands] at expects
      rw [orbitHeader, signal_fits expects] at step
      exact ⟨_, (Option.some.inj step).symm, trivial⟩
  | wrote success => cases step
  | opened success => cases step

private theorem orbitCopy_fits (thread : Transmit) (fileName : List Byte) {fileSize : Int}
    {img buffer : List Byte} {offset : Nat} (length : (img.length : Int) = fileSize)
    (within : offset ≤ fileSize)
    (full : buffer.length = recvLength) :
    ∃ after, thread.orbitCopy fileName fileSize img offset buffer = .ok after ∧
      after.pc.Fits := by
  by_cases last : fileSize - offset ≤ recvLength
  · obtain ⟨filled, written, same⟩ := writeBytes_fits
      (buffer.take (fileSize - offset).toNat) offset length (by rw [List.length_take]; omega)
    refine ⟨thread.finish [] fileName fileSize filled, ?_, same⟩
    simp only [orbitCopy, if_pos last, written, bind, Except.bind, pure, Except.pure]
  · obtain ⟨filled, written, same⟩ := writeBytes_fits buffer offset length (by omega)
    refine ⟨thread.emit [] (.body fileName fileSize filled (offset + recvLength)), ?_, same, ?_⟩
    · simp only [orbitCopy, if_neg last, written, bind, Except.bind, pure, Except.pure]
    · push_cast
      omega

private theorem orbitBody_fits {fileName : List Byte} {fileSize : Int} {img : List Byte}
    {offset : Nat} {event : Event} (stands : thread.pc = .body fileName fileSize img offset)
    (fits : thread.pc.Fits) (expects : thread.Expects .orbit backend event)
    {outcome : Except Fault Transmit}
    (step : thread.orbitBody fileName fileSize img offset event = some outcome) :
    ∃ after, outcome = .ok after ∧ after.pc.Fits := by
  rw [stands] at fits
  obtain ⟨length, within⟩ := fits
  cases event with
  | received bytes =>
      simp only [Expects, stands] at expects
      have full : (padded recvLength bytes).length = recvLength := by
        rw [padded, List.length_append, List.length_replicate]
        omega
      obtain ⟨after, copied, fitsAfter⟩ := orbitCopy_fits thread fileName
        length within full
      rw [orbitBody, copied] at step
      exact ⟨after, (Option.some.inj step).symm, fitsAfter⟩
  | failed =>
      simp only [Expects, stands] at expects
  | wrote success => cases step
  | opened success => cases step

private theorem handOver_fits {fileName : List Byte} {fileSize : Int} {img : List Byte}
    {success : Bool} (stands : thread.pc = .submitting fileName fileSize img)
    (fits : thread.pc.Fits) (expects : backend = .kafka ∨ success = true) :
    ∃ after, thread.handOver backend fileName fileSize img success = .ok after ∧
      after.pc.Fits := by
  rw [stands] at fits
  have whole : readBytes img fileSize = .ok img := by
    have read := readBytes_append img []
    rwa [List.append_nil, show (img.length : Int) = fileSize from fits] at read
  cases backend <;> cases success <;>
    simp_all [handOver, bind, Except.bind, pure, Except.pure, enqueue, emit, TransmitPc.Fits]

private theorem start_fits {success : Bool} (served : mode ≠ .mf) (stands : thread.pc = .starting)
    (expects : thread.Expects mode backend (.wrote success)) {outcome : Except Fault Transmit}
    (step : some (.ok (thread.start mode success)) = some outcome) :
    ∃ after, outcome = .ok after ∧ after.pc.Fits := by
  cases step
  cases mode with
  | tcp =>
      simp only [Expects, stands, true_imp_iff] at expects
      rw [start, if_pos expects]
      exact ⟨_, rfl, trivial⟩
  | orbit => exact ⟨_, rfl, trivial⟩
  | mf => exact absurd rfl served

/-- The thread does not fault on what it expects. -/
theorem step_fits {event : Event} (served : mode ≠ .mf) (fits : thread.pc.Fits)
    (expects : thread.Expects mode backend event) {outcome : Except Fault Transmit}
    (step : thread.step mode backend junk event = some outcome) :
    ∃ after, outcome = .ok after ∧ after.pc.Fits := by
  unfold Transmit.step at step
  split at step
  next stands => exact start_fits served stands expects step
  next stands => exact tcpHeader_fits stands expects step
  next stands => exact orbitHeader_fits stands expects step
  next => exact absurd rfl served
  next stands =>
    obtain ⟨after, replied, fitsAfter⟩ :
        ∃ after, thread.tcpReply junk _ _ _ = .ok after ∧ after.pc.Fits :=
      tcpReply_fits stands fits expects
    rw [replied] at step
    exact ⟨after, (Option.some.inj step).symm, fitsAfter⟩
  next stands => exact tcpBody_fits stands fits expects step
  next stands => exact orbitBody_fits stands fits expects step
  next stands =>
    obtain ⟨after, handed, fitsAfter⟩ := handOver_fits stands fits expects
    rw [handed] at step
    exact ⟨after, (Option.some.inj step).symm, fitsAfter⟩
  next => cases step

end Success

end Transmit

/-! ## What is still to be done -/

/-- What a thread has to do before it waits again. It pushes before it signals,
and it looks for its semaphore before the first signal. -/
inductive Due (known : Bool) : List Action → Prop
  | registering (unknown : known = false) : Due known [.register]
  | answering {pending : List Action}
      (only : ∀ action ∈ pending, action = .reply ∨ action = .submit) : Due known pending
  | handing {handed : Action} (fileName : List Byte)
      (outward : (∃ name content, handed = .store name content) ∨
        ∃ content, handed = .forward content) :
      Due known [handed, .push fileName, .lookup, .post]
  | pushing (fileName : List Byte) : Due known [.push fileName, .lookup, .post]
  | asking : Due known [.lookup, .post]
  | signalling (has : known = true) : Due known [.post]

section Due

variable {known : Bool} {pending : List Action}

/-- Replies and submissions count for nothing. -/
private theorem counts_of_answering
    (only : ∀ action ∈ pending, action = .reply ∨ action = .submit) :
    pending.countP Action.isPush = 0 ∧ pending.count .post = 0 := by
  refine ⟨List.countP_eq_zero.mpr ?_, List.count_eq_zero.mpr ?_⟩
  · intro action member
    rcases only action member with rfl | rfl <;> exact Bool.false_ne_true
  · intro member
    rcases only _ member with reply | submit
    · cases reply
    · cases submit

/-- No more pushes than signals are due. -/
theorem Due.pushes_le (due : Due known pending) :
    pending.countP Action.isPush ≤ pending.count .post := by
  cases due with
  | answering only =>
      rw [(counts_of_answering only).1]
      exact Nat.zero_le _
  | handing fileName outward =>
      rcases outward with ⟨name, content, rfl⟩ | ⟨content, rfl⟩ <;> exact Nat.le_refl 1
  | pushing fileName => exact Nat.le_refl 1
  | registering | asking | signalling => exact Nat.zero_le _

/-- The next action is done, and the rest is due. -/
private theorem Due.tail {action : Action} {rest : List Action}
    (due : Due known (action :: rest)) : Due (known || action == .lookup) rest := by
  cases due with
  | registering unknown => exact .answering nofun
  | answering only => exact .answering fun other member => only other (.tail action member)
  | handing fileName outward => exact .pushing fileName
  | pushing fileName => exact .asking
  | asking => exact .signalling (Bool.or_true _)
  | signalling has => exact .answering nofun

/-- The thread asks for its semaphore before it signals. -/
private theorem Due.lookup {action : Action} {rest : List Action}
    (due : Due known (action :: rest)) (member : Action.lookup ∈ action :: rest) :
    (known || action == .lookup) = true ∨ Action.lookup ∈ rest := by
  rcases List.mem_cons.mp member with same | later
  · subst same
    exact .inl (Bool.or_true _)
  · exact .inr later

/-- Nothing follows a registration. -/
private theorem Due.register {action : Action} {rest : List Action}
    (due : Due known (action :: rest)) : Action.register ∉ rest := by
  intro member
  cases due with
  | answering only => rcases only _ (.tail action member) with reply | submit <;> contradiction
  | registering | signalling => cases member
  | handing | pushing | asking => simp at member

/-- A thread that leaves only after an image deletes no queue. -/
theorem Due.deleteQueue_notMem (due : Due known pending) : Action.deleteQueue ∉ pending := by
  intro member
  cases due with
  | answering only => rcases only _ member with reply | submit <;> contradiction
  | handing fileName outward =>
      rcases outward with ⟨name, content, rfl⟩ | ⟨content, rfl⟩ <;> simp at member
  | registering | pushing | asking | signalling => simp at member

end Due

namespace TransmitThread

/-- Pushes and signals that are due. -/
def pushes (thread : TransmitThread) : Nat := thread.pending.countP Action.isPush

def posts (thread : TransmitThread) : Nat := thread.pending.count .post

/-- One when the thread has left its loop. -/
def left (thread : TransmitThread) : Nat := if thread.state.pc = .ended then 1 else 0

structure Sound (thread : TransmitThread) : Prop where
  fits : thread.state.pc.Fits
  due : Due thread.semMatch.isSome thread.pending
  asks : thread.state.semMatch = true → thread.semMatch.isSome = true ∨ .lookup ∈ thread.pending
  registers : thread.queue = none ↔ .register ∈ thread.pending
  leaves : thread.state.pc = .ended →
    thread.semMatch.isSome = true ∧ (thread.pending = [] ∨ thread.pending = [.post])

section Sound

variable {mode : Mode} {backend : Backend} {thread : TransmitThread}

theorem sound_init (user : User) : (init user).Sound where
  fits := trivial
  due := .registering rfl
  asks := nofun
  registers := ⟨fun _ => List.mem_singleton_self _, fun _ => rfl⟩
  leaves := nofun

/-- What a thread answers, when it gets what it expects. -/
private theorem answers_of_harmless {happened : Event} {state : Transmit} {emitted : List Action}
    (expects : state.Expects mode backend happened)
    (harmless : ∀ action ∈ emitted, state.Harmless mode happened action) :
    ∀ action ∈ emitted, action = .reply := by
  intro action member
  refine (harmless action member).resolve_right ?_
  rintro ⟨-, -, rfl, rfl, within⟩
  cases stands : state.pc <;>
    simp_all [Transmit.Expects, TransmitPc.isBody]

/-- An event that the thread expects. -/
theorem Sound.event {happened : Event} {state : Transmit} {emitted : List Action}
    (sound : thread.Sound) (idle : thread.pending = [])
    (expects : thread.state.Expects mode backend happened)
    (fits : state.pc.Fits)
    (emits : Transmit.Emits mode backend thread.state happened state emitted) :
    ({ thread with state := state, pending := emitted } : TransmitThread).Sound ∧
      ({ thread with state := state, pending := emitted } : TransmitThread).posts =
        ({ thread with state := state, pending := emitted } : TransmitThread).pushes +
          ({ thread with state := state, pending := emitted } : TransmitThread).left ∧
      ({ thread with state := state, pending := emitted } : TransmitThread).ended = false := by
  have known : thread.state.semMatch = true → thread.semMatch.isSome = true := by
    intro asks
    refine (sound.asks asks).resolve_right ?_
    rw [idle]
    exact List.not_mem_nil
  have registered : thread.queue ≠ none := by
    intro unregistered
    have member := sound.registers.mp unregistered
    rw [idle] at member
    cases member
  cases emits with
  | receiving harmless outside within running semSame =>
      have replies := answers_of_harmless expects harmless
      have counts := counts_of_answering fun action member => .inl (replies action member)
      have noRegister : Action.register ∉ emitted := fun member => nomatch replies _ member
      refine ⟨⟨fits, .answering fun action member => .inl (replies action member), ?_, ?_, ?_⟩,
        ?_, ?_⟩
      · exact fun asks => .inl (known (semSame ▸ asks))
      · exact ⟨fun none' => absurd none' registered, fun member => absurd member noRegister⟩
      · exact fun gone => absurd gone running
      · simp [posts, pushes, left, counts, running]
      · simp [ended, running]
  | refused stands tcp gone semSame =>
      simp only [Transmit.Expects, stands, tcp, true_imp_iff] at expects
      cases expects
  | leaving has outside gone semSame =>
      refine ⟨⟨fits, .signalling (known has), ?_, ?_, ?_⟩, ?_, ?_⟩
      · exact fun _ => .inl (known has)
      · exact ⟨fun none' => absurd none' registered, fun member => by simp at member⟩
      · exact fun _ => ⟨known has, .inr rfl⟩
      · simp [posts, pushes, left, gone, Action.isPush]
      · simp [ended]
  | @complete _ _ answered harmless outside within semSame =>
      have replies := answers_of_harmless expects harmless
      have answers : ∀ action ∈ answered ++ [Action.submit],
          action = .reply ∨ action = .submit := by
        intro action member
        rcases List.mem_append.mp member with reply | submit
        · exact .inl (replies action reply)
        · exact .inr (List.mem_singleton.mp submit)
      have counts := counts_of_answering answers
      have running : state.pc ≠ .ended := by
        rintro gone
        rw [gone] at within
        cases within
      refine ⟨⟨fits, .answering answers, ?_, ?_, ?_⟩, ?_, ?_⟩
      · exact fun asks => .inl (known (semSame ▸ asks))
      · refine ⟨fun none' => absurd none' registered, fun member => ?_⟩
        rcases answers _ member with reply | submit
        · cases reply
        · cases submit
      · exact fun gone => absurd gone running
      · rw [posts, pushes, left, counts.1, counts.2, if_neg running]
      · simp [ended]
  | @announced _ _ handed fileName outward within opened next has =>
      have running : state.pc ≠ .ended := by rw [next]; exact nofun
      refine ⟨⟨fits, .handing fileName outward, ?_, ?_, ?_⟩, ?_, ?_⟩
      · exact fun _ => .inr (by simp)
      · refine ⟨fun none' => absurd none' registered, fun member => ?_⟩
        rcases outward with ⟨name, content, rfl⟩ | ⟨content, rfl⟩ <;> simp at member
      · exact fun gone => absurd gone running
      · rcases outward with ⟨name, content, rfl⟩ | ⟨content, rfl⟩ <;>
          simp [posts, pushes, left, running, List.countP_cons, Action.isPush]
      · simp [ended]
  | abandoned discards blocking within gone semSame =>
      rcases expects with kafka | success
      · exact absurd kafka blocking
      · cases success

/-- The next action is done. -/
theorem Sound.act {moved : TransmitThread} {action : Action} {rest : List Action}
    (sound : thread.Sound) (next : thread.pending = action :: rest)
    (state : moved.state = thread.state) (pending : moved.pending = rest)
    (queue : moved.queue = none ↔ thread.queue = none ∧ action ≠ .register)
    (sem : moved.semMatch.isSome = (thread.semMatch.isSome || action == .lookup)) :
    moved.Sound := by
  have due := sound.due
  rw [next] at due
  constructor
  · rw [state]
    exact sound.fits
  · rw [sem, pending]
    exact due.tail
  · rw [state, sem, pending]
    intro asks
    rcases sound.asks asks with has | later
    · rw [has]
      exact .inl rfl
    · exact due.lookup (next ▸ later)
  · rw [queue, pending, sound.registers, next]
    refine ⟨?_, fun member => absurd member due.register⟩
    rintro ⟨member, other⟩
    exact (List.mem_cons.mp member).resolve_left (Ne.symm other)
  · rw [state, sem, pending]
    intro gone
    obtain ⟨has, nothing | last⟩ := sound.leaves gone
    · rw [next] at nothing
      cases nothing
    · rw [next, List.cons.injEq] at last
      rw [has]
      exact ⟨rfl, .inl last.2⟩

/-- Only the signal ends a thread. -/
theorem Sound.runs_act {moved : TransmitThread} {action : Action} {rest : List Action}
    (sound : thread.Sound) (next : thread.pending = action :: rest) (other : action ≠ .post)
    (state : moved.state = thread.state) : moved.ended = false := by
  by_contra gone
  simp only [ended, Bool.not_eq_false, Bool.and_eq_true, beq_iff_eq, state] at gone
  obtain ⟨-, nothing | last⟩ := sound.leaves gone.1
  · rw [next] at nothing
    cases nothing
  · rw [next] at last
    cases last
    exact other rfl

/-- What the next action takes from what is due. -/
theorem counts_act {moved : TransmitThread} {action : Action} {rest : List Action}
    (next : thread.pending = action :: rest) (pending : moved.pending = rest)
    (state : moved.state = thread.state) :
    thread.posts = moved.posts + (if action = .post then 1 else 0) ∧
      thread.pushes = moved.pushes + (if action.isPush then 1 else 0) ∧
      thread.left = moved.left := by
  simp [posts, pushes, left, next, pending, state, List.count_cons, List.countP_cons]

/-- A thread that has something to signal has registered. -/
theorem Sound.queue_of_posts (sound : thread.Sound) (due : 0 < thread.posts) :
    thread.queue ≠ none := by
  intro unregistered
  have member := sound.registers.mp unregistered
  have one := sound.due
  rw [posts] at due
  generalize thread.pending = pending at *
  cases one with
  | registering unknown => cases due
  | answering only => rcases only _ member with reply | submit <;> contradiction
  | handing fileName outward =>
      rcases outward with ⟨name, content, rfl⟩ | ⟨content, rfl⟩ <;> simp at member
  | pushing | asking | signalling => simp at member

/-- Until it ends it has to signal once for every push, and once to leave. -/
theorem Sound.due_le (sound : thread.Sound) (runs : thread.ended = false) :
    thread.pushes + thread.left ≤ thread.posts := by
  have due : thread.pushes ≤ thread.posts := sound.due.pushes_le
  by_cases gone : thread.state.pc = .ended
  · rw [left, if_pos gone]
    obtain ⟨-, nothing | last⟩ := sound.leaves gone
    · simp [ended, gone, nothing] at runs
    · rw [pushes, posts, last]
      exact Nat.le_refl 1
  · rw [left, if_neg gone]
    exact due

/-- An ended thread has done everything. -/
theorem counts_of_ended (gone : thread.ended = true) :
    thread.posts = 0 ∧ thread.pushes = 0 ∧ thread.left = 1 := by
  simp only [ended, Bool.and_eq_true, beq_iff_eq, List.isEmpty_iff] at gone
  simp [posts, pushes, left, gone]

end Sound

end TransmitThread

end PaintingCPS
