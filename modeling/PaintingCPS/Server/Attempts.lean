import PaintingCPS.Server.Upload

/-!
Contract: one upload attempt, complete or cut off, as the receive calls of
`server_transmit` see it.

The network may end or fail at any point. An attempt says which bytes arrive
and where it stops; it becomes the list of events of one pass of the loop.

Owns: attempts, the run of the thread on each of them, and when a partial image
is submitted.

Does not own: what a peer sends that is not part of the announced file.
-/

set_option autoImplicit false

namespace PaintingCPS

open Foundation

/-- What arrives of one announced file. -/
inductive Attempt (upload : Upload) where
  /-- TCP: the reply to the header cannot be written. -/
  | unanswered
  /-- TCP: the pieces arrive; if bytes are missing, the next call returns 0 or
  a negative value. -/
  | tcp (pieces : List (List Byte)) (missing : List Byte) (stop : Event)
      (split : upload.image = pieces.flatten ++ missing)
      (nonempty : ∀ piece ∈ pieces, piece ≠ [])
      (stops : stop = .received [] ∨ stop = .failed)
  /-- Orbit: the client sends `blocks`, and each of as many receive calls
  returns the next one or fails. -/
  | orbit (blocks : List (List Byte)) (arrives : List Bool)
      (covers : Covers recvLength upload.image 0 blocks)
      (full : ∀ block ∈ blocks, block.length = recvLength)
      (calls : arrives.length = blocks.length)
  /-- MF: the one message arrives, perhaps cut, or the call fails. -/
  | mf (message : List Byte) (arrived : Option Nat)
      (header : decimal upload.image.length ++ [comma] <+: message)
      (content : message.drop 10 = upload.image)
      (fits : ∀ count ∈ arrived, count ≤ mfCapacity)

/-- The results of receive calls. -/
def Event.OfReceive (event : Event) : Prop :=
  event = .failed ∨ ∃ bytes, event = .received bytes

namespace Attempt

/-- The results of receive calls, each of which returns the next block or
fails. -/
def deliver : List Bool → List (List Byte) → List Event
  | true :: arrives, block :: blocks => .received block :: deliver arrives blocks
  | false :: arrives, blocks => .failed :: deliver arrives blocks
  | _, _ => []

variable {upload : Upload}

def mode : Attempt upload → Mode
  | unanswered | tcp .. => .tcp
  | orbit .. => .orbit
  | mf .. => .mf

/-- The events of the attempt after the given header. -/
def events (header : List Byte) : Attempt upload → List Event
  | unanswered => [.received header, .wrote false]
  | tcp pieces missing stop _ _ _ =>
      .received header :: .wrote true ::
        (pieces.map .received ++ if missing = [] then [] else [stop])
  | orbit blocks arrives _ _ _ => .received header :: deliver arrives blocks
  | mf message arrived _ _ _ =>
      [match arrived with
        | none => .failed
        | some count => .received (message.take count)]

/-- All bytes of the image arrive. -/
def Complete : Attempt upload → Prop
  | unanswered => False
  | tcp _ missing _ _ _ _ => missing = []
  | orbit _ arrives _ _ _ => ∀ arrival ∈ arrives, arrival = true
  | mf message arrived _ _ _ => ∃ count, arrived = some count ∧ message.length ≤ count

theorem deliver_all {arrives : List Bool} {blocks : List (List Byte)}
    (calls : arrives.length = blocks.length) (all : ∀ arrival ∈ arrives, arrival = true) :
    deliver arrives blocks = blocks.map .received := by
  induction arrives generalizing blocks with
  | nil =>
      cases blocks with
      | nil => rfl
      | cons block blocks => simp at calls
  | cons arrival arrives inductionHypothesis =>
      cases blocks with
      | nil => simp at calls
      | cons block blocks =>
          obtain rfl := all arrival (by simp)
          rw [deliver, inductionHypothesis (by simpa using calls)
            (fun other member => all other (by simp [member])), List.map_cons]

theorem deliver_ofReceive (arrives : List Bool) (blocks : List (List Byte)) :
    ∀ event ∈ deliver arrives blocks, event.OfReceive := by
  fun_induction deliver arrives blocks with
  | case1 arrives block blocks inductionHypothesis =>
      intro event member
      rcases List.mem_cons.mp member with rfl | later
      · exact .inr ⟨block, rfl⟩
      · exact inductionHypothesis event later
  | case2 arrives blocks inductionHypothesis =>
      intro event member
      rcases List.mem_cons.mp member with rfl | later
      · exact .inl rfl
      · exact inductionHypothesis event later
  | case3 => simp

end Attempt

/-- Part of the submission of an image. -/
def Action.submits : Action → Bool
  | submit | store .. | forward .. | push .. => true
  | _ => false

namespace Transmit

variable {mode : Mode} {backend : Backend} {junk : Nat → Byte} {upload : Upload}
variable {thread after : Transmit} {offset : Nat}

theorem run_cons {event : Event}
    (stepped : thread.step mode backend junk event = some (.ok after)) (rest : List Event) :
    thread.run mode backend junk (event :: rest) = after.run mode backend junk rest := by
  rw [run, stepped]

variable (backend junk)

/-! ## TCP -/

/-- Pieces that belong to the image, up to its end or short of it. -/
theorem run_pieces (receiving : Receiving upload thread offset) {pieces : List (List Byte)}
    (nonempty : ∀ piece ∈ pieces, piece ≠ [])
    (next : pieces.flatten <+: upload.image.drop offset) (rest : List Event) :
    ∃ after, thread.run .tcp backend junk (pieces.map .received ++ rest) =
        after.run .tcp backend junk rest ∧
      ((pieces.flatten = upload.image.drop offset ∧ Submitting upload after ∧
          after.actions = thread.actions ++ [.reply, .submit]) ∨
        (pieces.flatten ≠ upload.image.drop offset ∧
          Receiving upload after (offset + pieces.flatten.length) ∧
          after.actions = thread.actions)) := by
  induction pieces generalizing thread offset with
  | nil =>
      refine ⟨thread, rfl, .inr ⟨?_, receiving, rfl⟩⟩
      intro exhausted
      have remaining := receiving.remaining
      have short := congrArg List.length exhausted
      rw [List.length_drop, List.flatten_nil, List.length_nil] at short
      omega
  | cons piece pieces inductionHypothesis =>
      obtain ⟨tail, split⟩ := next
      rw [List.flatten_cons, List.append_assoc] at split
      have remains : upload.image.drop (offset + piece.length) = pieces.flatten ++ tail := by
        rw [← List.drop_drop, ← split, List.drop_left]
      obtain ⟨middle, stepped, done | ⟨receivingMiddle, actions⟩⟩ :=
        step_tcpBody backend junk receiving
          (nonempty piece (by simp)) (split ▸ List.prefix_append _ _)
      · obtain ⟨total, submitting, actions⟩ := done
        rw [total, List.drop_length] at remains
        obtain ⟨restEmpty, tailEmpty⟩ := List.append_eq_nil_iff.mp remains.symm
        have noPieces : pieces = [] := by
          cases pieces with
          | nil => rfl
          | cons other more =>
              have := nonempty other (by simp)
              simp [this] at restEmpty
        subst noPieces
        refine ⟨middle, run_cons stepped rest, .inl ⟨?_, submitting, actions⟩⟩
        rw [← split, tailEmpty, List.flatten_cons, List.append_nil]
      · obtain ⟨after, ran, outcome⟩ := inductionHypothesis receivingMiddle
          (fun other member => nonempty other (by simp [member]))
          (remains ▸ List.prefix_append _ _)
        have same : pieces.flatten = upload.image.drop (offset + piece.length) ↔
            (piece :: pieces).flatten = upload.image.drop offset := by
          rw [remains, ← split, List.flatten_cons, List.append_right_inj]
        refine ⟨after, (run_cons stepped _).trans ran, ?_⟩
        rw [actions, ne_eq, same, Nat.add_assoc, ← List.length_append, ← List.flatten_cons]
          at outcome
        exact outcome

/-- Without further data the thread submits what it has. -/
theorem step_tcpStop (receiving : Receiving upload thread offset) {stop : Event}
    (stops : stop = .received [] ∨ stop = .failed) :
    ∃ after, thread.step .tcp backend junk stop = some (.ok after) ∧
      after.actions = thread.actions ++ [.reply, .submit] := by
  obtain ⟨-, img, atBody, -⟩ := receiving
  refine ⟨thread.finish [.reply] upload.fileName upload.image.length img, ?_, rfl⟩
  rcases stops with rfl | rfl <;> simp [step, atBody, tcpBody]

/-! ## Orbit -/

/-- All blocks of the image. -/
theorem run_blocks (receiving : Receiving upload thread offset) {blocks : List (List Byte)}
    (covers : Covers recvLength upload.image offset blocks)
    (full : ∀ block ∈ blocks, block.length = recvLength) (rest : List Event) :
    ∃ after, thread.run .orbit backend junk (blocks.map .received ++ rest) =
        after.run .orbit backend junk rest ∧
      Submitting upload after ∧ after.actions = thread.actions ++ [.submit] := by
  induction covers generalizing thread with
  | @last offset block small content =>
      obtain ⟨after, stepped, submitting, actions⟩ :=
        step_orbitLast backend junk receiving small content
      exact ⟨after, run_cons stepped rest, submitting, actions⟩
  | @more offset block blocks large content covers inductionHypothesis =>
      obtain ⟨middle, stepped, receivingMiddle, actions⟩ :=
        step_orbitMore backend junk receiving large
          (full block (by simp)) content
      obtain ⟨after, ran, submitting, actionsAfter⟩ := inductionHypothesis receivingMiddle
        fun other member => full other (by simp [member])
      exact ⟨after, (run_cons stepped _).trans ran, submitting, actions ▸ actionsAfter⟩

variable {backend junk}

/-- The thread is inside an upload. -/
def Busy (thread : Transmit) : Prop :=
  (∃ fileName fileSize img offset, thread.pc = .body fileName fileSize img offset) ∨
    ∃ fileName fileSize img, thread.pc = .submitting fileName fileSize img

private theorem orbitCopy_busy {fileName img buffer : List Byte} {fileSize : Int}
    (copied : thread.orbitCopy fileName fileSize img offset buffer = .ok after) : after.Busy := by
  unfold orbitCopy at copied
  split at copied
  next =>
    obtain ⟨filled, -, rest⟩ := bind_eq_ok.mp copied
    cases rest
    exact .inr ⟨_, _, _, rfl⟩
  next =>
    obtain ⟨filled, -, rest⟩ := bind_eq_ok.mp copied
    cases rest
    exact .inl ⟨_, _, _, _, rfl⟩

/-- In orbit mode no result of a receive call ends the thread inside an
upload. -/
theorem step_orbitBusy (busy : thread.Busy) {event : Event} (ofReceive : event.OfReceive)
    (stepped : thread.step .orbit backend junk event = some (.ok after)) : after.Busy := by
  rcases busy with ⟨fileName, fileSize, img, offset, atBody⟩ | ⟨fileName, fileSize, img, atEnd⟩
  · rcases ofReceive with rfl | ⟨bytes, rfl⟩
    · simp only [step, atBody, orbitBody, Option.some.injEq] at stepped
      obtain ⟨signalled, -, copied⟩ := bind_eq_ok.mp stepped
      exact orbitCopy_busy copied
    · simp only [step, atBody, orbitBody, Option.some.injEq] at stepped
      exact orbitCopy_busy stepped
  · rcases ofReceive with rfl | ⟨bytes, rfl⟩ <;> simp [step, atEnd] at stepped

theorem run_orbitBusy (busy : thread.Busy) {events : List Event}
    (ofReceive : ∀ event ∈ events, event.OfReceive)
    (ran : thread.run .orbit backend junk events = some (.ok after)) : after.Busy := by
  induction events generalizing thread with
  | nil =>
      cases ran
      exact busy
  | cons event events inductionHypothesis =>
      rw [run] at ran
      split at ran
      next => cases ran
      next => cases ran
      next middle stepped =>
        exact inductionHypothesis (step_orbitBusy busy (ofReceive event (by simp)) stepped)
          (fun other member => ofReceive other (by simp [member])) ran

theorem Busy.not_ended (busy : thread.Busy) : thread.pc ≠ .ended := by
  rcases busy with ⟨_, _, _, _, atBody⟩ | ⟨_, _, _, atEnd⟩ <;> simp [*]

/-! ## MF -/

/-- In MF mode no result of the receive call ends the thread. -/
theorem run_mf_not_ended (atHeader : thread.pc = .header) (event : Event)
    (ran : thread.run .mf backend junk [event] = some (.ok after)) : after.pc ≠ .ended := by
  have taken : ∀ received middle, thread.mfTake junk received = .ok middle →
      middle.pc ≠ .ended := by
    intro received middle took
    obtain ⟨⟨fileSize, img⟩, -, finished⟩ := bind_eq_ok.mp took
    cases finished
    simp [finish, emit]
  simp only [run, step, atHeader] at ran
  cases event with
  | received bytes =>
      simp only [mfReceive] at ran
      split at ran
      next => cases ran
      next => cases ran
      next middle stepped =>
        cases ran
        exact taken _ _ (Option.some.inj stepped)
  | failed =>
      cases ran
      exact taken none _ rfl
  | wrote success => cases ran
  | opened success => cases ran

end Transmit

/-! ## Partial images -/

namespace Attempt

variable {upload : Upload}

/-- What the attempt must not do: submit or queue anything before all bytes
have arrived, or go on when they cannot arrive any more. -/
def NothingPartial (attempt : Attempt upload) (backend : Backend) (junk : Nat → Byte)
    (header : List Byte) (thread : Transmit) : Prop :=
  (∀ after, thread.run attempt.mode backend junk (attempt.events header) = some (.ok after) →
      after.actions.any Action.submits = true → attempt.Complete) ∧
    (¬ attempt.Complete →
      ∃ after, thread.run attempt.mode backend junk (attempt.events header) = some (.ok after) ∧
        after.pc = .ended ∧ after.actions.any Action.submits = false)

/-- The reply to the header cannot be written, and an image was queued
before. -/
def Refused (thread : Transmit) : Attempt upload → Prop
  | unanswered => thread.semMatch = true
  | _ => False

section Outcomes

variable (backend : Backend) (junk : Nat → Byte) {header : List Byte} {thread : Transmit}

/-- TCP: a complete image is submitted as a whole; anything else that arrives
is submitted as well. -/
theorem run_tcp (accepted : upload.Accepted) (isHeader : upload.IsHeader header)
    (atHeader : thread.pc = .header) {pieces : List (List Byte)} {missing : List Byte}
    {stop : Event} (split : upload.image = pieces.flatten ++ missing)
    (nonempty : ∀ piece ∈ pieces, piece ≠ [])
    (stops : stop = .received [] ∨ stop = .failed) :
    ∃ after, thread.run .tcp backend junk
        ((tcp pieces missing stop split nonempty stops : Attempt upload).events header) =
          some (.ok after) ∧
      (missing = [] → Transmit.Submitting upload after) ∧
      after.actions = thread.actions ++ [.reply, .reply, .submit] := by
  have headerStep := Transmit.step_tcpHeader backend junk accepted
    atHeader isHeader
  obtain ⟨begun, replied, receiving, begunActions⟩ :=
    Transmit.step_tcpReply backend junk
      (show (thread.emit [] (.replying upload.fileName upload.image.length)).pc =
        .replying upload.fileName upload.image.length from rfl)
  obtain ⟨last, ran, outcome⟩ := Transmit.run_pieces backend junk
    receiving nonempty ⟨missing, split.symm⟩ (if missing = [] then [] else [stop])
  have begin : thread.run .tcp backend junk
      ((tcp pieces missing stop split nonempty stops : Attempt upload).events header) =
        last.run .tcp backend junk (if missing = [] then [] else [stop]) :=
    (Transmit.run_cons headerStep _).trans ((Transmit.run_cons replied _).trans ran)
  rw [begin]
  rw [begunActions] at outcome
  rw [List.drop_zero, split, ne_eq, List.self_eq_append_right] at outcome
  rcases outcome with ⟨whole, submitting, actions⟩ | ⟨cut, receivingLast, actions⟩
  · refine ⟨last, ?_, fun _ => submitting, ?_⟩
    · rw [if_pos whole]
      rfl
    · rw [actions]
      simp [Transmit.emit]
  · obtain ⟨after, stopped, actionsAfter⟩ :=
      Transmit.step_tcpStop backend junk receivingLast stops
    refine ⟨after, ?_, fun whole => absurd whole cut, ?_⟩
    · rw [if_neg cut, Transmit.run_cons stopped]
      rfl
    · rw [actionsAfter, actions]
      simp [Transmit.emit]

/-- Orbit: when no receive call fails, the image is submitted as a whole. -/
theorem run_orbit (accepted : upload.Accepted) (isHeader : upload.IsHeader header)
    (atHeader : thread.pc = .header) {blocks : List (List Byte)} {arrives : List Bool}
    (covers : Covers recvLength upload.image 0 blocks)
    (full : ∀ block ∈ blocks, block.length = recvLength)
    (calls : arrives.length = blocks.length) (all : ∀ arrival ∈ arrives, arrival = true) :
    ∃ after, thread.run .orbit backend junk
        ((orbit blocks arrives covers full calls : Attempt upload).events header) =
          some (.ok after) ∧
      Transmit.Submitting upload after ∧
      after.actions = thread.actions ++ [.reply, .submit] := by
  obtain ⟨begun, headerStep, receiving, begunActions⟩ :=
    Transmit.step_orbitHeader backend junk accepted atHeader isHeader
  obtain ⟨after, ran, submitting, actions⟩ :=
    Transmit.run_blocks backend junk receiving covers full []
  refine ⟨after, ?_, submitting, ?_⟩
  · rw [events, deliver_all calls all, Transmit.run_cons headerStep,
      ← List.append_nil (blocks.map Event.received), ran]
    rfl
  · rw [actions, begunActions, List.append_assoc]
    rfl

/-- Orbit: whatever the receive calls of the body return, the thread does not
end. -/
theorem run_orbit_not_ended (accepted : upload.Accepted) (isHeader : upload.IsHeader header)
    (atHeader : thread.pc = .header) (blocks : List (List Byte)) (arrives : List Bool)
    {after : Transmit}
    (ran : thread.run .orbit backend junk (.received header :: deliver arrives blocks) =
      some (.ok after)) : after.pc ≠ .ended := by
  obtain ⟨begun, headerStep, ⟨-, img, atBody, -⟩, -⟩ :=
    Transmit.step_orbitHeader backend junk accepted atHeader isHeader
  rw [Transmit.run_cons headerStep] at ran
  exact (Transmit.run_orbitBusy (.inl ⟨_, _, _, _, atBody⟩)
    (deliver_ofReceive arrives blocks) ran).not_ended

/-- TCP: when the reply to the header cannot be written, the thread takes its
exit, which needs `sem_match`. -/
theorem run_unanswered (accepted : upload.Accepted) (isHeader : upload.IsHeader header)
    (atHeader : thread.pc = .header) :
    thread.run .tcp backend junk ((unanswered : Attempt upload).events header) =
      some (thread.signal .ended) := by
  rw [events, Transmit.run_cons (Transmit.step_tcpHeader backend junk accepted atHeader isHeader)]
  simp only [Transmit.run, Transmit.step, Transmit.tcpReply, Transmit.signal, Transmit.emit,
    Bool.false_eq_true, if_false, List.append_nil]
  cases thread.semMatch <;> rfl

/-- A complete image may be submitted. Where the reply is written, only a complete
one leaves nothing partial if an incomplete one is submitted or waited for. -/
private theorem nothingPartial_iff_of_answered {attempt : Attempt upload}
    (answered : ¬ attempt.Refused thread)
    (completes : attempt.NothingPartial backend junk header thread → attempt.Complete) :
    attempt.NothingPartial backend junk header thread ↔
      attempt.Complete ∨ attempt.Refused thread := by
  constructor
  · exact fun nothing => .inl (completes nothing)
  · rintro (complete | refused)
    · exact ⟨fun _ _ _ => complete, fun incomplete => absurd complete incomplete⟩
    · exact absurd refused answered

end Outcomes

/-- `server_transmit` submits only whole images, and gives up otherwise,
exactly when all bytes arrive or the reply to the header is refused after an
earlier image. -/
theorem nothingPartial_iff {backend : Backend} {junk : Nat → Byte} {header : List Byte}
    {thread : Transmit} (accepted : upload.Accepted) (isHeader : upload.IsHeader header)
    (atHeader : thread.pc = .header) (fresh : thread.actions = []) (attempt : Attempt upload) :
    attempt.NothingPartial backend junk header thread ↔
      attempt.Complete ∨ attempt.Refused thread := by
  cases attempt with
  | unanswered =>
      have ran := run_unanswered backend junk accepted isHeader atHeader
      constructor
      · rintro ⟨-, gives⟩
        obtain ⟨after, same, -, -⟩ := gives id
        rw [mode, ran, Option.some.injEq, Transmit.signal] at same
        split at same
        next known => exact .inr known
        next => cases same
      · rintro (complete | known)
        · exact absurd complete id
        · rw [Transmit.signal, if_pos (show thread.semMatch = true from known)] at ran
          have nothing : (thread.emit [.post] .ended).actions.any Action.submits = false := by
            simp [Transmit.emit, fresh, Action.submits]
          refine ⟨fun after same submitted => ?_, fun _ => ⟨_, ran, rfl, nothing⟩⟩
          rw [mode, ran, Option.some.injEq, Except.ok.injEq] at same
          rw [← same, nothing] at submitted
          cases submitted
  | tcp pieces missing stop split nonempty stops =>
      obtain ⟨after, ran, -, actions⟩ := run_tcp backend junk accepted
        isHeader atHeader split nonempty stops
      refine nothingPartial_iff_of_answered backend junk id ?_
      rintro ⟨submitted, -⟩
      exact submitted after ran (by simp [actions, fresh, Action.submits])
  | orbit blocks arrives covers full calls =>
      refine nothingPartial_iff_of_answered backend junk id ?_
      rintro ⟨-, gives⟩
      by_contra incomplete
      obtain ⟨after, ran, ended, -⟩ := gives incomplete
      exact run_orbit_not_ended backend junk accepted isHeader atHeader blocks arrives ran ended
  | mf message arrived isImage content fits =>
      refine nothingPartial_iff_of_answered backend junk id ?_
      rintro ⟨-, gives⟩
      by_contra incomplete
      obtain ⟨after, ran, ended, -⟩ := gives incomplete
      exact Transmit.run_mf_not_ended atHeader _ ran ended

/-- Two bytes are announced, one arrives, the peer closes the connection. -/
def cutUpload : Upload := ⟨ascii "a", [1, 2], by decide, List.cons_ne_nil _ _⟩

def cutAttempt : Attempt cutUpload :=
  .tcp [[1]] [2] (.received []) rfl (by decide) (.inl rfl)

/-- Both bytes arrive, one by one. -/
def wholeAttempt : Attempt cutUpload :=
  .tcp [[1], [2]] [] (.received []) rfl (by decide) (.inl rfl)

/-- The image is submitted, stored and queued with a byte that nobody sent. -/
theorem cut_image_submitted :
    ¬ cutAttempt.NothingPartial .disk (fun _ => 0) (cutUpload.info ++ [nul])
        ⟨.header, false, 1, []⟩ ∧
      (Transmit.run .tcp .disk (fun _ => 0) ⟨.header, false, 1, []⟩
          (cutAttempt.events (cutUpload.info ++ [nul]) ++ [.opened true])).map
          (Except.map Transmit.actions) =
        some (.ok [.reply, .reply, .submit, .store (ascii "a") [1, 0], .push (ascii "a"),
          .lookup, .post]) := by
  refine ⟨?_, by decide +kernel⟩
  rintro ⟨-, gives⟩
  obtain ⟨after, ran, ended, -⟩ := gives (by simp [cutAttempt, Complete])
  have same : (Transmit.run .tcp .disk (fun _ => 0) ⟨.header, false, 1, []⟩
      (cutAttempt.events (cutUpload.info ++ [nul]))).map (Except.map Transmit.pc) =
        some (.ok (.submitting (ascii "a") 2 [1, 0])) := by decide +kernel
  rw [show Transmit.run .tcp .disk (fun _ => 0) ⟨.header, false, 1, []⟩
    (cutAttempt.events (cutUpload.info ++ [nul])) = some (.ok after) from ran] at same
  simp [Except.map, ended] at same

/-- A complete attempt of the same file is within the rule. -/
theorem nothingPartial_iff_whole :
    (Attempt.tcp [[1], [2]] [] (.received []) rfl (by decide) (.inl rfl) :
        Attempt cutUpload).NothingPartial .disk (fun _ => 0) (cutUpload.info ++ [nul])
      ⟨.header, false, 1, []⟩ :=
  (nothingPartial_iff (by decide) (List.prefix_refl _) rfl rfl _).mpr (.inl rfl)

end Attempt

/-! ## Whole connections -/

/-- Part of what the result thread can notice. -/
def Action.shared : Action → Bool
  | register | push _ | lookup | post | deleteQueue => true
  | _ => false

/-- What a thread does to the queue and the semaphore for the given names and
the end of the connection. -/
def dispatch : List (List Byte) → List Action
  | [] => [.post]
  | fileName :: rest => .push fileName :: .lookup :: .post :: dispatch rest

/-- An image that arrives completely, in TCP or orbit mode. -/
structure Round (mode : Mode) where
  upload : Upload
  accepted : upload.Accepted
  header : List Byte
  isHeader : upload.IsHeader header
  attempt : Attempt upload
  complete : attempt.Complete
  sameMode : attempt.mode = mode
  notMf : mode ≠ .mf

namespace Round

variable {mode : Mode} {junk : Nat → Byte} {thread : Transmit}

/-- The image arrives and its file can be opened. -/
def events (round : Round mode) : List Event :=
  round.attempt.events round.header ++ [.opened true]

private theorem run_append {first rest : List Event} {after : Transmit}
    (ran : thread.run mode .disk junk first = some (.ok after)) :
    thread.run mode .disk junk (first ++ rest) = after.run mode .disk junk rest := by
  induction first generalizing thread with
  | nil =>
      cases ran
      rfl
  | cons event first inductionHypothesis =>
      rw [Transmit.run] at ran
      split at ran
      next => cases ran
      next => cases ran
      next middle stepped =>
        rw [List.cons_append, Transmit.run_cons stepped, inductionHypothesis ran]

variable (junk)

/-- The whole image is submitted. -/
private theorem submitted (round : Round mode) (atHeader : thread.pc = .header) :
    ∃ after, thread.run mode .disk junk (round.attempt.events round.header) = some (.ok after) ∧
      Transmit.Submitting round.upload after ∧
      after.actions.filter Action.shared = thread.actions.filter Action.shared := by
  obtain ⟨upload, accepted, header, isHeader, attempt, complete, rfl, notMf⟩ := round
  cases attempt with
  | unanswered => exact absurd complete id
  | tcp pieces missing stop split nonempty stops =>
      obtain ⟨after, ran, submitting, actions⟩ :=
        Attempt.run_tcp .disk junk accepted isHeader atHeader split nonempty stops
      exact ⟨after, ran, submitting complete, by simp [actions, Action.shared]⟩
  | orbit blocks arrives covers full calls =>
      obtain ⟨after, ran, submitting, actions⟩ :=
        Attempt.run_orbit .disk junk accepted isHeader atHeader covers full calls complete
      exact ⟨after, ran, submitting, by simp [actions, Action.shared]⟩
  | mf => exact absurd rfl notMf

/-- One image: its name is queued and the result thread is told. -/
theorem run (round : Round mode) (atHeader : thread.pc = .header) :
    ∃ after, thread.run mode .disk junk round.events = some (.ok after) ∧
      after.pc = .header ∧ after.semMatch = true ∧
      after.actions.filter Action.shared = thread.actions.filter Action.shared ++
        [.push round.upload.fileName, .lookup, .post] := by
  obtain ⟨middle, ran, submitting, actions⟩ := round.submitted junk atHeader
  refine ⟨middle.enqueue (Transmit.handed round.upload .disk) round.upload.fileName, ?_, rfl,
    rfl, ?_⟩
  · rw [events, run_append ran,
      Transmit.run_cons (Transmit.step_handOver .disk junk mode submitting)]
    rfl
  · simp [Transmit.enqueue, Transmit.emit, Transmit.handed, actions, Action.shared]

/-- The images of one connection, until no further header can be read. -/
def connection (rounds : List (Round mode)) : List Event :=
  .wrote true :: (rounds.flatMap events ++ [.failed])

private theorem run_rounds (known : thread.semMatch = true) (rounds : List (Round mode))
    (notMf : mode ≠ .mf) (atHeader : thread.pc = .header) :
    ∃ after, thread.run mode .disk junk (rounds.flatMap events ++ [.failed]) =
        some (.ok after) ∧ after.pc = .ended ∧
      after.actions.filter Action.shared = thread.actions.filter Action.shared ++
        dispatch (rounds.map fun round => round.upload.fileName) := by
  induction rounds generalizing thread with
  | nil =>
      have signalled : thread.signal .ended = .ok (thread.emit [.post] .ended) := by
        rw [Transmit.signal, if_pos known]
      refine ⟨thread.emit [.post] .ended, ?_, rfl, ?_⟩
      · cases mode with
        | tcp => simp [Transmit.run, Transmit.step, atHeader, Transmit.tcpHeader, signalled]
        | orbit => simp [Transmit.run, Transmit.step, atHeader, Transmit.orbitHeader, signalled]
        | mf => exact absurd rfl notMf
      · simp [Transmit.emit, Action.shared, dispatch]
  | cons round rounds inductionHypothesis =>
      obtain ⟨middle, ran, middleAtHeader, middleKnown, actions⟩ :=
        round.run junk atHeader
      obtain ⟨after, rest, ended, actionsAfter⟩ := inductionHypothesis middleKnown middleAtHeader
      refine ⟨after, ?_, ended, ?_⟩
      · rw [List.flatMap_cons, List.append_assoc, run_append ran, rest]
      · rw [actionsAfter, actions, List.append_assoc]
        rfl

/-- A connection that brings at least one image and then fails to bring a
header: the thread registers its queue, dispatches every image in order, and
signals once more. -/
theorem run_connection {rounds : List (Round mode)} (images : rounds ≠ []) :
    ∃ after, Transmit.init.run mode .disk junk (connection rounds) = some (.ok after) ∧
      after.pc = .ended ∧
      after.actions.filter Action.shared =
        .register :: dispatch (rounds.map fun round => round.upload.fileName) := by
  obtain ⟨round, rest, rfl⟩ := List.exists_cons_of_ne_nil images
  have started : Transmit.init.step mode .disk junk (.wrote true) =
      some (.ok (Transmit.init.emit [.reply] .header)) := by
    cases mode with
    | tcp => rfl
    | orbit => rfl
    | mf => exact absurd rfl round.notMf
  obtain ⟨middle, ran, middleAtHeader, middleKnown, actions⟩ := round.run junk
    (show (Transmit.init.emit [.reply] .header).pc = .header from rfl)
  obtain ⟨after, others, ended, actionsAfter⟩ :=
    run_rounds junk middleKnown rest round.notMf middleAtHeader
  refine ⟨after, ?_, ended, ?_⟩
  · rw [connection, Transmit.run_cons started, List.flatMap_cons, List.append_assoc,
      run_append ran, others]
  · rw [actionsAfter, actions]
    rfl

end Round

end PaintingCPS
