import PaintingCPS.Server.Transmit

/-!
Contract: what `server_transmit` does with the messages of one upload.

`Upload` is a file as a client can announce it. One lemma for each step of the
thread says where the step leads when the expected bytes arrive; the proofs
about whole uploads use only these lemmas.

Owns: announced files, the steps of the thread on their headers and pieces,
and the images a thread has stored.

Does not own: clients, and what happens when other bytes arrive.
-/

set_option autoImplicit false

namespace PaintingCPS

open Foundation

/-- A non-empty file under a name that a header can carry. -/
structure Upload where
  fileName : List Byte
  image : List Byte
  field : IsField isComma fileName
  nonempty : image ≠ []

namespace Upload

/-- `"%s,%ld"` -/
def info (upload : Upload) : List Byte :=
  upload.fileName ++ comma :: decimal upload.image.length

/-- The name fits `file_name_temp` and the size fits an `int`. -/
structure Accepted (upload : Upload) : Prop where
  name : upload.fileName.length < fileNameCapacity
  size : upload.image.length < 2 ^ 31

instance (upload : Upload) : Decidable upload.Accepted :=
  decidable_of_iff (upload.fileName.length < fileNameCapacity ∧ upload.image.length < 2 ^ 31)
    ⟨fun ⟨name, size⟩ => ⟨name, size⟩, fun accepted => ⟨accepted.name, accepted.size⟩⟩

theorem image_pos (upload : Upload) : 0 < upload.image.length :=
  List.length_pos_iff.mpr upload.nonempty

/-- The info text in a buffer that has room for it parses to the name and the
size. -/
theorem parseHeader_info {upload : Upload} (accepted : upload.Accepted) (tail : List Byte) :
    parseHeader (upload.info ++ nul :: tail) =
      .ok (upload.fileName, (upload.image.length : Int)) := by
  have size := accepted.size
  have named : strtok isComma (upload.info ++ nul :: tail) =
      .ok (some ⟨upload.fileName, decimal upload.image.length ++ nul :: tail,
        decimal upload.image.length ++ nul :: tail⟩) := by
    rw [info, List.append_assoc, List.cons_append]
    exact strtok_delimited upload.field isComma_comma (by decide) _
  have sized := strtok_terminated (isField_decimal isComma_of_isDigit upload.image.length) tail
  have parsed : toInt32 (strtol (decimal upload.image.length)) = upload.image.length := by
    rw [strtol_decimal (by omega), toInt32_of_range (by omega) (by omega)]
  simp only [parseHeader, named, sized, bind, Except.bind, deref_some,
    if_neg (Nat.not_le.mpr accepted.name), parsed, pure, Except.pure]

/-- A name that does not fit `file_name_temp` is copied past its end. -/
theorem parseHeader_overflow {upload : Upload}
    (long : fileNameCapacity ≤ upload.fileName.length) (tail : List Byte) :
    parseHeader (upload.info ++ nul :: tail) = .error .outOfBounds := by
  have named : strtok isComma (upload.info ++ nul :: tail) =
      .ok (some ⟨upload.fileName, decimal upload.image.length ++ nul :: tail,
        decimal upload.image.length ++ nul :: tail⟩) := by
    rw [info, List.append_assoc, List.cons_append]
    exact strtok_delimited upload.field isComma_comma (by decide) _
  simp only [parseHeader, named, bind, Except.bind, deref_some, if_pos long]

/-- A buffer that starts with the info text and a NUL is a header, however it
is padded. -/
def IsHeader (upload : Upload) (buffer : List Byte) : Prop :=
  upload.info ++ [nul] <+: buffer

theorem IsHeader.parse {upload : Upload} (accepted : upload.Accepted) {buffer : List Byte}
    (header : upload.IsHeader buffer) :
    parseHeader buffer = .ok (upload.fileName, (upload.image.length : Int)) := by
  obtain ⟨tail, rfl⟩ := header
  rw [List.append_assoc, List.singleton_append]
  exact parseHeader_info accepted tail

theorem IsHeader.overflow {upload : Upload} (long : fileNameCapacity ≤ upload.fileName.length)
    {buffer : List Byte} (header : upload.IsHeader buffer) :
    parseHeader buffer = .error .outOfBounds := by
  obtain ⟨tail, rfl⟩ := header
  rw [List.append_assoc, List.singleton_append]
  exact parseHeader_overflow long tail

theorem IsHeader.padded {upload : Upload} {bytes : List Byte} (header : upload.IsHeader bytes)
    (size : Nat) : upload.IsHeader (Foundation.padded size bytes) :=
  header.trans (List.prefix_append _ _)

/-- The buffer of an announced file is as long as the file. -/
theorem newArray_image (upload : Upload) (junk : Nat → Byte) :
    newArray junk (upload.image.length : Int) =
      .ok (uninitialised junk upload.image.length) := by
  rw [newArray, if_neg (by omega), Int.toNat_natCast]

/-- The name and the contents of the file. -/
def entry (upload : Upload) : List Byte × List Byte := (upload.fileName, upload.image)

theorem entry_injective : Function.Injective entry := by
  rintro ⟨fileName, image, _, _⟩ ⟨otherName, otherImage, _, _⟩ same
  obtain ⟨rfl, rfl⟩ := Prod.mk.inj same
  rfl

end Upload

/-- The file that an action writes. -/
def Action.stored : Action → Option (List Byte × List Byte)
  | store fileName content => some (fileName, content)
  | _ => none

namespace Transmit

/-- The files written, oldest first. -/
def stored (thread : Transmit) : List (List Byte × List Byte) :=
  thread.actions.filterMap Action.stored

/-- The number of replies sent. -/
def replies (thread : Transmit) : Nat := thread.actions.count .reply

theorem stored_append {thread after : Transmit} {actions : List Action}
    (did : after.actions = thread.actions ++ actions) :
    after.stored = thread.stored ++ actions.filterMap Action.stored := by
  rw [stored, did, List.filterMap_append]
  rfl

theorem replies_append {thread after : Transmit} {actions : List Action}
    (did : after.actions = thread.actions ++ actions) :
    after.replies = thread.replies + actions.count .reply := by
  rw [replies, did, List.count_append]
  rfl

/-- The thread waits for the bytes of `upload` from `offset` on. -/
structure Receiving (upload : Upload) (thread : Transmit) (offset : Nat) : Prop where
  remaining : offset < upload.image.length
  waiting : ∃ img, thread.pc = .body upload.fileName upload.image.length img offset ∧
    Filled upload.image img offset

/-- The thread has all of `upload` and has called `submit_request` for it. -/
def Submitting (upload : Upload) (thread : Transmit) : Prop :=
  thread.pc = .submitting upload.fileName upload.image.length upload.image

section Steps

variable (backend : Backend) (junk : Nat → Byte) {upload : Upload} {thread : Transmit}
variable {offset : Nat}

private theorem receiving_start (upload : Upload) (junk : Nat → Byte) (thread : Transmit)
    (actions : List Action) :
    Receiving upload (thread.emit actions (.body upload.fileName upload.image.length
      (uninitialised junk upload.image.length) 0)) 0 :=
  ⟨upload.image_pos, _, rfl, .start junk upload.image⟩

/-- Orbit: a header message. -/
theorem step_orbitHeader (accepted : upload.Accepted) (atHeader : thread.pc = .header)
    {bytes : List Byte} (header : upload.IsHeader bytes) :
    ∃ after, thread.step .orbit backend junk (.received bytes) = some (.ok after) ∧
      Receiving upload after 0 ∧ after.actions = thread.actions ++ [.reply] := by
  refine ⟨_, ?_, receiving_start upload junk thread [.reply], rfl⟩
  simp only [step, atHeader, orbitHeader, (header.padded recvLength).parse accepted, bind,
    Except.bind, upload.newArray_image, pure, Except.pure]

/-- Orbit: a header with a name that is too long. -/
theorem step_orbitOverflow (long : fileNameCapacity ≤ upload.fileName.length)
    (atHeader : thread.pc = .header) {bytes : List Byte} (header : upload.IsHeader bytes) :
    thread.step .orbit backend junk (.received bytes) = some (.error .outOfBounds) := by
  simp only [step, atHeader, orbitHeader, (header.padded recvLength).overflow long, bind,
    Except.bind]

/-- Orbit: a block that is not the last. -/
theorem step_orbitMore (receiving : Receiving upload thread offset)
    (large : recvLength < upload.image.length - offset) {bytes : List Byte}
    (full : bytes.length = recvLength)
    (content : (upload.image.drop offset).take recvLength <+: bytes) :
    ∃ after, thread.step .orbit backend junk (.received bytes) = some (.ok after) ∧
      Receiving upload after (offset + recvLength) ∧ after.actions = thread.actions := by
  obtain ⟨-, img, atBody, filled⟩ := receiving
  have exact : bytes = (upload.image.drop offset).take recvLength := by
    refine (content.eq_of_length ?_).symm
    rw [List.length_take, List.length_drop, full]
    omega
  obtain ⟨after, written, filledAfter⟩ :=
    filled.write (show bytes <+: upload.image.drop offset from exact ▸ List.take_prefix _ _)
  rw [full] at filledAfter
  refine ⟨thread.emit [] (.body upload.fileName upload.image.length after (offset + recvLength)),
    ?_, ⟨by omega, after, rfl, filledAfter⟩, List.append_nil _⟩
  have notLast : ¬ (upload.image.length : Int) - offset ≤ recvLength := by omega
  simp only [step, atBody, orbitBody, orbitCopy, if_neg notLast, padded, full, Nat.sub_self,
    List.replicate_zero, List.append_nil, written, bind, Except.bind, pure, Except.pure]

/-- Orbit: the last block. -/
theorem step_orbitLast (receiving : Receiving upload thread offset)
    (small : upload.image.length - offset ≤ recvLength) {bytes : List Byte}
    (content : upload.image.drop offset <+: bytes) :
    ∃ after, thread.step .orbit backend junk (.received bytes) = some (.ok after) ∧
      Submitting upload after ∧ after.actions = thread.actions ++ [.submit] := by
  obtain ⟨remaining, img, atBody, filled⟩ := receiving
  have taken : (padded recvLength bytes).take
      ((upload.image.length : Int) - offset).toNat = upload.image.drop offset := by
    obtain ⟨rest, rfl⟩ := content
    rw [padded, List.append_assoc, List.take_append_of_le_length (by simp)]
    exact List.take_of_length_le (by rw [List.length_drop]; omega)
  obtain ⟨after, written, filledAfter⟩ :=
    filled.write (List.prefix_refl _)
  have total : offset + (upload.image.drop offset).length = upload.image.length := by
    rw [List.length_drop]
    omega
  rw [total] at filledAfter
  have last : (upload.image.length : Int) - offset ≤ recvLength := by omega
  refine ⟨thread.finish [] upload.fileName upload.image.length after, ?_, ?_, rfl⟩
  · simp only [step, atBody, orbitBody, orbitCopy, if_pos last, taken, written, bind,
      Except.bind, pure, Except.pure]
  · rw [filledAfter.complete]
    rfl

/-- TCP: a header read in full. -/
theorem step_tcpHeader (accepted : upload.Accepted) (atHeader : thread.pc = .header)
    {bytes : List Byte} (header : upload.IsHeader bytes) :
    thread.step .tcp backend junk (.received bytes) =
      some (.ok (thread.emit [] (.replying upload.fileName upload.image.length))) := by
  have nonempty : bytes ≠ [] := by
    rintro rfl
    have := List.prefix_nil.mp header
    simp at this
  simp only [step, atHeader, tcpHeader, if_neg nonempty, (header.padded bufferSize).parse accepted,
    bind, Except.bind, pure, Except.pure]

/-- TCP: the reply to the header. -/
theorem step_tcpReply
    (replying : thread.pc = .replying upload.fileName upload.image.length) :
    ∃ after, thread.step .tcp backend junk (.wrote true) = some (.ok after) ∧
      Receiving upload after 0 ∧ after.actions = thread.actions ++ [.reply] := by
  refine ⟨_, ?_, receiving_start upload junk thread [.reply], rfl⟩
  simp only [step, replying, tcpReply, if_true, upload.newArray_image, bind, Except.bind, pure,
    Except.pure]

/-- TCP: a piece of the body, wherever it was cut. -/
theorem step_tcpBody (receiving : Receiving upload thread offset) {piece : List Byte}
    (nonempty : piece ≠ []) (next : piece <+: upload.image.drop offset) :
    ∃ after, thread.step .tcp backend junk (.received piece) = some (.ok after) ∧
      ((offset + piece.length = upload.image.length ∧ Submitting upload after ∧
          after.actions = thread.actions ++ [.reply, .submit]) ∨
        (Receiving upload after (offset + piece.length) ∧ after.actions = thread.actions)) := by
  obtain ⟨remaining, img, atBody, filled⟩ := receiving
  obtain ⟨after, written, filledAfter⟩ := filled.write next
  by_cases done : offset + piece.length = upload.image.length
  · refine ⟨thread.finish [.reply] upload.fileName upload.image.length after, ?_,
      .inl ⟨done, ?_, rfl⟩⟩
    · have isDone : ((offset + piece.length : Nat) : Int) = upload.image.length :=
        congrArg Int.ofNat done
      simp only [step, atBody, tcpBody, if_neg nonempty, written, if_pos isDone, bind,
        Except.bind, pure, Except.pure]
    · rw [done] at filledAfter
      rw [filledAfter.complete]
      rfl
  · have within := filledAfter.within
    refine ⟨thread.emit [] (.body upload.fileName upload.image.length after
      (offset + piece.length)), ?_, .inr ⟨⟨by omega, after, rfl, filledAfter⟩,
        List.append_nil _⟩⟩
    have notDone : ¬ ((offset + piece.length : Nat) : Int) = upload.image.length :=
      fun equal => done (Int.ofNat.inj equal)
    simp only [step, atBody, tcpBody, if_neg nonempty, written, if_neg notDone, bind,
      Except.bind, pure, Except.pure]

/-- What hands an image over. -/
def handed (upload : Upload) : Backend → Action
  | .disk => .store upload.fileName upload.image
  | .kafka | .spout => .forward upload.image

/-- Every mode: the image is handed over, queued and announced. -/
theorem step_handOver (mode : Mode) (submitting : Submitting upload thread) :
    thread.step mode backend junk (.opened true) =
      some (.ok (thread.enqueue (handed upload backend) upload.fileName)) := by
  have whole : readBytes upload.image upload.image.length = .ok upload.image := by
    have read := readBytes_append upload.image []
    rwa [List.append_nil] at read
  cases backend <;>
    simp only [step, show thread.pc = _ from submitting, handOver, whole, handed, bind,
      Except.bind, pure, Except.pure]

end Steps

/-! ## The number of messages of a body -/

/-- The image has been received. -/
def AtSubmission (thread : Transmit) : Prop :=
  ∃ fileName fileSize img, thread.pc = .submitting fileName fileSize img

/-- The receive loop of orbit mode takes exactly `count` messages, whatever
they hold. -/
def ReadsBodies (junk : Nat → Byte) (thread : Transmit) (count : Nat) : Prop :=
  ∀ buffers : List (List Byte), buffers.length = count →
    (∀ buffer ∈ buffers, buffer.length = recvLength) →
    ∃ after, thread.run .orbit .disk junk (buffers.map .received) = some (.ok after) ∧
      after.AtSubmission

section ReadsBodies

variable {junk : Nat → Byte} {thread : Transmit} {fileName img : List Byte} {size offset : Nat}

private theorem exists_writeBytes {bytes : List Byte} (fits : offset + bytes.length ≤ img.length) :
    ∃ filled, writeBytes img offset bytes = .ok filled ∧ filled.length = img.length :=
  ⟨_, writeBytes_eq fits, writeBytes_length (writeBytes_eq fits)⟩

private theorem step_bufferLast (atBody : thread.pc = .body fileName size img offset)
    (allocated : img.length = size) (remaining : offset < size)
    (last : size - offset ≤ recvLength) {buffer : List Byte}
    (full : buffer.length = recvLength) :
    ∃ after, thread.step .orbit .disk junk (.received buffer) = some (.ok after) ∧
      after.AtSubmission := by
  have isLast : (size : Int) - offset ≤ recvLength := by omega
  obtain ⟨filled, written, -⟩ := exists_writeBytes
    (show offset + (buffer.take ((size : Int) - offset).toNat).length ≤ img.length by
      rw [List.length_take]
      omega)
  refine ⟨thread.finish [] fileName size filled, ?_, _, _, _, rfl⟩
  simp only [step, atBody, orbitBody, orbitCopy, if_pos isLast, padded, full, Nat.sub_self,
    List.replicate_zero, List.append_nil, written, bind, Except.bind, pure, Except.pure]

private theorem step_bufferMore (atBody : thread.pc = .body fileName size img offset)
    (allocated : img.length = size) (more : recvLength < size - offset) {buffer : List Byte}
    (full : buffer.length = recvLength) :
    ∃ filled, thread.step .orbit .disk junk (.received buffer) =
        some (.ok (thread.emit [] (.body fileName size filled (offset + recvLength)))) ∧
      filled.length = size := by
  have isNotLast : ¬ (size : Int) - offset ≤ recvLength := by omega
  obtain ⟨filled, written, same⟩ :=
    exists_writeBytes (show offset + buffer.length ≤ img.length by omega)
  refine ⟨filled, ?_, same.trans allocated⟩
  simp only [step, atBody, orbitBody, orbitCopy, if_neg isNotLast, padded, full, Nat.sub_self,
    List.replicate_zero, List.append_nil, written, bind, Except.bind, pure, Except.pure]

private theorem run_bodies_iff {buffers : List (List Byte)}
    (atBody : thread.pc = .body fileName size img offset) (allocated : img.length = size)
    (remaining : offset < size) (full : ∀ buffer ∈ buffers, buffer.length = recvLength) :
    (∃ after, thread.run .orbit .disk junk (buffers.map .received) = some (.ok after) ∧
        after.AtSubmission) ↔
      buffers.length = (size - offset + recvLength - 1) / recvLength := by
  have positive : 0 < recvLength := by decide
  induction buffers generalizing thread img offset with
  | nil =>
      have some : 0 < (size - offset + recvLength - 1) / recvLength :=
        Nat.div_pos (by omega) positive
      refine ⟨?_, fun none => by rw [List.length_nil] at none; omega⟩
      rintro ⟨after, ran, _, _, _, submitting⟩
      cases ran
      rw [atBody] at submitting
      cases submitting
  | cons buffer buffers inductionHypothesis =>
      obtain ⟨fullFirst, fullRest⟩ := List.forall_mem_cons.mp full
      by_cases last : size - offset ≤ recvLength
      · have counted : (size - offset + recvLength - 1) / recvLength = 1 := by
          rw [Nat.div_eq_iff positive]
          omega
        obtain ⟨submitted, stepped, isSubmitting⟩ :=
          step_bufferLast atBody allocated remaining last fullFirst
        rw [counted, List.map_cons, run, stepped, List.length_cons]
        dsimp only
        cases buffers with
        | nil => exact ⟨fun _ => rfl, fun _ => ⟨submitted, rfl, isSubmitting⟩⟩
        | cons next buffers =>
            obtain ⟨_, _, _, submitting⟩ := isSubmitting
            have stuck : submitted.step .orbit .disk junk (.received next) = none := by
              simp only [step, submitting]
            simp [run, stuck]
      · have split : size - offset + recvLength - 1 =
            (size - (offset + recvLength) + recvLength - 1) + recvLength := by omega
        obtain ⟨filled, stepped, same⟩ :=
          step_bufferMore atBody allocated (Nat.not_le.mp last) fullFirst
        rw [split, Nat.add_div_right _ positive, List.length_cons, Nat.succ_inj, List.map_cons,
          run, stepped]
        exact inductionHypothesis rfl same (by omega) fullRest

/-- The loop takes as many messages as the announced size has blocks. -/
theorem readsBodies_iff (atBody : thread.pc = .body fileName size img offset)
    (allocated : img.length = size) (remaining : offset < size) {count : Nat} :
    thread.ReadsBodies junk count ↔
      count = (size - offset + recvLength - 1) / recvLength := by
  constructor
  · intro reads
    have zeros : ∀ buffer ∈ List.replicate count (List.replicate recvLength (0 : Byte)),
        buffer.length = recvLength := by
      intro buffer member
      rw [List.eq_of_mem_replicate member, List.length_replicate]
    have counted := (run_bodies_iff atBody allocated remaining zeros).mp
      (reads _ List.length_replicate zeros)
    rwa [List.length_replicate] at counted
  · rintro rfl buffers counted full
    exact (run_bodies_iff atBody allocated remaining full).mpr counted

end ReadsBodies

end Transmit

end PaintingCPS
