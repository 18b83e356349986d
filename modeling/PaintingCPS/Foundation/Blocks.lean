import PaintingCPS.Foundation.CString

/-!
Contract: a byte sequence that travels in pieces and is put together again.

The receiver owns a buffer of the announced length and copies one piece after
the other behind what it has. A sender that reads a file in blocks of a fixed
size produces pieces that may be padded or cut at the end; `Covers` says which
pieces a receiver with a fixed block size can reassemble, whatever the padding.

Owns: partially filled buffers and their write rule, the reassembly relation,
and the blocks of a file.

Does not own: any channel or message format.
-/

set_option autoImplicit false

namespace PaintingCPS.Foundation

/-! ## Partially filled buffers -/

/-- The first `offset` bytes of the buffer are those of `whole`; the rest of
the buffer, up to the length of `whole`, is arbitrary. -/
structure Filled (whole buffer : List Byte) (offset : Nat) : Prop where
  within : offset ≤ whole.length
  length : buffer.length = whole.length
  matching : buffer.take offset = whole.take offset

section Filled

variable {whole buffer : List Byte} {offset : Nat}

theorem Filled.start (junk : Nat → Byte) (whole : List Byte) :
    Filled whole (uninitialised junk whole.length) 0 :=
  ⟨by omega, uninitialised_length junk _, rfl⟩

/-- Copying the next bytes of `whole` stays inside the buffer and extends the
filled part by exactly these bytes. -/
theorem Filled.write (filled : Filled whole buffer offset) {piece : List Byte}
    (next : piece <+: whole.drop offset) :
    ∃ after, writeBytes buffer offset piece = .ok after ∧
      Filled whole after (offset + piece.length) := by
  obtain ⟨within, length, matching⟩ := filled
  obtain ⟨rest, split⟩ := next
  have total : piece.length + rest.length = whole.length - offset := by
    rw [← List.length_append, split, List.length_drop]
  have wholeSplit : whole = whole.take offset ++ piece ++ rest := by
    rw [List.append_assoc, split, List.take_append_drop]
  refine ⟨_, writeBytes_eq (by omega), by omega, ?_, ?_⟩
  · simp only [List.length_append, List.length_take, List.length_drop]
    omega
  · have before : (buffer.take offset ++ piece).length = offset + piece.length := by
      rw [List.length_append, List.length_take, length, Nat.min_eq_left within]
    have wholeBefore : (whole.take offset ++ piece).length = offset + piece.length := by
      rw [List.length_append, List.length_take, Nat.min_eq_left within]
    rw [← before, List.take_left, before, matching]
    conv_rhs => rw [wholeSplit]
    rw [← wholeBefore, List.take_left]

/-- A buffer that is filled to its end is the whole sequence. -/
theorem Filled.complete (filled : Filled whole buffer whole.length) : buffer = whole := by
  have matching := filled.matching
  rwa [List.take_length, List.take_of_length_le (Nat.le_of_eq filled.length)] at matching

end Filled

/-! ## Reassembly from blocks -/

/-- The blocks from which a receiver that takes `size` bytes of each block, and
stops at the first block that can hold the rest, obtains `whole` from `offset`
on. What a block holds beyond the bytes taken is arbitrary. -/
inductive Covers (size : Nat) (whole : List Byte) : Nat → List (List Byte) → Prop
  | last {offset : Nat} {block : List Byte} :
      whole.length - offset ≤ size →
      whole.drop offset <+: block →
      Covers size whole offset [block]
  | more {offset : Nat} {block : List Byte} {rest : List (List Byte)} :
      size < whole.length - offset →
      (whole.drop offset).take size <+: block →
      Covers size whole (offset + size) rest →
      Covers size whole offset (block :: rest)

section Covers

variable {size : Nat} {whole : List Byte} {offset : Nat} {blocks : List (List Byte)}

theorem Covers.ne_nil (covers : Covers size whole offset blocks) : blocks ≠ [] := by
  cases covers <;> simp

/-- The receiver needs ⌈remaining / size⌉ blocks, and at least one. -/
theorem Covers.length_eq (covers : Covers size whole offset blocks) (positive : 0 < size)
    (remaining : offset < whole.length) :
    blocks.length = (whole.length - offset + size - 1) / size := by
  induction covers with
  | @last offset block fits content =>
      have counted : (whole.length - offset + size - 1) / size = 1 := by
        rw [Nat.div_eq_iff positive]
        omega
      rw [counted, List.length_singleton]
  | @more offset block rest large content covers inductionHypothesis =>
      have split : whole.length - offset + size - 1 =
          (whole.length - (offset + size) + size - 1) + size := by omega
      rw [List.length_cons, inductionHypothesis (by omega), split,
        Nat.add_div_right _ positive]

end Covers

/-! ## Blocks of a file -/

/-- `fread` into a buffer of `size` bytes until it returns 0: the blocks it
obtains. The first argument bounds the number of calls. -/
def freadBlocks (size : Nat) : Nat → List Byte → List (List Byte)
  | 0, _ => []
  | calls + 1, content =>
      if content = [] then []
      else content.take size :: freadBlocks size calls (content.drop size)

/-- The blocks of a file. Every call but the last returns at least one byte. -/
def fileBlocks (size : Nat) (content : List Byte) : List (List Byte) :=
  freadBlocks size (content.length + 1) content

/-- A block at the start of a buffer that was zero. -/
def padded (size : Nat) (block : List Byte) : List Byte :=
  block ++ List.replicate (size - block.length) 0

theorem le_padded_length (size : Nat) (block : List Byte) : size ≤ (padded size block).length := by
  rw [padded, List.length_append, List.length_replicate]
  omega

/-- Zeros behind a text do not change the C string. -/
theorem cString_padded (size : Nat) (block : List Byte) :
    cString (padded size block) = cString block := by
  have zeros : cString (List.replicate (size - block.length) 0) = [] := by
    cases size - block.length with
    | zero => rfl
    | succ count => rfl
  rw [padded, cString, List.takeWhile_append]
  split
  next whole =>
    rw [← cString, zeros, List.append_nil]
    exact (List.takeWhile_prefix _).eq_of_length whole |>.symm
  next => rfl

section FileBlocks

variable {size : Nat}

private theorem flatten_freadBlocks (positive : 0 < size) {calls : Nat} {content : List Byte}
    (enough : content.length < calls) : (freadBlocks size calls content).flatten = content := by
  induction calls generalizing content with
  | zero => omega
  | succ calls inductionHypothesis =>
      rw [freadBlocks]
      split
      next empty => rw [empty, List.flatten_nil]
      next nonempty =>
        have shorter : (content.drop size).length < calls := by
          have := List.length_pos_iff.mpr nonempty
          rw [List.length_drop]
          omega
        rw [List.flatten_cons, inductionHypothesis shorter, List.take_append_drop]

/-- The blocks of a file are its content in order. -/
theorem flatten_fileBlocks (positive : 0 < size) (content : List Byte) :
    (fileBlocks size content).flatten = content :=
  flatten_freadBlocks positive (Nat.lt_succ_self _)

/-- No block of a file is empty. -/
theorem ne_nil_of_mem_fileBlocks (positive : 0 < size) {content block : List Byte}
    (member : block ∈ fileBlocks size content) : block ≠ [] := by
  unfold fileBlocks at member
  generalize content.length + 1 = calls at member
  induction calls generalizing content with
  | zero => cases member
  | succ calls inductionHypothesis =>
      rw [freadBlocks] at member
      split at member
      next => cases member
      next nonempty =>
        rcases List.mem_cons.mp member with rfl | rest
        · rw [ne_eq, List.take_eq_nil_iff, not_or]
          exact ⟨by omega, nonempty⟩
        · exact inductionHypothesis rest

/-- No block of a file is longer than the buffer. -/
theorem length_le_of_mem_fileBlocks {content block : List Byte}
    (member : block ∈ fileBlocks size content) : block.length ≤ size := by
  unfold fileBlocks at member
  generalize content.length + 1 = calls at member
  induction calls generalizing content with
  | zero => cases member
  | succ calls inductionHypothesis =>
      rw [freadBlocks] at member
      split at member
      next => cases member
      next =>
        rcases List.mem_cons.mp member with rfl | rest
        · exact List.length_take_le _ _
        · exact inductionHypothesis rest

private theorem covers_freadBlocks (positive : 0 < size) {whole : List Byte} {calls offset : Nat}
    (remaining : offset < whole.length) (enough : whole.length - offset < calls) :
    Covers size whole offset
      ((freadBlocks size calls (whole.drop offset)).map (padded size)) := by
  induction calls generalizing offset with
  | zero => omega
  | succ calls inductionHypothesis =>
      have nonempty : whole.drop offset ≠ [] := by
        rw [ne_eq, List.drop_eq_nil_iff]
        omega
      rw [freadBlocks, if_neg nonempty, List.map_cons]
      by_cases large : size < whole.length - offset
      · refine .more large (List.prefix_append _ _) ?_
        rw [List.drop_drop]
        exact inductionHypothesis (by omega) (by omega)
      · have exhausted : (whole.drop offset).drop size = [] := by
          rw [List.drop_drop, List.drop_eq_nil_iff]
          omega
        have finished : freadBlocks size calls ((whole.drop offset).drop size) = [] := by
          rw [exhausted]
          cases calls <;> simp [freadBlocks]
        rw [finished, List.map_nil,
          List.take_of_length_le (by rw [List.length_drop]; omega)]
        exact .last (by omega) (List.prefix_append _ _)

/-- The blocks of a non-empty file, each padded to the block size, are what a
receiver with the same block size reassembles. -/
theorem covers_fileBlocks (positive : 0 < size) {content : List Byte}
    (nonempty : content ≠ []) :
    Covers size content 0 ((fileBlocks size content).map (padded size)) := by
  have remaining := List.length_pos_iff.mpr nonempty
  have covers : Covers size content 0
      ((freadBlocks size (content.length + 1) (content.drop 0)).map (padded size)) :=
    covers_freadBlocks positive remaining (by omega)
  rwa [List.drop_zero] at covers

end FileBlocks

end PaintingCPS.Foundation
