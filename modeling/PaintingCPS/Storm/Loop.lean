import PaintingCPS.Storm.Spout

/-!
Contract: what the receiving loop of `nextTuple` takes.

It accepts short reads as long as more than 2048 bytes are missing, and reads
the last bytes once.

Owns: the reads of the loop, what they leave in the array, and where the loop
ends.

Does not own: the size field, and what becomes of the image.
-/

set_option autoImplicit false

namespace PaintingCPS

open Foundation

/-! ## One read -/

namespace Arrivals

theorem bytes_behind (left : List Byte) (rest : Arrivals) :
    (behind left rest).bytes = left ++ rest.bytes := by
  cases left <;> rfl

/-- A read gets the first bytes, at least one. -/
theorem read_portion {first : Byte} {more : List Byte} {rest : Arrivals} {buffer : List Byte}
    {offset len : Nat} (some' : 0 < len) (within : offset + len ≤ buffer.length) :
    (portion first more rest).read buffer offset len =
      .ok ((min len (more.length + 1) : Nat),
        buffer.take offset ++ (first :: more).take len ++
          buffer.drop (offset + min len (more.length + 1)),
        behind ((first :: more).drop len) rest) := by
  have length : ((first :: more).take len).length = min len (more.length + 1) := by
    rw [List.length_take, List.length_cons]
  rw [read, if_neg (by omega), if_neg (by omega)]
  dsimp only
  rw [Int.toNat_natCast, Int.toNat_natCast, writeBytes_eq (by omega), length]
  rfl

theorem read_closed {buffer : List Byte} {offset len : Nat} (some' : 0 < len)
    (within : offset + len ≤ buffer.length) :
    closed.read buffer offset len = .ok (-1, buffer, closed) := by
  rw [read, if_neg (by omega), if_neg (by omega)]

end Arrivals

/-! ## The reads of the loop -/

/-- When `missing` bytes are missing, the reads of at most 2048 bytes each, up
to the first one that asks for all of them, get `got` bytes. -/
inductive LoopReads : Nat → Arrivals → Nat → Prop
  | ended {missing : Nat} :
      missing ≤ 2048 →
      LoopReads missing .closed 0
  | last {missing : Nat} {first : Byte} {more : List Byte} {rest : Arrivals} :
      missing ≤ 2048 →
      LoopReads missing (.portion first more rest) (min missing (more.length + 1))
  | more {missing later : Nat} {first : Byte} {more : List Byte} {rest : Arrivals} :
      2048 < missing →
      LoopReads (missing - min 2048 (more.length + 1))
        (.behind ((first :: more).drop 2048) rest) later →
      LoopReads missing (.portion first more rest) (min 2048 (more.length + 1) + later)

/-- The reads are determined by the portions. -/
theorem LoopReads.unique {missing got other : Nat} {arrivals : Arrivals}
    (reads : LoopReads missing arrivals got) (again : LoopReads missing arrivals other) :
    got = other := by
  induction reads generalizing other with
  | ended => cases again; rfl
  | last small =>
      cases again with
      | last => rfl
      | more large => omega
  | more large _ inductionHypothesis =>
      cases again with
      | last small => omega
      | more _ rest => rw [inductionHypothesis rest]

theorem LoopReads.le {missing got : Nat} {arrivals : Arrivals}
    (reads : LoopReads missing arrivals got) : got ≤ missing ∧ got ≤ arrivals.bytes.length := by
  induction reads with
  | ended => exact ⟨Nat.zero_le _, Nat.zero_le _⟩
  | @last missing first more rest small =>
      refine ⟨Nat.min_le_left _ _, ?_⟩
      rw [Arrivals.bytes, List.length_append, List.length_cons]
      omega
  | @more missing later first more rest large _ inductionHypothesis =>
      obtain ⟨few, there⟩ := inductionHypothesis
      rw [Arrivals.bytes_behind, List.length_append, List.length_drop, List.length_cons] at there
      refine ⟨by omega, ?_⟩
      rw [Arrivals.bytes, List.length_append, List.length_cons]
      omega

/-- As long as enough bytes arrive, the loop comes to its last read. -/
theorem exists_loopReads {missing : Nat} {arrivals : Arrivals} (positive : 0 < missing)
    (enough : missing ≤ arrivals.bytes.length) : ∃ got, LoopReads missing arrivals got := by
  induction missing using Nat.strongRecOn generalizing arrivals with
  | ind missing inductionHypothesis =>
      cases arrivals with
      | closed | reset =>
          rw [Arrivals.bytes, List.length_nil] at enough
          omega
      | portion first more rest =>
          by_cases small : missing ≤ 2048
          · exact ⟨_, .last small⟩
          · rw [Arrivals.bytes, List.length_append, List.length_cons] at enough
            have left : missing - min 2048 (more.length + 1) ≤
                (Arrivals.behind ((first :: more).drop 2048) rest).bytes.length := by
              rw [Arrivals.bytes_behind, List.length_append, List.length_drop, List.length_cons]
              omega
            obtain ⟨later, reads⟩ := inductionHypothesis _ (by omega) (by omega) left
            exact ⟨_, .more (by omega) reads⟩

/-! ## The loop -/

/-- A read of `len` bytes does not look behind its portion. -/
theorem take_portion (portion rest : List Byte) (len : Nat) :
    (portion ++ rest).take (min len portion.length) = portion.take len := by
  rw [List.take_append_of_le_length (Nat.min_le_right _ _), ← List.take_eq_take_min]

theorem drop_portion (portion rest : List Byte) (len : Nat) :
    (portion ++ rest).drop (min len portion.length) = portion.drop len ++ rest := by
  rw [List.drop_append_of_le_length (Nat.min_le_right _ _), ← List.drop_eq_drop_min]

/-- A full read, and `later` bytes behind it. -/
private theorem extend_portion (img portion rest : List Byte) {offset : Nat} (later : Nat)
    (within : offset ≤ img.length) :
    (img.take offset ++ portion.take 2048 ++ img.drop (offset + min 2048 portion.length)).take
        (offset + min 2048 portion.length) ++ (portion.drop 2048 ++ rest).take later ++
      (img.take offset ++ portion.take 2048 ++ img.drop (offset + min 2048 portion.length)).drop
        (offset + min 2048 portion.length + later) =
    img.take offset ++ (portion ++ rest).take (min 2048 portion.length + later) ++
      img.drop (offset + (min 2048 portion.length + later)) := by
  have front : (img.take offset ++ portion.take 2048).length =
      offset + min 2048 portion.length := by
    rw [List.length_append, List.length_take, List.length_take]
    omega
  have both : (portion ++ rest).take (min 2048 portion.length + later) =
      portion.take 2048 ++ (portion.drop 2048 ++ rest).take later := by
    rw [List.take_add, take_portion, drop_portion]
  rw [both, ← front, List.take_left, List.drop_length_add_append, List.drop_drop, front,
    List.append_assoc, List.append_assoc, List.append_assoc, List.append_assoc, Nat.add_assoc]

namespace Receipt

/-- The loop has read `offset` bytes into an array of `fileSize`. -/
structure At (receipt : Receipt) (fileSize offset : Nat) : Prop where
  int : fileSize < 2147483648
  length : receipt.img.length = fileSize
  position : receipt.offset = offset
  within : offset ≤ fileSize

variable {receipt : Receipt} {fileSize offset missing : Nat}

theorem At.remain (at' : receipt.At fileSize offset) :
    toInt32 (fileSize - receipt.offset) = (fileSize - offset : Nat) := by
  have int := at'.int
  have within := at'.within
  rw [at'.position, toInt32_of_range (by omega) (by omega)]
  omega

/-- After a read of `len` bytes at most from a portion. -/
def took (receipt : Receipt) (offset len : Nat) (first : Byte) (more : List Byte)
    (rest : Arrivals) : Receipt where
  img := receipt.img.take offset ++ (first :: more).take len ++
    receipt.img.drop (offset + min len (more.length + 1))
  offset := receipt.offset
  arrivals := .behind ((first :: more).drop len) rest
  reads := receipt.reads + 1
  received := receipt.received + min len (more.length + 1)

theorem At.read_portion (at' : receipt.At fileSize offset) {first : Byte} {more : List Byte}
    {rest : Arrivals} (arrives : receipt.arrivals = .portion first more rest) (len : Nat)
    (some' : 0 < len) (fits : offset + len ≤ fileSize) :
    receipt.read len =
      .ok ((min len (more.length + 1) : Nat), receipt.took offset len first more rest) := by
  have length := at'.length
  have read : (Arrivals.portion first more rest).read receipt.img receipt.offset len = _ :=
    at'.position ▸ Arrivals.read_portion some' (show offset + len ≤ receipt.img.length by omega)
  rw [Receipt.read, arrives, read]
  rfl

/-- The next pass starts behind the bytes of a full read. -/
theorem At.next (at' : receipt.At fileSize offset) (first : Byte) (more : List Byte)
    (rest : Arrivals) (large : 2048 < fileSize - offset) :
    At { receipt.took offset 2048 first more rest with
      offset := toInt32 (receipt.offset + (min 2048 (more.length + 1) : Nat)) }
      fileSize (offset + min 2048 (more.length + 1)) where
  int := at'.int
  length := by
    have length := at'.length
    have within := at'.within
    simp only [took, List.length_append, List.length_take, List.length_drop, List.length_cons]
    omega
  position := by
    have int := at'.int
    rw [at'.position]
    dsimp only
    rw [toInt32_of_range (by omega) (by omega)]
    omega
  within := by omega

/-- The end of the stream leaves the array as it is. -/
theorem At.read_closed (at' : receipt.At fileSize offset) (arrives : receipt.arrivals = .closed)
    (len : Nat) (some' : 0 < len) (fits : offset + len ≤ fileSize) :
    receipt.read len = .ok (-1, { receipt with reads := receipt.reads + 1 }) := by
  have length := at'.length
  have read : Arrivals.closed.read receipt.img receipt.offset len = _ :=
    at'.position ▸ Arrivals.read_closed some' (show offset + len ≤ receipt.img.length by omega)
  rw [Receipt.read, arrives, read, ← arrives]
  rfl

/-- A pass that asks for all missing bytes is the last one. -/
theorem At.loop_last (at' : receipt.At fileSize offset) (small : fileSize - offset ≤ 2048)
    {ret : Int} {after : Receipt} (read : receipt.read (fileSize - offset : Nat) = .ok (ret, after))
    (passes : Nat) : receipt.loop fileSize (passes + 1) = some (after, none) := by
  rw [loop, at'.remain, if_pos (by rw [once]; omega), read]

theorem At.loop_more (at' : receipt.At fileSize offset) (large : 2048 < fileSize - offset)
    {ret : Int} {after : Receipt} (read : receipt.read once = .ok (ret, after)) (passes : Nat) :
    receipt.loop fileSize (passes + 1) =
      loop fileSize passes { after with offset := toInt32 (after.offset + ret) } := by
  rw [loop, at'.remain, if_neg (by rw [once]; omega), read]

/-- The loop ends with the read that asks for all missing bytes. -/
theorem At.loop_eq (at' : receipt.At fileSize offset) {got passes : Nat}
    (some' : 0 < fileSize - offset)
    (reads : LoopReads (fileSize - offset) receipt.arrivals got)
    (enough : receipt.arrivals.bytes.length < passes) :
    ∃ after, receipt.loop fileSize passes = some (after, none) ∧
      after.img = receipt.img.take offset ++ receipt.arrivals.bytes.take got ++
        receipt.img.drop (offset + got) ∧
      after.received = receipt.received + got ∧
      after.reads ≤ receipt.reads + got + 1 := by
  generalize missingEq : fileSize - offset = missing at reads some'
  generalize arrives : receipt.arrivals = arrivals at reads enough ⊢
  have length := at'.length
  induction reads generalizing receipt offset passes with
  | @ended missing small =>
      subst missingEq
      obtain ⟨passes, rfl⟩ := Nat.exists_eq_add_of_lt enough
      refine ⟨_, at'.loop_last small (at'.read_closed arrives _ some' (by omega)) _, ?_, rfl, ?_⟩
      · rw [List.take_zero, List.append_nil, Nat.add_zero]
        exact (List.take_append_drop offset receipt.img).symm
      · exact Nat.le_refl _
  | @last missing first more rest small =>
      subst missingEq
      obtain ⟨passes, rfl⟩ := Nat.exists_eq_add_of_lt enough
      refine ⟨_, at'.loop_last small (at'.read_portion arrives _ some' (by omega)) _, ?_, rfl, ?_⟩
      · have bytes := take_portion (first :: more) rest.bytes (fileSize - offset)
        rw [List.length_cons] at bytes
        rw [Arrivals.bytes, bytes]
        rfl
      · exact Nat.le_succ_of_le (Nat.add_le_add_left (by omega) _)
  | @more missing later first more rest large reads inductionHypothesis =>
      subst missingEq
      have within := at'.within
      obtain ⟨passes, rfl⟩ := Nat.exists_eq_add_of_lt enough
      have next := at'.next first more rest large
      have shorter : (Arrivals.behind ((first :: more).drop 2048) rest).bytes.length <
          (Arrivals.portion first more rest).bytes.length + passes := by
        rw [Arrivals.bytes_behind, Arrivals.bytes, List.length_append, List.length_append,
          List.length_drop, List.length_cons]
        omega
      obtain ⟨after, looped, img, received, counted⟩ :=
        inductionHypothesis next (by omega) (by omega) rfl shorter next.length
      refine ⟨after, ?_, ?_, ?_, ?_⟩
      · rw [at'.loop_more large (at'.read_portion arrives 2048 (by omega) (by omega))]
        exact looped
      · rw [img, Arrivals.bytes_behind]
        exact extend_portion receipt.img (first :: more) rest.bytes later (by omega)
      · simp only [took] at received
        omega
      · simp only [took] at counted
        omega

/-! ## Other ends of the loop -/

private theorem read_negative (receipt : Receipt) (negative : receipt.offset < 0) (len : Int) :
    receipt.read len = .error .outOfBounds := by
  unfold read Arrivals.read
  rw [if_pos (.inl negative)]
  rfl

theorem At.read_reset (at' : receipt.At fileSize offset) (arrives : receipt.arrivals = .reset)
    (len : Nat) (some' : 0 < len) (fits : offset + len ≤ fileSize) :
    receipt.read len = .error .uncaughtException := by
  have length := at'.length
  rw [read, arrives, Arrivals.read, at'.position, if_neg (by omega), if_neg (by omega)]
  rfl

/-- At the end of the stream every pass takes one from the offset, until the
index is negative. -/
theorem loop_closed {before passes : Nat} (int : fileSize < 2147483648)
    (length : receipt.img.length = fileSize) (arrives : receipt.arrivals = .closed)
    (position : receipt.offset = before - 1) (large : 2048 + before ≤ fileSize)
    (enough : before < passes) :
    ∃ after fault, receipt.loop fileSize passes = some (after, some fault) ∧
      after.received = receipt.received ∧ after.reads = receipt.reads + before + 1 := by
  induction before generalizing receipt passes with
  | zero =>
      obtain ⟨passes, rfl⟩ := Nat.exists_eq_add_of_lt enough
      have thrown := read_negative receipt (by omega)
      refine ⟨receipt.failed, .outOfBounds, ?_, rfl, rfl⟩
      rw [loop, thrown, thrown, ite_self]
  | succ before inductionHypothesis =>
      obtain ⟨passes, rfl⟩ := Nat.exists_eq_add_of_lt enough
      have at' : receipt.At fileSize before := ⟨int, length, by omega, by omega⟩
      have back : toInt32 (receipt.offset + -1) = before - 1 := by
        rw [toInt32_of_range (by omega) (by omega)]
        omega
      rw [at'.loop_more (by omega) (at'.read_closed arrives 2048 (by omega) (by omega))]
      obtain ⟨after, fault, looped, received, reads⟩ := @inductionHypothesis
        { receipt with
          reads := receipt.reads + 1
          offset := toInt32 (receipt.offset + -1) }
        (before + 1 + passes) length arrives back (by omega) (by omega)
      dsimp only at reads
      exact ⟨after, fault, looped, received, by omega⟩

/-- Unless the loop comes to its last read, an exception ends it. -/
theorem At.loop_cases (at' : receipt.At fileSize offset) (some' : 0 < fileSize - offset)
    {passes : Nat} (enough : 2 * receipt.arrivals.bytes.length + offset + 2 ≤ passes) :
    (∃ got, LoopReads (fileSize - offset) receipt.arrivals got) ∨
      ∃ after fault, receipt.loop fileSize passes = some (after, some fault) := by
  have int := at'.int
  have within := at'.within
  induction passes generalizing receipt offset with
  | zero => omega
  | succ passes inductionHypothesis =>
      by_cases small : fileSize - offset ≤ 2048
      · cases arrives : receipt.arrivals with
        | closed => exact .inl ⟨_, .ended small⟩
        | portion first more rest => exact .inl ⟨_, .last small⟩
        | reset =>
            right
            refine ⟨receipt.failed, .uncaughtException, ?_⟩
            rw [loop, at'.remain, if_pos (by rw [once]; omega),
              at'.read_reset arrives _ some' (by omega)]
      · cases arrives : receipt.arrivals with
        | closed =>
            right
            have position : receipt.offset = (offset + 1 : Nat) - 1 := by
              rw [at'.position]
              omega
            obtain ⟨after, fault, looped, -⟩ := loop_closed int at'.length arrives position
              (by omega) (show offset + 1 < passes + 1 by omega)
            exact ⟨after, fault, looped⟩
        | reset =>
            right
            refine ⟨receipt.failed, .uncaughtException, ?_⟩
            have thrown : receipt.read once = .error .uncaughtException :=
              at'.read_reset arrives 2048 (by omega) (by omega)
            rw [loop, at'.remain, if_neg (by rw [once]; omega), thrown]
        | portion first more rest =>
            have next := at'.next first more rest (by omega)
            rw [at'.loop_more (by omega) (at'.read_portion arrives 2048 (by omega) (by omega))]
            rw [arrives, Arrivals.bytes, List.length_append, List.length_cons] at enough
            have shorter : (Arrivals.behind ((first :: more).drop 2048) rest).bytes.length =
                more.length + 1 - 2048 + rest.bytes.length := by
              rw [Arrivals.bytes_behind, List.length_append, List.length_drop, List.length_cons]
            rcases inductionHypothesis next (by omega) (by simp only [took, shorter]; omega)
                (by omega) with ⟨got, reads⟩ | thrown
            · rw [Nat.sub_add_eq] at reads
              exact .inl ⟨_, .more (by omega) reads⟩
            · exact .inr thrown

/-- The loop from its start. -/
theorem start_at {arrivals : Arrivals} (int : fileSize < 2147483648) :
    (start fileSize arrivals).At fileSize 0 :=
  ⟨int, List.length_replicate, rfl, Nat.zero_le _⟩

/-- An empty image is there at once. -/
theorem loop_empty (arrivals : Arrivals) (passes : Nat) :
    (start 0 arrivals).loop (0 : Nat) (passes + 1) =
      some ({ start 0 arrivals with reads := 1 }, none) := by
  have at' : (start 0 arrivals).At 0 0 := start_at (by omega)
  have nothing : (start 0 arrivals).read (0 - 0 : Nat) =
      .ok (0, { start 0 arrivals with reads := 1 }) := rfl
  exact at'.loop_last (by omega) nothing passes

end Receipt

end PaintingCPS
