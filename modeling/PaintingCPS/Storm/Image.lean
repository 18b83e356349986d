import PaintingCPS.Storm.Receive

/-!
Contract: the image of the server, as the spout receives it.

The size field and the last bytes are each read once, so a portion that ends
early shifts or cuts the image.

Owns: the connections from which the image arrives whole.

Does not own: the topology behind the spout.
-/

set_option autoImplicit false

namespace PaintingCPS

open Foundation

/-- The first read gets the first bytes of the size field. -/
theorem Arrivals.read_first {arrivals : Arrivals} (some' : arrivals.bytes ≠ []) :
    ∃ (got : Nat) (rest : Arrivals), 0 < got ∧ got ≤ 100 ∧ got ≤ arrivals.bytes.length ∧
      arrivals.read (List.replicate 100 0) 0 100 =
        .ok ((got : Int), arrivals.bytes.take got ++ List.replicate (100 - got) 0, rest) ∧
      rest.bytes = arrivals.bytes.drop got := by
  cases arrivals with
  | closed | reset => exact absurd rfl some'
  | portion first more rest =>
      refine ⟨min 100 (more.length + 1), .behind ((first :: more).drop 100) rest, by omega,
        by omega, ?_, ?_, ?_⟩
      · rw [bytes, List.length_append, List.length_cons]
        exact Nat.le_trans (Nat.min_le_right _ _) (Nat.le_add_right _ _)
      · have read : (portion first more rest).read (List.replicate 100 0) (0 : Nat)
            (100 : Nat) = _ :=
          read_portion (by omega) (by rw [List.length_replicate])
        have taken := take_portion (first :: more) rest.bytes 100
        rw [List.length_cons] at taken
        rw [bytes, taken]
        rw [List.take_zero, List.nil_append, Nat.zero_add, List.drop_replicate] at read
        exact read
      · have left := drop_portion (first :: more) rest.bytes 100
        rw [List.length_cons] at left
        rw [bytes_behind, bytes, left]

/-- The size field is the number and zeros. -/
theorem spoutSizeField_eq {size : Nat} (int : size < 2147483648) :
    (decimal size).length ≤ 10 ∧ spoutSizeField size =
      .ok (decimal size ++ List.replicate (100 - (decimal size).length) 0) := by
  have short : (decimal size).length ≤ 10 := by
    rw [decimal_length_le_iff (by decide)]
    omega
  refine ⟨short, ?_⟩
  obtain ⟨zeros, count⟩ := Nat.exists_eq_add_of_lt (show (decimal size).length < 100 by omega)
  rw [spoutSizeField, decimalInt_natCast, sprintf_eq (by rw [List.length_replicate]; omega),
    List.drop_replicate]
  rw [show 100 - (decimal size).length = (100 - ((decimal size).length + 1)) + 1 by omega,
    List.replicate_succ]
  rfl

private theorem dropWhile_digits {text : List Byte} (rest : List Byte)
    (digits : ∀ byte ∈ text, isDigit byte = true) (some' : text ≠ []) :
    (text ++ rest).dropWhile (· ≤ 32) = text ++ rest := by
  cases text with
  | nil => exact absurd rfl some'
  | cons byte text =>
      have digit := (isDigit_iff byte).mp (digits byte List.mem_cons_self)
      rw [List.cons_append, List.dropWhile_cons_of_neg]
      rw [decide_eq_true_eq, UInt8.le_iff_toNat_le, Nat.not_le]
      exact Nat.lt_of_lt_of_le (by decide) digit.1

/-- The zeros behind the digits are trimmed. -/
private theorem trim_digits {text : List Byte} (digits : ∀ byte ∈ text, isDigit byte = true)
    (some' : text ≠ []) (zeros : Nat) : Java.trim (text ++ List.replicate zeros 0) = text := by
  rw [Java.trim, dropWhile_digits _ digits some', List.reverse_append, List.reverse_replicate,
    List.dropWhile_append_of_pos]
  · have back : (text.reverse ++ []).dropWhile (· ≤ 32) = _ := dropWhile_digits []
      (fun byte member => digits byte (List.mem_reverse.mp member)) (by simpa using some')
    rw [List.append_nil] at back
    rw [back, List.reverse_reverse]
  · intro byte member
    rw [List.eq_of_mem_replicate member]
    decide

/-- Digits and zeros are read as their number. -/
theorem Java.parseSize_digits {text : List Byte} (digits : ∀ byte ∈ text, isDigit byte = true)
    (some' : text ≠ []) (int : readDigits 0 text < 2147483648) (zeros : Nat) :
    Java.parseSize (text ++ List.replicate zeros 0) = some (Int32.ofInt (readDigits 0 text)) := by
  rw [Java.parseSize, trim_digits digits some']
  cases text with
  | nil => exact absurd rfl some'
  | cons byte text =>
      have digit := digits byte List.mem_cons_self
      have plain : byte ≠ 45 ∧ byte ≠ 43 :=
        ⟨isDigit_ne digit (by decide), isDigit_ne digit (by decide)⟩
      have all : (byte :: text).all isDigit = true := List.all_eq_true.mpr digits
      have parsed : Java.parseInt (byte :: text) = .ok (readDigits 0 (byte :: text) : Int) := by
        simp only [Java.parseInt, List.head?_cons, Option.some.injEq, plain.1, plain.2, or_self,
          if_false, all, not_true_eq_false, reduceCtorEq]
        rw [if_pos ⟨by omega, by omega⟩]
      rw [parsed]

private theorem le_readDigits (accumulated : Nat) (text : List Byte) :
    accumulated ≤ readDigits accumulated text := by
  induction text generalizing accumulated with
  | nil => exact Nat.le_refl _
  | cons byte text inductionHypothesis =>
      rw [readDigits]
      split
      · exact Nat.le_trans (by omega) (inductionHypothesis _)
      · exact Nat.le_refl _

private theorem readDigits_append (accumulated : Nat) {first : List Byte} (second : List Byte)
    (digits : ∀ byte ∈ first, isDigit byte = true) :
    readDigits accumulated (first ++ second) =
      readDigits (readDigits accumulated first) second := by
  induction first generalizing accumulated with
  | nil => rfl
  | cons byte first inductionHypothesis =>
      rw [List.cons_append, readDigits, readDigits, if_pos (digits byte List.mem_cons_self),
        if_pos (digits byte List.mem_cons_self)]
      exact inductionHypothesis _ fun other member => digits other (List.mem_cons_of_mem _ member)

/-- A part of the digits is a smaller number. -/
private theorem readDigits_take_lt {size got : Nat} (positive : 0 < size)
    (short : got < (decimal size).length) :
    readDigits 0 ((decimal size).take got) < size := by
  have whole := readDigits_decimal size
  rw [← List.take_append_drop got (decimal size), readDigits_append] at whole
  · cases rest : (decimal size).drop got with
    | nil =>
        rw [List.drop_eq_nil_iff] at rest
        omega
    | cons byte text =>
        have digit : isDigit byte = true :=
          isDigit_of_mem_decimal (List.mem_of_mem_drop (rest ▸ List.mem_cons_self))
        rw [rest, readDigits, if_pos digit] at whole
        have more := le_readDigits
          (10 * readDigits 0 ((decimal size).take got) + (byte.toNat - 48)) text
        omega
  · exact fun byte member => isDigit_of_mem_decimal (List.mem_of_mem_take member)

/-- The image is among the bytes, or what is missing of it is zero like a new
array: the size field is read whole, and behind the last read all bytes are
zero; or the image is all zeros and so are the bytes in front of it. -/
def Arrivals.Delivers (arrivals : Arrivals) (image : List Byte) : Prop :=
  ∃ (got : Nat) (receivedData : List Byte) (rest : Arrivals),
    arrivals.read (List.replicate 100 0) 0 100 = .ok ((got : Int), receivedData, rest) ∧
      (got = 100 ∧ (∃ upTo, LoopReads image.length rest upTo ∧
          ∀ byte ∈ image.drop upTo, byte = 0) ∨
        (decimal image.length).length ≤ got ∧ ∀ byte ∈ image, byte = 0)

/-- A prefix and zeros are the whole if the rest is zero. -/
private theorem take_zeros_iff {image : List Byte} {upTo : Nat} (within : upTo ≤ image.length) :
    image.take upTo ++ List.replicate (image.length - upTo) 0 = image ↔
      ∀ byte ∈ image.drop upTo, byte = 0 := by
  constructor
  · intro same byte member
    rw [← same, List.drop_append_of_le_length (by rw [List.length_take]; omega),
      List.drop_eq_nil_of_le (by rw [List.length_take]; omega), List.nil_append] at member
    exact List.eq_of_mem_replicate member
  · intro zeros
    have rest : image.drop upTo = List.replicate (image.length - upTo) 0 :=
      List.eq_replicate_iff.mpr ⟨List.length_drop, zeros⟩
    rw [← rest, List.take_append_drop]

/-- Zeros in front of an image shift it, unless it is all zeros. -/
private theorem shifted_iff {image : List Byte} {shift upTo : Nat} (positive : 0 < shift)
    (within : upTo ≤ image.length) :
    (List.replicate shift 0 ++ image).take upTo ++ List.replicate (image.length - upTo) 0 =
      image ↔ ∀ byte ∈ image, byte = 0 := by
  constructor
  · intro same
    have zero : ∀ index, (below : index < image.length) → image[index] = 0 := by
      intro index below
      induction index using Nat.strongRecOn with
      | ind index inductionHypothesis =>
          have value : image[index]? = ((List.replicate shift 0 ++ image).take upTo ++
              List.replicate (image.length - upTo) 0)[index]? := by rw [same]
          have front : ((List.replicate shift 0 ++ image).take upTo).length = upTo := by
            rw [List.length_take, List.length_append, List.length_replicate]
            omega
          rw [List.getElem?_eq_getElem below] at value
          by_cases early : index < upTo
          · rw [List.getElem?_append_left (by omega), List.getElem?_take_of_lt early] at value
            by_cases shifted : index < shift
            · rw [List.getElem?_append_left (by rw [List.length_replicate]; omega),
                List.getElem?_replicate, if_pos shifted] at value
              exact Option.some.inj value
            · rw [List.getElem?_append_right (by rw [List.length_replicate]; omega),
                List.length_replicate, List.getElem?_eq_getElem (by omega),
                inductionHypothesis (index - shift) (by omega)] at value
              exact Option.some.inj value
          · rw [List.getElem?_append_right (by omega), front, List.getElem?_replicate,
              if_pos (by omega)] at value
            exact Option.some.inj value
    intro byte member
    obtain ⟨index, below, rfl⟩ := List.getElem_of_mem member
    exact zero index below
  · intro zeros
    obtain ⟨count, rfl⟩ : ∃ count, image = List.replicate count 0 :=
      ⟨image.length, List.eq_replicate_iff.mpr ⟨rfl, zeros⟩⟩
    rw [List.length_replicate] at within ⊢
    rw [List.replicate_append_replicate, List.take_replicate, List.replicate_append_replicate]
    congr 1
    omega

namespace Spout

variable {spout : Spout}

/-- What a call emits for a size that is there in full. -/
private theorem nextTuple_emits {parseInt : List Byte → Option Int32} {passes size : Nat}
    {arrivals rest : Arrivals} {ret : Int} {receivedData : List Byte} {fileSize : Int32}
    (free : spout.bound = false)
    (read : arrivals.read (List.replicate 100 0) 0 100 = .ok (ret, receivedData, rest))
    (parsed : parseInt receivedData = some fileSize) (natural : fileSize.toInt = size)
    (arrived : size ≤ rest.bytes.length) (enough : rest.bytes.length < passes) :
    ∃ call img, spout.nextTuple parseInt passes arrivals = some call ∧
      call.emitted = some (img, spout.index) ∧ img.length = size ∧
      (0 < size → ∃ got, LoopReads size rest got ∧
        img = rest.bytes.take got ++ List.replicate (size - got) 0) := by
  have int : size < 2147483648 := by
    have := fileSize.toInt_lt
    omega
  by_cases empty : size = 0
  · subst empty
    obtain ⟨passes, rfl⟩ := Nat.exists_eq_add_of_lt enough
    have called := nextTuple_eq free read parsed natural
      (Receipt.loop_empty rest (rest.bytes.length + passes))
    exact ⟨_, [], called, rfl, rfl, fun positive => absurd positive (Nat.lt_irrefl 0)⟩
  · have at' : (Receipt.start size rest).At size 0 := Receipt.start_at int
    obtain ⟨got, reads⟩ := exists_loopReads (by omega) arrived
    obtain ⟨receipt, looped, img, -⟩ := at'.loop_eq (by omega) reads enough
    have bounds := reads.le
    replace img : receipt.img = rest.bytes.take got ++ List.replicate (size - got) 0 := by
      rw [img, List.take_zero, List.nil_append, Nat.zero_add]
      exact congrArg _ List.drop_replicate
    refine ⟨_, receipt.img, nextTuple_eq free read parsed natural looped, rfl, ?_,
      fun _ => ⟨got, reads, img⟩⟩
    rw [img, List.length_append, List.length_take, List.length_replicate]
    omega

/-- What delivery says of a size field that is read. -/
private theorem delivers_iff {arrivals rest : Arrivals} {image receivedData : List Byte}
    {got : Nat}
    (read : arrivals.read (List.replicate 100 0) 0 100 = .ok ((got : Int), receivedData, rest)) :
    arrivals.Delivers image ↔
      (got = 100 ∧ (∃ upTo, LoopReads image.length rest upTo ∧
          ∀ byte ∈ image.drop upTo, byte = 0) ∨
        (decimal image.length).length ≤ got ∧ ∀ byte ∈ image, byte = 0) := by
  constructor
  · rintro ⟨other, _, _, again, delivers⟩
    rw [read] at again
    simp only [Except.ok.injEq, Prod.mk.injEq, Int.natCast_inj] at again
    obtain ⟨rfl, rfl, rfl⟩ := again
    exact delivers
  · exact fun delivers => ⟨got, _, _, read, delivers⟩

section SizeField

variable {image : List Byte} {arrivals rest : Arrivals} {got passes : Nat}

/-- All digits of the size have arrived, and perhaps fewer zeros than were sent:
the missing ones are the first bytes of the array. -/
private theorem nextTuple_whole (some' : image ≠ []) (int : image.length < 2147483648)
    (free : spout.bound = false) (enough : rest.bytes.length < passes)
    (read : arrivals.read (List.replicate 100 0) 0 100 = .ok ((got : Int),
      (decimal image.length ++ List.replicate (100 - (decimal image.length).length) 0 ++
        image).take got ++ List.replicate (100 - got) 0, rest))
    (left : rest.bytes =
      (decimal image.length ++ List.replicate (100 - (decimal image.length).length) 0 ++
        image).drop got)
    (most : got ≤ 100) (full : (decimal image.length).length ≤ got) :
    ∃ call upTo, spout.nextTuple Java.parseSize passes arrivals = some call ∧
      LoopReads image.length rest upTo ∧
      (call.emitted = some (image, spout.index) ↔
        (List.replicate (100 - got) 0 ++ image).take upTo ++
          List.replicate (image.length - upTo) 0 = image) := by
  obtain ⟨more, rfl⟩ := Nat.exists_eq_add_of_le full
  have field : (decimal image.length ++ List.replicate (100 - (decimal image.length).length) 0 ++
      image).take ((decimal image.length).length + more) ++
        List.replicate (100 - ((decimal image.length).length + more)) 0 =
      decimal image.length ++ List.replicate (100 - (decimal image.length).length) 0 := by
    rw [List.append_assoc, List.take_length_add_append, List.take_append_of_le_length
      (by rw [List.length_replicate]; omega), List.take_replicate, List.append_assoc,
      List.replicate_append_replicate]
    congr 2
    omega
  have behind : rest.bytes =
      List.replicate (100 - ((decimal image.length).length + more)) 0 ++ image := by
    rw [left, List.append_assoc, List.drop_length_add_append, List.drop_append_of_le_length
      (by rw [List.length_replicate]; omega), List.drop_replicate, Nat.sub_add_eq]
  have natural : (Int32.ofInt image.length).toInt = image.length :=
    Int32.toInt_ofInt_of_le (by omega) (by omega)
  have arrived : image.length ≤ rest.bytes.length := by
    rw [behind, List.length_append]
    omega
  have parsed := Java.parseSize_digits (fun byte member => isDigit_of_mem_decimal member)
    (decimal_ne_nil _) (by rw [readDigits_decimal]; exact int)
    (100 - (decimal image.length).length)
  rw [readDigits_decimal] at parsed
  rw [field] at read
  obtain ⟨call, img, called, emitted, -, loaded⟩ :=
    nextTuple_emits free read parsed natural arrived enough
  obtain ⟨upTo, reads, rfl⟩ := loaded (List.length_pos_iff.mpr some')
  refine ⟨call, upTo, called, reads, ?_⟩
  rw [emitted, Option.some.injEq, Prod.mk.injEq, and_iff_left rfl, behind]

/-- Some digits of the size are missing, so the number that is read is smaller. -/
private theorem nextTuple_fewer (some' : image ≠ []) (int : image.length < 2147483648)
    (free : spout.bound = false) (enough : rest.bytes.length < passes)
    (read : arrivals.read (List.replicate 100 0) 0 100 = .ok ((got : Int),
      (decimal image.length ++ List.replicate (100 - (decimal image.length).length) 0 ++
        image).take got ++ List.replicate (100 - got) 0, rest))
    (left : rest.bytes =
      (decimal image.length ++ List.replicate (100 - (decimal image.length).length) 0 ++
        image).drop got)
    (first : 0 < got) (cut : got < (decimal image.length).length) :
    ∃ call, spout.nextTuple Java.parseSize passes arrivals = some call ∧
      call.emitted ≠ some (image, spout.index) := by
  have field : (decimal image.length ++ List.replicate (100 - (decimal image.length).length) 0 ++
      image).take got = (decimal image.length).take got := by
    rw [List.append_assoc, List.take_append_of_le_length (by omega)]
  have smaller := readDigits_take_lt (List.length_pos_iff.mpr some') cut
  have some'' : (decimal image.length).take got ≠ [] := by
    rw [ne_eq, List.take_eq_nil_iff, not_or]
    exact ⟨by omega, decimal_ne_nil _⟩
  have parsed := Java.parseSize_digits
    (fun byte member => isDigit_of_mem_decimal (List.mem_of_mem_take member)) some''
    (show readDigits 0 ((decimal image.length).take got) < 2147483648 by omega) (100 - got)
  have natural : (Int32.ofInt (readDigits 0 ((decimal image.length).take got))).toInt =
      readDigits 0 ((decimal image.length).take got) :=
    Int32.toInt_ofInt_of_le (by omega) (by omega)
  have arrived : readDigits 0 ((decimal image.length).take got) ≤ rest.bytes.length := by
    rw [left, List.length_drop, List.length_append, List.length_append, List.length_replicate]
    omega
  rw [field] at read
  obtain ⟨call, img, called, emitted, length, -⟩ :=
    nextTuple_emits free read parsed natural arrived enough
  refine ⟨call, called, ?_⟩
  rw [emitted]
  rintro same
  cases same
  omega

end SizeField

/-- The array that is emitted is the image exactly when the portions deliver
it. -/
theorem nextTuple_image {image field : List Byte} {arrivals : Arrivals} {passes : Nat}
    (some' : image ≠ []) (int : image.length < 2147483648)
    (formatted : spoutSizeField image.length = .ok field)
    (sent : arrivals.bytes = field ++ image) (free : spout.bound = false)
    (enough : arrivals.bytes.length < passes) :
    ∃ call, spout.nextTuple Java.parseSize passes arrivals = some call ∧
      (call.emitted = some (image, spout.index) ↔ arrivals.Delivers image) := by
  obtain ⟨short, whole⟩ := spoutSizeField_eq int
  rw [whole] at formatted
  cases formatted
  obtain ⟨got, rest, first, most, there, read, left⟩ := Arrivals.read_first
    (show arrivals.bytes ≠ [] by rw [sent]; simp [some'])
  have fewer := Arrivals.read_le read
  have enoughLeft : rest.bytes.length < passes := by omega
  rw [delivers_iff read]
  rw [sent] at read left
  by_cases full : (decimal image.length).length ≤ got
  · obtain ⟨call, upTo, called, reads, emits⟩ :=
      nextTuple_whole some' int free enoughLeft read left most full
    have within := reads.le.1
    refine ⟨call, called, ?_⟩
    rw [emits]
    by_cases exact' : got = 100
    · subst exact'
      rw [Nat.sub_self, List.replicate_zero, List.nil_append, take_zeros_iff within]
      constructor
      · exact fun zeros => .inl ⟨rfl, upTo, reads, zeros⟩
      · rintro (⟨-, other, otherReads, zeros⟩ | ⟨-, zeros⟩)
        · rw [reads.unique otherReads]
          exact zeros
        · exact fun byte member => zeros byte (List.mem_of_mem_drop member)
    · rw [shifted_iff (by omega) within]
      simp [exact', full]
  · obtain ⟨call, called, other⟩ :=
      nextTuple_fewer some' int free enoughLeft read left first (by omega)
    exact ⟨call, called, iff_of_false other (by omega)⟩

/-- Two bytes that arrive together behind a whole size field. -/
theorem nextTuple_image_two :
    ∃ call, (⟨false, 0, false⟩ : Spout).nextTuple Java.parseSize 103
        (.sized 50 (.portion 7 [9] .closed)) = some call ∧
      call.emitted = some ([7, 9], 0) := by
  have small : ([7, 9] : List Byte).length < 2147483648 := by decide
  have sent : (Arrivals.sized 50 (.portion 7 [9] .closed)).bytes =
      decimal 2 ++ List.replicate (100 - (decimal 2).length) 0 ++ [7, 9] := by decide +kernel
  have free : (⟨false, 0, false⟩ : Spout).bound = false := rfl
  have enough : (Arrivals.sized 50 (.portion 7 [9] .closed)).bytes.length < 103 := by
    decide +kernel
  obtain ⟨call, called, emits⟩ :=
    nextTuple_image (List.cons_ne_nil 7 [9]) small (spoutSizeField_eq small).2 sent free enough
  refine ⟨call, called, emits.mpr ⟨100, _, _, rfl, .inl ⟨rfl, 2, .last ?_, ?_⟩⟩⟩
  · show 2 ≤ 2048
    omega
  · intro byte member
    cases member

/-- The last bytes arrive one by one, and the second one is lost; of the size
12 only the first digit arrives at once, and one byte is taken for the image. -/
theorem nextTuple_cuts :
    (∃ field call, spoutSizeField 2 = .ok field ∧
      (Arrivals.sized 50 (.portion 7 [] (.portion 9 [] .closed))).bytes = field ++ [7, 9] ∧
      (⟨false, 0, false⟩ : Spout).nextTuple Java.parseSize 103
        (.sized 50 (.portion 7 [] (.portion 9 [] .closed))) = some call ∧
      call.emitted = some ([7, 0], 0)) ∧
    ∃ field call, spoutSizeField 12 = .ok field ∧
      (Arrivals.portion 49 [] (.sized 50 (.portion 7 (List.replicate 10 7) .closed))).bytes =
        field ++ 0 :: List.replicate 11 7 ∧
      (⟨false, 0, false⟩ : Spout).nextTuple Java.parseSize 113
        (.portion 49 [] (.sized 50 (.portion 7 (List.replicate 10 7) .closed))) = some call ∧
      call.emitted = some ([50], 0) := by
  constructor
  · exact ⟨_, ⟨⟨true, 1, false⟩, some ([7, 0], 0),
      [(ascii "here", spoutFinderPort), (ascii "spout", monitorPort)], some 2, 1, 1⟩,
      (spoutSizeField_eq (show 2 < 2147483648 by decide)).2, by decide +kernel,
      by decide +kernel, rfl⟩
  · exact ⟨_, ⟨⟨true, 1, false⟩, some ([50], 0),
      [(ascii "here", spoutFinderPort), (ascii "spout", monitorPort)], some 1, 1, 1⟩,
      (spoutSizeField_eq (show 12 < 2147483648 by decide)).2, by decide +kernel,
      by decide +kernel, rfl⟩

end Spout

end PaintingCPS
