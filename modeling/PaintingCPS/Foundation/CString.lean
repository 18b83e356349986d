import Mathlib.Algebra.Group.Int.Defs
import Mathlib.Algebra.Group.Nat.Defs
import Mathlib.Data.Int.Basic
import Mathlib.Data.List.Basic
import Mathlib.Data.List.TakeWhile

/-!
Contract: bytes, memory and the C string functions that message formats use.

Memory is the list of bytes from a pointer to the end of its object, so a read
past the object is visible as `Fault.outOfBounds` and not as a default value.

Owns: bounded reads and writes, `sprintf` of a text and of `%d`, `strtok`,
`strtol` with base 10, the conversion to a 32-bit `int`, and the laws that a
printed number or a delimited field reads back.

Does not own: any message format. Locale, `errno` and other bases are absent.
-/

set_option autoImplicit false

namespace PaintingCPS.Foundation

abbrev Byte := UInt8

/-- How a function can end without returning: undefined behaviour, `exit` or a
signal in C, an exception that no handler catches in Java. -/
inductive Fault where
  | nullPointer
  | danglingPointer
  | outOfBounds
  | emptyQueue
  | negativeSize
  | signedOverflow
  | divideByZero
  | outOfFuel
  | exited
  | killed
  | uncaughtException
deriving DecidableEq, Repr

/-! ## Bytes and memory -/

/-- The NUL byte. -/
def nul : Byte := 0

/-- The comma. -/
def comma : Byte := 44

/-- The bytes of an ASCII text, without a terminator. -/
def ascii (text : String) : List Byte :=
  text.toList.map fun character => UInt8.ofNat character.toNat

/-- `count` bytes that no one has initialised. -/
def uninitialised (junk : Nat → Byte) : Nat → List Byte
  | 0 => []
  | count + 1 => junk count :: uninitialised junk count

/-- Use of a pointer that may be null. -/
def deref {α : Type} : Option α → Except Fault α
  | none => .error .nullPointer
  | some value => .ok value

/-- `memcpy` from `memory`: the first `count` bytes, which must be there. -/
def readBytes (memory : List Byte) (count : Int) : Except Fault (List Byte) :=
  if count < 0 then .error .negativeSize
  else
    let bytes := memory.take count.toNat
    if bytes.length < count.toNat then .error .outOfBounds else .ok bytes

/-- `memcpy` into `memory` at `offset`. -/
def writeBytes (memory : List Byte) (offset : Nat) (bytes : List Byte) :
    Except Fault (List Byte) :=
  if memory.length < offset + bytes.length then .error .outOfBounds
  else .ok (memory.take offset ++ bytes ++ memory.drop (offset + bytes.length))

/-- `sprintf(buffer, text)`: the text and its terminator, the rest untouched. -/
def sprintf (buffer text : List Byte) : Except Fault (List Byte) :=
  writeBytes buffer 0 (text ++ [nul])

@[simp] theorem uninitialised_length (junk : Nat → Byte) (count : Nat) :
    (uninitialised junk count).length = count := by
  induction count with
  | zero => rfl
  | succ count inductionHypothesis => simp [uninitialised, inductionHypothesis]

/-- A sequence of calls returns when each of them does. -/
theorem bind_eq_ok {α β : Type} {first : Except Fault α} {next : α → Except Fault β} {last : β} :
    first >>= next = .ok last ↔ ∃ middle, first = .ok middle ∧ next middle = .ok last := by
  cases first with
  | error fault => simp [bind, Except.bind]
  | ok middle => simp [bind, Except.bind]

@[simp] theorem deref_some {α : Type} (value : α) : deref (some value) = .ok value := rfl

@[simp] theorem deref_none {α : Type} : deref (none : Option α) = .error .nullPointer := rfl

theorem readBytes_append (bytes rest : List Byte) :
    readBytes (bytes ++ rest) bytes.length = .ok bytes := by
  rw [readBytes, if_neg (by omega)]
  simp

theorem readBytes_eq {memory : List Byte} {count : Nat} (available : count ≤ memory.length) :
    readBytes memory count = .ok (memory.take count) := by
  rw [readBytes, if_neg (by omega), Int.toNat_natCast]
  dsimp only
  rw [if_neg (by rw [List.length_take]; omega)]

/-- What was read was there. -/
theorem readBytes_eq_ok {memory bytes : List Byte} {size : Int}
    (read : readBytes memory size = .ok bytes) :
    ∃ count : Nat, size = count ∧ count ≤ memory.length ∧ bytes = memory.take count := by
  unfold readBytes at read
  split at read
  next => cases read
  next nonnegative =>
    obtain ⟨count, rfl⟩ := Int.eq_ofNat_of_zero_le (Int.not_lt.mp nonnegative)
    dsimp only at read
    split at read
    next => cases read
    next enough =>
      cases read
      rw [Int.toNat_natCast, List.length_take] at enough
      exact ⟨count, rfl, by omega, rfl⟩

theorem writeBytes_eq {memory bytes : List Byte} {offset : Nat}
    (fits : offset + bytes.length ≤ memory.length) :
    writeBytes memory offset bytes =
      .ok (memory.take offset ++ bytes ++ memory.drop (offset + bytes.length)) := by
  rw [writeBytes, if_neg (by omega)]

/-- A write directly behind `before` replaces exactly the bytes it covers. -/
theorem writeBytes_append (before bytes junk : List Byte)
    (fits : bytes.length ≤ junk.length) :
    writeBytes (before ++ junk) before.length bytes =
      .ok (before ++ bytes ++ junk.drop bytes.length) := by
  rw [writeBytes_eq (by simp; omega)]
  simp [List.drop_append]

theorem writeBytes_length {memory bytes after : List Byte} {offset : Nat}
    (written : writeBytes memory offset bytes = .ok after) :
    after.length = memory.length := by
  unfold writeBytes at written
  split at written
  next tooShort => contradiction
  next fits =>
    cases written
    simp only [List.length_append, List.length_take, List.length_drop]
    omega

theorem sprintf_eq {buffer text : List Byte} (fits : text.length < buffer.length) :
    sprintf buffer text = .ok (text ++ nul :: buffer.drop (text.length + 1)) := by
  rw [sprintf, writeBytes_eq (by simp; omega)]
  simp

/-- What `sprintf` has written begins with the text and its terminator. -/
theorem sprintf_ok {buffer text message : List Byte} (written : sprintf buffer text = .ok message) :
    ∃ rest, message = text ++ nul :: rest := by
  by_cases fits : text.length < buffer.length
  · rw [sprintf_eq fits] at written
    cases written
    exact ⟨_, rfl⟩
  · rw [sprintf, writeBytes, if_pos (by simp; omega)] at written
    cases written

/-- The C string at a pointer. -/
def cString (memory : List Byte) : List Byte := memory.takeWhile fun byte => byte != nul

theorem cString_append {text : List Byte} (clean : nul ∉ text) (rest : List Byte) :
    cString (text ++ nul :: rest) = text := by
  rw [cString, List.takeWhile_append_of_pos, List.takeWhile_cons_of_neg (by decide),
    List.append_nil]
  rintro byte member
  have other : byte ≠ nul := fun same => clean (same ▸ member)
  simpa using other

theorem cString_of_notMem {memory : List Byte} (unterminated : nul ∉ memory) :
    cString memory = memory := by
  apply List.takeWhile_eq_self_iff.mpr
  rintro byte member
  have other : byte ≠ nul := fun same => unterminated (same ▸ member)
  simpa using other

/-- Memory with a terminator is its C string and what follows. -/
theorem exists_cString {memory : List Byte} (terminated : nul ∈ memory) :
    ∃ rest, memory = cString memory ++ nul :: rest ∧ nul ∉ cString memory := by
  obtain ⟨text, rest, rfl, clean⟩ := List.eq_append_cons_of_mem terminated
  rw [cString_append clean]
  exact ⟨rest, rfl, clean⟩

/-! ## The 32-bit `int` -/

/-- Conversion of a wider integer to `int`: reduction modulo `2^32` into the
signed range. -/
def toInt32 (value : Int) : Int := Int.bmod value (2 ^ 32)

theorem toInt32_of_range {value : Int} (low : -2147483648 ≤ value)
    (high : value < 2147483648) : toInt32 value = value := by
  unfold toInt32
  exact Int.bmod_eq_of_le (by omega) (by omega)

/-! ## Decimal numbers -/

/-- The byte `0`..`9`. -/
def isDigit (byte : Byte) : Bool := 48 ≤ byte && byte ≤ 57

/-- `isspace` in the C locale. -/
def isSpace (byte : Byte) : Bool := byte == 32 || (9 ≤ byte && byte ≤ 13)

/-- What `sprintf("%d")` prints for a non-negative number. -/
def decimal (value : Nat) : List Byte :=
  (Nat.toDigits 10 value).map fun character => UInt8.ofNat character.toNat

/-- What `sprintf("%d")` prints. -/
def decimalInt (value : Int) : List Byte :=
  if value < 0 then 45 :: decimal value.natAbs else decimal value.natAbs

/-- Accumulate leading digits, stopping at the first other byte. -/
def readDigits (accumulated : Nat) : List Byte → Nat
  | [] => accumulated
  | byte :: rest =>
      if isDigit byte then readDigits (10 * accumulated + (byte.toNat - 48)) rest
      else accumulated

/-- `strtol(text, NULL, 10)` with a 64-bit `long`: spaces, a sign, digits, and
saturation at the ends of the range. -/
def strtol (text : List Byte) : Int :=
  match text.dropWhile isSpace with
  | [] => 0
  | sign :: rest =>
      if sign = 45 then max (-(readDigits 0 rest : Int)) (-2 ^ 63)
      else if sign = 43 then min (readDigits 0 rest : Int) (2 ^ 63 - 1)
      else min (readDigits 0 (sign :: rest) : Int) (2 ^ 63 - 1)

theorem decimalInt_natCast (value : Nat) : decimalInt value = decimal value := by
  rw [decimalInt, if_neg (by omega)]
  rfl

theorem decimal_ne_nil (value : Nat) : decimal value ≠ [] := by
  simp [decimal]

theorem decimal_length_le_iff {value count : Nat} (positive : 0 < count) :
    (decimal value).length ≤ count ↔ value < 10 ^ count := by
  rw [decimal, List.length_map, Nat.length_toDigits_le_iff (by decide) positive]

private theorem charByte_toNat {character : Char} (digit : character.isDigit = true) :
    (UInt8.ofNat character.toNat).toNat = character.toNat ∧
      48 ≤ character.toNat ∧ character.toNat ≤ 57 := by
  have range : 48 ≤ character.toNat ∧ character.toNat ≤ 57 :=
    Char.isDigit_iff_toNat.mp digit
  refine ⟨?_, range⟩
  rw [UInt8.toNat_ofNat']
  exact Nat.mod_eq_of_lt (by omega)

theorem isDigit_iff (byte : Byte) :
    isDigit byte = true ↔ 48 ≤ byte.toNat ∧ byte.toNat ≤ 57 := by
  simp only [isDigit, Bool.and_eq_true, decide_eq_true_eq, UInt8.le_iff_toNat_le]
  exact Iff.rfl

theorem isSpace_of_isDigit {byte : Byte} (digit : isDigit byte = true) :
    isSpace byte = false := by
  rw [isDigit_iff] at digit
  simp only [isSpace, Bool.or_eq_false_iff, beq_eq_false_iff_ne, ne_eq, Bool.and_eq_false_iff,
    decide_eq_false_iff_not, UInt8.le_iff_toNat_le, ← UInt8.toNat_inj]
  change ¬ byte.toNat = 32 ∧ (¬ 9 ≤ byte.toNat ∨ ¬ byte.toNat ≤ 13)
  omega

/-- A printed number consists of digits. -/
theorem isDigit_of_mem_decimal {value : Nat} {byte : Byte}
    (member : byte ∈ decimal value) : isDigit byte = true := by
  obtain ⟨character, characterMember, rfl⟩ := List.mem_map.mp member
  have digit := Nat.isDigit_of_mem_toDigits (by decide) (by decide) characterMember
  obtain ⟨toNat, low, high⟩ := charByte_toNat digit
  rw [isDigit_iff, toNat]
  exact ⟨low, high⟩

theorem isDigit_ne {byte other : Byte} (digit : isDigit byte = true)
    (notDigit : isDigit other = false) : byte ≠ other := by
  rintro rfl
  simp [notDigit] at digit

/-- A delimiter is not in a printed number. -/
theorem notMem_decimal {byte : Byte} (notDigit : isDigit byte = false) (value : Nat) :
    byte ∉ decimal value :=
  fun member => isDigit_ne (isDigit_of_mem_decimal member) notDigit rfl

theorem notMem_decimalInt {byte : Byte} (notDigit : isDigit byte = false) (notMinus : byte ≠ 45)
    (value : Int) : byte ∉ decimalInt value := by
  rw [decimalInt]
  split
  · intro member
    cases List.mem_cons.mp member with
    | inl minus => exact notMinus minus
    | inr digits => exact notMem_decimal notDigit _ digits
  · exact notMem_decimal notDigit _

private theorem readDigits_map (accumulated : Nat) (characters : List Char)
    (digits : ∀ character ∈ characters, character.isDigit = true) :
    readDigits accumulated
        (characters.map fun character => UInt8.ofNat character.toNat) =
      Nat.ofDigitChars 10 characters accumulated := by
  induction characters generalizing accumulated with
  | nil => simp [readDigits]
  | cons head tail inductionHypothesis =>
      obtain ⟨toNat, low, high⟩ := charByte_toNat (digits head (by simp))
      have isHead : isDigit (UInt8.ofNat head.toNat) = true := by
        rw [isDigit_iff, toNat]
        exact ⟨low, high⟩
      rw [List.map_cons, readDigits, if_pos isHead, toNat,
        inductionHypothesis _ (fun character member => digits character (by simp [member])),
        Nat.ofDigitChars_cons]
      rfl

/-- The digits of a printed number read back as the number. -/
theorem readDigits_decimal (value : Nat) : readDigits 0 (decimal value) = value := by
  rw [decimal, readDigits_map 0 _
    (fun character => Nat.isDigit_of_mem_toDigits (by decide) (by decide))]
  exact Nat.ofDigitChars_ten_toDigits

/-- `strtol` reads back what `%d` printed, within the range of `long`. -/
theorem strtol_decimal {value : Nat} (bounded : value < 2 ^ 63) :
    strtol (decimal value) = value := by
  unfold strtol
  obtain ⟨first, rest, shape⟩ := List.exists_cons_of_ne_nil (decimal_ne_nil value)
  have member : first ∈ decimal value := by rw [shape]; simp
  have digit : isDigit first = true := isDigit_of_mem_decimal member
  have notSpace : isSpace first = false := isSpace_of_isDigit digit
  rw [shape, List.dropWhile_cons_of_neg (by simp [notSpace])]
  dsimp only
  rw [if_neg (isDigit_ne digit (by decide)), if_neg (isDigit_ne digit (by decide)),
    ← shape, readDigits_decimal]
  omega

/-! ## Tokens -/

/-- What one successful `strtok` call found. Memory from the token on is
`text`, the NUL that ends it, then `tail`. -/
structure Token where
  text : List Byte
  tail : List Byte
  /-- Where the next `strtok(NULL, …)` resumes. -/
  saved : List Byte
deriving DecidableEq, Repr

/-- Memory from the first byte of the token on, after the delimiter has been
overwritten. -/
def Token.memory (token : Token) : List Byte := token.text ++ nul :: token.tail

/-- The bytes a token may consist of. -/
def inToken (isDelimiter : Byte → Bool) (byte : Byte) : Bool :=
  !(isDelimiter byte || byte == nul)

/-- One `strtok` call on the memory from the given pointer on. `none` is the
null pointer, returned when only delimiters precede the terminator. -/
def strtok (isDelimiter : Byte → Bool) (memory : List Byte) :
    Except Fault (Option Token) :=
  match memory.dropWhile isDelimiter with
  | [] => .error .outOfBounds
  | first :: rest =>
      if first = nul then .ok none
      else
        match (first :: rest).dropWhile (inToken isDelimiter) with
        | [] => .error .outOfBounds
        | stop :: tail =>
            .ok (some
              { text := (first :: rest).takeWhile (inToken isDelimiter)
                tail := tail
                saved := if stop = nul then stop :: tail else tail })

/-- A field: a non-empty text without delimiters and terminators. -/
def IsField (isDelimiter : Byte → Bool) (text : List Byte) : Prop :=
  text ≠ [] ∧ ∀ byte ∈ text, isDelimiter byte = false ∧ byte ≠ nul

instance (isDelimiter : Byte → Bool) (text : List Byte) :
    Decidable (IsField isDelimiter text) :=
  @instDecidableAnd _ _ inferInstance (List.decidableBAll _ _)

/-- `strtok` stops exactly at the byte that ends the field. -/
theorem strtok_field {isDelimiter : Byte → Bool} {text : List Byte}
    (field : IsField isDelimiter text) {stop : Byte}
    (ends : isDelimiter stop = true ∨ stop = nul) (tail : List Byte) :
    strtok isDelimiter (text ++ stop :: tail) =
      .ok (some ⟨text, tail, if stop = nul then stop :: tail else tail⟩) := by
  obtain ⟨nonempty, clean⟩ := field
  obtain ⟨first, rest, rfl⟩ := List.exists_cons_of_ne_nil nonempty
  obtain ⟨firstPlain, firstNotNul⟩ := clean first (by simp)
  have inside : ∀ byte ∈ first :: rest, inToken isDelimiter byte = true := by
    intro byte member
    obtain ⟨plain, notNul⟩ := clean byte member
    simp [inToken, plain, notNul]
  have stops : ¬ inToken isDelimiter stop = true := by
    rcases ends with delimiter | isNul
    · simp [inToken, delimiter]
    · simp [inToken, isNul]
  unfold strtok
  rw [List.cons_append, List.dropWhile_cons_of_neg (by simp [firstPlain])]
  dsimp only
  rw [if_neg firstNotNul, ← List.cons_append, List.dropWhile_append_of_pos inside,
    List.dropWhile_cons_of_neg stops, List.takeWhile_append_of_pos inside,
    List.takeWhile_cons_of_neg stops, List.append_nil]

/-- A field ended by a delimiter that is not NUL. -/
theorem strtok_delimited {isDelimiter : Byte → Bool} {text : List Byte}
    (field : IsField isDelimiter text) {stop : Byte} (delimiter : isDelimiter stop = true)
    (notNul : stop ≠ nul) (tail : List Byte) :
    strtok isDelimiter (text ++ stop :: tail) = .ok (some ⟨text, tail, tail⟩) := by
  rw [strtok_field field (.inl delimiter), if_neg notNul]

/-- A field ended by the terminator: the next call finds no further token. -/
theorem strtok_terminated {isDelimiter : Byte → Bool} {text : List Byte}
    (field : IsField isDelimiter text) (tail : List Byte) :
    strtok isDelimiter (text ++ nul :: tail) =
      .ok (some ⟨text, tail, nul :: tail⟩) := by
  rw [strtok_field field (.inr rfl), if_pos rfl]

/-- Memory as one call sees it: delimiters, a field, and the byte that ends
it. -/
structure Scanned (isDelimiter : Byte → Bool) (memory before text : List Byte) (stop : Byte)
    (tail : List Byte) : Prop where
  split : memory = before ++ (text ++ stop :: tail)
  leading : ∀ byte ∈ before, isDelimiter byte = true
  field : IsField isDelimiter text
  ends : isDelimiter stop = true ∨ stop = nul

section Scanned

variable {isDelimiter : Byte → Bool} {memory before text tail : List Byte} {stop : Byte}

/-- `strtok` skips the delimiters and stops behind the field. -/
theorem Scanned.strtok (scanned : Scanned isDelimiter memory before text stop tail) :
    strtok isDelimiter memory =
      .ok (some ⟨text, tail, if stop = nul then stop :: tail else tail⟩) := by
  obtain ⟨split, leading, field, ends⟩ := scanned
  have skipped : memory.dropWhile isDelimiter =
      (text ++ stop :: tail).dropWhile isDelimiter := by
    rw [split, List.dropWhile_append_of_pos leading]
  rw [← strtok_field field ends tail]
  simp only [Foundation.strtok, skipped]

/-- A token that `strtok` returns was delimited in the memory. -/
theorem exists_scanned {token : Token} (found : strtok isDelimiter memory = .ok (some token)) :
    ∃ before stop, Scanned isDelimiter memory before token.text stop token.tail ∧
      token.saved = if stop = nul then stop :: token.tail else token.tail := by
  unfold Foundation.strtok at found
  split at found
  next => cases found
  next first rest skipped =>
    split at found
    next => cases found
    next notNul =>
      split at found
      next => cases found
      next stop tail ended =>
        cases found
        refine ⟨memory.takeWhile isDelimiter, stop, ⟨?_, ?_, ⟨?_, ?_⟩, ?_⟩, rfl⟩
        · rw [← ended, List.takeWhile_append_dropWhile, ← skipped,
            List.takeWhile_append_dropWhile]
        · exact fun byte member => List.mem_takeWhile_imp member
        · have plain := List.head?_dropWhile_not isDelimiter memory
          rw [skipped] at plain
          have inside : inToken isDelimiter first = true := by
            simpa [inToken, notNul] using plain
          rw [List.takeWhile_cons_of_pos inside]
          exact List.cons_ne_nil _ _
        · intro byte member
          have kept := List.mem_takeWhile_imp member
          simpa [inToken] using kept
        · have stops := List.head?_dropWhile_not (inToken isDelimiter) (first :: rest)
          rw [ended] at stops
          by_cases delimiter : isDelimiter stop = true
          · exact .inl delimiter
          · exact .inr (by simpa [inToken, delimiter] using stops)

/-- Bytes behind the end of the field change nothing but the tail. -/
theorem Scanned.append (scanned : Scanned isDelimiter memory before text stop tail)
    (beyond : List Byte) :
    Scanned isDelimiter (memory ++ beyond) before text stop (tail ++ beyond) where
  split := by rw [scanned.split, List.append_assoc, List.append_assoc, List.cons_append]
  leading := scanned.leading
  field := scanned.field
  ends := scanned.ends

/-- All of the memory after the call, from the pointer that was passed. -/
def Token.overwritten (memory : List Byte) (token : Token) : List Byte :=
  memory.take (memory.length - token.memory.length) ++ token.memory

/-- One byte is overwritten, the one that ends the field. -/
theorem Scanned.overwritten (scanned : Scanned isDelimiter memory before text stop tail)
    (saved : List Byte) :
    Token.overwritten memory ⟨text, tail, saved⟩ = before ++ (text ++ nul :: tail) := by
  have kept : memory.length - (text ++ nul :: tail).length = before.length := by
    rw [scanned.split]
    simp only [List.length_append, List.length_cons]
    omega
  rw [Token.overwritten, Token.memory, kept, scanned.split, List.take_left]

end Scanned

/-- A printed number is a field for any delimiter that is not a digit. -/
theorem isField_decimal {isDelimiter : Byte → Bool}
    (notDigit : ∀ byte, isDigit byte = true → isDelimiter byte = false) (value : Nat) :
    IsField isDelimiter (decimal value) := by
  refine ⟨decimal_ne_nil value, fun byte member => ?_⟩
  have digit := isDigit_of_mem_decimal member
  exact ⟨notDigit byte digit, isDigit_ne digit (by decide)⟩

/-- The delimiter set `","`. -/
def isComma (byte : Byte) : Bool := byte == comma

@[simp] theorem isComma_comma : isComma comma = true := by decide

theorem isComma_of_isDigit (byte : Byte) (digit : isDigit byte = true) :
    isComma byte = false := by
  simp only [isComma, beq_eq_false_iff_ne]
  exact isDigit_ne digit (by decide)

end PaintingCPS.Foundation
