import PaintingCPS.Foundation.CString

/-!
Contract: text files of integers, one per line.

`operator<<` prints a number and a line feed; a loop over `operator>>` reads
numbers until the stream fails.

Owns: both directions and the round trip.

Does not own: which tables are kept in files.
-/

set_option autoImplicit false

namespace PaintingCPS.Foundation

/-- `'\n'` -/
def lineFeed : Byte := 10

/-- `outFile << t << "\n"` for every element. -/
def writeInts (numbers : List Int) : List Byte :=
  numbers.flatMap fun number => decimalInt number ++ [lineFeed]

/-- `inFile >> t`: leading spaces, a sign, and digits in the range of `int`.
`none` is the failed stream. -/
def extractInt (stream : List Byte) : Option (Int × List Byte) :=
  let text := stream.dropWhile isSpace
  let digits := if text.head? = some 45 ∨ text.head? = some 43 then text.tail else text
  if digits.takeWhile isDigit = [] then none
  else
    let value : Int :=
      if text.head? = some 45 then -(readDigits 0 digits : Int) else readDigits 0 digits
    if -2147483648 ≤ value ∧ value < 2147483648 then some (value, digits.dropWhile isDigit)
    else none

/-- `while (inFile >> t)`. Every pass but the last consumes a digit, so the
length of the stream bounds their number. -/
def extractInts : Nat → List Byte → List Int
  | 0, _ => []
  | fuel + 1, stream =>
      match extractInt stream with
      | none => []
      | some (number, rest) => number :: extractInts fuel rest

/-- All numbers of a file. -/
def readInts (file : List Byte) : List Int := extractInts file.length file

/-! ## Round trip -/

private theorem readDigits_stop (accumulated : Nat) (digits : List Byte)
    (all : ∀ byte ∈ digits, isDigit byte = true) {stop : Byte} (ends : isDigit stop = false)
    (rest : List Byte) :
    readDigits accumulated (digits ++ stop :: rest) = readDigits accumulated digits := by
  induction digits generalizing accumulated with
  | nil => simp [readDigits, ends]
  | cons head tail inductionHypothesis =>
      have isHead := all head List.mem_cons_self
      rw [List.cons_append, readDigits, readDigits, if_pos isHead, if_pos isHead]
      exact inductionHypothesis _ fun byte member => all byte (List.mem_cons_of_mem _ member)

/-- A printed number is extracted up to the line feed behind it. -/
theorem extractInt_decimal {value : Nat} (fits : value < 2 ^ 31) (rest : List Byte) :
    extractInt (decimal value ++ lineFeed :: rest) = some ((value : Int), lineFeed :: rest) := by
  obtain ⟨first, others, shape⟩ := List.exists_cons_of_ne_nil (decimal_ne_nil value)
  have digits : ∀ byte ∈ decimal value, isDigit byte = true :=
    fun byte member => isDigit_of_mem_decimal member
  have firstDigit : isDigit first = true := digits first (by rw [shape]; simp)
  have ends : isDigit lineFeed = false := by decide
  have noSpace : (decimal value ++ lineFeed :: rest).dropWhile isSpace =
      decimal value ++ lineFeed :: rest := by
    rw [shape, List.cons_append,
      List.dropWhile_cons_of_neg (by simp [isSpace_of_isDigit firstDigit])]
  have head : (decimal value ++ lineFeed :: rest).head? = some first := by rw [shape]; rfl
  have minus : first ≠ 45 := isDigit_ne firstDigit (by decide)
  have plus : first ≠ 43 := isDigit_ne firstDigit (by decide)
  have taken : (decimal value ++ lineFeed :: rest).takeWhile isDigit = decimal value := by
    rw [List.takeWhile_append_of_pos digits, List.takeWhile_cons_of_neg (by simp [ends]),
      List.append_nil]
  have dropped : (decimal value ++ lineFeed :: rest).dropWhile isDigit = lineFeed :: rest := by
    rw [List.dropWhile_append_of_pos digits, List.dropWhile_cons_of_neg (by simp [ends])]
  have read : readDigits 0 (decimal value ++ lineFeed :: rest) = value := by
    rw [readDigits_stop 0 _ digits ends, readDigits_decimal]
  simp only [extractInt, noSpace, head, Option.some.injEq, minus, plus, or_self, if_false, taken,
    dropped, read, decimal_ne_nil]
  rw [if_pos (by omega)]

/-- A line feed in front is skipped. -/
theorem extractInt_lineFeed (stream : List Byte) :
    extractInt (lineFeed :: stream) = extractInt stream := by
  have skipped : (lineFeed :: stream).dropWhile isSpace = stream.dropWhile isSpace :=
    List.dropWhile_cons_of_pos (by decide)
  simp only [extractInt, skipped]

/-- A stream that starts like a saved table reads as that table. -/
private theorem extractInts_writeInts (numbers : List Int)
    (fits : ∀ number ∈ numbers, 0 ≤ number ∧ number < 2 ^ 31) {fuel : Nat} {stream : List Byte}
    (enough : numbers.length ≤ fuel)
    (starts : extractInt stream = extractInt (writeInts numbers)) :
    extractInts fuel stream = numbers := by
  induction numbers generalizing fuel stream with
  | nil =>
      have failed : extractInt stream = none := starts
      cases fuel with
      | zero => rfl
      | succ fuel => rw [extractInts, failed]
  | cons number rest inductionHypothesis =>
      cases fuel with
      | zero => exact absurd enough (Nat.not_succ_le_zero _)
      | succ fuel =>
          obtain ⟨nonnegative, small⟩ := fits number List.mem_cons_self
          obtain ⟨value, rfl⟩ := Int.eq_ofNat_of_zero_le nonnegative
          have shape : writeInts ((value : Int) :: rest) =
              decimal value ++ lineFeed :: writeInts rest := by
            simp [writeInts, decimalInt_natCast]
          rw [extractInts, starts, shape, extractInt_decimal (by omega)]
          dsimp only
          rw [inductionHypothesis
            (fun number member => fits number (List.mem_cons_of_mem _ member))
            (Nat.le_of_succ_le_succ enough) (extractInt_lineFeed _)]

theorem length_le_writeInts (numbers : List Int) :
    numbers.length ≤ (writeInts numbers).length := by
  induction numbers with
  | nil => exact Nat.zero_le _
  | cons head tail inductionHypothesis =>
      have shape : writeInts (head :: tail) =
          decimalInt head ++ [lineFeed] ++ writeInts tail := rfl
      simp only [shape, List.length_append, List.length_cons, List.length_nil]
      omega

/-- A saved table of counts is read back as it was. -/
theorem readInts_writeInts (numbers : List Int)
    (fits : ∀ number ∈ numbers, 0 ≤ number ∧ number < 2 ^ 31) :
    readInts (writeInts numbers) = numbers :=
  extractInts_writeInts numbers fits (length_le_writeInts numbers) rfl

end PaintingCPS.Foundation
