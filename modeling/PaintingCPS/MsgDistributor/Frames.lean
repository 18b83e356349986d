import Mathlib.Tactic.IntervalCases
import Mathlib.Tactic.Positivity
import PaintingCPS.MsgDistributor.State

/-!
Contract: the bytes that `connect`, `accept`, `send`, `close` and `client_stop`
put on the network, in C++ and in Java.

The C++ control frames are formatted into an uninitialised array of
`BUFFER_SIZE` bytes and sent whole, so everything behind the terminator is
arbitrary. The Java control frames are formatted into a zeroed array, without
the trailing comma that the C++ ones have. `client_stop` writes its close frame
into a zeroed array, without the comma.

Owns: both digit-count loops and the ids they measure, all encoders, the
abstract frames they stand for, and the exact bytes of every encoder on an id
of 1 to 9 digits.

Does not own: decoding.
-/

set_option autoImplicit false

namespace PaintingCPS

open Foundation

/-! ## Ids -/

/-- The ids that `accept` can hand out. -/
structure IdRange (id : Int) : Prop where
  low : 1 ≤ id
  high : id < 2 ^ 31

theorem IdRange.decimalInt_eq {id : Int} (range : IdRange id) :
    decimalInt id = decimal id.toNat := by
  have low := range.low
  obtain ⟨value, rfl⟩ := Int.eq_ofNat_of_zero_le (Int.le_of_lt low)
  exact decimalInt_natCast value

theorem IdRange.digits_le {id : Int} (range : IdRange id) :
    (decimalInt id).length ≤ 10 := by
  have high := range.high
  rw [range.decimalInt_eq, decimal_length_le_iff (by omega)]
  omega

/-- An id of 1 to 9 digits, for which the loops below count the digits. -/
structure SocketId where
  value : Nat
  positive : 1 ≤ value
  below : value < 10 ^ 9
deriving DecidableEq, Repr

/-- The `int` that the methods receive. -/
def SocketId.int (id : SocketId) : Int := id.value

theorem SocketId.range (id : SocketId) : IdRange id.int := by
  have below := id.below
  have positive := id.positive
  constructor <;> rw [SocketId.int] <;> omega

/-- The id that the first `accept` hands out. -/
def SocketId.first : SocketId := ⟨1, by decide, by decide⟩

theorem SocketId.int_injective : Function.Injective SocketId.int := by
  intro first second same
  cases first
  cases second
  simp only [SocketId.int, Int.natCast_inj] at same
  subst same
  rfl

/-- `int id_length = 1, divisor = 10; while (id / divisor != 0) …`, with the
multiplication of `divisor` left to the language. -/
def digitCount (timesTen : Int → Except Fault Int) :
    Nat → Int → Int → Nat → Except Fault Nat
  | 0, _, _, _ => .error .outOfFuel
  | fuel + 1, id, divisor, idLength =>
      if divisor = 0 then .error .divideByZero
      else if id.tdiv divisor = 0 then .ok idLength
      else
        match timesTen divisor with
        | .error fault => .error fault
        | .ok grown => digitCount timesTen fuel id grown (idLength + 1)

/-- `divisor *= 10` in C++, where overflow of `int` is undefined. -/
def Cpp.timesTen (divisor : Int) : Except Fault Int :=
  if -2147483648 ≤ divisor * 10 ∧ divisor * 10 < 2147483648 then .ok (divisor * 10)
  else .error .signedOverflow

/-- `divisor *= 10` in Java, where `int` wraps. -/
def Java.timesTen (divisor : Int) : Except Fault Int :=
  .ok (toInt32 (divisor * 10))

/-- The C++ loop: the divisor passes `10^9` only by overflowing. -/
def Cpp.idLength (id : Int) : Except Fault Nat := digitCount Cpp.timesTen 12 id 10 1

/-- The Java loop: after 32 multiplications a wrapped divisor is 0. -/
def Java.idLength (id : Int) : Except Fault Nat := digitCount Java.timesTen 40 id 10 1

/-- A quotient is 0 when the number has no more digits than the divisor has
zeros. -/
private theorem tdiv_power_eq_zero_iff (id : Int) (count : Nat) :
    id.tdiv (10 ^ count) = 0 ↔ id.natAbs < 10 ^ count := by
  rw [← Int.natAbs_eq_zero, Int.natAbs_tdiv, Int.natAbs_pow]
  exact Nat.div_eq_zero_iff_lt (by positivity)

/-- Both loops count the printed digits when `divisor` follows the powers of
ten up to `10^9`. -/
private theorem digitCount_eq {timesTen : Int → Except Fault Int}
    (powers : ∀ exponent, exponent < 9 → timesTen (10 ^ exponent) = .ok (10 ^ (exponent + 1)))
    {id : Int} (short : id.natAbs < 10 ^ 9) :
    ∀ fuel count, 1 ≤ count → count ≤ 9 → 9 < fuel + count →
      (1 < count → 10 ^ (count - 1) ≤ id.natAbs) →
      digitCount timesTen fuel id (10 ^ count) count =
        .ok (decimal id.natAbs).length := by
  intro fuel
  induction fuel with
  | zero =>
      intro count _ atMost enough _
      omega
  | succ fuel inductionHypothesis =>
      intro count positive atMost enough reached
      have divisorPositive : (0 : Int) < 10 ^ count := by positivity
      rw [digitCount, if_neg (by omega)]
      by_cases fits : id.natAbs < 10 ^ count
      · rw [if_pos ((tdiv_power_eq_zero_iff id count).mpr fits)]
        have upper := (decimal_length_le_iff positive).mpr fits
        have lower : count ≤ (decimal id.natAbs).length := by
          by_cases one : count = 1
          · subst one
            exact List.length_pos_iff.mpr (decimal_ne_nil _)
          · by_contra short
            have small : id.natAbs < 10 ^ (count - 1) :=
              (decimal_length_le_iff (by omega)).mp (by omega)
            have := reached (by omega)
            omega
        rw [Nat.le_antisymm lower upper]
      · have below : count < 9 := by
          by_contra atLeast
          have : count = 9 := by omega
          subst this
          exact fits short
        rw [if_neg (fun zero => fits ((tdiv_power_eq_zero_iff id count).mp zero)),
          powers count below]
        exact inductionHypothesis (count + 1) (by omega) (by omega) (by omega)
          (fun _ => by simpa using Nat.le_of_not_lt fits)

private theorem Cpp.timesTen_power {exponent : Nat} (below : exponent < 9) :
    Cpp.timesTen (10 ^ exponent) = .ok (10 ^ (exponent + 1)) := by
  rw [Cpp.timesTen, if_pos ?_, pow_succ]
  interval_cases exponent <;> decide

/-- The C++ loop counts the digits of a number of up to nine digits. -/
theorem Cpp.idLength_natAbs {id : Int} (short : id.natAbs < 10 ^ 9) :
    Cpp.idLength id = .ok (decimal id.natAbs).length :=
  digitCount_eq (fun _ below => Cpp.timesTen_power below) short 12 1
    (by omega) (by omega) (by omega) (by omega)

theorem Cpp.idLength_eq (id : SocketId) :
    Cpp.idLength id.int = .ok (decimal id.value).length :=
  Cpp.idLength_natAbs (show id.int.natAbs < 10 ^ 9 from id.below)

/-- So does the Java loop: its divisor has not wrapped yet. -/
theorem Java.idLength_natAbs {id : Int} (short : id.natAbs < 10 ^ 9) :
    Java.idLength id = .ok (decimal id.natAbs).length := by
  refine digitCount_eq (fun exponent below => ?_) short
    40 1 (by omega) (by omega) (by omega) (by omega)
  rw [Java.timesTen, ← pow_succ]
  interval_cases exponent <;> decide

theorem Java.idLength_eq (id : SocketId) :
    Java.idLength id.int = .ok (decimal id.value).length :=
  Java.idLength_natAbs (show id.int.natAbs < 10 ^ 9 from id.below)

/-- Above nine digits the C++ loop multiplies `10^9` by ten. -/
theorem Cpp.idLength_overflow {id : Int} (long : 10 ^ 9 ≤ id.natAbs) :
    Cpp.idLength id = .error .signedOverflow := by
  have loop : ∀ fuel count, 1 ≤ count → count ≤ 9 → 9 < fuel + count →
      digitCount Cpp.timesTen fuel id (10 ^ count) count = .error .signedOverflow := by
    intro fuel
    induction fuel with
    | zero =>
        intro count _ atMost enough
        omega
    | succ fuel inductionHypothesis =>
        intro count positive atMost enough
        have divisorPositive : (0 : Int) < 10 ^ count := by positivity
        have divisorSmall : 10 ^ count ≤ 10 ^ 9 := Nat.pow_le_pow_right (by decide) atMost
        have quotient : id.tdiv (10 ^ count) ≠ 0 := by
          intro zero
          have fits := (tdiv_power_eq_zero_iff id count).mp zero
          omega
        rw [digitCount, if_neg (by omega), if_neg quotient]
        by_cases last : count = 9
        · subst last
          rw [Cpp.timesTen, if_neg (by decide)]
        · rw [Cpp.timesTen_power (by omega)]
          exact inductionHypothesis (count + 1) (by omega) (by omega) (by omega)
  exact loop 12 1 (by omega) (by omega) (by omega)

/-- The text in front of the payload of a data frame. -/
def sockText (id : Int) : List Byte := ascii "sock," ++ decimalInt id ++ ascii ","

/-- In both languages the loop ends before `divisor` leaves the `int`s, it
counts the characters of `%d`, and the payload starts where the text ends. -/
def MeasuresId (id : Int) : Prop :=
  ∃ idLength, Cpp.idLength id = .ok idLength ∧ Java.idLength id = .ok idLength ∧
    idLength = (decimalInt id).length ∧ 6 + idLength = (sockText id).length

/-- A sign is not counted, and from ten digits on `divisor` overflows. -/
theorem measuresId_iff (id : Int) : MeasuresId id ↔ 0 ≤ id ∧ id < 10 ^ 9 := by
  constructor
  · rintro ⟨idLength, counted, -, printed, -⟩
    have short : id.natAbs < 10 ^ 9 := by
      by_contra long
      rw [Cpp.idLength_overflow (Nat.le_of_not_lt long)] at counted
      cases counted
    have nonnegative : 0 ≤ id := by
      by_contra negative
      rw [Cpp.idLength_natAbs short] at counted
      rw [← Except.ok.inj counted, decimalInt, if_pos (by omega), List.length_cons] at printed
      omega
    exact ⟨nonnegative, by omega⟩
  · rintro ⟨nonnegative, below⟩
    have short : id.natAbs < 10 ^ 9 := by omega
    have printed : decimalInt id = decimal id.natAbs := by
      rw [decimalInt, if_neg (by omega)]
    refine ⟨_, Cpp.idLength_natAbs short, Java.idLength_natAbs short, by rw [printed], ?_⟩
    have word : (ascii "sock,").length = 5 := by decide
    have separator : (ascii ",").length = 1 := by decide
    rw [sockText, printed, List.length_append, List.length_append, word, separator]
    omega

/-- `listen` stores such ids from the frames `accepted,1000000000,` and
`accepted,-5,`. -/
theorem not_measuresId :
    toInt32 (strtol (ascii "1000000000,")) = 1000000000 ∧ ¬ MeasuresId 1000000000 ∧
      toInt32 (strtol (ascii "-5,")) = -5 ∧ ¬ MeasuresId (-5) := by
  refine ⟨by decide +kernel, ?_, by decide +kernel, ?_⟩
  · rintro ⟨idLength, counted, -⟩
    rw [Cpp.idLength_overflow (by decide)] at counted
    cases counted
  · rintro ⟨idLength, counted, -, printed, -⟩
    rw [Cpp.idLength_natAbs (by decide)] at counted
    rw [← Except.ok.inj counted] at printed
    exact absurd printed (by decide +kernel)

/-! ## Encoders -/

/-- What a frame says. -/
inductive Frame where
  | create
  | accepted (id : Int)
  | sock (id : Int) (payload : List Byte)
  | close (id : Int)
deriving DecidableEq, Repr

namespace Cpp

/-- `connect`: `sprintf(header, "create")`, all of `header` is sent. -/
def connectFrame (junk : Nat → Byte) : Except Fault (List Byte) :=
  sprintf (uninitialised junk bufferSize) (ascii "create")

/-- `accept`: `sprintf(header, "accepted,%d,", mfsockid)`. -/
def acceptFrame (junk : Nat → Byte) (mfsockid : Int) : Except Fault (List Byte) :=
  sprintf (uninitialised junk bufferSize)
    (ascii "accepted," ++ decimalInt mfsockid ++ ascii ",")

/-- `send`: the header with the id, then `size` bytes at `6 + id_length` of an
array of `size + id_length + 6` bytes. -/
def sendFrame (junk : Nat → Byte) (sock : Int) (buffer : List Byte) :
    Except Fault (List Byte) := do
  let idLength ← Cpp.idLength sock
  let contentLength := buffer.length + idLength + 6
  let content ← sprintf (uninitialised junk contentLength)
    (ascii "sock," ++ decimalInt sock ++ ascii ",")
  writeBytes content (6 + idLength) buffer

/-- `close`: `sprintf(content, "close,%d,", sock)`. -/
def closeFrame (junk : Nat → Byte) (sock : Int) : Except Fault (List Byte) :=
  sprintf (uninitialised junk bufferSize)
    (ascii "close," ++ decimalInt sock ++ ascii ",")

/-- `client_stop`: `bzero(content, BUFFER_SIZE); sprintf(content, "close,%d", elem)`. -/
def clientStopFrame (elem : Int) : Except Fault (List Byte) :=
  sprintf (List.replicate bufferSize 0) (ascii "close," ++ decimalInt elem)

end Cpp

namespace Java

/-- The bytes of a header in a new array of `BUFFER_SIZE` zeros. -/
def controlFrame (header : List Byte) : Except Fault (List Byte) :=
  writeBytes (List.replicate bufferSize 0) 0 header

/-- `connect`: `String.format("create")`. -/
def connectFrame : Except Fault (List Byte) := controlFrame (ascii "create")

/-- `accept`: `String.format("accepted,%d", newID)`. -/
def acceptFrame (newID : Int) : Except Fault (List Byte) :=
  controlFrame (ascii "accepted," ++ decimalInt newID)

/-- `send`: header, then the payload at `6 + idLen`, in a zeroed array. -/
def sendFrame (sockID : Int) (buf : List Byte) : Except Fault (List Byte) := do
  let idLen ← Java.idLength sockID
  let contentLen := buf.length + idLen + 6
  let content ← writeBytes (List.replicate contentLen 0) 0
    (ascii "sock," ++ decimalInt sockID ++ ascii ",")
  writeBytes content (6 + idLen) buf

/-- `close`: `String.format("close,%d", sockID)`. -/
def closeFrame (sockID : Int) : Except Fault (List Byte) :=
  controlFrame (ascii "close," ++ decimalInt sockID)

end Java

/-! ## Exact bytes -/

/-- The header of a data frame. -/
def sockHeader (id : SocketId) : List Byte :=
  ascii "sock," ++ decimal id.value ++ [comma]

theorem SocketId.decimalInt_int (id : SocketId) : decimalInt id.int = decimal id.value :=
  decimalInt_natCast id.value

theorem SocketId.digits_le (id : SocketId) : (decimal id.value).length ≤ 9 :=
  (decimal_length_le_iff (by omega)).mpr id.below

theorem sockHeader_length (id : SocketId) :
    (sockHeader id).length = 6 + (decimal id.value).length := by
  simp only [sockHeader, List.length_append, List.length_singleton]
  have : (ascii "sock,").length = 5 := by decide
  omega

theorem sockHeader_append (id : SocketId) (rest : List Byte) :
    sockHeader id ++ rest = ascii "sock" ++ comma :: (decimal id.value ++ comma :: rest) := by
  simp [sockHeader, ascii, comma]

/-- A control text of fewer than `BUFFER_SIZE` bytes, formatted by C++, ends in
a terminator and arbitrary bytes. -/
private theorem sprintf_control {buffer text : List Byte} (size : buffer.length = bufferSize)
    (fits : text.length < bufferSize) :
    ∃ rest, rest.length = bufferSize - (text.length + 1) ∧
      sprintf buffer text = .ok (text ++ nul :: rest) := by
  refine ⟨buffer.drop (text.length + 1), by simp [size], ?_⟩
  exact sprintf_eq (by omega)

theorem Cpp.connectFrame_eq (junk : Nat → Byte) :
    ∃ rest, rest.length = bufferSize - 7 ∧
      Cpp.connectFrame junk = .ok (ascii "create" ++ nul :: rest) := by
  have short : (ascii "create").length < bufferSize := by decide
  exact sprintf_control (uninitialised_length junk bufferSize) short

private theorem control_length (word : String) {id : Int} (range : IdRange id)
    (short : (ascii word).length ≤ 9) :
    (ascii word ++ decimalInt id ++ ascii ",").length < bufferSize := by
  have := range.digits_le
  have : (ascii ",").length = 1 := by decide
  simp only [List.length_append, bufferSize]
  omega

theorem Cpp.acceptFrame_eq (junk : Nat → Byte) {id : Int} (range : IdRange id) :
    ∃ rest, Cpp.acceptFrame junk id =
      .ok (ascii "accepted" ++ comma :: (decimalInt id ++ comma :: nul :: rest)) := by
  obtain ⟨rest, _, formatted⟩ := sprintf_control (uninitialised_length junk bufferSize)
    (control_length "accepted," range (by decide))
  refine ⟨rest, ?_⟩
  rw [Cpp.acceptFrame, formatted]
  simp [ascii, comma]

theorem Cpp.closeFrame_eq (junk : Nat → Byte) {id : Int} (range : IdRange id) :
    ∃ rest, Cpp.closeFrame junk id =
      .ok (ascii "close" ++ comma :: (decimalInt id ++ comma :: nul :: rest)) := by
  obtain ⟨rest, _, formatted⟩ := sprintf_control (uninitialised_length junk bufferSize)
    (control_length "close," range (by decide))
  refine ⟨rest, ?_⟩
  rw [Cpp.closeFrame, formatted]
  simp [ascii, comma]

/-- Without the trailing comma every byte behind the id is zero. -/
private theorem zeroed_control (word : String) {id : Int} (range : IdRange id)
    (short : (ascii word).length ≤ 9) :
    ∃ zeros, 0 < zeros ∧
      writeBytes (List.replicate bufferSize 0) 0 (ascii word ++ decimalInt id) =
        .ok (ascii word ++ decimalInt id ++ List.replicate zeros nul) := by
  have digits := range.digits_le
  refine ⟨bufferSize - (ascii word ++ decimalInt id).length, ?_, ?_⟩
  · simp only [List.length_append, bufferSize]
    omega
  · rw [writeBytes_eq (by
      simp only [List.length_append, List.length_replicate, bufferSize]
      omega)]
    simp [nul]

theorem Java.connectFrame_eq :
    ∃ zeros, Java.connectFrame = .ok (ascii "create" ++ nul :: List.replicate zeros nul) := by
  have word : (ascii "create").length = 6 := by decide
  have padding : bufferSize - 6 = (bufferSize - 7) + 1 := by decide
  refine ⟨bufferSize - 7, ?_⟩
  rw [Java.connectFrame, Java.controlFrame, writeBytes_eq (by
    rw [List.length_replicate, word, bufferSize]
    omega), ← List.replicate_succ, ← padding]
  simp [nul, word]

theorem Java.acceptFrame_eq {id : Int} (range : IdRange id) :
    ∃ zeros, 0 < zeros ∧ Java.acceptFrame id =
      .ok (ascii "accepted" ++ comma :: (decimalInt id ++ List.replicate zeros nul)) := by
  obtain ⟨zeros, positive, formatted⟩ := zeroed_control "accepted," range (by decide)
  refine ⟨zeros, positive, ?_⟩
  rw [Java.acceptFrame, Java.controlFrame, formatted]
  simp [ascii, comma]

theorem Java.closeFrame_eq {id : Int} (range : IdRange id) :
    ∃ zeros, 0 < zeros ∧ Java.closeFrame id =
      .ok (ascii "close" ++ comma :: (decimalInt id ++ List.replicate zeros nul)) := by
  obtain ⟨zeros, positive, formatted⟩ := zeroed_control "close," range (by decide)
  refine ⟨zeros, positive, ?_⟩
  rw [Java.closeFrame, Java.controlFrame, formatted]
  simp [ascii, comma]

theorem Cpp.clientStopFrame_eq {id : Int} (range : IdRange id) :
    ∃ zeros, 0 < zeros ∧ Cpp.clientStopFrame id =
      .ok (ascii "close" ++ comma :: (decimalInt id ++ List.replicate zeros nul)) := by
  have digits := range.digits_le
  have word : (ascii "close,").length = 6 := by decide
  refine ⟨bufferSize - (ascii "close," ++ decimalInt id).length, ?_, ?_⟩
  · simp only [List.length_append, bufferSize]
    omega
  · rw [Cpp.clientStopFrame, sprintf_eq (by
      simp only [List.length_append, List.length_replicate, bufferSize]
      omega)]
    have split : bufferSize - (ascii "close," ++ decimalInt id).length =
        bufferSize - ((ascii "close," ++ decimalInt id).length + 1) + 1 := by
      simp only [List.length_append, bufferSize]
      omega
    rw [split, List.replicate_succ]
    simp [ascii, comma, nul]

/-- A formatted control frame fills the whole header array. -/
theorem sprintf_length {buffer text message : List Byte}
    (formatted : sprintf buffer text = .ok message) : message.length = buffer.length :=
  writeBytes_length formatted

theorem Java.controlFrame_length {header message : List Byte}
    (formatted : Java.controlFrame header = .ok message) : message.length = bufferSize := by
  rw [writeBytes_length formatted, List.length_replicate]

/-- The two writes of `send` put the header and the payload side by side. -/
private theorem header_payload {content : List Byte} (id : SocketId) (payload : List Byte)
    (rest : List Byte) (shape : content = sockHeader id ++ rest)
    (size : rest.length = payload.length) :
    writeBytes content (6 + (decimal id.value).length) payload =
      .ok (sockHeader id ++ payload) := by
  subst shape
  rw [← sockHeader_length, writeBytes_append _ _ _ (by omega), ← size]
  simp

/-- A C++ data frame with a non-empty payload. -/
theorem Cpp.sendFrame_eq (junk : Nat → Byte) (id : SocketId) {payload : List Byte}
    (nonempty : payload ≠ []) :
    Cpp.sendFrame junk id.int payload = .ok (sockHeader id ++ payload) := by
  have positive := List.length_pos_iff.mpr nonempty
  have header : ascii "sock," ++ decimalInt id.int ++ ascii "," = sockHeader id := by
    rw [id.decimalInt_int]
    rfl
  have length := sockHeader_length id
  simp only [Cpp.sendFrame, Cpp.idLength_eq, header, bind, Except.bind]
  rw [sprintf_eq (by rw [uninitialised_length]; omega)]
  refine header_payload id payload _ rfl ?_
  simp only [List.length_cons, List.length_drop, uninitialised_length]
  omega

/-- With an empty payload the terminator of the header does not fit. -/
theorem Cpp.sendFrame_empty (junk : Nat → Byte) (id : SocketId) :
    Cpp.sendFrame junk id.int [] = .error .outOfBounds := by
  have header : ascii "sock," ++ decimalInt id.int ++ ascii "," = sockHeader id := by
    rw [id.decimalInt_int]
    rfl
  have length := sockHeader_length id
  simp only [Cpp.sendFrame, Cpp.idLength_eq, header, bind, Except.bind, sprintf]
  rw [writeBytes, if_pos]
  simp only [uninitialised_length, List.length_append, List.length_singleton, List.length_nil]
  omega

/-- A Java data frame. -/
theorem Java.sendFrame_eq (id : SocketId) (payload : List Byte) :
    Java.sendFrame id.int payload = .ok (sockHeader id ++ payload) := by
  have header : ascii "sock," ++ decimalInt id.int ++ ascii "," = sockHeader id := by
    rw [id.decimalInt_int]
    rfl
  have length := sockHeader_length id
  simp only [Java.sendFrame, Java.idLength_eq, header, bind, Except.bind]
  rw [writeBytes_eq (by rw [List.length_replicate]; omega)]
  refine header_payload id payload _ (by rw [List.take_zero, List.nil_append]) ?_
  simp only [List.length_drop, List.length_replicate]
  omega

end PaintingCPS
