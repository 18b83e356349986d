import PaintingCPS.MsgDistributor.Decoding

/-!
Contract: C++ `listen` on any bytes.

A message is a frame when it starts with one of the four words and, where the
word asks for it, with the decimal of an `int` that is not negative; what
follows the id of a control frame is filler. `listen` recognises more than
that, and it looks for the end of a field behind the message.

Owns: well-formed frames, what is expected of `listen` on any message, and the
messages for which it holds.

Does not own: the Java class, and states whose pointers dangle.
-/

set_option autoImplicit false

namespace PaintingCPS

open Foundation

/-- The bytes of a frame. A field ends at a comma or at NUL, the id of a data
frame at a comma. -/
inductive Frame.Carried : Frame → List Byte → Prop
  | create {stop : Byte} (stops : stop = comma ∨ stop = nul) (rest : List Byte) :
      Carried .create (ascii "create" ++ stop :: rest)
  | accepted {id : Nat} (range : id < 2 ^ 31) {stop : Byte} (stops : stop = comma ∨ stop = nul)
      (rest : List Byte) :
      Carried (.accepted id) (ascii "accepted" ++ comma :: (decimal id ++ stop :: rest))
  | sock {id : Nat} (range : id < 2 ^ 31) (payload : List Byte) :
      Carried (.sock id payload) (ascii "sock" ++ comma :: (decimal id ++ comma :: payload))
  | close {id : Nat} (range : id < 2 ^ 31) {stop : Byte} (stops : stop = comma ∨ stop = nul)
      (rest : List Byte) :
      Carried (.close id) (ascii "close" ++ comma :: (decimal id ++ stop :: rest))

/-- The digits of a data frame can be counted. -/
def Frame.Countable : Frame → Prop
  | .sock id _ => id < 10 ^ 9
  | _ => True

namespace Cpp

/-- `listen` performs the effect of a frame or discards the message. Memory
that ends with the message gives the same, so no byte behind it is read. -/
def Tolerates (endpoint : MsgDistributor) (message : List Byte) : Prop :=
  ∃ outcome, (∀ junk, listen junk endpoint (some message) = outcome) ∧
    dispatch endpoint message.length message = outcome ∧
    ((∃ frame : Frame, frame.Carried message ∧ outcome = frame.effect endpoint) ∨
      outcome = .ok (endpoint, -1))

/-- A message of another kind: its first field ends in it. -/
def Foreign (message : List Byte) : Prop :=
  ∃ before word stop tail, Scanned isComma message before word stop tail ∧
    word ≠ ascii "create" ∧ word ≠ ascii "accepted" ∧ word ≠ ascii "sock" ∧ word ≠ ascii "close"

/-- Data for a socket that does not exist, whatever stands for its id. -/
def Unclaimed (endpoint : MsgDistributor) (message : List Byte) : Prop :=
  ∃ text stop tail, message = ascii "sock" ++ comma :: (text ++ stop :: tail) ∧
    IsField isComma text ∧ (stop = comma ∨ stop = nul) ∧
    (toInt32 (strtol text)).natAbs < 10 ^ 9 ∧ endpoint.semMap (toInt32 (strtol text)) = none

/-! ## Numbers in a field -/

/-- A number has no more digits than the text that it is read from. -/
private theorem readDigits_lt (accumulated : Nat) (text : List Byte) :
    readDigits accumulated text < (accumulated + 1) * 10 ^ text.length := by
  induction text generalizing accumulated with
  | nil => simp [readDigits]
  | cons byte rest inductionHypothesis =>
      rw [readDigits, List.length_cons, Nat.pow_succ, Nat.mul_comm _ 10, ← Nat.mul_assoc]
      split
      next digit =>
        have small := (isDigit_iff byte).mp digit
        refine (inductionHypothesis _).trans_le (Nat.mul_le_mul_right _ ?_)
        omega
      next =>
        have positive : 0 < 10 ^ rest.length := Nat.pow_pos (by decide)
        calc accumulated < (accumulated + 1) * 10 := by omega
          _ ≤ (accumulated + 1) * 10 * 10 ^ rest.length := Nat.le_mul_of_pos_right _ positive

private theorem natAbs_strtol_lt (text : List Byte) :
    (strtol text).natAbs < 10 ^ text.length := by
  have shorter : (text.dropWhile isSpace).length ≤ text.length := by
    have split := congrArg List.length (List.takeWhile_append_dropWhile (p := isSpace) (l := text))
    rw [List.length_append] at split
    omega
  have bound : ∀ digits : List Byte, digits.length ≤ text.length →
      readDigits 0 digits < 10 ^ text.length := by
    intro digits within
    have small := readDigits_lt 0 digits
    rw [Nat.zero_add, Nat.one_mul] at small
    exact small.trans_le (Nat.pow_le_pow_right (by decide) within)
  unfold strtol
  split
  next => exact Nat.pow_pos (by decide)
  next sign rest skipped =>
    rw [skipped, List.length_cons] at shorter
    have behind := bound rest (by omega)
    have whole := bound (sign :: rest) (by rw [List.length_cons]; exact shorter)
    split
    · omega
    · split <;> omega

/-- The recomputed digit count stays within the field. -/
theorem idLength_le {text : List Byte} (nonempty : text ≠ [])
    (short : (toInt32 (strtol text)).natAbs < 10 ^ 9) :
    (decimal (toInt32 (strtol text)).natAbs).length ≤ text.length := by
  have positive := List.length_pos_iff.mpr nonempty
  rw [decimal_length_le_iff positive]
  by_cases long : 9 ≤ text.length
  · exact short.trans_le (Nat.pow_le_pow_right (by decide) long)
  · have small := natAbs_strtol_lt text
    have power : 10 ^ text.length ≤ 10 ^ 8 := Nat.pow_le_pow_right (by decide) (by omega)
    rw [toInt32_of_range (by omega) (by omega)]
    exact small

/-! ## The branches of `listen` -/

section Branches

variable {endpoint : MsgDistributor} {memory before word tail : List Byte} {stop : Byte}
variable {count : Nat}

private theorem dispatch_create_of_scanned
    (scanned : Scanned isComma memory before (ascii "create") stop tail) :
    dispatch endpoint count memory =
      .ok ({ endpoint with acceptSem := endpoint.acceptSem + 1 }, 0) := by
  rw [dispatch, scanned.strtok]
  simp only [bind, Except.bind, deref_some]
  rw [if_pos trivial]
  rfl

private theorem dispatch_foreign (scanned : Scanned isComma memory before word stop tail)
    (foreign : word ≠ ascii "create" ∧ word ≠ ascii "accepted" ∧ word ≠ ascii "sock" ∧
      word ≠ ascii "close") :
    dispatch endpoint count memory = .ok (endpoint, -1) := by
  obtain ⟨create, accepted, sock, close⟩ := foreign
  rw [dispatch, scanned.strtok]
  simp only [bind, Except.bind, deref_some]
  rw [if_neg create, if_neg accepted, if_neg sock, if_neg close]
  rfl

private theorem dispatch_accepted_of_scanned
    (scanned : Scanned isComma memory before (ascii "accepted") stop tail) :
    dispatch endpoint count memory = (do
      let createdIdChar ← deref (← strtok isComma (if stop = nul then stop :: tail else tail))
      return ({ endpoint with
        connectQueue := endpoint.connectQueue ++ [toInt32 (strtol createdIdChar.text)]
        connectSem := endpoint.connectSem + 1 }, 0)) := by
  rw [dispatch, scanned.strtok]
  simp only [bind, Except.bind, deref_some]
  rw [if_neg (by decide), if_pos trivial]

private theorem dispatch_close_of_scanned
    (scanned : Scanned isComma memory before (ascii "close") stop tail) :
    dispatch endpoint count memory = (do
      let idChar ← deref (← strtok isComma (if stop = nul then stop :: tail else tail))
      return ((endpoint.closeLocked (toInt32 (strtol idChar.text))).getD endpoint, 0)) := by
  rw [dispatch, scanned.strtok]
  simp only [bind, Except.bind, deref_some]
  rw [if_neg (by decide), if_neg (by decide), if_neg (by decide), if_pos trivial]

private theorem dispatch_sock_of_scanned
    (scanned : Scanned isComma memory before (ascii "sock") stop tail) :
    dispatch endpoint count memory = (do
      let idChar ← deref (← strtok isComma (if stop = nul then stop :: tail else tail))
      let idLength ← Cpp.idLength (toInt32 (strtol idChar.text))
      let content ← readBytes (idChar.memory.drop (idLength + 1)) ((count : Int) - idLength - 6)
      (Frame.sock (toInt32 (strtol idChar.text)) content).effect endpoint) := by
  rw [dispatch, scanned.strtok]
  simp only [bind, Except.bind, deref_some]
  rw [if_neg (by decide), if_neg (by decide), if_pos trivial]
  rfl

/-- A data frame whose id field ends in the memory: the content is what stands
behind as many bytes as the id has digits. -/
private theorem dispatch_data (scanned : Scanned isComma memory before (ascii "sock") comma tail)
    {between text more : List Byte} {ends : Byte}
    (field : Scanned isComma tail between text ends more)
    (short : (toInt32 (strtol text)).natAbs < 10 ^ 9) :
    dispatch endpoint count memory = (do
      let content ← readBytes
        ((text ++ nul :: more).drop ((decimal (toInt32 (strtol text)).natAbs).length + 1))
        ((count : Int) - (decimal (toInt32 (strtol text)).natAbs).length - 6)
      (Frame.sock (toInt32 (strtol text)) content).effect endpoint) := by
  rw [dispatch_sock_of_scanned scanned, if_neg (by decide), field.strtok]
  simp only [bind, Except.bind, deref_some, idLength_natAbs short, Token.memory]

end Branches

/-! ## Messages that are tolerated -/

section Tolerated

variable {endpoint : MsgDistributor} {message : List Byte}

/-- It is enough that the outcome is the same whatever stands behind the
message. -/
private theorem Tolerates.of_append {outcome : Except Fault (MsgDistributor × Int)}
    (initialised : endpoint.mfsockid ≠ -1)
    (same : ∀ beyond, dispatch endpoint message.length (message ++ beyond) = outcome)
    (allowed : (∃ frame : Frame, frame.Carried message ∧ outcome = frame.effect endpoint) ∨
      outcome = .ok (endpoint, -1)) : Tolerates endpoint message := by
  refine ⟨outcome, fun junk => ?_, ?_, allowed⟩
  · rw [listen, if_neg initialised]
    exact same _
  · have alone := same []
    rwa [List.append_nil] at alone

private theorem value_decimal {id : Nat} (range : id < 2 ^ 31) :
    toInt32 (strtol (decimal id)) = id := by
  rw [strtol_decimal (by omega), toInt32_of_range (by omega) (by omega)]

/-- The word of a frame, and what follows it. -/
private theorem scanned_word {word : List Byte} (field : IsField isComma word) {stop : Byte}
    (stops : stop = comma ∨ stop = nul) (rest : List Byte) :
    Scanned isComma (word ++ stop :: rest) [] word stop rest where
  split := rfl
  leading := nofun
  field := field
  ends := by
    rcases stops with rfl | isNul
    · exact .inl isComma_comma
    · exact .inr isNul

theorem tolerates_frame (initialised : endpoint.mfsockid ≠ -1) {frame : Frame}
    (carried : frame.Carried message) (countable : frame.Countable) :
    Tolerates endpoint message := by
  refine .of_append initialised ?_ (.inl ⟨frame, carried, rfl⟩)
  intro beyond
  cases carried with
  | create stops rest =>
      exact dispatch_create_of_scanned ((scanned_word (by decide) stops rest).append beyond)
  | @accepted id range stop stops rest =>
      have scanned := (scanned_word (show IsField isComma (ascii "accepted") by decide) (.inl rfl)
        (decimal id ++ stop :: rest)).append beyond
      have field := (scanned_word (isField_decimal isComma_of_isDigit id) stops rest).append beyond
      rw [dispatch_accepted_of_scanned scanned, if_neg (by decide), field.strtok]
      simp only [bind, Except.bind, deref_some, value_decimal range]
      rfl
  | @sock id range payload =>
      have scanned := (scanned_word (show IsField isComma (ascii "sock") by decide) (.inl rfl)
        (decimal id ++ comma :: payload)).append beyond
      have field :=
        (scanned_word (isField_decimal isComma_of_isDigit id) (.inl rfl) payload).append beyond
      have short : (toInt32 (strtol (decimal id))).natAbs < 10 ^ 9 := by
        have below : (id : Int) < 10 ^ 9 := countable
        rw [value_decimal range]
        omega
      rw [dispatch_data scanned field short, value_decimal range, Int.natAbs_natCast]
      have behind : (decimal id ++ nul :: (payload ++ beyond)).drop ((decimal id).length + 1) =
          payload ++ beyond := by
        simp [List.drop_append]
      have size : (((ascii "sock" ++ comma :: (decimal id ++ comma :: payload)).length : Nat) :
          Int) - (decimal id).length - 6 = payload.length := by
        have word : (ascii "sock").length = 4 := by decide
        simp only [List.length_append, List.length_cons, word]
        omega
      rw [behind, size, readBytes_append]
      rfl
  | @close id range stop stops rest =>
      have scanned := (scanned_word (show IsField isComma (ascii "close") by decide) (.inl rfl)
        (decimal id ++ stop :: rest)).append beyond
      have field := (scanned_word (isField_decimal isComma_of_isDigit id) stops rest).append beyond
      rw [dispatch_close_of_scanned scanned, if_neg (by decide), field.strtok]
      simp only [bind, Except.bind, deref_some, value_decimal range]
      rfl

theorem Foreign.tolerates (initialised : endpoint.mfsockid ≠ -1) (foreign : Foreign message) :
    Tolerates endpoint message := by
  obtain ⟨before, word, stop, tail, scanned, other⟩ := foreign
  exact .of_append initialised (fun beyond => dispatch_foreign (scanned.append beyond) other)
    (.inr rfl)

/-- The length of a message for the socket behind `text`. -/
private theorem length_sock (text tail : List Byte) (stop : Byte) :
    (ascii "sock" ++ comma :: (text ++ stop :: tail)).length = text.length + tail.length + 6 := by
  have word : (ascii "sock").length = 4 := by decide
  simp only [List.length_append, List.length_cons, word]
  omega

theorem Unclaimed.tolerates (initialised : endpoint.mfsockid ≠ -1)
    (unclaimed : Unclaimed endpoint message) : Tolerates endpoint message := by
  obtain ⟨text, stop, tail, rfl, field, stops, short, absent⟩ := unclaimed
  have digits := idLength_le field.1 short
  refine .of_append initialised ?_ (.inr rfl)
  intro beyond
  have scanned := (scanned_word (show IsField isComma (ascii "sock") by decide) (.inl rfl)
    (text ++ stop :: tail)).append beyond
  have inside := (scanned_word field stops tail).append beyond
  rw [dispatch_data scanned inside short, length_sock]
  generalize (decimal (toInt32 (strtol text)).natAbs).length = count at *
  have size : ((text.length + tail.length + 6 : Nat) : Int) - count - 6 =
      (text.length + tail.length - count : Nat) := by omega
  rw [size, readBytes_eq (by
    simp only [List.length_drop, List.length_append, List.length_cons]
    omega)]
  simp only [bind, Except.bind, Frame.effect, absent]

/-- A data frame is delivered, or its socket does not exist. -/
private theorem effect_sock {id : Int} {payload : List Byte} :
    (Frame.sock id payload).effect endpoint ≠ .error .signedOverflow ∧
      ((Frame.sock id payload).effect endpoint = .ok (endpoint, -1) →
        endpoint.semMap id = none) := by
  cases found : endpoint.semMap id with
  | none => exact ⟨by simp [Frame.effect, found], fun _ => rfl⟩
  | some semaphore =>
      simp only [Frame.effect, found, MsgDistributor.deliver, MsgDistributor.liveQueue, bind,
        Except.bind, deref_some]
      cases queue : endpoint.queueMap id with
      | none => simp
      | some address => cases held : endpoint.queues address <;> simp [held, pure, Except.pure]

/-- The digits of a longer id are counted until the divisor overflows. -/
private theorem dispatch_overflow {frame : Frame} (carried : frame.Carried message)
    (long : ¬ frame.Countable) :
    dispatch endpoint message.length message = .error .signedOverflow := by
  cases carried with
  | create | accepted | close => exact absurd trivial long
  | @sock id range payload =>
      have beyond : 10 ^ 9 ≤ (toInt32 (strtol (decimal id))).natAbs := by
        have atLeast : ¬ (id : Int) < 10 ^ 9 := long
        rw [value_decimal range]
        omega
      have scanned := scanned_word (show IsField isComma (ascii "sock") by decide) (.inl rfl)
        (decimal id ++ comma :: payload)
      have field := scanned_word (isField_decimal isComma_of_isDigit id) (.inl rfl) payload
      rw [dispatch_sock_of_scanned scanned, if_neg (by decide), field.strtok]
      simp only [bind, Except.bind, deref_some, idLength_overflow beyond]

private theorem strtok_terminator (tail : List Byte) : strtok isComma (nul :: tail) = .ok none :=
  rfl

/-- A message for a socket that is discarded. -/
private theorem unclaimed_of_discarded {before tail : List Byte} {stop : Byte}
    (scanned : Scanned isComma message before (ascii "sock") stop tail)
    (discarded : dispatch endpoint message.length message = .ok (endpoint, -1)) :
    Unclaimed endpoint message := by
  have stops : stop = comma := by
    rcases scanned.ends with isComma' | isNul
    · exact eq_of_beq isComma'
    · rw [dispatch_sock_of_scanned scanned, if_pos isNul, isNul, strtok_terminator] at discarded
      cases discarded
  subst stops
  have steps := discarded
  rw [dispatch_sock_of_scanned scanned, if_neg (by decide)] at steps
  obtain ⟨found, scan, rest⟩ := bind_eq_ok.mp steps
  cases found with
  | none => cases rest
  | some token =>
      obtain ⟨between, ends, field, -⟩ := exists_scanned scan
      have short : (toInt32 (strtol token.text)).natAbs < 10 ^ 9 := by
        by_contra long
        simp only [bind, Except.bind, deref_some, idLength_overflow (Nat.not_lt.mp long)] at rest
        cases rest
      have digits := idLength_le field.field.1 short
      rw [dispatch_data scanned field short] at discarded
      obtain ⟨content, read, performed⟩ := bind_eq_ok.mp discarded
      obtain ⟨count, size, available, -⟩ := readBytes_eq_ok read
      have whole := congrArg List.length scanned.split
      have inner := congrArg List.length field.split
      have word : (ascii "sock").length = 4 := by decide
      simp only [List.length_append, List.length_cons, word] at whole inner
      simp only [List.length_drop, List.length_append, List.length_cons] at available
      have first : before = [] := List.length_eq_zero_iff.mp (by omega)
      have second : between = [] := List.length_eq_zero_iff.mp (by omega)
      refine ⟨token.text, ends, token.tail, ?_, field.field, ?_, short,
        effect_sock.2 performed⟩
      · rw [scanned.split, field.split, first, second, List.nil_append, List.nil_append]
      · exact field.ends.imp_left eq_of_beq

/-- A message that is discarded is foreign or unclaimed. -/
private theorem heard_of_discarded
    (discarded : dispatch endpoint message.length message = .ok (endpoint, -1)) :
    Foreign message ∨ Unclaimed endpoint message := by
  have steps := discarded
  rw [dispatch] at steps
  obtain ⟨found, scan, rest⟩ := bind_eq_ok.mp steps
  cases found with
  | none => cases rest
  | some token =>
      obtain ⟨before, stop, scanned, -⟩ := exists_scanned scan
      by_cases create : token.text = ascii "create"
      · rw [create] at scanned
        rw [dispatch_create_of_scanned scanned] at discarded
        simp at discarded
      by_cases accepted : token.text = ascii "accepted"
      · rw [accepted] at scanned
        rw [dispatch_accepted_of_scanned scanned] at discarded
        obtain ⟨_, -, used⟩ := bind_eq_ok.mp discarded
        obtain ⟨_, -, returned⟩ := bind_eq_ok.mp used
        simp [pure, Except.pure] at returned
      by_cases sock : token.text = ascii "sock"
      · rw [sock] at scanned
        exact .inr (unclaimed_of_discarded scanned discarded)
      by_cases close : token.text = ascii "close"
      · rw [close] at scanned
        rw [dispatch_close_of_scanned scanned] at discarded
        obtain ⟨_, -, used⟩ := bind_eq_ok.mp discarded
        obtain ⟨_, -, returned⟩ := bind_eq_ok.mp used
        simp [pure, Except.pure] at returned
      exact .inl ⟨before, token.text, stop, token.tail, scanned, create, accepted, sock, close⟩

end Tolerated

end Cpp

/-- `listen` does what a message asks for, or discards it, exactly for the
frames whose data ids have at most nine digits, for messages of another kind,
and for data to a socket that does not exist; in all of them every field that
is looked at ends inside the message. -/
theorem listen_tolerates (endpoint : MsgDistributor) (initialised : endpoint.mfsockid ≠ -1)
    (message : List Byte) :
    Cpp.Tolerates endpoint message ↔
      (∃ frame : Frame, frame.Carried message ∧ frame.Countable) ∨ Cpp.Foreign message ∨
        Cpp.Unclaimed endpoint message := by
  constructor
  · rintro ⟨outcome, -, alone, ⟨frame, carried, performed⟩ | discarded⟩
    · refine .inl ⟨frame, carried, ?_⟩
      by_contra long
      have overflow : Cpp.dispatch endpoint message.length message = .error .signedOverflow :=
        Cpp.dispatch_overflow carried long
      cases carried with
      | create | accepted | close => exact long trivial
      | sock range payload => exact Cpp.effect_sock.1 (performed ▸ alone ▸ overflow)
    · rw [discarded] at alone
      exact .inr (Cpp.heard_of_discarded alone)
  · rintro (⟨frame, carried, countable⟩ | foreign | unclaimed)
    · exact Cpp.tolerates_frame initialised carried countable
    · exact foreign.tolerates initialised
    · exact unclaimed.tolerates initialised

/-- The frame of `accept` for its first connection. -/
theorem listen_tolerates_accepted :
    Cpp.Tolerates .init (ascii "accepted,1," ++ [0]) ↔
      (∃ frame : Frame, frame.Carried (ascii "accepted,1," ++ [0]) ∧ frame.Countable) ∨
        Cpp.Foreign (ascii "accepted,1," ++ [0]) ∨
        Cpp.Unclaimed .init (ascii "accepted,1," ++ [0]) :=
  listen_tolerates .init (by decide) _

/-- The id is missing: a null pointer goes to `strtol`. -/
theorem listen_crashes_without_id :
    ¬ ∀ (endpoint : MsgDistributor) (message : List Byte), endpoint.mfsockid ≠ -1 →
      message.length ≤ maxChunk → Cpp.Tolerates endpoint message := by
  intro claimed
  obtain ⟨outcome, -, alone, allowed⟩ :=
    claimed .init (ascii "accepted" ++ [0]) (by decide) (by decide)
  have faults : (Cpp.dispatch .init 9 (ascii "accepted" ++ [0])).isOk = false := by decide +kernel
  have length : (ascii "accepted" ++ [0]).length = 9 := by decide
  rw [length] at alone
  rw [alone] at faults
  rcases allowed with ⟨frame, -, performed⟩ | discarded
  · rw [performed] at faults
    cases frame <;> nomatch faults
  · rw [discarded] at faults
    cases faults

end PaintingCPS
