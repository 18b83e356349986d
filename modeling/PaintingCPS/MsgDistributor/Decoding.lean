import PaintingCPS.MsgDistributor.Connections

/-!
Contract: what `listen` does with a frame, stated without bytes, and for which
bytes both implementations of `listen` do it.

`Written stop frame bytes` describes the bytes of a control frame whose id is
followed by `stop`: a comma from C++, NUL from Java and from `client_stop`.

Owns: the effect of a frame; that C++ performs it for either `stop`; that Java
performs it when `stop` is a comma or the frame is a data frame; and what Java
does with every other frame that is emitted.
-/

set_option autoImplicit false

namespace PaintingCPS

open Foundation

/-- The state change and return value that a frame stands for. -/
def Frame.effect (endpoint : MsgDistributor) : Frame → Except Fault (MsgDistributor × Int)
  | .create => .ok ({ endpoint with acceptSem := endpoint.acceptSem + 1 }, 0)
  | .accepted id =>
      .ok ({ endpoint with
        connectQueue := endpoint.connectQueue ++ [id]
        connectSem := endpoint.connectSem + 1 }, 0)
  | .sock id payload =>
      match endpoint.semMap id with
      | none => .ok (endpoint, -1)
      | some _ => do return (← endpoint.deliver id payload, 0)
  | .close id => .ok ((endpoint.closeLocked id).getD endpoint, 0)

/-- The bytes of a frame whose id ends at `stop`, for an id that the encoder
can print. -/
def Written (stop : Byte) : Frame → List Byte → Prop
  | .create, bytes => ∃ rest, bytes = ascii "create" ++ nul :: rest
  | .accepted id, bytes => IdRange id ∧
      ∃ rest, bytes = ascii "accepted" ++ comma :: (decimalInt id ++ stop :: rest)
  | .sock id payload, bytes => ∃ socket : SocketId,
      id = socket.int ∧ bytes = sockHeader socket ++ payload
  | .close id, bytes => IdRange id ∧
      ∃ rest, bytes = ascii "close" ++ comma :: (decimalInt id ++ stop :: rest)

/-! ## The C++ receiver -/

theorem isField_word {word : String}
    (plain : IsField isComma (ascii word)) (rest : List Byte) :
    strtok isComma (ascii word ++ comma :: rest) = .ok (some ⟨ascii word, rest, rest⟩) :=
  strtok_delimited plain isComma_comma (by decide) rest

/-- The id token reads back as the id. -/
theorem IdRange.strtol_eq {id : Int} (range : IdRange id) :
    toInt32 (strtol (decimalInt id)) = id := by
  have low := range.low
  have high := range.high
  rw [range.decimalInt_eq, strtol_decimal (by omega),
    toInt32_of_range (by omega) (by omega), Int.toNat_of_nonneg (by omega)]

theorem strtok_id {stop : Byte} (stops : stop = comma ∨ stop = nul)
    {id : Int} (range : IdRange id) (rest : List Byte) :
    ∃ saved, strtok isComma (decimalInt id ++ stop :: rest) =
      .ok (some ⟨decimalInt id, rest, saved⟩) := by
  rw [range.decimalInt_eq]
  have field := isField_decimal isComma_of_isDigit id.toNat
  rcases stops with rfl | rfl
  · exact ⟨_, strtok_delimited field isComma_comma (by decide) rest⟩
  · exact ⟨_, strtok_terminated field rest⟩

section Cpp

variable (endpoint : MsgDistributor)

private theorem Cpp.dispatch_create (ret : Nat) (rest : List Byte) :
    Cpp.dispatch endpoint ret (ascii "create" ++ nul :: rest) =
      Frame.create.effect endpoint := by
  rw [Cpp.dispatch, strtok_terminated (by decide) rest]
  rfl

private theorem Cpp.dispatch_accepted {stop : Byte} (stops : stop = comma ∨ stop = nul)
    (ret : Nat) {id : Int} (range : IdRange id) (rest : List Byte) :
    Cpp.dispatch endpoint ret
        (ascii "accepted" ++ comma :: (decimalInt id ++ stop :: rest)) =
      (Frame.accepted id).effect endpoint := by
  obtain ⟨saved, token⟩ := strtok_id stops range rest
  rw [Cpp.dispatch, isField_word (by decide)]
  simp only [bind, Except.bind, deref_some]
  rw [if_neg (by decide), if_pos trivial, token]
  simp only [deref_some, range.strtol_eq]
  rfl

private theorem Cpp.dispatch_close {stop : Byte} (stops : stop = comma ∨ stop = nul)
    (ret : Nat) {id : Int} (range : IdRange id) (rest : List Byte) :
    Cpp.dispatch endpoint ret
        (ascii "close" ++ comma :: (decimalInt id ++ stop :: rest)) =
      (Frame.close id).effect endpoint := by
  obtain ⟨saved, token⟩ := strtok_id stops range rest
  rw [Cpp.dispatch, isField_word (by decide)]
  simp only [bind, Except.bind, deref_some]
  rw [if_neg (by decide), if_neg (by decide), if_neg (by decide), if_pos trivial, token]
  simp only [deref_some, range.strtol_eq]
  rfl

/-- The payload starts one byte behind the id and has the length that `ret`
leaves after the header. -/
private theorem Cpp.dispatch_sock (id : SocketId) (payload tail : List Byte) :
    Cpp.dispatch endpoint (sockHeader id ++ payload).length
        ((sockHeader id ++ payload) ++ tail) =
      (Frame.sock id.int payload).effect endpoint := by
  have shape : (sockHeader id ++ payload) ++ tail =
      ascii "sock" ++ comma :: (decimal id.value ++ comma :: (payload ++ tail)) := by
    rw [List.append_assoc, sockHeader_append]
  have value : toInt32 (strtol (decimal id.value)) = id.int := by
    rw [← id.decimalInt_int, id.range.strtol_eq]
  have count : (((sockHeader id ++ payload).length : Nat) : Int) -
      (decimal id.value).length - 6 = payload.length := by
    rw [List.length_append, sockHeader_length]
    omega
  have behind : (decimal id.value ++ nul :: (payload ++ tail)).drop
      ((decimal id.value).length + 1) = payload ++ tail := by
    simp [List.drop_append]
  rw [shape, Cpp.dispatch, isField_word (by decide)]
  simp only [bind, Except.bind, deref_some]
  rw [if_neg (by decide), if_neg (by decide), if_pos trivial,
    strtok_delimited (isField_decimal isComma_of_isDigit id.value) isComma_comma (by decide)]
  simp only [deref_some, value, Cpp.idLength_eq, Token.memory]
  rw [behind, count, readBytes_append, Frame.effect]
  rfl

/-- C++ `listen` performs the effect of every frame, whether the id is followed
by a comma or by NUL. -/
theorem Cpp.listen_frame {endpoint : MsgDistributor} (initialised : endpoint.mfsockid ≠ -1)
    (junk : Nat → Byte) {stop : Byte} (stops : stop = comma ∨ stop = nul)
    {frame : Frame} {bytes : List Byte} (written : Written stop frame bytes) :
    Cpp.listen junk endpoint (some bytes) = frame.effect endpoint := by
  rw [Cpp.listen, if_neg initialised]
  cases frame with
  | create =>
      obtain ⟨rest, rfl⟩ := written
      rw [List.append_assoc, List.cons_append]
      exact Cpp.dispatch_create endpoint _ _
  | accepted id =>
      obtain ⟨range, rest, rfl⟩ := written
      rw [List.append_assoc, List.cons_append, List.append_assoc, List.cons_append]
      exact Cpp.dispatch_accepted endpoint stops _ range _
  | sock id payload =>
      obtain ⟨socket, rfl, rfl⟩ := written
      exact Cpp.dispatch_sock endpoint socket payload _
  | close id =>
      obtain ⟨range, rest, rfl⟩ := written
      rw [List.append_assoc, List.cons_append, List.append_assoc, List.cons_append]
      exact Cpp.dispatch_close endpoint stops _ range _

end Cpp

/-! ## The Java receiver -/

namespace Java

theorem splitComma_ne_nil (bytes : List Byte) : splitComma bytes ≠ [] := by
  cases bytes with
  | nil => simp [splitComma]
  | cons byte rest =>
      rw [splitComma]
      split
      · simp
      · split <;> simp

/-- A text without commas is a prefix of the first field. -/
theorem splitComma_append {text : List Byte} (plain : comma ∉ text) (rest : List Byte) :
    ∃ first more, splitComma rest = first :: more ∧
      splitComma (text ++ rest) = (text ++ first) :: more := by
  induction text with
  | nil =>
      obtain ⟨first, more, shape⟩ := List.exists_cons_of_ne_nil (splitComma_ne_nil rest)
      exact ⟨first, more, shape, shape⟩
  | cons head tail inductionHypothesis =>
      simp only [List.mem_cons, not_or] at plain
      obtain ⟨first, more, restShape, shape⟩ := inductionHypothesis plain.2
      refine ⟨first, more, restShape, ?_⟩
      rw [List.cons_append, splitComma, if_neg (Ne.symm plain.1), shape]
      rfl

/-- A comma ends the first field. -/
theorem splitComma_field {text : List Byte} (plain : comma ∉ text) (rest : List Byte) :
    splitComma (text ++ comma :: rest) = text :: splitComma rest := by
  obtain ⟨first, more, tailShape, shape⟩ := splitComma_append plain (comma :: rest)
  rw [splitComma, if_pos rfl, List.cons.injEq] at tailShape
  obtain ⟨rfl, rfl⟩ := tailShape
  rw [shape, List.append_nil]

theorem dropTrailingEmpty_cons {field : List Byte} (nonempty : field ≠ [])
    (rest : List (List Byte)) :
    dropTrailingEmpty (field :: rest) = field :: dropTrailingEmpty rest := by
  rw [dropTrailingEmpty]
  split
  next empty => rw [if_neg nonempty, empty]
  next => rfl

/-- The first two tokens of a message with two non-empty fields. -/
theorem split_two {first second : List Byte} (firstPlain : comma ∉ first)
    (firstNonempty : first ≠ []) (secondPlain : comma ∉ second)
    (secondNonempty : second ≠ []) (rest : List Byte) :
    ∃ more, split (first ++ comma :: (second ++ comma :: rest)) = first :: second :: more := by
  refine ⟨dropTrailingEmpty (splitComma rest), ?_⟩
  rw [split, splitComma_field firstPlain, splitComma_field secondPlain,
    dropTrailingEmpty_cons firstNonempty, dropTrailingEmpty_cons secondNonempty]

theorem decimalInt_ne_nil {id : Int} (range : IdRange id) : decimalInt id ≠ [] := by
  rw [range.decimalInt_eq]
  exact decimal_ne_nil _

/-- `parseInt` reads a printed id back. -/
theorem parseInt_decimal {id : Int} (range : IdRange id) :
    parseInt (decimalInt id) = .ok id := by
  have low := range.low
  have high := range.high
  rw [range.decimalInt_eq]
  obtain ⟨first, rest, shape⟩ := List.exists_cons_of_ne_nil (decimal_ne_nil id.toNat)
  have member : first ∈ decimal id.toNat := by rw [shape]; simp
  have digit : isDigit first = true := isDigit_of_mem_decimal member
  have noMinus : ¬ (decimal id.toNat).head? = some 45 := by
    rw [shape, List.head?_cons, Option.some.injEq]
    exact isDigit_ne digit (by decide)
  have noPlus : ¬ (decimal id.toNat).head? = some 43 := by
    rw [shape, List.head?_cons, Option.some.injEq]
    exact isDigit_ne digit (by decide)
  have allDigits : (decimal id.toNat).all isDigit = true :=
    List.all_eq_true.mpr fun _ => isDigit_of_mem_decimal
  unfold parseInt
  simp only [noMinus, noPlus, or_self, if_false, decimal_ne_nil, allDigits, not_true,
    readDigits_decimal]
  rw [if_pos (by omega), Int.toNat_of_nonneg (by omega)]

/-- `parseInt` throws on a number followed by NULs. -/
theorem parseInt_padded {id : Int} (range : IdRange id) {zeros : Nat} (padded : 0 < zeros) :
    parseInt (decimalInt id ++ List.replicate zeros nul) = .error .uncaughtException := by
  rw [range.decimalInt_eq]
  obtain ⟨first, rest, shape⟩ := List.exists_cons_of_ne_nil (decimal_ne_nil id.toNat)
  have member : first ∈ decimal id.toNat := by rw [shape]; simp
  have digit : isDigit first = true := isDigit_of_mem_decimal member
  have noMinus : ¬ (decimal id.toNat ++ List.replicate zeros nul).head? = some 45 := by
    rw [shape, List.cons_append, List.head?_cons, Option.some.injEq]
    exact isDigit_ne digit (by decide)
  have noPlus : ¬ (decimal id.toNat ++ List.replicate zeros nul).head? = some 43 := by
    rw [shape, List.cons_append, List.head?_cons, Option.some.injEq]
    exact isDigit_ne digit (by decide)
  have notDigits : ¬ (decimal id.toNat ++ List.replicate zeros nul).all isDigit = true := by
    intro allDigits
    have := List.all_eq_true.mp allDigits nul
      (List.mem_append_right _ (List.mem_replicate.mpr ⟨by omega, rfl⟩))
    exact absurd this (by decide)
  unfold parseInt
  simp only [noMinus, noPlus, or_self, if_false, notDigits, Bool.false_eq_true,
    not_false_eq_true, or_true, if_true]

section Dispatch

variable (endpoint : MsgDistributor)

private theorem dispatch_accepted (ret : Nat) {id : Int} (range : IdRange id) (rest : List Byte) :
    dispatch endpoint ret
        (ascii "accepted" ++ comma :: (decimalInt id ++ comma :: rest)) =
      (Frame.accepted id).effect endpoint := by
  have plain : comma ∉ ascii "accepted" := by decide
  obtain ⟨more, tokens⟩ := split_two plain (by decide)
    (notMem_decimalInt (by decide) (by decide) _) (decimalInt_ne_nil range) rest
  simp only [dispatch, tokens, token, List.getElem?_cons_zero, List.getElem?_cons_succ, bind,
    Except.bind]
  rw [if_neg (by decide), if_pos trivial, parseInt_decimal range]
  rfl

private theorem dispatch_close (ret : Nat) {id : Int} (range : IdRange id) (rest : List Byte) :
    dispatch endpoint ret
        (ascii "close" ++ comma :: (decimalInt id ++ comma :: rest)) =
      (Frame.close id).effect endpoint := by
  have plain : comma ∉ ascii "close" := by decide
  obtain ⟨more, tokens⟩ := split_two plain (by decide)
    (notMem_decimalInt (by decide) (by decide) _) (decimalInt_ne_nil range) rest
  simp only [dispatch, tokens, token, List.getElem?_cons_zero, List.getElem?_cons_succ, bind,
    Except.bind]
  rw [if_neg (by decide), if_neg (by decide), if_neg (by decide), if_pos trivial,
    parseInt_decimal range]
  rfl

private theorem dispatch_sock (id : SocketId) (payload tail : List Byte) :
    dispatch endpoint (sockHeader id ++ payload).length
        ((sockHeader id ++ payload) ++ tail) =
      (Frame.sock id.int payload).effect endpoint := by
  have shape : (sockHeader id ++ payload) ++ tail =
      ascii "sock" ++ comma :: (decimal id.value ++ comma :: (payload ++ tail)) := by
    rw [List.append_assoc, sockHeader_append]
  have value : parseInt (decimal id.value) = .ok id.int := by
    rw [← id.decimalInt_int, parseInt_decimal id.range]
  have plain : comma ∉ ascii "sock" := by decide
  obtain ⟨more, tokens⟩ := split_two plain (by decide)
    (notMem_decimal (by decide) id.value) (decimal_ne_nil id.value) (payload ++ tail)
  have count : (((sockHeader id ++ payload).length : Nat) : Int) -
      (decimal id.value).length - 6 = payload.length := by
    rw [List.length_append, sockHeader_length]
    omega
  have behind : ((sockHeader id ++ payload) ++ tail).drop ((decimal id.value).length + 6) =
      payload ++ tail := by
    rw [Nat.add_comm, ← sockHeader_length, List.append_assoc, List.drop_left]
  rw [← shape] at tokens
  simp only [dispatch, tokens, token, List.getElem?_cons_zero, List.getElem?_cons_succ, bind,
    Except.bind]
  rw [if_neg (by decide), if_neg (by decide), if_pos trivial, value, Frame.effect]
  dsimp only
  cases endpoint.semMap id.int with
  | none => rfl
  | some semaphore =>
      simp only [Java.idLength_eq]
      rw [behind, count, readBytes_append]
      rfl

/-- Java `listen` performs the effect of every frame that is not `create` and
whose id is followed by a comma. -/
theorem listen_frame {endpoint : MsgDistributor} (initialised : endpoint.mfsockid ≠ -1)
    {frame : Frame} {bytes : List Byte} (notCreate : frame ≠ .create)
    (written : Written comma frame bytes) :
    listen endpoint (some bytes) = frame.effect endpoint := by
  rw [listen, if_neg initialised]
  cases frame with
  | create => exact absurd rfl notCreate
  | accepted id =>
      obtain ⟨range, rest, rfl⟩ := written
      rw [List.append_assoc, List.cons_append, List.append_assoc, List.cons_append]
      exact dispatch_accepted endpoint _ range _
  | sock id payload =>
      obtain ⟨socket, rfl, rfl⟩ := written
      exact dispatch_sock endpoint socket payload _
  | close id =>
      obtain ⟨range, rest, rfl⟩ := written
      rw [List.append_assoc, List.cons_append, List.append_assoc, List.cons_append]
      exact dispatch_close endpoint _ range _

/-- The text that Java compares with `create` runs on to the next comma, so it
contains the NUL behind the word and equals none of the four headers. -/
theorem listen_create {endpoint : MsgDistributor} (initialised : endpoint.mfsockid ≠ -1)
    (rest : List Byte) :
    listen endpoint (some (ascii "create" ++ nul :: rest)) = .ok (endpoint, -1) := by
  have plain : comma ∉ ascii "create" ++ [nul] := by decide
  have shape : (ascii "create" ++ nul :: rest) ++
      List.replicate (maxChunk - (ascii "create" ++ nul :: rest).length) 0 =
      (ascii "create" ++ [nul]) ++ (rest ++
        List.replicate (maxChunk - (ascii "create" ++ nul :: rest).length) 0) := by
    simp
  rw [listen, if_neg initialised]
  rw [shape]
  generalize rest ++ List.replicate (maxChunk - (ascii "create" ++ nul :: rest).length) 0 = tail
  obtain ⟨first, more, -, splitShape⟩ := splitComma_append plain tail
  have differs : ∀ word : String, nul ∉ ascii word →
      ¬ (ascii "create" ++ [nul]) ++ first = ascii word := by
    intro word clean same
    exact clean (same ▸ by simp)
  simp only [dispatch, split, splitShape, token, bind, Except.bind]
  rw [dropTrailingEmpty_cons (by simp), List.getElem?_cons_zero]
  dsimp only
  rw [if_neg (differs _ (by decide)), if_neg (differs _ (by decide)),
    if_neg (differs _ (by decide)), if_neg (differs _ (by decide))]
  rfl

/-- An id that is followed by NULs up to the end of the buffer makes `listen`
throw, for `accepted` and `close` frames alike. -/
theorem listen_padded {endpoint : MsgDistributor} (initialised : endpoint.mfsockid ≠ -1)
    {word : String} (control : word = "accepted" ∨ word = "close") {id : Int}
    (range : IdRange id) {zeros : Nat} (padded : 0 < zeros) :
    listen endpoint
        (some (ascii word ++ comma :: (decimalInt id ++ List.replicate zeros nul))) =
      .error .uncaughtException := by
  have wordPlain : comma ∉ ascii word := by
    rcases control with rfl | rfl <;> decide
  have wordNonempty : ascii word ≠ [] := by
    rcases control with rfl | rfl <;> decide
  have fieldPlain : ∀ count, comma ∉ decimalInt id ++ List.replicate count nul := by
    intro count member
    rcases List.mem_append.mp member with inId | inPadding
    · exact notMem_decimalInt (by decide) (by decide) _ inId
    · exact absurd (List.eq_of_mem_replicate inPadding) (by decide)
  have alone : ∀ text : List Byte, comma ∉ text → splitComma text = [text] := by
    intro text plain
    obtain ⟨first, more, nilShape, shape⟩ := splitComma_append plain []
    rw [splitComma, List.cons.injEq] at nilShape
    obtain ⟨rfl, rfl⟩ := nilShape
    simpa using shape
  rw [listen, if_neg initialised]
  generalize maxChunk -
    (ascii word ++ comma :: (decimalInt id ++ List.replicate zeros nul)).length = unused
  have shape : (ascii word ++ comma :: (decimalInt id ++ List.replicate zeros nul)) ++
      List.replicate unused 0 =
      ascii word ++ comma :: (decimalInt id ++ List.replicate (zeros + unused) nul) := by
    rw [List.replicate_add]
    simp [nul]
  have tokens : split (ascii word ++ comma ::
      (decimalInt id ++ List.replicate (zeros + unused) nul)) =
      [ascii word, decimalInt id ++ List.replicate (zeros + unused) nul] := by
    rw [split, splitComma_field wordPlain, alone _ (fieldPlain _),
      dropTrailingEmpty_cons wordNonempty, dropTrailingEmpty_cons (by
        simp [decimalInt_ne_nil range]), dropTrailingEmpty]
  rw [shape]
  simp only [dispatch, tokens, token, List.getElem?_cons_zero, List.getElem?_cons_succ, bind,
    Except.bind]
  rw [parseInt_padded range (by omega)]
  rcases control with rfl | rfl
  · rw [if_neg (by decide), if_pos rfl]
  · rw [if_neg (by decide), if_neg (by decide), if_neg (by decide), if_pos rfl]

end Dispatch

end Java

end PaintingCPS
