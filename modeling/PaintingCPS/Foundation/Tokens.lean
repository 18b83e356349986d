import Mathlib.Data.List.DropRight
import PaintingCPS.Foundation.CString

/-!
Contract: repeated `strtok`.

Successive calls return the non-empty fields between delimiters, and nothing
behind the terminator matters. Without a terminator each of them needs a
delimiter behind it.

Owns: the loop over `strtok`, the fields of a text, and their agreement.

Does not own: how many fields a format has.
-/

set_option autoImplicit false

namespace PaintingCPS.Foundation

/-- So many calls of `strtok`, the first with `memory`, every result used. -/
def nextTokens (isDelimiter : Byte → Bool) : Nat → List Byte → Except Fault (List (List Byte))
  | 0, _ => .ok []
  | count + 1, memory => do
      let token ← deref (← strtok isDelimiter memory)
      let more ← nextTokens isDelimiter count token.saved
      return token.text :: more

/-- The non-empty fields of a text, the first of them continuing `current`. -/
def fieldsFrom (isDelimiter : Byte → Bool) : List Byte → List Byte → List (List Byte)
  | current, [] => if current = [] then [] else [current]
  | current, byte :: rest =>
      if isDelimiter byte then
        if current = [] then fieldsFrom isDelimiter [] rest
        else current :: fieldsFrom isDelimiter [] rest
      else fieldsFrom isDelimiter (current ++ [byte]) rest

/-- The non-empty fields of a text. -/
def fields (isDelimiter : Byte → Bool) (text : List Byte) : List (List Byte) :=
  fieldsFrom isDelimiter [] text

section Laws

variable {isDelimiter : Byte → Bool}

/-- Fields do not cross a delimiter. -/
theorem fieldsFrom_append (current before : List Byte) {delimiter : Byte}
    (separates : isDelimiter delimiter = true) (after : List Byte) :
    fieldsFrom isDelimiter current (before ++ delimiter :: after) =
      fieldsFrom isDelimiter current before ++ fields isDelimiter after := by
  induction before generalizing current with
  | nil =>
      rw [List.nil_append, fieldsFrom.eq_2, if_pos separates, fieldsFrom.eq_1, ← fields]
      split <;> rfl
  | cons byte rest inductionHypothesis =>
      rw [List.cons_append, fieldsFrom, fieldsFrom]
      split
      · split
        · exact inductionHypothesis []
        · rw [inductionHypothesis [], List.cons_append]
      · exact inductionHypothesis _

theorem fields_append (before : List Byte) {delimiter : Byte}
    (separates : isDelimiter delimiter = true) (after : List Byte) :
    fields isDelimiter (before ++ delimiter :: after) =
      fields isDelimiter before ++ fields isDelimiter after :=
  fieldsFrom_append [] before separates after

/-- A text without delimiters is one field. -/
theorem fieldsFrom_plain {word : List Byte} (plain : ∀ byte ∈ word, isDelimiter byte = false)
    (current : List Byte) :
    fieldsFrom isDelimiter current word =
      if current ++ word = [] then [] else [current ++ word] := by
  induction word generalizing current with
  | nil => rw [fieldsFrom, List.append_nil]
  | cons byte rest inductionHypothesis =>
      rw [fieldsFrom, if_neg (by simp [plain byte List.mem_cons_self]),
        inductionHypothesis (fun other member => plain other (List.mem_cons_of_mem _ member)),
        List.append_assoc, List.singleton_append]

theorem fields_field {word : List Byte} (field : IsField isDelimiter word) :
    fields isDelimiter word = [word] := by
  rw [fields, fieldsFrom_plain fun byte member => (field.2 byte member).1, List.nil_append,
    if_neg field.1]

/-- The fields are fields, and no longer than the text. -/
theorem fieldsFrom_isField {text : List Byte} (clean : nul ∉ text) {current word : List Byte}
    (plain : ∀ byte ∈ current, isDelimiter byte = false ∧ byte ≠ nul)
    (member : word ∈ fieldsFrom isDelimiter current text) :
    IsField isDelimiter word ∧ word.length ≤ current.length + text.length := by
  induction text generalizing current with
  | nil =>
      rw [fieldsFrom] at member
      split at member
      next => cases member
      next nonempty =>
        cases List.mem_singleton.mp member
        exact ⟨⟨nonempty, plain⟩, Nat.le_refl _⟩
  | cons byte rest inductionHypothesis =>
      have restClean : nul ∉ rest := fun inRest => clean (List.mem_cons_of_mem _ inRest)
      rw [List.length_cons]
      rw [fieldsFrom] at member
      split at member
      next =>
        split at member
        next =>
          obtain ⟨field, short⟩ := inductionHypothesis restClean (by simp) member
          exact ⟨field, by rw [List.length_nil] at short; omega⟩
        next nonempty =>
          rcases List.mem_cons.mp member with rfl | more
          · exact ⟨⟨nonempty, plain⟩, by omega⟩
          · obtain ⟨field, short⟩ := inductionHypothesis restClean (by simp) more
            exact ⟨field, by rw [List.length_nil] at short; omega⟩
      next inside =>
        have grown : ∀ other ∈ current ++ [byte],
            isDelimiter other = false ∧ other ≠ nul := by
          intro other inGrown
          rcases List.mem_append.mp inGrown with old | new
          · exact plain other old
          · cases List.mem_singleton.mp new
            refine ⟨eq_false_of_ne_true inside, ?_⟩
            rintro rfl
            exact clean List.mem_cons_self
        obtain ⟨field, short⟩ := inductionHypothesis restClean grown member
        refine ⟨field, ?_⟩
        rw [List.length_append, List.length_singleton] at short
        omega

/-- Leading delimiters are skipped. -/
theorem fields_dropWhile (text : List Byte) :
    fields isDelimiter (text.dropWhile isDelimiter) = fields isDelimiter text := by
  induction text with
  | nil => rfl
  | cons byte rest inductionHypothesis =>
      by_cases separates : isDelimiter byte = true
      · rw [List.dropWhile_cons_of_pos separates, inductionHypothesis, fields, fields, fieldsFrom,
          if_pos separates, if_pos rfl]
      · rw [List.dropWhile_cons_of_neg separates]

theorem strtok_dropWhile (memory : List Byte) :
    strtok isDelimiter (memory.dropWhile isDelimiter) = strtok isDelimiter memory := by
  rw [strtok, strtok, List.dropWhile_idempotent]

/-- A text that starts with a field: the field, and the text behind the
delimiter that ends it. -/
theorem exists_field {first : Byte} {rest : List Byte} (clean : nul ∉ first :: rest)
    (plain : isDelimiter first = false) :
    ∃ word, IsField isDelimiter word ∧ (first :: rest = word ∨
      ∃ delimiter after, isDelimiter delimiter = true ∧
        first :: rest = word ++ delimiter :: after) := by
  have notNul : ∀ byte ∈ first :: rest, byte ≠ nul := by
    rintro byte member rfl
    exact clean member
  have split := List.takeWhile_append_dropWhile (p := inToken isDelimiter) (l := first :: rest)
  have inside : inToken isDelimiter first = true := by
    simp [inToken, plain, notNul first List.mem_cons_self]
  have field : IsField isDelimiter ((first :: rest).takeWhile (inToken isDelimiter)) := by
    refine ⟨by rw [List.takeWhile_cons_of_pos inside]; exact List.cons_ne_nil _ _, ?_⟩
    intro byte member
    have kept := List.mem_takeWhile_imp member
    simpa [inToken] using kept
  refine ⟨_, field, ?_⟩
  cases tailEq : (first :: rest).dropWhile (inToken isDelimiter) with
  | nil =>
      rw [tailEq, List.append_nil] at split
      exact .inl split.symm
  | cons delimiter after =>
      rw [tailEq] at split
      have stops : inToken isDelimiter delimiter = false := by
        have head := List.head?_dropWhile_not (inToken isDelimiter) (first :: rest)
        rw [tailEq] at head
        simpa using head
      have present : delimiter ∈ first :: rest := by rw [← split]; simp
      refine .inr ⟨delimiter, after, ?_, split.symm⟩
      simpa [inToken, notNul delimiter present] using stops

/-- One `strtok` call on a terminated text finds its first field, and the next
call continues behind it in the same text. -/
theorem strtok_fields (delimiterNotNul : isDelimiter nul = false) {text : List Byte}
    (clean : nul ∉ text) (beyond : List Byte) :
    match fields isDelimiter text with
    | [] => strtok isDelimiter (text ++ nul :: beyond) = .ok none
    | field :: more => ∃ tail rest, nul ∉ rest ∧ fields isDelimiter rest = more ∧
        strtok isDelimiter (text ++ nul :: beyond) =
          .ok (some ⟨field, tail, rest ++ nul :: beyond⟩) := by
  have skipped : (text ++ nul :: beyond).dropWhile isDelimiter =
      text.dropWhile isDelimiter ++ nul :: beyond := by
    rw [List.dropWhile_append]
    split
    next allDelimiters =>
      rw [List.dropWhile_cons_of_neg (by simp [delimiterNotNul]),
        List.isEmpty_iff.mp allDelimiters, List.nil_append]
    next => rfl
  rw [← fields_dropWhile text, ← strtok_dropWhile, skipped]
  have bodyClean : nul ∉ text.dropWhile isDelimiter :=
    fun member => clean (List.dropWhile_subset _ member)
  cases bodyEq : text.dropWhile isDelimiter with
  | nil =>
      rw [List.nil_append, strtok, List.dropWhile_cons_of_neg (by simp [delimiterNotNul])]
      rfl
  | cons first rest =>
      rw [bodyEq] at bodyClean
      have firstPlain : isDelimiter first = false := by
        have stops := List.head?_dropWhile_not isDelimiter text
        rw [bodyEq] at stops
        simpa using stops
      obtain ⟨word, field, shape⟩ := exists_field bodyClean firstPlain
      cases shape with
      | inl whole =>
          rw [whole, fields_field field, strtok_terminated field]
          exact ⟨beyond, [], List.not_mem_nil, rfl, rfl⟩
      | inr ended =>
          obtain ⟨delimiter, after, separates, whole⟩ := ended
          have delimiterOther : delimiter ≠ nul := by
            rintro rfl
            rw [delimiterNotNul] at separates
            contradiction
          rw [whole] at bodyClean
          have reshaped : word ++ delimiter :: after ++ nul :: beyond =
              word ++ delimiter :: (after ++ nul :: beyond) := by simp
          rw [whole, fields_append word separates, fields_field field, reshaped,
            strtok_delimited field separates delimiterOther]
          exact ⟨after ++ nul :: beyond, after,
            fun member => bodyClean (by simp [member]), rfl, rfl⟩

/-- The loop over `strtok` returns the first fields when there are enough, and
uses a null pointer otherwise. -/
theorem nextTokens_eq (delimiterNotNul : isDelimiter nul = false) (count : Nat)
    {text : List Byte} (clean : nul ∉ text) (beyond : List Byte) :
    nextTokens isDelimiter count (text ++ nul :: beyond) =
      if count ≤ (fields isDelimiter text).length then
        .ok ((fields isDelimiter text).take count)
      else .error .nullPointer := by
  induction count generalizing text with
  | zero => rfl
  | succ count inductionHypothesis =>
      have called := strtok_fields delimiterNotNul clean beyond
      cases found : fields isDelimiter text with
      | nil =>
          rw [found] at called
          rw [nextTokens, called]
          rfl
      | cons field more =>
          rw [found] at called
          obtain ⟨tail, rest, restClean, restFields, called⟩ := called
          have remaining := inductionHypothesis restClean
          rw [restFields] at remaining
          rw [nextTokens, called]
          change (nextTokens isDelimiter count (rest ++ nul :: beyond) >>= fun more =>
            Except.ok (field :: more)) = _
          rw [remaining]
          by_cases enough : count ≤ more.length
          · rw [if_pos enough, if_pos (by simpa using enough)]
            rfl
          · rw [if_neg enough, if_neg (by simpa using enough)]
            rfl

/-! ## Memory without a terminator -/

/-- The text up to its last delimiter. -/
def delimited (isDelimiter : Byte → Bool) (text : List Byte) : List Byte :=
  text.rdropWhile fun byte => !isDelimiter byte

theorem delimited_append (before : List Byte) {delimiter : Byte}
    (separates : isDelimiter delimiter = true) (after : List Byte) :
    delimited isDelimiter (before ++ delimiter :: after) =
      before ++ delimiter :: delimited isDelimiter after := by
  have stops : (delimiter :: before.reverse).dropWhile (fun byte => !isDelimiter byte) =
      delimiter :: before.reverse := List.dropWhile_cons_of_neg (by simp [separates])
  have reversed : (before ++ delimiter :: after).reverse =
      after.reverse ++ delimiter :: before.reverse := by simp
  rw [delimited, List.rdropWhile, reversed, List.dropWhile_append, stops, delimited,
    List.rdropWhile]
  split
  next none => rw [List.isEmpty_iff.mp none]; simp
  next => simp

theorem delimited_plain {word : List Byte} (plain : ∀ byte ∈ word, isDelimiter byte = false) :
    delimited isDelimiter word = [] :=
  List.rdropWhile_eq_nil_iff.mpr fun byte member => by rw [plain byte member]; rfl

/-- Leading delimiters do not matter for the fields up to the last one. -/
theorem fields_delimited_dropWhile (text : List Byte) :
    fields isDelimiter (delimited isDelimiter (text.dropWhile isDelimiter)) =
      fields isDelimiter (delimited isDelimiter text) := by
  induction text with
  | nil => rfl
  | cons byte rest inductionHypothesis =>
      by_cases separates : isDelimiter byte = true
      · have moved := delimited_append [] separates rest
        rw [List.nil_append, List.nil_append] at moved
        rw [List.dropWhile_cons_of_pos separates, inductionHypothesis, moved, fields, fields,
          fieldsFrom.eq_2 _ _ _ _, if_pos separates, if_pos rfl]
      · rw [List.dropWhile_cons_of_neg separates]

/-- Without a terminator a token needs a delimiter behind it. -/
theorem strtok_unterminated {text : List Byte} (clean : nul ∉ text) :
    match fields isDelimiter (delimited isDelimiter text) with
    | [] => strtok isDelimiter text = .error .outOfBounds
    | field :: more => ∃ tail rest, nul ∉ rest ∧
        fields isDelimiter (delimited isDelimiter rest) = more ∧
        strtok isDelimiter text = .ok (some ⟨field, tail, rest⟩) := by
  rw [← fields_delimited_dropWhile text, ← strtok_dropWhile]
  have bodyClean : nul ∉ text.dropWhile isDelimiter :=
    fun member => clean (List.dropWhile_subset _ member)
  cases bodyEq : text.dropWhile isDelimiter with
  | nil => rfl
  | cons first rest =>
      rw [bodyEq] at bodyClean
      have firstPlain : isDelimiter first = false := by
        have stops := List.head?_dropWhile_not isDelimiter text
        rw [bodyEq] at stops
        simpa using stops
      obtain ⟨word, field, shape⟩ := exists_field bodyClean firstPlain
      cases shape with
      | inl whole =>
          have inside : ∀ byte ∈ word, inToken isDelimiter byte = true := by
            intro byte member
            obtain ⟨plain, notNul⟩ := field.2 byte member
            simp [inToken, plain, notNul]
          have skipped : word.dropWhile isDelimiter = word := by
            rw [← whole, List.dropWhile_cons_of_neg (by simp [firstPlain])]
          rw [whole, delimited_plain fun byte member => (field.2 byte member).1]
          change strtok isDelimiter word = _
          have notNul : first ≠ nul := by
            rintro rfl
            exact bodyClean List.mem_cons_self
          rw [strtok, skipped, ← whole]
          dsimp only
          rw [if_neg notNul, whole, List.dropWhile_eq_nil_iff.mpr inside]
      | inr ended =>
          obtain ⟨delimiter, after, separates, whole⟩ := ended
          rw [whole] at bodyClean ⊢
          have delimiterOther : delimiter ≠ nul := by
            rintro rfl
            exact bodyClean (by simp)
          rw [delimited_append word separates, fields_append word separates, fields_field field,
            strtok_delimited field separates delimiterOther]
          exact ⟨after, after, fun member => bodyClean (by simp [member]), rfl, rfl⟩

/-- The loop over `strtok` when no terminator follows. -/
theorem nextTokens_unterminated (count : Nat) {text : List Byte} (clean : nul ∉ text) :
    nextTokens isDelimiter count text =
      if count ≤ (fields isDelimiter (delimited isDelimiter text)).length then
        .ok ((fields isDelimiter (delimited isDelimiter text)).take count)
      else .error .outOfBounds := by
  induction count generalizing text with
  | zero => rfl
  | succ count inductionHypothesis =>
      have called := @strtok_unterminated isDelimiter text clean
      cases found : fields isDelimiter (delimited isDelimiter text) with
      | nil =>
          rw [found] at called
          rw [nextTokens, called]
          rfl
      | cons field more =>
          rw [found] at called
          obtain ⟨tail, rest, restClean, restFields, called⟩ := called
          have remaining := inductionHypothesis restClean
          rw [restFields] at remaining
          rw [nextTokens, called]
          change (nextTokens isDelimiter count rest >>= fun more =>
            Except.ok (field :: more)) = _
          rw [remaining]
          by_cases enough : count ≤ more.length
          · rw [if_pos enough, if_pos (by simpa using enough)]
            rfl
          · rw [if_neg enough, if_neg (by simpa using enough)]
            rfl

/-- The part of the memory whose fields `strtok` can return: the C string, or
without a terminator the text up to the last delimiter. -/
def tokenText (isDelimiter : Byte → Bool) (memory : List Byte) : List Byte :=
  if nul ∈ memory then cString memory else delimited isDelimiter memory

/-- The fields up to the last delimiter are the first fields. -/
theorem fields_delimited_first (text : List Byte) :
    fields isDelimiter (delimited isDelimiter text) <+: fields isDelimiter text := by
  have split : delimited isDelimiter text ++
      text.rtakeWhile (fun byte => !isDelimiter byte) = text :=
    List.rdropWhile_append_rtakeWhile
  rcases List.eq_nil_or_concat (delimited isDelimiter text) with none | ⟨before, last, ended⟩
  · rw [none]
    exact List.nil_prefix
  · rw [List.concat_eq_append] at ended
    have separates : isDelimiter last = true := by
      have some' : delimited isDelimiter text ≠ [] := by rw [ended]; simp
      have stops := List.rdropWhile_last_not (fun byte => !isDelimiter byte) text some'
      have isLast : (delimited isDelimiter text).getLast some' = last := by
        simp only [ended, List.getLast_append_singleton]
      change ¬ (!isDelimiter ((delimited isDelimiter text).getLast some')) = true at stops
      rw [isLast] at stops
      simpa using stops
    rw [ended, List.append_assoc, List.singleton_append] at split
    rw [ended, fields_append before separates, ← split, fields_append before separates]
    exact ⟨_, by rw [List.append_assoc]; rfl⟩

theorem fields_tokenText_first (memory : List Byte) :
    fields isDelimiter (tokenText isDelimiter memory) <+: fields isDelimiter (cString memory) := by
  rw [tokenText]
  split
  next => exact List.prefix_refl _
  next unterminated =>
    rw [cString_of_notMem unterminated]
    exact fields_delimited_first memory

/-- The loop over `strtok` on any memory. -/
theorem nextTokens_ok_iff (delimiterNotNul : isDelimiter nul = false) {count : Nat}
    {memory : List Byte} {tokens : List (List Byte)} :
    nextTokens isDelimiter count memory = .ok tokens ↔
      count ≤ (fields isDelimiter (tokenText isDelimiter memory)).length ∧
        tokens = (fields isDelimiter (tokenText isDelimiter memory)).take count := by
  have settled : ∀ (fault : Fault) (available : List (List Byte)),
      (if count ≤ available.length then Except.ok (available.take count) else .error fault) =
          Except.ok tokens ↔
        count ≤ available.length ∧ tokens = available.take count := by
    intro fault available
    split
    next enough => simp [enough, eq_comm]
    next short => simp [short]
  rw [tokenText]
  split
  next terminated =>
    obtain ⟨rest, whole, clean⟩ := exists_cString terminated
    have loop := nextTokens_eq delimiterNotNul count clean rest
    rw [← whole] at loop
    rw [loop]
    exact settled _ _
  next unterminated =>
    rw [nextTokens_unterminated count unterminated]
    exact settled _ _

end Laws

end PaintingCPS.Foundation
