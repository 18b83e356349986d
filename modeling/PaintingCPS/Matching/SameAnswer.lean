import Mathlib.Algebra.Order.Field.Rat
import Mathlib.Tactic.Linarith
import PaintingCPS.Matching.Vote

/-!
Contract: the server's `matchImg` against the Storm library's.

Both run the same vote. They differ at an image that does not decode and in
the factor of the final threshold.

Owns: the comparison, and the exact inputs on which both give the same index.

Does not own: how the tables came about.
-/

set_option autoImplicit false

namespace PaintingCPS

open Foundation

namespace ImgMatch

/-- The first field of a result. -/
def indexField (text : List Byte) : List Byte := text.takeWhile fun byte => byte != comma

section Statements

variable {Image Row : Type} (cv : OpenCV Image Row) (statics : Statics Row) (bytes : List Byte)

/-- Both versions return, with the same index. -/
def SameAnswer : Prop :=
  ∃ index text, Local.matchImg cv statics (some bytes) = .ok index ∧
    Storm.matchImg cv statics bytes bytes.length = .ok text ∧
    indexField text = decimalInt index

/-- The elected image has a count, and its votes are not between the two
thresholds. -/
def Decisive (answers : List Neighbour) : Prop :=
  Readable statics.indexIMG answers ∧
    ∀ winner, Elected (ballots statics.indexIMG answers) winner → winner ≠ 0 →
      ∃ count, vectorAt statics.dscCntIMG (winner - 1) = .ok count ∧
        ¬ (15 / 1000 * (count : Rat) ≤ (ballots statics.indexIMG answers).count winner ∧
          ((ballots statics.indexIMG answers).count winner : Rat) < 2 / 100 * count)

/-- The input decodes, and has no descriptors or a decisive vote. -/
def Unaffected : Prop :=
  ∃ image, cv.decode bytes = some image ∧
    (cv.descriptors image = [] ∨
      Decisive statics (cv.knnSearch statics.featureCluster (cv.descriptors image)))

end Statements

/-! ## The index field -/

theorem indexField_append (value : Int) (rest : List Byte) :
    indexField (decimalInt value ++ comma :: rest) = decimalInt value := by
  rw [indexField, List.takeWhile_append_of_pos, List.takeWhile_cons_of_neg (by simp),
    List.append_nil]
  intro byte member
  have plain : comma ∉ decimalInt value := notMem_decimalInt (by decide) (by decide) value
  have differs : byte ≠ comma := fun same => plain (same ▸ member)
  simpa using differs

theorem indexField_result (value : Int) :
    indexField (decimalInt value ++ ascii ",0,0,0,0,0,0,0,0,") = decimalInt value :=
  indexField_append value _

theorem indexField_noMatch : indexField Storm.noMatch = decimalInt 0 := by decide

theorem decimal_injective {first second : Nat} (same : decimal first = decimal second) :
    first = second := by
  have read := congrArg (readDigits 0) same
  rwa [readDigits_decimal, readDigits_decimal] at read

/-- Only 0 prints as 0. -/
theorem decimalInt_eq_zero {value : Int} (same : decimalInt 0 = decimalInt value) : value = 0 := by
  have zero : decimalInt 0 = decimal 0 := rfl
  rw [zero, decimalInt] at same
  split at same
  next =>
    have first : (45 : Byte) ∈ decimal 0 := by rw [same]; exact List.mem_cons_self
    exact absurd (isDigit_of_mem_decimal first) (by decide)
  next =>
    have := decimal_injective same
    omega

/-! ## The two thresholds -/

/-- Votes below the lower threshold are below the higher one. -/
theorem below_higher {votes : Nat} {count : Int} (below : (votes : Rat) < 15 / 1000 * count) :
    (votes : Rat) < 2 / 100 * count := by
  have nonnegative : (0 : Rat) ≤ votes := Nat.cast_nonneg votes
  linarith

section Answers

variable {Image Row : Type} {cv : OpenCV Image Row} {statics : Statics Row} {bytes : List Byte}
variable {image : Image}

/-- The server's answer behind the vote. -/
theorem local_eq (decoded : cv.decode bytes = some image) (described : cv.descriptors image ≠ [])
    {matched : Int} {votes : Nat}
    (best : bestMatch statics.indexIMG
      (cv.knnSearch statics.featureCluster (cv.descriptors image)) = .ok (matched, votes)) :
    Local.matchImg cv statics (some bytes) =
      if matched ≠ 0 then do
        let dscCnt ← vectorAt statics.dscCntIMG (matched - 1)
        if (votes : Rat) < 15 / 1000 * dscCnt then return 0
        return matched
      else .ok matched := by
  rw [Local.matchImg, Option.bind_some, decoded]
  dsimp only
  rw [if_neg (by simpa using described), best]
  rfl

theorem readBytes_all (bytes : List Byte) : readBytes bytes bytes.length = .ok bytes := by
  have read := readBytes_append bytes []
  rwa [List.append_nil] at read

/-- The Storm library's answer behind the vote. -/
theorem storm_eq (decoded : cv.decode bytes = some image) (described : cv.descriptors image ≠ [])
    {matched : Int} {votes : Nat}
    (best : bestMatch statics.indexIMG
      (cv.knnSearch statics.featureCluster (cv.descriptors image)) = .ok (matched, votes)) :
    Storm.matchImg cv statics bytes bytes.length =
      if matched ≠ 0 then do
        let dscCnt ← vectorAt statics.dscCntIMG (matched - 1)
        if (votes : Rat) < 2 / 100 * dscCnt then return Storm.noMatch
        return decimalInt matched ++ ascii ",0,0,0,0,0,0,0,0,"
      else .ok (decimalInt matched ++ ascii ",0,0,0,0,0,0,0,0,") := by
  have notEmpty : ¬ (cv.descriptors image).isEmpty = true := by simpa using described
  simp only [Storm.matchImg, readBytes_all, bind, Except.bind, decoded, if_neg notEmpty, best]
  rfl

/-- After the same vote the answers agree exactly when nothing is matched, or
the count is there and the votes are on one side of both thresholds. -/
theorem sameAnswer_iff_of_vote (decoded : cv.decode bytes = some image)
    (described : cv.descriptors image ≠ []) {matched : Int} {votes : Nat}
    (best : bestMatch statics.indexIMG
      (cv.knnSearch statics.featureCluster (cv.descriptors image)) = .ok (matched, votes)) :
    SameAnswer cv statics bytes ↔
      (matched ≠ 0 → ∃ count, vectorAt statics.dscCntIMG (matched - 1) = .ok count ∧
        ¬ (15 / 1000 * (count : Rat) ≤ votes ∧ (votes : Rat) < 2 / 100 * count)) := by
  rw [SameAnswer, local_eq decoded described best, storm_eq decoded described best]
  by_cases none' : matched = 0
  · subst none'
    simp only [ne_eq, not_true_eq_false, if_false, false_implies, iff_true]
    exact ⟨0, _, rfl, rfl, indexField_result 0⟩
  rw [if_pos none', if_pos none']
  cases read : vectorAt statics.dscCntIMG (matched - 1) with
  | error fault =>
      constructor
      · rintro ⟨index, text, thrown, -⟩
        contradiction
      · intro holds
        obtain ⟨count, found, -⟩ := holds none'
        contradiction
  | ok count =>
      change (∃ index text, (if (votes : Rat) < 15 / 1000 * count then _ else _) = _ ∧
        (if (votes : Rat) < 2 / 100 * count then _ else _) = _ ∧ _) ↔ _
      by_cases below : (votes : Rat) < 15 / 1000 * count
      · rw [if_pos below, if_pos (below_higher below)]
        constructor
        · intro _ _
          exact ⟨count, rfl, fun between => absurd below (not_lt.mpr between.1)⟩
        · intro _
          exact ⟨0, _, rfl, rfl, indexField_noMatch⟩
      · rw [if_neg below]
        by_cases rejected : (votes : Rat) < 2 / 100 * count
        · rw [if_pos rejected]
          constructor
          · -- the server matches, the Storm library does not
            rintro ⟨index, text, accepted, noMatch, same⟩
            have isMatched : index = matched := (Except.ok.inj accepted).symm
            have isNone : text = Storm.noMatch := (Except.ok.inj noMatch).symm
            rw [isMatched, isNone, indexField_noMatch] at same
            exact absurd (decimalInt_eq_zero same) none'
          · intro holds
            obtain ⟨other, found, outside⟩ := holds none'
            obtain rfl := Except.ok.inj found
            exact absurd ⟨not_lt.mp below, rejected⟩ outside
        · rw [if_neg rejected]
          constructor
          · intro _ _
            exact ⟨count, rfl, fun between => rejected between.2⟩
          · intro _
            exact ⟨matched, _, rfl, rfl, indexField_result matched⟩

/-- An input that does not decode gives 0 at the server and no string in the
Storm library. -/
theorem not_sameAnswer_of_undecodable (undecodable : cv.decode bytes = none) :
    ¬ SameAnswer cv statics bytes := by
  rintro ⟨index, text, -, returned, -⟩
  simp only [Storm.matchImg, readBytes_all, bind, Except.bind, undecodable] at returned
  contradiction

/-- Without descriptors both answer 0. -/
theorem sameAnswer_of_plain (decoded : cv.decode bytes = some image)
    (plain : cv.descriptors image = []) : SameAnswer cv statics bytes := by
  refine ⟨0, Storm.noMatch, ?_, ?_, indexField_noMatch⟩
  · rw [Local.matchImg, Option.bind_some, decoded]
    dsimp only
    rw [plain]
    rfl
  · simp only [Storm.matchImg, readBytes_all, bind, Except.bind, decoded, plain]
    rfl

/-- An index outside the table throws in both. -/
theorem not_sameAnswer_of_unreadable (decoded : cv.decode bytes = some image)
    (described : cv.descriptors image ≠ [])
    (unreadable : ¬ Readable statics.indexIMG
      (cv.knnSearch statics.featureCluster (cv.descriptors image))) :
    ¬ SameAnswer cv statics bytes := by
  rintro ⟨index, text, returned, -⟩
  rw [Local.matchImg, Option.bind_some, decoded] at returned
  dsimp only at returned
  rw [if_neg (by simpa using described), bestMatch_error unreadable] at returned
  contradiction

/-- A decodable input with descriptors gets the same answer exactly when the
vote is decisive. -/
theorem sameAnswer_iff_decisive (decoded : cv.decode bytes = some image)
    (described : cv.descriptors image ≠ []) :
    SameAnswer cv statics bytes ↔
      Decisive statics (cv.knnSearch statics.featureCluster (cv.descriptors image)) := by
  by_cases readable : Readable statics.indexIMG
      (cv.knnSearch statics.featureCluster (cv.descriptors image))
  · by_cases silent : ballots statics.indexIMG
        (cv.knnSearch statics.featureCluster (cv.descriptors image)) = []
    · rw [sameAnswer_iff_of_vote decoded described (bestMatch_silent readable silent)]
      constructor
      · intro _
        refine ⟨readable, fun winner elected => ?_⟩
        rw [silent] at elected
        exact absurd elected.1 List.not_mem_nil
      · intro _ nonzero
        exact absurd rfl nonzero
    · obtain ⟨winner, elected⟩ := exists_elected silent
      rw [sameAnswer_iff_of_vote decoded described (bestMatch_elected readable elected)]
      constructor
      · intro holds
        refine ⟨readable, fun other otherElected nonzero => ?_⟩
        obtain rfl := elected.unique otherElected
        exact holds nonzero
      · intro decisive
        exact decisive.2 winner elected
  · constructor
    · intro same
      exact absurd same (not_sameAnswer_of_unreadable decoded described readable)
    · intro decisive
      exact absurd decisive.1 readable

end Answers

/-- Both versions give the same index exactly on the inputs that decode and
have no descriptors or a decisive vote. -/
theorem sameAnswer_iff {Image Row : Type} (cv : OpenCV Image Row) (statics : Statics Row)
    (bytes : List Byte) : SameAnswer cv statics bytes ↔ Unaffected cv statics bytes := by
  cases decoded : cv.decode bytes with
  | none =>
      constructor
      · intro same
        exact absurd same (not_sameAnswer_of_undecodable decoded)
      · rintro ⟨image, found, -⟩
        rw [decoded] at found
        contradiction
  | some image =>
      by_cases plain : cv.descriptors image = []
      · constructor
        · intro _
          exact ⟨image, decoded, .inl plain⟩
        · intro _
          exact sameAnswer_of_plain decoded plain
      · rw [sameAnswer_iff_decisive decoded plain]
        constructor
        · intro decisive
          exact ⟨image, decoded, .inr decisive⟩
        · rintro ⟨other, found, noDescriptors | decisive⟩
          · obtain rfl := Option.some.inj (decoded.symm.trans found)
            exact absurd noDescriptors plain
          · obtain rfl := Option.some.inj (decoded.symm.trans found)
            exact decisive

/-- One image of 60 descriptors; one descriptor of the input finds it. -/
def borderlineStatics : Statics Nat where
  indexIMG := [1]
  dscCntIMG := [60]
  featureCluster := [0]
  lastIndex := 0
  imgCount := 0

/-- Decoding fails on the empty input only. -/
def singleVote : OpenCV Unit Nat where
  decode bytes := if bytes.isEmpty then none else some ()
  descriptors _ := [0]
  knnSearch _ _ := [⟨0, 0, 1⟩]

/-- One vote of 60 is a match for the server and none for the Storm library,
and an input that does not decode is 0 there and an exception here. -/
theorem singleVote_differs :
    ¬ SameAnswer singleVote borderlineStatics [1] ∧
      Local.matchImg singleVote borderlineStatics (some [1]) = .ok 1 ∧
      Storm.matchImg singleVote borderlineStatics [1] 1 = .ok Storm.noMatch ∧
      Local.matchImg singleVote borderlineStatics (some []) = .ok 0 ∧
      Storm.matchImg singleVote borderlineStatics [] 0 = .error .uncaughtException := by
  have matched : Local.matchImg singleVote borderlineStatics (some [1]) = .ok 1 := by
    decide +kernel
  have rejected : Storm.matchImg singleVote borderlineStatics [1] 1 = .ok Storm.noMatch := by
    decide +kernel
  refine ⟨?_, matched, rejected, by decide +kernel, by decide +kernel⟩
  rintro ⟨index, text, first, second, same⟩
  have isOne : index = 1 := Except.ok.inj (first.symm.trans matched)
  have isNone : text = Storm.noMatch := Except.ok.inj (second.symm.trans rejected)
  rw [isOne, isNone] at same
  exact absurd same (by decide)

end ImgMatch

end PaintingCPS
