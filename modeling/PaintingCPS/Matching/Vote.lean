import PaintingCPS.Matching.ImgMatch

/-!
Contract: what the vote of `matchImg` computes, for any table and any answers
of the search.

The list `imgFreq` is the list of candidates with their counts, and the loop
over it keeps the elected image. The vote throws exactly when a voting
descriptor has an index outside the table.

Owns: the ballots, the condition under which they can be read, and the
specification of `bestMatch`.

Does not own: the threshold behind the vote.
-/

set_option autoImplicit false

namespace PaintingCPS

open Foundation

/-! ## `at` -/

theorem vectorAt_eq_ok {vector : List Int} {position : Nat} {value : Int}
    (found : vector[position]? = some value) : vectorAt vector position = .ok value := by
  rw [vectorAt, if_neg (by omega), Int.toNat_natCast, found]

/-- `at` returns exactly inside the vector. -/
theorem vectorAt_isOk_iff {vector : List Int} {position : Int} :
    (∃ value, vectorAt vector position = .ok value) ↔
      0 ≤ position ∧ position < vector.length := by
  constructor
  · rintro ⟨value, read⟩
    rw [vectorAt] at read
    split at read
    next => contradiction
    next nonnegative =>
      split at read
      next => contradiction
      next found =>
        have := (List.getElem?_eq_some_iff.mp found).1
        omega
  · rintro ⟨nonnegative, inside⟩
    obtain ⟨place, rfl⟩ := Int.eq_ofNat_of_zero_le nonnegative
    have bound : place < vector.length := by omega
    exact ⟨vector[place], vectorAt_eq_ok (List.getElem?_eq_getElem bound)⟩

theorem vectorAt_error {vector : List Int} {position : Int}
    (outside : ¬ (0 ≤ position ∧ position < vector.length)) :
    vectorAt vector position = .error .uncaughtException := by
  rw [vectorAt]
  split
  next => rfl
  next nonnegative =>
    have beyond : vector[position.toNat]? = none := by
      rw [List.getElem?_eq_none_iff]
      omega
    rw [beyond]

namespace ImgMatch

/-- Every descriptor that votes has its nearest neighbour in the table. -/
def Readable (indexIMG : List Int) (answers : List Neighbour) : Prop :=
  ∀ answer ∈ answers, Neighbour.votes answer →
    0 ≤ answer.index ∧ answer.index < indexIMG.length

instance (indexIMG : List Int) (answers : List Neighbour) :
    Decidable (Readable indexIMG answers) := List.decidableBAll _ _

/-- The images that the descriptors vote for, in their order. -/
def ballots (indexIMG : List Int) (answers : List Neighbour) : List Int :=
  answers.filterMap fun answer =>
    if Neighbour.votes answer then (vectorAt indexIMG answer.index).toOption else none

/-- The candidates and their counts, as `imgFreq` lists them. -/
def standings (ballots : List Int) : List ImgFreq :=
  (candidates ballots).map fun image => ⟨image, ballots.count image⟩

section CastVote

variable (ballots : List Int) (imgNum : Int)

private theorem any_standings :
    ((standings ballots).any fun t => t.imgIndex == imgNum) = decide (imgNum ∈ ballots) := by
  rw [Bool.eq_iff_iff, List.any_eq_true, decide_eq_true_eq]
  constructor
  · rintro ⟨entry, member, same⟩
    obtain ⟨image, isCandidate, rfl⟩ := List.mem_map.mp member
    rw [← eq_of_beq same]
    exact mem_candidates.mp isCandidate
  · intro known
    exact ⟨⟨imgNum, ballots.count imgNum⟩,
      List.mem_map.mpr ⟨imgNum, mem_candidates.mpr known, rfl⟩, beq_self_eq_true imgNum⟩

private theorem increment_standings :
    ((standings ballots).map fun t =>
        if t.imgIndex = imgNum then { t with freq := t.freq + 1 } else t) =
      (candidates ballots).map fun image => ⟨image, (ballots ++ [imgNum]).count image⟩ := by
  rw [standings, List.map_map]
  apply List.map_congr_left
  intro image _
  by_cases same : image = imgNum
  · subst same
    simp
  · simp [same, Ne.symm same]

/-- One vote moves the standings on by one ballot. -/
theorem castVote_standings :
    castVote (standings ballots) imgNum = standings (ballots ++ [imgNum]) := by
  simp only [castVote, any_standings, increment_standings, decide_eq_true_eq]
  split
  next known => rw [standings, candidates_concat_of_mem known]
  next new =>
    rw [standings, candidates_concat_of_notMem new, List.map_append, List.map_singleton,
      List.count_append, List.count_eq_zero.mpr new, List.count_singleton_self]

end CastVote

section CountVotes

variable {indexIMG : List Int}

private theorem countVotes_standings (earlier : List Int) {answers : List Neighbour}
    (readable : Readable indexIMG answers) :
    countVotes indexIMG (standings earlier) answers =
      .ok (standings (earlier ++ ballots indexIMG answers)) := by
  induction answers generalizing earlier with
  | nil => rw [countVotes, ballots, List.filterMap_nil, List.append_nil]
  | cons answer rest inductionHypothesis =>
      have restReadable : Readable indexIMG rest :=
        fun other member => readable other (List.mem_cons_of_mem _ member)
      rw [countVotes]
      split
      next voting =>
        obtain ⟨imgNum, read⟩ :=
          vectorAt_isOk_iff.mpr (readable answer List.mem_cons_self voting)
        have first : ballots indexIMG (answer :: rest) = imgNum :: ballots indexIMG rest := by
          simp [ballots, voting, read, Except.toOption]
        rw [read, first]
        change countVotes indexIMG (castVote (standings earlier) imgNum) rest = _
        rw [castVote_standings, inductionHypothesis _ restReadable, List.append_assoc,
          List.singleton_append]
      next silent =>
        have skipped : ballots indexIMG (answer :: rest) = ballots indexIMG rest := by
          simp [ballots, silent]
        rw [skipped]
        exact inductionHypothesis earlier restReadable

/-- The loop ends with the standings of all ballots. -/
theorem countVotes_eq {answers : List Neighbour} (readable : Readable indexIMG answers) :
    countVotes indexIMG [] answers = .ok (standings (ballots indexIMG answers)) := by
  have counted := countVotes_standings [] readable
  rwa [List.nil_append] at counted

private theorem countVotes_error (imgFreq : List ImgFreq) {answers : List Neighbour}
    (unreadable : ¬ Readable indexIMG answers) :
    countVotes indexIMG imgFreq answers = .error .uncaughtException := by
  induction answers generalizing imgFreq with
  | nil => exact absurd (fun answer member => absurd member List.not_mem_nil) unreadable
  | cons answer rest inductionHypothesis =>
      rw [countVotes]
      by_cases restReadable : Readable indexIMG rest
      · have own : Neighbour.votes answer ∧
            ¬ (0 ≤ answer.index ∧ answer.index < indexIMG.length) := by
          by_contra harmless
          refine unreadable fun other member voting => ?_
          cases List.mem_cons.mp member with
          | inl same =>
              subst same
              by_contra outside
              exact harmless ⟨voting, outside⟩
          | inr later => exact restReadable other later voting
        rw [if_pos own.1, vectorAt_error own.2]
        rfl
      · split
        next =>
          by_cases inside : 0 ≤ answer.index ∧ answer.index < indexIMG.length
          · obtain ⟨imgNum, read⟩ := vectorAt_isOk_iff.mpr inside
            rw [read]
            exact inductionHypothesis _ restReadable
          · rw [vectorAt_error inside]
            rfl
        next => exact inductionHypothesis _ restReadable

end CountVotes

theorem maxFreq_standings (ballots : List Int) :
    maxFreq (standings ballots) = highestCount ballots := by
  rw [maxFreq, standings, scanMax, List.foldl_map]
  rfl

/-- With a ballot, the two loops over `imgFreq` find the elected image. -/
theorem matched_standings {ballots : List Int} (nonempty : ballots ≠ []) :
    ∃ winner, Elected ballots winner ∧ matchedImgIndex (standings ballots) = winner ∧
      maxFreq (standings ballots) = ballots.count winner := by
  obtain ⟨winner, elected, highest, scanned⟩ := elected_scanLast nonempty (0 : Int)
  refine ⟨winner, elected, ?_, ?_⟩
  · rw [matchedImgIndex, maxFreq_standings, standings, scanLast, List.foldl_map, ← scanned]
    rfl
  · rw [maxFreq_standings, highest]

/-! ## The specification of the vote -/

section BestMatch

variable {indexIMG : List Int} {answers : List Neighbour}

theorem bestMatch_error (unreadable : ¬ Readable indexIMG answers) :
    bestMatch indexIMG answers = .error .uncaughtException := by
  rw [bestMatch, countVotes_error [] unreadable]
  rfl

/-- Without a ballot no image is matched. -/
theorem bestMatch_silent (readable : Readable indexIMG answers)
    (silent : ballots indexIMG answers = []) : bestMatch indexIMG answers = .ok (0, 1) := by
  rw [bestMatch, countVotes_eq readable, silent]
  rfl

/-- With a ballot the elected image is matched, with its count. -/
theorem bestMatch_elected (readable : Readable indexIMG answers) {winner : Int}
    (elected : Elected (ballots indexIMG answers) winner) :
    bestMatch indexIMG answers =
      .ok (winner, (ballots indexIMG answers).count winner) := by
  obtain ⟨other, otherElected, matched, votes⟩ :=
    matched_standings (List.ne_nil_of_mem elected.1)
  obtain rfl := elected.unique otherElected
  rw [bestMatch, countVotes_eq readable]
  change Except.ok (matchedImgIndex _, maxFreq _) = _
  rw [matched, votes]

/-- Some image is elected as soon as one descriptor votes. -/
theorem exists_elected (cast : ballots indexIMG answers ≠ []) :
    ∃ winner, Elected (ballots indexIMG answers) winner := by
  obtain ⟨winner, elected, -⟩ := matched_standings cast
  exact ⟨winner, elected⟩

end BestMatch

end ImgMatch

end PaintingCPS
