import PaintingCPS.Matching.Vote

/-!
Contract: the index that the server's `matchImg` reports, as a function of the
rows that the search returns.

The image with the most passing rows is reported when it reaches its share of
the descriptors; of several such images, the one whose first passing row comes
last. `imgFreq` is the tally behind it, with one entry for each image.

Owns: the tally of the rows, and the specification of the reported index.

Does not own: the Storm library, and tables that training did not produce.
-/

set_option autoImplicit false

namespace PaintingCPS

open Foundation

/-- The rows that the vote sees; none without an image or its descriptors. -/
def Local.answers {Image Row : Type} (cv : OpenCV Image Row) (statics : ImgMatch.Statics Row)
    (file : Option (List Byte)) : List Neighbour :=
  match file.bind cv.decode with
  | none => []
  | some srcImg =>
      let despSRC := cv.descriptors srcImg
      if despSRC.isEmpty then [] else cv.knnSearch statics.featureCluster despSRC

namespace ImgMatch

/-- A row that passes the ratio test, with its nearest descriptor in `image`. -/
def VotesFor (indexIMG : List Int) (image : Int) (answer : Neighbour) : Prop :=
  Neighbour.votes answer ∧ (vectorAt indexIMG answer.index).toOption = some image

instance (indexIMG : List Int) (image : Int) : DecidablePred (VotesFor indexIMG image) :=
  fun answer => inferInstanceAs (Decidable (Neighbour.votes answer ∧ _))

/-- Every image is numbered from 1 and has a descriptor count. -/
def Numbered (dscCntIMG images : List Int) : Prop :=
  ∀ image ∈ images, 1 ≤ image ∧ image ≤ dscCntIMG.length

instance (dscCntIMG images : List Int) : Decidable (Numbered dscCntIMG images) :=
  List.decidableBAll _ _

section Tally

variable {indexIMG : List Int} {answers : List Neighbour}

theorem mem_ballots {image : Int} :
    image ∈ ballots indexIMG answers ↔ ∃ answer ∈ answers, VotesFor indexIMG image answer := by
  rw [ballots, List.mem_filterMap]
  apply exists_congr
  intro answer
  apply and_congr_right
  intro _
  by_cases voting : Neighbour.votes answer
  · rw [if_pos voting, VotesFor]
    exact (and_iff_right voting).symm
  · rw [if_neg voting]
    constructor
    · intro none'
      cases none'
    · intro votes
      exact absurd votes.1 voting

/-- The ballots for an image are its passing rows. -/
theorem count_ballots (image : Int) :
    (ballots indexIMG answers).count image =
      answers.countP fun answer => decide (VotesFor indexIMG image answer) := by
  induction answers with
  | nil => rfl
  | cons answer rest inductionHypothesis =>
      rw [List.countP_cons, ← inductionHypothesis]
      by_cases voting : Neighbour.votes answer
      · cases read : (vectorAt indexIMG answer.index).toOption with
        | none =>
            have skipped : ballots indexIMG (answer :: rest) = ballots indexIMG rest := by
              simp [ballots, voting, read]
            simp [skipped, VotesFor, read]
        | some voted =>
            have first : ballots indexIMG (answer :: rest) = voted :: ballots indexIMG rest := by
              simp [ballots, voting, read]
            simp [first, VotesFor, voting, read, List.count_cons]
      · have skipped : ballots indexIMG (answer :: rest) = ballots indexIMG rest := by
          simp [ballots, voting]
        simp [skipped, VotesFor, voting]

theorem map_imgIndex_standings (images : List Int) :
    (standings images).map ImgFreq.imgIndex = candidates images := by
  rw [standings, List.map_map]
  exact List.map_id _

/-- A passing row is counted for exactly one entry. -/
theorem existsUnique_entry (readable : Readable indexIMG answers) {answer : Neighbour}
    (member : answer ∈ answers) (voting : Neighbour.votes answer) :
    ∃! entry, entry ∈ standings (ballots indexIMG answers) ∧
      VotesFor indexIMG entry.imgIndex answer := by
  obtain ⟨image, read⟩ := vectorAt_isOk_iff.mpr (readable answer member voting)
  have found : (vectorAt indexIMG answer.index).toOption = some image := by rw [read]; rfl
  have voted : image ∈ ballots indexIMG answers := mem_ballots.mpr ⟨answer, member, voting, found⟩
  refine ⟨⟨image, (ballots indexIMG answers).count image⟩, ⟨?_, voting, found⟩, ?_⟩
  · exact List.mem_map.mpr ⟨image, mem_candidates.mpr voted, rfl⟩
  · rintro entry ⟨listed, -, other⟩
    obtain ⟨candidate, -, rfl⟩ := List.mem_map.mp listed
    rw [found, Option.some.injEq] at other
    rw [other]

end Tally

/-! ## The reported index -/

section Verdict

variable {Image Row : Type} {cv : OpenCV Image Row} {statics : Statics Row}
variable {file : Option (List Byte)}

/-- The vote and its threshold, when there is a row. -/
private theorem matchImg_eq (some' : Local.answers cv statics file ≠ []) :
    Local.matchImg cv statics file = (do
      let (matched, maxFreq) ← bestMatch statics.indexIMG (Local.answers cv statics file)
      if matched ≠ 0 then
        let dscCnt ← vectorAt statics.dscCntIMG (matched - 1)
        if (maxFreq : Rat) < 15 / 1000 * dscCnt then
          return 0
      return matched) := by
  unfold Local.answers at some' ⊢
  unfold Local.matchImg
  cases decoded : file.bind cv.decode with
  | none => simp [decoded] at some'
  | some srcImg =>
      simp only [decoded] at some' ⊢
      split at some'
      next => exact absurd rfl some'
      next described => rw [if_neg described, if_neg described]

/-- Without a passing row no image is reported. -/
theorem matchImg_silent (readable : Readable statics.indexIMG (Local.answers cv statics file))
    (silent : ballots statics.indexIMG (Local.answers cv statics file) = []) :
    Local.matchImg cv statics file = .ok 0 := by
  by_cases none' : Local.answers cv statics file = []
  · have voted := bestMatch_silent readable silent
    unfold Local.answers at none' voted
    unfold Local.matchImg
    cases decoded : file.bind cv.decode with
    | none => rfl
    | some srcImg =>
        simp only [decoded] at none' voted ⊢
        split
        next => rfl
        next described =>
          rw [if_neg described] at voted
          rw [voted]
          rfl
  · rw [matchImg_eq none', bestMatch_silent readable silent]
    rfl

/-- The elected image is reported when it reaches its threshold. -/
theorem matchImg_elected (readable : Readable statics.indexIMG (Local.answers cv statics file))
    (numbered : Numbered statics.dscCntIMG
      (ballots statics.indexIMG (Local.answers cv statics file))) {winner : Int}
    (elected : Elected (ballots statics.indexIMG (Local.answers cv statics file)) winner) :
    ∃ dscCnt, vectorAt statics.dscCntIMG (winner - 1) = .ok dscCnt ∧
      Local.matchImg cv statics file =
        .ok (if 15 / 1000 * (dscCnt : Rat) ≤
            (ballots statics.indexIMG (Local.answers cv statics file)).count winner
          then winner else 0) := by
  obtain ⟨positive, inside⟩ := numbered winner elected.1
  obtain ⟨dscCnt, read⟩ := vectorAt_isOk_iff.mpr
    (show 0 ≤ winner - 1 ∧ winner - 1 < statics.dscCntIMG.length by omega)
  have some' : Local.answers cv statics file ≠ [] := by
    intro none'
    have voted := elected.1
    rw [none'] at voted
    cases voted
  have nonzero : winner ≠ 0 := by omega
  refine ⟨dscCnt, read, ?_⟩
  rw [matchImg_eq some', bestMatch_elected readable elected]
  simp only [bind, Except.bind, if_pos nonzero, read]
  by_cases reached : 15 / 1000 * (dscCnt : Rat) ≤
      (ballots statics.indexIMG (Local.answers cv statics file)).count winner
  · rw [if_pos reached, if_neg (Rat.not_lt.mpr reached)]
    rfl
  · rw [if_neg reached, if_pos (Rat.not_le.mp reached)]
    rfl

end Verdict

end ImgMatch

open ImgMatch in
/-- The vote of `matchImg`: without a passing row the index is 0; otherwise the
elected image is reported if its rows reach 1.5% of its descriptors. Each
passing row is counted for one entry of `imgFreq`, and no image has two. -/
theorem matchImg_verdict {Image Row : Type} (cv : OpenCV Image Row) (statics : Statics Row)
    (file : Option (List Byte))
    (readable : Readable statics.indexIMG (Local.answers cv statics file))
    (numbered : Numbered statics.dscCntIMG
      (ballots statics.indexIMG (Local.answers cv statics file))) :
    (ballots statics.indexIMG (Local.answers cv statics file) = [] →
      Local.matchImg cv statics file = .ok 0) ∧
    (ballots statics.indexIMG (Local.answers cv statics file) ≠ [] →
      ∃ winner dscCnt,
        Elected (ballots statics.indexIMG (Local.answers cv statics file)) winner ∧
        vectorAt statics.dscCntIMG (winner - 1) = .ok dscCnt ∧
        Local.matchImg cv statics file =
          .ok (if 15 / 1000 * (dscCnt : Rat) ≤
              (ballots statics.indexIMG (Local.answers cv statics file)).count winner
            then winner else 0)) ∧
    ∃ imgFreq, countVotes statics.indexIMG [] (Local.answers cv statics file) = .ok imgFreq ∧
      (imgFreq.map ImgFreq.imgIndex).Nodup ∧
      (∀ entry ∈ imgFreq, entry.freq = (Local.answers cv statics file).countP fun answer =>
        decide (VotesFor statics.indexIMG entry.imgIndex answer)) ∧
      ∀ answer ∈ Local.answers cv statics file, Neighbour.votes answer →
        ∃! entry, entry ∈ imgFreq ∧ VotesFor statics.indexIMG entry.imgIndex answer := by
  refine ⟨matchImg_silent readable, ?_, _, countVotes_eq readable, ?_, ?_, ?_⟩
  · intro cast
    obtain ⟨winner, elected⟩ := exists_elected cast
    obtain ⟨dscCnt, read, reported⟩ := matchImg_elected readable numbered elected
    exact ⟨winner, dscCnt, elected, read, reported⟩
  · rw [map_imgIndex_standings]
    exact nodup_candidates _
  · intro entry listed
    obtain ⟨image, -, rfl⟩ := List.mem_map.mp listed
    exact count_ballots image
  · intro answer member voting
    exact existsUnique_entry readable member voting

/-- Two images of two descriptors, and a search whose rows split evenly. -/
def evenStatics : ImgMatch.Statics Nat where
  indexIMG := [1, 1, 2, 2]
  dscCntIMG := [2, 2]
  featureCluster := [0, 1, 2, 3]
  lastIndex := 0
  imgCount := 0

def evenVotes : OpenCV Unit Nat where
  decode bytes := if bytes.isEmpty then none else some ()
  descriptors _ := [0, 1, 2, 3, 4]
  knnSearch _ _ := [⟨0, 0, 1⟩, ⟨3, 1, 1⟩, ⟨2, 0, 1⟩, ⟨3, 0, 1⟩, ⟨1, 0, 1⟩]

open ImgMatch in
/-- Image 2 has its first passing row after image 1 and wins the tie. -/
theorem matchImg_verdict_even :
    Local.matchImg evenVotes evenStatics (some [1]) = .ok 2 ∧
    ∃ winner dscCnt,
      Elected (ballots evenStatics.indexIMG
        (Local.answers evenVotes evenStatics (some [1]))) winner ∧
      vectorAt evenStatics.dscCntIMG (winner - 1) = .ok dscCnt ∧
      Local.matchImg evenVotes evenStatics (some [1]) =
        .ok (if 15 / 1000 * (dscCnt : Rat) ≤
            (ballots evenStatics.indexIMG
              (Local.answers evenVotes evenStatics (some [1]))).count winner
          then winner else 0) :=
  ⟨by decide +kernel, (matchImg_verdict evenVotes evenStatics (some [1]) (by decide +kernel)
    (by decide +kernel)).2.1 (by decide +kernel)⟩

end PaintingCPS
