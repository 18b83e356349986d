import PaintingCPS.Matching.Tables

/-!
Contract: the two tables that `init_DB` leaves in memory and in its files.

The loop that counts descriptors also writes to the elements it scans, so the
table of labels in memory is not the one that was saved before.

Owns: the tables as a histogram, and the exact databases for which training
makes them one.

Does not own: what matching does with the tables.
-/

set_option autoImplicit false

namespace PaintingCPS

open Foundation

namespace ImgMatch

section Statements

variable {Row : Type} (database : Database Row)

/-- Entry `i - 1` is the number of descriptors of image `i`, and 0 for an image
without any that comes before one with some. -/
structure Database.Histogram (counts : List Int) : Prop where
  described : ∀ (position : Nat) (image : List Row), database.images[position]? = some image →
    image ≠ [] → counts[position]? = some (image.length : Int)
  gaps : ∀ (position later : Nat) (image : List Row), database.images[position]? = some [] →
    position < later → database.images[later]? = some image → image ≠ [] →
    counts[position]? = some 0

/-- Both tables, in memory and as the files are read. -/
structure Database.Consistent (trained : Statics Row) (files : Files Row) : Prop where
  index : trained.indexIMG = labels 1 database.images
  savedIndex : readInts files.indexImgTable = labels 1 database.images
  counts : database.Histogram trained.dscCntIMG
  savedCounts : database.Histogram (readInts files.indexDscNo)

/-- Training returns and leaves such tables. -/
def Database.TrainsHistogram : Prop :=
  ∃ trained files, database.train = .ok (some (trained, files)) ∧
    database.Consistent trained files

end Statements

section Chain

variable {Row : Type}

/-- Copies of the same label in front do not break a chain. -/
private theorem isChain_replicate {last : Int} {list : List Int} (count : Nat)
    (chain : List.IsChain Follows (last :: list)) :
    List.IsChain Follows (last :: (List.replicate count last ++ list)) := by
  induction count with
  | zero => exact chain
  | succ count inductionHypothesis =>
      rw [List.replicate_succ, List.cons_append]
      exact List.IsChain.cons_cons (.inl rfl) inductionHypothesis

/-- Without a gap each label repeats the last one or is the next. -/
theorem isChain_labels {images : List (List Row)}
    (gapless : images.Pairwise fun earlier later => later ≠ [] → earlier ≠ []) (number : Nat) :
    List.IsChain Follows ((number : Int) :: labels (number + 1) images) := by
  induction images generalizing number with
  | nil => exact List.IsChain.singleton _
  | cons image rest inductionHypothesis =>
      obtain ⟨before, restGapless⟩ := List.pairwise_cons.mp gapless
      by_cases empty : image = []
      · have allEmpty : rest.flatten = [] := List.flatten_eq_nil_iff.mpr
          fun later member => by_contra fun described => before later member described empty
        have noLabels : labels (number + 1) (image :: rest) = [] := by
          apply List.eq_nil_of_length_eq_zero
          rw [labels_length, List.flatten_cons, allEmpty, empty]
          rfl
        rw [noLabels]
        exact List.IsChain.singleton _
      · obtain ⟨first, more, rfl⟩ := List.exists_cons_of_ne_nil empty
        have next : Follows (number : Int) ((number + 1 : Nat) : Int) := .inr (by omega)
        rw [labels, List.length_cons, List.replicate_succ, List.cons_append]
        exact List.IsChain.cons_cons next
          (isChain_replicate more.length (inductionHypothesis restGapless (number + 1)))

end Chain

/-- Without a gap the counts are the histogram. -/
theorem Database.EmptyLast.histogram {Row : Type} {database : Database Row}
    (emptyLast : database.EmptyLast) : database.Histogram database.counts where
  described := by
    obtain ⟨result, folded, counted⟩ := counted_of_pairwise emptyLast []
    have counts : database.counts = result := folded
    rw [counts]
    exact counted
  gaps := by
    intro position later image empty before found described
    obtain ⟨inside, isEmpty⟩ := List.getElem?_eq_some_iff.mp empty
    obtain ⟨laterInside, isImage⟩ := List.getElem?_eq_some_iff.mp found
    have ordered := List.pairwise_iff_getElem.mp emptyLast position later inside laterInside before
    rw [isEmpty, isImage] at ordered
    exact absurd rfl (ordered described)

/-- Training leaves the histogram exactly for the databases in which images
without descriptors come last. -/
theorem trainsHistogram_iff {Row : Type} (database : Database Row) :
    database.TrainsHistogram ↔ database.EmptyLast := by
  obtain ⟨trained, training, counts, index⟩ := database.train_eq
  obtain ⟨labelsRead, countsRead⟩ := database.files_read
  constructor
  · rintro ⟨_, files, trainedTo, consistent⟩
    obtain ⟨-, rfl⟩ :=
      Prod.mk.inj (Option.some.inj (Except.ok.inj (trainedTo.symm.trans training)))
    have saved := consistent.savedCounts.described
    rw [countsRead] at saved
    exact pairwise_of_counted [] database.counts rfl saved
  · intro emptyLast
    refine ⟨trained, database.files, training, index (isChain_labels emptyLast 0), labelsRead, ?_,
      ?_⟩
    · rw [counts]
      exact emptyLast.histogram
    · rw [countsRead]
      exact emptyLast.histogram

/-- The second of three images has no descriptors; the third image's descriptor
is counted as the second's, and its label in memory is 2. -/
theorem gappedDatabase_miscounts :
    ¬ gappedDatabase.TrainsHistogram ∧
      (gappedDatabase.train.toOption.join.map fun result =>
        (result.1.indexIMG, result.1.dscCntIMG)) = some ([1, 1, 2], [2, 1]) := by
  constructor
  · rintro ⟨trained, files, training, consistent⟩
    have counted : trained.dscCntIMG = [2, 1] := by
      have computed : (gappedDatabase.train.toOption.join.map fun result =>
          result.1.dscCntIMG) = some [2, 1] := by decide +kernel
      rw [training] at computed
      exact Option.some.inj computed
    have third := consistent.counts.described 2 [3] rfl (by decide)
    rw [counted] at third
    cases third
  · decide +kernel

end ImgMatch

end PaintingCPS
