import Mathlib.Algebra.Order.BigOperators.Group.List
import Mathlib.Algebra.Order.Ring.Int
import Mathlib.Logic.Function.Iterate
import PaintingCPS.Matching.Vote

/-!
Contract: the tables from training to matching.

`init_DB` numbers the rows of the feature matrix and counts them by image,
both tables go through text files, and every load appends them once more.

Owns: the database, what is asked of the loaded tables, and the exact databases
for which they deliver it.

Does not own: the search itself, which only has to answer with rows of the
matrix.
-/

set_option autoImplicit false

namespace PaintingCPS

open Foundation

namespace ImgMatch

/-- The descriptors of the images `1.jpg`, `2.jpg`, …. Numbers of images and of
rows are `int`s. -/
structure Database (Row : Type) where
  images : List (List Row)
  numbered : images.length < 2 ^ 31
  fits : images.flatten.length < 2 ^ 31

section Statements

variable {Row : Type} (database : Database Row)

/-- The descriptors of the image with this number. -/
def Database.image (number : Nat) : Option (List Row) :=
  if number = 0 then none else database.images[number - 1]?

/-- Training in a process of its own. -/
def Database.train : Except Fault (Option (Statics Row × Files Row)) :=
  initDB database.image database.images.length (Statics.fresh Row)

/-- A row of the feature matrix is a descriptor of this image. -/
def Database.FromImage (row number : Nat) : Prop :=
  ∃ image place, database.image number = some image ∧ place < image.length ∧
    row = (database.images.take (number - 1)).flatten.length + place

/-- The statics of a process that has loaded the files so many times. -/
def loaded (files : Files Row) (loads : Nat) : Statics Row :=
  (initMatchImg files)^[loads] (Statics.fresh Row)

/-- Answers that name rows of the feature matrix. -/
def Database.InMatrix (answers : List Neighbour) : Prop :=
  ∀ answer ∈ answers, 0 ≤ answer.index ∧ answer.index < database.images.flatten.length

/-- What matching asks of the tables: the rows as trained, the image of every
row, the count of every image that can be matched, and no exception. -/
structure Statics.Aligned (statics : Statics Row) : Prop where
  matrix : statics.featureCluster = database.images.flatten
  owner : ∀ row < database.images.flatten.length, ∃ number, database.FromImage row number ∧
    vectorAt statics.indexIMG row = .ok number
  counted : ∀ answers, database.InMatrix answers →
    ∃ matched votes, bestMatch statics.indexIMG answers = .ok (matched, votes) ∧
      (matched ≠ 0 → ∃ number image, matched = (number : Nat) ∧
        database.image number = some image ∧
        vectorAt statics.dscCntIMG (matched - 1) = .ok image.length)
  safe : ∀ (Image : Type) (cv : OpenCV Image Row),
    (∀ query, database.InMatrix (cv.knnSearch statics.featureCluster query)) →
    ∀ file, ∃ matched, Local.matchImg cv statics file = .ok matched

/-- The tables work after training and any positive number of loads. -/
def Database.TablesWork : Prop :=
  ∃ trained files, database.train = .ok (some (trained, files)) ∧
    ∀ loads, 1 ≤ loads → (loaded files loads).Aligned database

/-- No image without descriptors comes before one with descriptors. -/
def Database.EmptyLast : Prop :=
  database.images.Pairwise fun earlier later => later ≠ [] → earlier ≠ []

end Statements

/-! ## Numbering -/

section Numbering

variable {Row : Type}

/-- `index_IMG` over images that are numbered from `number` on. -/
def labels : Nat → List (List Row) → List Int
  | _, [] => []
  | number, image :: rest => List.replicate image.length (number : Int) ++ labels (number + 1) rest

theorem labels_length (number : Nat) (images : List (List Row)) :
    (labels number images).length = images.flatten.length := by
  induction images generalizing number with
  | nil => rfl
  | cons image rest inductionHypothesis =>
      rw [labels, List.length_append, List.length_replicate, inductionHypothesis,
        List.flatten_cons, List.length_append]

theorem mem_labels {number : Nat} {images : List (List Row)} {label : Int}
    (member : label ∈ labels number images) :
    (number : Int) ≤ label ∧ label < number + images.length := by
  induction images generalizing number with
  | nil => exact absurd member List.not_mem_nil
  | cons image rest inductionHypothesis =>
      rw [List.length_cons]
      cases List.mem_append.mp member with
      | inl own =>
          have := List.eq_of_mem_replicate own
          omega
      | inr later =>
          have := inductionHypothesis later
          omega

/-- The label of a row is the number of its image. -/
theorem labels_getElem {number : Nat} {images : List (List Row)} {position place : Nat}
    {image : List Row} (found : images[position]? = some image) (inside : place < image.length) :
    (labels number images)[(images.take position).flatten.length + place]? =
      some ((number + position : Nat) : Int) := by
  induction images generalizing number position with
  | nil => exact absurd found (by simp)
  | cons first rest inductionHypothesis =>
      cases position with
      | zero =>
          obtain rfl : first = image := by simpa using found
          rw [labels, List.take_zero, List.flatten_nil, List.length_nil, Nat.zero_add,
            List.getElem?_append_left (by simpa using inside), List.getElem?_replicate,
            if_pos inside, Nat.add_zero]
      | succ position =>
          rw [labels, List.take_succ_cons, List.flatten_cons, List.length_append,
            List.getElem?_append_right (by simp; omega), List.length_replicate,
            show first.length + (rest.take position).flatten.length + place - first.length =
              (rest.take position).flatten.length + place by omega,
            inductionHypothesis (by simpa using found)]
          congr 2
          omega

/-- Every row belongs to an image. -/
theorem exists_place (images : List (List Row)) (row : Nat)
    (inside : row < images.flatten.length) :
    ∃ (position place : Nat) (image : List Row), images[position]? = some image ∧
      place < image.length ∧ row = (images.take position).flatten.length + place := by
  induction images generalizing row with
  | nil => exact absurd inside (by simp)
  | cons first rest inductionHypothesis =>
      by_cases own : row < first.length
      · exact ⟨0, row, first, rfl, own, by simp⟩
      · rw [List.flatten_cons, List.length_append] at inside
        obtain ⟨position, place, image, found, placeInside, same⟩ :=
          inductionHypothesis (row - first.length) (by omega)
        refine ⟨position + 1, place, image, by simpa using found, placeInside, ?_⟩
        rw [List.take_succ_cons, List.flatten_cons, List.length_append]
        omega

/-- The loop over readable images collects their rows and labels. -/
theorem readImages_eq {database : Nat → Option (List Row)} {images : List (List Row)}
    (number : Nat) (readable : ∀ position < images.length,
      database (number + position) = images[position]?) (statics : Statics Row) :
    readImages database images.length number statics =
      some { statics with
        featureCluster := statics.featureCluster ++ images.flatten
        indexIMG := statics.indexIMG ++ labels number images } := by
  induction images generalizing number statics with
  | nil => simp [readImages, labels]
  | cons image rest inductionHypothesis =>
      have first : database number = some image := by
        simpa using readable 0 (by simp)
      rw [List.length_cons, readImages, first]
      dsimp only
      rw [inductionHypothesis (number + 1)]
      · simp [addImage, labels, List.append_assoc]
      · intro position inside
        have later := readable (position + 1) (by simpa using inside)
        rw [List.getElem?_cons_succ] at later
        rw [← later]
        congr 1
        omega

end Numbering

/-! ## Counting -/

section Counting

variable {Row : Type}

/-- What one label does to `dscCnt_IMG` while `lastIndex` and `imgCount` are its
length. -/
def countLabel (counts : List Int) (label : Int) : List Int :=
  if label ≠ counts.length then counts ++ [1]
  else counts.set (label - 1).toNat ((counts[(label - 1).toNat]?).getD 0 + 1)

theorem countLabel_last (counts : List Int) (count : Int) {label : Int}
    (atLast : label = (counts ++ [count]).length) :
    countLabel (counts ++ [count]) label = counts ++ [count + 1] := by
  have place : (label - 1).toNat = counts.length := by
    rw [atLast, List.length_append, List.length_singleton]
    omega
  rw [countLabel, if_neg (not_not.mpr atLast), place]
  simp

/-- The two counters are the length of `dscCnt_IMG`. -/
structure Statics.InStep (statics : Statics Row) : Prop where
  last : statics.lastIndex = statics.dscCntIMG.length
  count : statics.imgCount = statics.dscCntIMG.length

/-- One pass counts the label and leaves the length of `dscCnt_IMG` in its
place. -/
theorem countDescriptor_eq {statics : Statics Row} (inStep : statics.InStep) {label : Int}
    (positive : 1 ≤ label) :
    ∃ after, countDescriptor statics label = .ok (after, after.dscCntIMG.length) ∧
      after.InStep ∧ after.dscCntIMG = countLabel statics.dscCntIMG label ∧
      after.featureCluster = statics.featureCluster := by
  by_cases new : label ≠ statics.dscCntIMG.length
  · have assignedNonzero : statics.lastIndex + 1 ≠ 0 := by rw [inStep.last]; omega
    have after : Statics.InStep { statics with
        dscCntIMG := statics.dscCntIMG ++ [1]
        lastIndex := statics.lastIndex + 1
        imgCount := statics.imgCount + 1 } := by
      constructor <;> simp [inStep.last, inStep.count]
    have length : statics.lastIndex + 1 = ((statics.dscCntIMG ++ [1]).length : Nat) := by
      rw [inStep.last, List.length_append]
      rfl
    refine ⟨_, ?_, after, by rw [countLabel, if_pos new], rfl⟩
    rw [countDescriptor, if_pos (by rw [inStep.last]; exact new)]
    dsimp only
    rw [if_pos assignedNonzero, length]
    by_cases first : statics.imgCount = 0
    · rw [if_neg (by simpa using first)]
      rfl
    · -- the previous count is printed
      obtain ⟨printed, read⟩ := vectorAt_isOk_iff.mpr
        (show 0 ≤ statics.imgCount - 1 ∧ statics.imgCount - 1 < statics.dscCntIMG.length by
          rw [inStep.count] at first ⊢
          omega)
      rw [if_pos first, read]
      rfl
  · have known : label = statics.dscCntIMG.length := not_not.mp new
    have bound : (label - 1).toNat < statics.dscCntIMG.length := by omega
    have read : vectorAt statics.dscCntIMG (label - 1) =
        .ok (statics.dscCntIMG[(label - 1).toNat]) := by
      obtain ⟨place, same⟩ := Int.eq_ofNat_of_zero_le (show 0 ≤ label - 1 by omega)
      simp only [same, Int.toNat_natCast] at bound ⊢
      exact vectorAt_eq_ok (List.getElem?_eq_getElem bound)
    have after : Statics.InStep { statics with
        dscCntIMG := statics.dscCntIMG.set (label - 1).toNat
          (statics.dscCntIMG[(label - 1).toNat] + 1) } := by
      constructor <;> simp [inStep.last, inStep.count]
    refine ⟨_, ?_, after, ?_, rfl⟩
    · rw [countDescriptor, if_neg (by rw [inStep.last]; exact not_not.mpr known), read,
        List.length_set, ← known]
      rfl
    · rw [countLabel, if_neg new, List.getElem?_eq_getElem bound, Option.getD_some]

/-- A label that repeats the last one or is the next. -/
def Follows (last label : Int) : Prop := label = last ∨ label = last + 1

/-- The counting loop returns, `dscCnt_IMG` is the fold of its steps, and labels
without a gap keep their values. -/
theorem countDescriptors_eq {list : List Int} (positive : ∀ label ∈ list, 1 ≤ label)
    (written : List Int) {statics : Statics Row} (inStep : statics.InStep) :
    ∃ after, countDescriptors written list statics = .ok after ∧
      after.dscCntIMG = list.foldl countLabel statics.dscCntIMG ∧
      after.featureCluster = statics.featureCluster ∧
      (List.IsChain Follows ((statics.dscCntIMG.length : Int) :: list) →
        after.indexIMG = written ++ list) := by
  induction list generalizing written statics with
  | nil => exact ⟨_, rfl, rfl, rfl, fun _ => (List.append_nil written).symm⟩
  | cons label rest inductionHypothesis =>
      obtain ⟨middle, counted, middleInStep, counts, cluster⟩ :=
        countDescriptor_eq inStep (positive label List.mem_cons_self)
      obtain ⟨after, remaining, afterCounts, afterCluster, afterIndex⟩ :=
        inductionHypothesis (fun label member => positive label (List.mem_cons_of_mem _ member))
          (written ++ [(middle.dscCntIMG.length : Int)]) middleInStep
      refine ⟨after, ?_, by rw [afterCounts, counts, List.foldl_cons],
        by rw [afterCluster, cluster], ?_⟩
      · rw [countDescriptors, counted]
        exact remaining
      · intro gapless
        obtain ⟨follows, restGapless⟩ := List.isChain_cons_cons.mp gapless
        have own : (middle.dscCntIMG.length : Int) = label := by
          rw [counts, countLabel]
          cases follows with
          | inl repeated => rw [if_neg (not_not.mpr repeated), List.length_set, repeated]
          | inr next =>
              rw [if_pos (by omega), List.length_append, next]
              rfl
        rw [← own] at restGapless ⊢
        rw [afterIndex restGapless, List.append_assoc, List.singleton_append]

/-- Labels above the length leave the counts that are there alone, and every
label adds one to the others. -/
theorem foldl_countLabel (counts : List Int) {list : List Int}
    (above : ∀ label ∈ list, (counts.length : Int) < label) (more : List Int)
    (positive : ∀ count ∈ more, 1 ≤ count) :
    ∃ result, list.foldl countLabel (counts ++ more) = counts ++ result ∧
      result.sum = more.sum + list.length ∧ ∀ count ∈ result, 1 ≤ count := by
  induction list generalizing more with
  | nil => exact ⟨more, rfl, by simp, positive⟩
  | cons label rest inductionHypothesis =>
      have restAbove : ∀ label ∈ rest, (counts.length : Int) < label :=
        fun label member => above label (List.mem_cons_of_mem _ member)
      rw [List.foldl_cons]
      by_cases new : label ≠ ((counts ++ more).length : Int)
      · obtain ⟨result, folded, total, ones⟩ := inductionHypothesis restAbove
          (more ++ [1]) (by
            intro count member
            cases List.mem_append.mp member with
            | inl old => exact positive count old
            | inr one => exact Int.le_of_eq (List.mem_singleton.mp one).symm)
        refine ⟨result, ?_, ?_, ones⟩
        · rw [countLabel, if_pos new, List.append_assoc, folded]
        · rw [total]
          simp
          omega
      · have atLast := not_not.mp new
        have nonempty : more ≠ [] := by
          rintro rfl
          have := above label List.mem_cons_self
          rw [List.append_nil] at atLast
          omega
        obtain ⟨front, last, rfl⟩ : ∃ front last, more = front ++ [last] :=
          ⟨more.dropLast, more.getLast nonempty, (List.dropLast_append_getLast nonempty).symm⟩
        obtain ⟨result, folded, total, ones⟩ := inductionHypothesis restAbove
          (front ++ [last + 1]) (by
            intro count member
            cases List.mem_append.mp member with
            | inl old => exact positive count (List.mem_append_left _ old)
            | inr incremented =>
                have := positive last (by simp)
                rw [List.mem_singleton.mp incremented]
                omega)
        refine ⟨result, ?_, ?_, ones⟩
        · rw [← List.append_assoc] at atLast ⊢
          rw [countLabel_last _ last atLast, List.append_assoc, folded]
        · rw [total]
          simp
          omega

/-- The descriptors of one image behind the counts of all images before it. -/
theorem foldl_countLabel_image (counts : List Int) {image : List Row} (described : image ≠ []) :
    (List.replicate image.length ((counts.length + 1 : Nat) : Int)).foldl countLabel counts =
      counts ++ [(image.length : Int)] := by
  have more : ∀ (count : Nat) (start : Int),
      (List.replicate count ((counts.length + 1 : Nat) : Int)).foldl countLabel
        (counts ++ [start]) = counts ++ [start + count] := by
    intro count
    induction count with
    | zero => simp
    | succ count inductionHypothesis =>
        intro start
        rw [List.replicate_succ, List.foldl_cons, countLabel_last _ start (by simp),
          inductionHypothesis]
        congr 2
        omega
  obtain ⟨first, rest, rfl⟩ := List.exists_cons_of_ne_nil described
  rw [List.length_cons, List.replicate_succ, List.foldl_cons, countLabel, if_pos (by omega), more]
  congr 2
  omega

/-- The counts as a list by image: each image with descriptors has its own. -/
def Counted (images : List (List Row)) (counts : List Int) : Prop :=
  ∀ (position : Nat) (image : List Row), images[position]? = some image → image ≠ [] →
    counts[position]? = some (image.length : Int)

/-- Without a gap every image gets its count. -/
theorem counted_of_pairwise {images : List (List Row)}
    (gapless : images.Pairwise fun earlier later => later ≠ [] → earlier ≠ [])
    (counts : List Int) :
    ∃ result, (labels (counts.length + 1) images).foldl countLabel counts = counts ++ result ∧
      Counted images result := by
  induction images generalizing counts with
  | nil => exact ⟨[], by simp [labels], fun position image found => absurd found (by simp)⟩
  | cons image rest inductionHypothesis =>
      obtain ⟨before, restGapless⟩ := List.pairwise_cons.mp gapless
      rw [labels, List.foldl_append]
      by_cases empty : image = []
      · subst empty
        have allEmpty : rest.flatten = [] := List.flatten_eq_nil_iff.mpr
          fun later member => by_contra fun described => before later member described rfl
        have noLabels : labels (counts.length + 1 + 1) rest = [] :=
          List.eq_nil_of_length_eq_zero (by rw [labels_length, allEmpty]; rfl)
        refine ⟨[], by simp [noLabels], ?_⟩
        intro position later found described
        have member := List.mem_of_getElem? found
        cases List.mem_cons.mp member with
        | inl same => exact absurd same described
        | inr later => exact absurd rfl (before _ later described)
      · obtain ⟨result, folded, counted⟩ :=
          inductionHypothesis restGapless (counts ++ [(image.length : Int)])
        rw [List.length_append, List.length_singleton] at folded
        refine ⟨image.length :: result, ?_, ?_⟩
        · rw [foldl_countLabel_image counts empty, folded, List.append_assoc,
            List.singleton_append]
        · intro position other found described
          cases position with
          | zero =>
              obtain rfl : image = other := by simpa using found
              rfl
          | succ position => exact counted position other (by simpa using found) described

/-- Counts that fit every image add up to at least the number of rows. -/
theorem length_le_sum {images : List (List Row)} {counts : List Int}
    (counted : Counted images counts) (positive : ∀ count ∈ counts, 1 ≤ count) :
    (images.flatten.length : Int) ≤ counts.sum := by
  induction images generalizing counts with
  | nil =>
      have := List.sum_nonneg fun count member => Int.le_trans (by decide) (positive count member)
      simpa using this
  | cons image rest inductionHypothesis =>
      cases counts with
      | nil =>
          have allEmpty : (image :: rest).flatten = [] := by
            rw [List.flatten_eq_nil_iff]
            intro other member
            by_contra described
            obtain ⟨position, found⟩ := List.getElem?_of_mem member
            exact absurd (counted position other found described) (by simp)
          rw [allEmpty]
          simp
      | cons count more =>
          have restCounted : Counted rest more := fun position other found described => by
            simpa using counted (position + 1) other (by simpa using found) described
          have restBound := inductionHypothesis restCounted
            fun other member => positive other (List.mem_cons_of_mem _ member)
          have first : (image.length : Int) ≤ count := by
            by_cases empty : image = []
            · have := positive count List.mem_cons_self
              rw [empty]
              simp
              omega
            · have := counted 0 image rfl empty
              simp at this
              omega
          rw [List.flatten_cons, List.length_append, List.sum_cons]
          omega

/-- After a gap the counts are short: their sum is the number of rows, and the
empty image has taken at least one. -/
theorem pairwise_of_counted {images : List (List Row)} (counts result : List Int)
    (folded : (labels (counts.length + 1) images).foldl countLabel counts = counts ++ result)
    (counted : Counted images result) :
    images.Pairwise fun earlier later => later ≠ [] → earlier ≠ [] := by
  induction images generalizing counts result with
  | nil => exact List.Pairwise.nil
  | cons image rest inductionHypothesis =>
      rw [labels, List.foldl_append] at folded
      by_cases empty : image = []
      · have above : ∀ label ∈ labels (counts.length + 1 + 1) rest,
            (counts.length : Int) < label := by
          intro label member
          have := (mem_labels member).1
          omega
        obtain ⟨other, otherFolded, total, positive⟩ :=
          foldl_countLabel counts above [] (by simp)
        rw [List.append_nil] at otherFolded
        rw [empty, List.length_nil, List.replicate_zero, List.foldl_nil, otherFolded] at folded
        obtain rfl := List.append_cancel_left folded
        rw [labels_length, List.sum_nil, Int.zero_add] at total
        have noRows : rest.flatten = [] := by
          cases other with
          | nil =>
              rw [List.sum_nil] at total
              exact List.eq_nil_of_length_eq_zero (by omega)
          | cons taken more =>
              have restCounted : Counted rest more := fun position later found described => by
                simpa using counted (position + 1) later (by simpa using found) described
              have short := length_le_sum restCounted
                fun count member => positive count (List.mem_cons_of_mem _ member)
              have := positive taken List.mem_cons_self
              rw [List.sum_cons] at total
              omega
        have allEmpty := List.flatten_eq_nil_iff.mp noRows
        apply List.pairwise_cons.mpr
        refine ⟨fun later member described => absurd (allEmpty later member) described, ?_⟩
        apply List.pairwise_of_forall_mem_list
        intro earlier _ later member described
        exact absurd (allEmpty later member) described
      · rw [foldl_countLabel_image counts empty] at folded
        have above : ∀ label ∈ labels (counts.length + 1 + 1) rest,
            ((counts ++ [(image.length : Int)]).length : Int) < label := by
          intro label member
          have := (mem_labels member).1
          rw [List.length_append, List.length_singleton]
          omega
        obtain ⟨other, otherFolded, -, -⟩ :=
          foldl_countLabel (counts ++ [(image.length : Int)]) above [] (by simp)
        rw [List.append_nil] at otherFolded
        have shape : result = (image.length : Int) :: other := by
          rw [otherFolded, List.append_assoc] at folded
          exact (List.append_cancel_left folded).symm
        subst shape
        apply List.pairwise_cons.mpr
        refine ⟨fun later member described => empty, ?_⟩
        apply inductionHypothesis (counts ++ [(image.length : Int)]) other
        · rw [List.length_append, List.length_singleton]
          exact otherFolded
        · intro position later found described
          simpa using counted (position + 1) later (by simpa using found) described

end Counting

/-! ## Files -/

section Files

variable {Row : Type} (database : Database Row)

/-- `dscCnt_IMG` after training. -/
def Database.counts : List Int := (labels 1 database.images).foldl countLabel []

/-- The files of a trained database. -/
def Database.files : Files Row where
  indexImgTable := writeInts (labels 1 database.images)
  indexDscNo := writeInts database.counts
  imgIndexYml := database.images.flatten

/-- The statics after the loop over the images. -/
def Database.collected : Statics Row :=
  { Statics.fresh Row with
    featureCluster := database.images.flatten
    indexIMG := labels 1 database.images }

/-- Training writes the files, keeps the counts in memory too, and the labels
when they have no gap. -/
theorem Database.train_eq :
    ∃ trained, database.train = .ok (some (trained, database.files)) ∧
      trained.dscCntIMG = database.counts ∧
      (List.IsChain Follows (0 :: labels 1 database.images) →
        trained.indexIMG = labels 1 database.images) := by
  have readable : ∀ position < database.images.length,
      database.image (1 + position) = database.images[position]? := by
    intro position _
    rw [Database.image, if_neg (by omega), Nat.add_sub_cancel_left]
  have collected : readImages database.image database.images.length 1 (Statics.fresh Row) =
      some database.collected := readImages_eq 1 readable (Statics.fresh Row)
  have inStep : database.collected.InStep := ⟨rfl, rfl⟩
  obtain ⟨trained, counted, counts, cluster, index⟩ :=
    countDescriptors_eq (fun label member => (mem_labels member).1) [] inStep
  refine ⟨trained, ?_, counts, index⟩
  have files : database.files = ⟨writeInts (labels 1 database.images),
      writeInts trained.dscCntIMG, trained.featureCluster⟩ := by
    rw [counts, cluster]
    rfl
  rw [Database.train, initDB, collected, files]
  change (countDescriptors [] (labels 1 database.images) database.collected >>= _) = _
  rw [counted]
  rfl

/-- Both tables are read back as they were written. -/
theorem Database.files_read :
    readInts database.files.indexImgTable = labels 1 database.images ∧
      readInts database.files.indexDscNo = database.counts := by
  have numbered := database.numbered
  have fits := database.fits
  constructor
  · apply readInts_writeInts
    intro label member
    have := mem_labels member
    omega
  · have above : ∀ label ∈ labels 1 database.images, (([] : List Int).length : Int) < label :=
      fun label member => (mem_labels member).1
    obtain ⟨result, folded, total, positive⟩ := foldl_countLabel [] above [] (by simp)
    have same : database.counts = result := folded
    rw [labels_length, List.sum_nil, Int.zero_add] at total
    apply readInts_writeInts
    rw [same]
    intro count member
    have atLeast := positive count member
    have atMost : count ≤ result.sum := List.single_le_sum
      (fun other otherMember => Int.le_trans (by decide) (positive other otherMember)) count member
    omega

/-- Every load leaves the first copy of both tables in front. -/
theorem Database.loaded_eq {loads : Nat} (some : 1 ≤ loads) :
    ∃ moreLabels moreCounts,
      (loaded database.files loads).indexIMG = labels 1 database.images ++ moreLabels ∧
      (loaded database.files loads).dscCntIMG = database.counts ++ moreCounts ∧
      (loaded database.files loads).featureCluster = database.images.flatten := by
  obtain ⟨labelsRead, countsRead⟩ := database.files_read
  induction loads, some using Nat.le_induction with
  | base =>
      refine ⟨[], [], ?_, ?_, rfl⟩
      · change [] ++ readInts database.files.indexImgTable = _
        rw [labelsRead, List.nil_append, List.append_nil]
      · change [] ++ readInts database.files.indexDscNo = _
        rw [countsRead, List.nil_append, List.append_nil]
  | succ loads _ inductionHypothesis =>
      obtain ⟨moreLabels, moreCounts, labelsFirst, countsFirst, -⟩ := inductionHypothesis
      refine ⟨moreLabels ++ labels 1 database.images, moreCounts ++ database.counts, ?_, ?_, ?_⟩
      · rw [loaded, Function.iterate_succ_apply', ← loaded, initMatchImg, labelsRead, labelsFirst,
          List.append_assoc]
      · rw [loaded, Function.iterate_succ_apply', ← loaded, initMatchImg, countsRead, countsFirst,
          List.append_assoc]
      · rw [loaded, Function.iterate_succ_apply', ← loaded, initMatchImg]
        rfl

end Files

/-! ## Matching with loaded tables -/

section Aligned

variable {Row : Type} {database : Database Row} {statics : Statics Row}

theorem Database.image_eq_some {number : Nat} {image : List Row}
    (found : database.image number = some image) :
    ∃ position, number = position + 1 ∧ database.images[position]? = some image := by
  rw [Database.image] at found
  split at found
  next => contradiction
  next positive => exact ⟨number - 1, by omega, found⟩

/-- The label of a row is the number of the image it comes from. -/
theorem Database.FromImage.label {row number : Nat} (from' : database.FromImage row number) :
    (labels 1 database.images)[row]? = some (number : Int) := by
  obtain ⟨image, place, found, inside, rfl⟩ := from'
  obtain ⟨position, rfl, atPosition⟩ := Database.image_eq_some found
  rw [Nat.add_sub_cancel, labels_getElem atPosition inside]
  congr 2
  omega

theorem Database.exists_fromImage {row : Nat} (inside : row < database.images.flatten.length) :
    ∃ number, database.FromImage row number := by
  obtain ⟨position, place, image, found, placeInside, same⟩ := exists_place _ row inside
  refine ⟨position + 1, image, place, ?_, placeInside, ?_⟩
  · rw [Database.image, if_neg (Nat.succ_ne_zero position), Nat.add_sub_cancel]
    exact found
  · rw [Nat.add_sub_cancel]
    exact same

theorem vectorAt_append {first more : List Int} {place : Nat} {value : Int}
    (found : first[place]? = some value) : vectorAt (first ++ more) place = .ok value := by
  apply vectorAt_eq_ok
  rw [List.getElem?_append_left (List.getElem?_eq_some_iff.mp found).1, found]

/-- A ballot is the number of an image that has descriptors. -/
theorem exists_image_of_ballot {answers : List Neighbour}
    (owner : ∀ row < database.images.flatten.length, ∃ number, database.FromImage row number ∧
      vectorAt statics.indexIMG row = .ok (number : Int))
    (inMatrix : database.InMatrix answers) {ballot : Int}
    (cast : ballot ∈ ballots statics.indexIMG answers) :
    ∃ number image, ballot = (number : Nat) ∧ database.image number = some image ∧
      image ≠ [] := by
  obtain ⟨answer, member, read⟩ := List.mem_filterMap.mp cast
  split at read
  next =>
    obtain ⟨nonnegative, inside⟩ := inMatrix answer member
    obtain ⟨row, atRow⟩ := Int.eq_ofNat_of_zero_le nonnegative
    obtain ⟨number, ⟨image, place, found, placeInside, -⟩, value⟩ := owner row (by omega)
    rw [atRow] at read
    have same : vectorAt statics.indexIMG (Int.ofNat row) = .ok (number : Int) := value
    refine ⟨number, image, ?_, found, List.ne_nil_of_length_pos (by omega)⟩
    change (vectorAt statics.indexIMG (Int.ofNat row)).toOption = some ballot at read
    rw [same] at read
    exact (Option.some.inj read).symm
  next => contradiction

/-- Tables with the right owners and counts serve every image. -/
theorem aligned_of_counts (matrix : statics.featureCluster = database.images.flatten)
    (owner : ∀ row < database.images.flatten.length, ∃ number, database.FromImage row number ∧
      vectorAt statics.indexIMG row = .ok (number : Int))
    (covered : ∀ answers, database.InMatrix answers → Readable statics.indexIMG answers)
    (counts : ∀ number image, database.image number = some image → image ≠ [] →
      vectorAt statics.dscCntIMG ((number : Int) - 1) = .ok (image.length : Int)) :
    statics.Aligned database := by
  have counted : ∀ answers, database.InMatrix answers →
      ∃ matched votes, bestMatch statics.indexIMG answers = .ok (matched, votes) ∧
        (matched ≠ 0 → ∃ number image, matched = (number : Nat) ∧
          database.image number = some image ∧
          vectorAt statics.dscCntIMG (matched - 1) = .ok image.length) := by
    intro answers inMatrix
    by_cases silent : ballots statics.indexIMG answers = []
    · exact ⟨0, 1, bestMatch_silent (covered answers inMatrix) silent, absurd rfl⟩
    · obtain ⟨winner, elected⟩ := exists_elected silent
      obtain ⟨number, image, same, found, described⟩ :=
        exists_image_of_ballot owner inMatrix elected.1
      refine ⟨winner, _, bestMatch_elected (covered answers inMatrix) elected, fun _ => ?_⟩
      refine ⟨number, image, same, found, ?_⟩
      rw [same]
      exact counts number image found described
  refine ⟨matrix, owner, counted, ?_⟩
  intro Image cv answersIn file
  rw [Local.matchImg]
  split
  next => exact ⟨0, rfl⟩
  next srcImg _ =>
    dsimp only
    split
    next => exact ⟨0, rfl⟩
    next =>
      obtain ⟨matched, votes, best, dscCnt⟩ := counted _ (answersIn (cv.descriptors srcImg))
      rw [best]
      change ∃ result, (if matched ≠ 0 then _ else _) = Except.ok result
      split
      next isMatch =>
        obtain ⟨number, image, -, -, read⟩ := dscCnt isMatch
        rw [read]
        change ∃ result, (if (votes : Rat) < _ then _ else _) = Except.ok result
        split
        · exact ⟨0, rfl⟩
        · exact ⟨matched, rfl⟩
      next => exact ⟨matched, rfl⟩

/-- The first image's own descriptor as the only answer. -/
theorem ballots_singleton {indexIMG : List Int} {row : Nat} {number : Int}
    (read : vectorAt indexIMG row = .ok number) :
    ballots indexIMG [⟨row, 0, 1⟩] = [number] := by
  have voting : Neighbour.votes ⟨row, 0, 1⟩ := by
    change (0 : Rat) < 1 * nndrRatio
    decide +kernel
  simp [ballots, voting, read, Except.toOption]

/-- Aligned tables hold the count of every image with descriptors: one query
that finds its first descriptor shows it. -/
theorem Statics.Aligned.count (aligned : statics.Aligned database) {number : Nat}
    {image : List Row} (found : database.image number = some image) (described : image ≠ []) :
    vectorAt statics.dscCntIMG ((number : Int) - 1) = .ok (image.length : Int) := by
  obtain ⟨position, isNext, atPosition⟩ := Database.image_eq_some found
  have from' : database.FromImage (database.images.take (number - 1)).flatten.length number :=
    ⟨image, 0, found, List.length_pos_iff.mpr described, rfl⟩
  have inside : (database.images.take (number - 1)).flatten.length <
      database.images.flatten.length := by
    have bound := (List.getElem?_eq_some_iff.mp from'.label).1
    rwa [labels_length] at bound
  obtain ⟨other, otherFrom, read⟩ := aligned.owner _ inside
  obtain rfl : number = other := by
    have same := from'.label.symm.trans otherFrom.label
    simpa using same
  have alone := ballots_singleton read
  have inMatrix : database.InMatrix
      [⟨((database.images.take (number - 1)).flatten.length : Int), 0, 1⟩] := by
    intro answer member
    rw [List.mem_singleton.mp member]
    exact ⟨Int.natCast_nonneg _, Int.ofNat_lt.mpr inside⟩
  obtain ⟨matched, votes, best, dscCnt⟩ := aligned.counted _ inMatrix
  have readable : Readable statics.indexIMG
      [⟨((database.images.take (number - 1)).flatten.length : Int), 0, 1⟩] := by
    by_contra unreadable
    rw [bestMatch_error unreadable] at best
    contradiction
  have own : Elected (ballots statics.indexIMG
      [⟨((database.images.take (number - 1)).flatten.length : Int), 0, 1⟩]) (number : Int) := by
    rw [alone]
    exact elected_singleton _
  have elected := bestMatch_elected readable own
  rw [best] at elected
  obtain ⟨rfl, -⟩ := Prod.mk.inj (Except.ok.inj elected)
  obtain ⟨winner, winnerImage, same, winnerFound, counted⟩ := dscCnt (by omega)
  obtain rfl : number = winner := by omega
  rw [found] at winnerFound
  obtain rfl := Option.some.inj winnerFound
  exact counted

end Aligned

/-- Working tables leave no gap. -/
theorem Database.TablesWork.emptyLast {Row : Type} {database : Database Row}
    (works : database.TablesWork) : database.EmptyLast := by
  obtain ⟨trained, files, training, work⟩ := works
  obtain ⟨_, trainedTo, -⟩ := database.train_eq
  obtain ⟨-, rfl⟩ := Prod.mk.inj (Option.some.inj (Except.ok.inj (training.symm.trans trainedTo)))
  have aligned := work 1 (Nat.le_refl 1)
  have once : (loaded database.files 1).dscCntIMG = database.counts := by
    change [] ++ readInts database.files.indexDscNo = _
    rw [database.files_read.2, List.nil_append]
  apply pairwise_of_counted [] database.counts rfl
  intro position image found described
  have number : database.image (position + 1) = some image := by
    rw [Database.image, if_neg (Nat.succ_ne_zero position), Nat.add_sub_cancel, found]
  have read := aligned.count number described
  rw [once, Int.natCast_succ, Int.add_sub_cancel, vectorAt, if_neg (by omega),
    Int.toNat_natCast] at read
  split at read
  next => contradiction
  next value atPosition => rw [atPosition, Except.ok.inj read]

/-- Without a gap the tables work. -/
theorem Database.EmptyLast.tablesWork {Row : Type} {database : Database Row}
    (emptyLast : database.EmptyLast) : database.TablesWork := by
  obtain ⟨trained, training, -⟩ := database.train_eq
  refine ⟨trained, database.files, training, fun loads some => ?_⟩
  obtain ⟨moreLabels, moreCounts, labelsFirst, countsFirst, matrix⟩ := database.loaded_eq some
  obtain ⟨result, folded, counted⟩ := counted_of_pairwise emptyLast []
  have counts : database.counts = result := folded
  apply aligned_of_counts matrix
  · intro row inside
    obtain ⟨number, from'⟩ := Database.exists_fromImage inside
    refine ⟨number, from', ?_⟩
    rw [labelsFirst]
    exact vectorAt_append from'.label
  · intro answers inMatrix answer member _
    obtain ⟨nonnegative, inside⟩ := inMatrix answer member
    rw [labelsFirst, List.length_append, labels_length]
    omega
  · intro number image found described
    obtain ⟨position, rfl, atPosition⟩ := Database.image_eq_some found
    rw [countsFirst, counts, Int.natCast_succ, Int.add_sub_cancel]
    exact vectorAt_append (counted position image atPosition described)

/-- Training, any number of loads, and matching work together exactly for the
databases in which images without descriptors come last. -/
theorem tablesWork_iff {Row : Type} (database : Database Row) :
    database.TablesWork ↔ database.EmptyLast :=
  ⟨Database.TablesWork.emptyLast, Database.EmptyLast.tablesWork⟩

/-- Three images, the second without descriptors. -/
def gappedDatabase : Database Nat where
  images := [[1, 2], [], [3]]
  numbered := by decide
  fits := by decide

/-- A search that finds the descriptor of the third image. -/
def thirdImage : OpenCV Unit Nat where
  decode _ := some ()
  descriptors _ := [3]
  knnSearch _ _ := [⟨2, 0, 1⟩]

/-- The third image is matched and its count is not there. -/
theorem gappedDatabase_throws :
    ¬ gappedDatabase.TablesWork ∧
      Local.matchImg thirdImage (loaded gappedDatabase.files 1) (some []) =
        .error .uncaughtException := by
  constructor
  · intro works
    have emptyLast := works.emptyLast
    revert emptyLast
    unfold Database.EmptyLast
    decide
  · decide +kernel

end ImgMatch

end PaintingCPS
