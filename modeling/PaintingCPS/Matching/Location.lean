import Mathlib.Algebra.Order.Ring.Rat
import Mathlib.Tactic.Linarith
import PaintingCPS.Matching.ImgMatch

/-!
Contract: which rematched descriptors `calLocation` keeps, in both copies of
the class `ImgMatch`.

The matcher and everything from `findHomography` on are parameters. Distances
are `float`s, and the code compares them as exact numbers, so they are
rationals here. The two copies differ only in what they return for an image
without a place.

Owns: both loops over the distances, the size test, and the exact distances
for which the best match is kept.

Does not own: the place itself.
-/

set_option autoImplicit false

namespace PaintingCPS

open Foundation

/-- A match of the matcher, one for each descriptor of the database image. -/
structure DMatch where
  queryIdx : Int
  trainIdx : Int
  distance : Rat
deriving DecidableEq, Repr

namespace ImgMatch

/-- One pass of the first loop, on `min_dist` and `max_dist`. -/
def widen (bounds : Rat × Rat) (found : DMatch) : Rat × Rat :=
  (if found.distance < bounds.1 then found.distance else bounds.1,
    if found.distance > bounds.2 then found.distance else bounds.2)

/-- The first loop: `min_dist` starts at 100, `max_dist` at 0. -/
def distances (found : List DMatch) : Rat × Rat := found.foldl widen (100, 0)

def minDist (found : List DMatch) : Rat := (distances found).1

/-- The second loop: `good_matches`. -/
def goodMatches (found : List DMatch) : List DMatch :=
  found.filter fun each => each.distance < 3 * minDist found

/-- The size test. -/
def Rejected (found : List DMatch) : Prop := (goodMatches found).length < 4

instance (found : List DMatch) : Decidable (Rejected found) :=
  inferInstanceAs (Decidable ((goodMatches found).length < 4))

/-- `calLocation` with the matcher's answer. -/
def calLocation {Location : Type} (unplaced : Location) (place : List DMatch → Location)
    (matchedImgIndex : Int) (found : List DMatch) : Location :=
  if matchedImgIndex = 0 then unplaced
  else if Rejected found then unplaced
  else place (goodMatches found)

end ImgMatch

/-- The server's `calLocation` returns the member `matchedLocation`. -/
def Local.calLocation (matchedLocation : List Rat) :
    (List DMatch → List Rat) → Int → List DMatch → List Rat :=
  ImgMatch.calLocation matchedLocation

/-- The Storm library's `calLocation` returns a text. -/
def Storm.calLocation : (List DMatch → List Byte) → Int → List DMatch → List Byte :=
  ImgMatch.calLocation (ascii "0,0,0,0,0,0,0,0,")

namespace ImgMatch

/-- No other match is nearer. -/
def Nearest (found : List DMatch) (best : DMatch) : Prop :=
  best ∈ found ∧ ∀ other ∈ found, best.distance ≤ other.distance

/-- The nearest matches are kept, what is kept is at most three times as far,
and a picture matched with itself passes the size test. -/
structure KeepsBest (found : List DMatch) : Prop where
  best : ∀ best, Nearest found best → best ∈ goodMatches found
  near : ∀ best, Nearest found best → ∀ kept ∈ goodMatches found,
    kept.distance ≤ 3 * best.distance
  copy : (∀ each ∈ found, each.distance = 0) → 4 ≤ found.length → ¬ Rejected found

/-! ## The minimum -/

private theorem foldl_widen (found : List DMatch) (bounds : Rat × Rat) :
    (∀ each ∈ found, (found.foldl widen bounds).1 ≤ each.distance) ∧
      (found.foldl widen bounds).1 ≤ bounds.1 ∧
      ((found.foldl widen bounds).1 = bounds.1 ∨
        ∃ each ∈ found, (found.foldl widen bounds).1 = each.distance) := by
  induction found generalizing bounds with
  | nil => exact ⟨by simp, le_refl _, .inl rfl⟩
  | cons first rest inductionHypothesis =>
      obtain ⟨below, start, reached⟩ := inductionHypothesis (widen bounds first)
      have least : (widen bounds first).1 ≤ first.distance ∧ (widen bounds first).1 ≤ bounds.1 ∧
          ((widen bounds first).1 = bounds.1 ∨ (widen bounds first).1 = first.distance) := by
        dsimp only [widen]
        split
        next nearer => exact ⟨le_refl _, le_of_lt nearer, .inr rfl⟩
        next farther => exact ⟨not_lt.mp farther, le_refl _, .inl rfl⟩
      rw [List.foldl_cons]
      refine ⟨?_, le_trans start least.2.1, ?_⟩
      · intro each member
        cases List.mem_cons.mp member with
        | inl isFirst =>
            rw [isFirst]
            exact le_trans start least.1
        | inr inRest => exact below each inRest
      · cases reached with
        | inl unchanged =>
            rw [unchanged]
            cases least.2.2 with
            | inl bound => exact .inl bound
            | inr own => exact .inr ⟨first, List.mem_cons_self, own⟩
        | inr later =>
            obtain ⟨each, member, same⟩ := later
            exact .inr ⟨each, List.mem_cons_of_mem first member, same⟩

theorem minDist_le {found : List DMatch} {each : DMatch} (member : each ∈ found) :
    minDist found ≤ each.distance := (foldl_widen found (100, 0)).1 each member

theorem minDist_le_start (found : List DMatch) : minDist found ≤ 100 :=
  (foldl_widen found (100, 0)).2.1

/-- The minimum is the start value or the nearest distance. -/
theorem minDist_eq {found : List DMatch} {best : DMatch} (nearest : Nearest found best) :
    minDist found = 100 ∨ minDist found = best.distance := by
  cases (foldl_widen found (100, 0)).2.2 with
  | inl start => exact .inl start
  | inr reached =>
      obtain ⟨each, member, same⟩ := reached
      have upper := minDist_le nearest.1
      have lower := nearest.2 each member
      have isEach : minDist found = each.distance := same
      exact .inr (le_antisymm upper (by rw [isEach]; exact lower))

theorem mem_goodMatches {found : List DMatch} {each : DMatch} :
    each ∈ goodMatches found ↔ each ∈ found ∧ each.distance < 3 * minDist found := by
  rw [goodMatches, List.mem_filter, decide_eq_true_iff]

/-! ## The nearest match -/

/-- The nearest match passes a strict test against three times the minimum when
its distance is not zero, and not three times the start value. -/
theorem nearest_kept_iff {found : List DMatch} {best : DMatch} (nearest : Nearest found best) :
    best ∈ goodMatches found ↔ 0 < best.distance ∧ best.distance < 300 := by
  have upper := minDist_le nearest.1
  have start := minDist_le_start found
  rw [mem_goodMatches]
  constructor
  · rintro ⟨-, kept⟩
    exact ⟨by linarith, by linarith⟩
  · rintro ⟨positive, small⟩
    refine ⟨nearest.1, ?_⟩
    cases minDist_eq nearest with
    | inl isStart =>
        rw [isStart]
        linarith
    | inr isNearest =>
        rw [isNearest]
        linarith

/-- The best match is a good match when the smallest distance is positive and
below three times the start value, and only then. -/
theorem keepsBest_iff (found : List DMatch) :
    KeepsBest found ↔
      ∀ best, Nearest found best → 0 < best.distance ∧ best.distance < 300 := by
  constructor
  · intro keeps best nearest
    exact (nearest_kept_iff nearest).mp (keeps.best best nearest)
  · intro between
    refine ⟨fun best nearest => (nearest_kept_iff nearest).mpr (between best nearest), ?_, ?_⟩
    · intro best nearest kept member
      have near := (mem_goodMatches.mp member).2
      have := minDist_le nearest.1
      linarith
    · intro zero four
      obtain ⟨first, rest, rfl⟩ := List.exists_cons_of_length_pos (show 0 < found.length by omega)
      have nearest : Nearest (first :: rest) first := by
        refine ⟨List.mem_cons_self, fun other member => ?_⟩
        rw [zero first List.mem_cons_self, zero other member]
      have positive := (between first nearest).1
      rw [zero first List.mem_cons_self] at positive
      exact absurd positive (lt_irrefl 0)

/-- Four descriptors of a picture, each found again in the same picture. -/
def ownMatches : List DMatch := [⟨0, 0, 0⟩, ⟨1, 1, 0⟩, ⟨2, 2, 0⟩, ⟨3, 3, 0⟩]

theorem ownMatches_rejected : Rejected ownMatches ∧ ¬ KeepsBest ownMatches := by
  have rejected : Rejected ownMatches := by decide +kernel
  refine ⟨rejected, fun keeps => keeps.copy ?_ (by decide) rejected⟩
  decide

end ImgMatch

end PaintingCPS
