import Mathlib.Data.List.Count
import Mathlib.Data.List.Dedup
import Mathlib.Data.List.Induction
import Mathlib.Data.List.Nodup

/-!
Contract: plurality over a list of ballots, with ties broken by the order in
which candidates first appear.

A program that counts in one pass keeps a list of candidates in the order of
their first ballots; a second pass that keeps the last candidate with the
highest count breaks ties in favour of the candidate seen last.

Owns: the order of first ballots, the elected candidate, and the rules for the
two scans that find it.

Does not own: where the ballots come from.
-/

set_option autoImplicit false

namespace PaintingCPS.Foundation

universe u v

section Candidates

variable {α : Type u} [DecidableEq α]

/-- The candidates in the order of their first ballots. -/
def candidates (ballots : List α) : List α := ballots.reverse.dedup.reverse

@[simp] theorem candidates_nil : candidates ([] : List α) = [] := rfl

/-- A ballot for a known candidate adds no candidate. -/
theorem candidates_concat_of_mem {ballots : List α} {ballot : α} (known : ballot ∈ ballots) :
    candidates (ballots ++ [ballot]) = candidates ballots := by
  rw [candidates, List.reverse_append, List.reverse_singleton, List.singleton_append,
    List.dedup_cons_of_mem (List.mem_reverse.mpr known), candidates]

/-- A ballot for a new candidate puts it behind all others. -/
theorem candidates_concat_of_notMem {ballots : List α} {ballot : α} (new : ballot ∉ ballots) :
    candidates (ballots ++ [ballot]) = candidates ballots ++ [ballot] := by
  rw [candidates, List.reverse_append, List.reverse_singleton, List.singleton_append,
    List.dedup_cons_of_notMem (fun member => new (List.mem_reverse.mp member)),
    List.reverse_cons, candidates]

@[simp] theorem mem_candidates {ballots : List α} {candidate : α} :
    candidate ∈ candidates ballots ↔ candidate ∈ ballots := by
  rw [candidates, List.mem_reverse, List.mem_dedup, List.mem_reverse]

theorem nodup_candidates (ballots : List α) : (candidates ballots).Nodup :=
  List.nodup_reverse.mpr (List.nodup_dedup _)

/-- Candidates stand in the order of their first ballots. -/
theorem candidates_pairwise (ballots : List α) :
    (candidates ballots).Pairwise fun earlier later =>
      ballots.idxOf earlier < ballots.idxOf later := by
  induction ballots using List.reverseRecOn with
  | nil => exact List.Pairwise.nil
  | append_singleton ballots ballot inductionHypothesis =>
      have kept : (candidates ballots).Pairwise fun earlier later =>
          (ballots ++ [ballot]).idxOf earlier < (ballots ++ [ballot]).idxOf later := by
        apply inductionHypothesis.imp_of_mem
        intro earlier later earlierMember laterMember ordered
        rw [List.idxOf_append_of_mem (mem_candidates.mp earlierMember),
          List.idxOf_append_of_mem (mem_candidates.mp laterMember)]
        exact ordered
      by_cases known : ballot ∈ ballots
      · rw [candidates_concat_of_mem known]
        exact kept
      · rw [candidates_concat_of_notMem known]
        apply List.pairwise_append.mpr
        refine ⟨kept, List.pairwise_singleton _ _, ?_⟩
        intro earlier earlierMember later laterMember
        rw [List.mem_singleton.mp laterMember,
          List.idxOf_append_of_mem (mem_candidates.mp earlierMember),
          List.idxOf_append_of_notMem known]
        have := List.idxOf_lt_length_of_mem (mem_candidates.mp earlierMember)
        omega

/-- The candidate with the most ballots; of several, the one whose first ballot
came last. -/
def Elected (ballots : List α) (winner : α) : Prop :=
  winner ∈ ballots ∧ ∀ other ∈ ballots, other ≠ winner →
    ballots.count other < ballots.count winner ∨
      (ballots.count other = ballots.count winner ∧
        ballots.idxOf other < ballots.idxOf winner)

theorem Elected.unique {ballots : List α} {first second : α} (firstWins : Elected ballots first)
    (secondWins : Elected ballots second) : first = second := by
  by_contra differs
  have firstBehind := secondWins.2 first firstWins.1 differs
  have secondBehind := firstWins.2 second secondWins.1 (Ne.symm differs)
  omega

/-- One ballot elects its candidate. -/
theorem elected_singleton (candidate : α) : Elected [candidate] candidate := by
  refine ⟨List.mem_singleton_self candidate, ?_⟩
  intro other member differs
  exact absurd (List.mem_singleton.mp member) differs

end Candidates

/-! ## Scans -/

section Scans

variable {α : Type u} {β : Type v}

/-- A scan that raises a running maximum. -/
def scanMax (score : α → Nat) (start : Nat) (list : List α) : Nat :=
  list.foldl (fun best item => if score item > best then score item else best) start

theorem le_scanMax (score : α → Nat) (start : Nat) (list : List α) :
    start ≤ scanMax score start list ∧ ∀ item ∈ list, score item ≤ scanMax score start list := by
  induction list generalizing start with
  | nil => exact ⟨Nat.le_refl _, fun item member => absurd member (List.not_mem_nil)⟩
  | cons head tail inductionHypothesis =>
      have raised : start ≤ (if score head > start then score head else start) ∧
          score head ≤ (if score head > start then score head else start) := by
        split <;> omega
      obtain ⟨aboveNext, aboveTail⟩ :=
        inductionHypothesis (if score head > start then score head else start)
      refine ⟨Nat.le_trans raised.1 aboveNext, ?_⟩
      intro item member
      cases List.mem_cons.mp member with
      | inl isHead =>
          rw [isHead]
          exact Nat.le_trans raised.2 aboveNext
      | inr inTail => exact aboveTail item inTail

/-- The maximum is the start or the score of an item. -/
theorem scanMax_attained (score : α → Nat) (start : Nat) (list : List α) :
    scanMax score start list = start ∨ ∃ item ∈ list, scanMax score start list = score item := by
  induction list generalizing start with
  | nil => exact .inl rfl
  | cons head tail inductionHypothesis =>
      rw [scanMax, List.foldl_cons, ← scanMax]
      cases inductionHypothesis (if score head > start then score head else start) with
      | inl same =>
          rw [same]
          split
          · exact .inr ⟨head, List.mem_cons_self, rfl⟩
          · exact .inl rfl
      | inr attained =>
          obtain ⟨item, member, same⟩ := attained
          exact .inr ⟨item, List.mem_cons_of_mem _ member, same⟩

/-- A scan that remembers the last item with a property. -/
def scanLast (hit : α → Prop) [DecidablePred hit] (value : α → β) (start : β)
    (list : List α) : β :=
  list.foldl (fun found item => if hit item then value item else found) start

variable {hit : α → Prop} [DecidablePred hit] {value : α → β}

theorem scanLast_of_none {start : β} {list : List α} (misses : ∀ item ∈ list, ¬ hit item) :
    scanLast hit value start list = start := by
  induction list generalizing start with
  | nil => rfl
  | cons head tail inductionHypothesis =>
      rw [scanLast, List.foldl_cons, if_neg (misses head List.mem_cons_self)]
      exact inductionHypothesis fun item member => misses item (List.mem_cons_of_mem _ member)

/-- The last hit decides. -/
theorem scanLast_of_last {start : β} {before after : List α} {item : α} (isHit : hit item)
    (misses : ∀ other ∈ after, ¬ hit other) :
    scanLast hit value start (before ++ item :: after) = value item := by
  rw [scanLast, List.foldl_append, List.foldl_cons, if_pos isHit]
  exact scanLast_of_none misses

/-- A list with a hit has a last one. -/
theorem exists_last_hit {list : List α} (found : ∃ item ∈ list, hit item) :
    ∃ before item after, list = before ++ item :: after ∧ hit item ∧
      ∀ other ∈ after, ¬ hit other := by
  induction list with
  | nil => exact absurd found (by simp)
  | cons head tail inductionHypothesis =>
      by_cases later : ∃ item ∈ tail, hit item
      · obtain ⟨before, item, after, shape, isHit, misses⟩ := inductionHypothesis later
        exact ⟨head :: before, item, after, by rw [shape]; rfl, isHit, misses⟩
      · obtain ⟨item, member, isHit⟩ := found
        cases List.mem_cons.mp member with
        | inl isHead =>
            rw [isHead] at isHit
            exact ⟨[], head, tail, rfl, isHit,
              fun other otherMember otherHit => later ⟨other, otherMember, otherHit⟩⟩
        | inr inTail => exact absurd ⟨item, inTail, isHit⟩ later

end Scans

/-! ## The scans elect -/

section Election

variable {α : Type u} [DecidableEq α]

/-- The highest count among the candidates, at least 1. -/
def highestCount (ballots : List α) : Nat :=
  scanMax (fun candidate => ballots.count candidate) 1 (candidates ballots)

theorem count_le_highestCount {ballots : List α} {candidate : α} (member : candidate ∈ ballots) :
    ballots.count candidate ≤ highestCount ballots :=
  (le_scanMax (fun candidate => ballots.count candidate) 1 _).2 candidate
    (mem_candidates.mpr member)

/-- With a ballot, some candidate reaches the highest count. -/
theorem highestCount_attained {ballots : List α} (nonempty : ballots ≠ []) :
    ∃ candidate ∈ candidates ballots, ballots.count candidate = highestCount ballots := by
  cases scanMax_attained (fun candidate => ballots.count candidate) 1 (candidates ballots) with
  | inl one =>
      obtain ⟨first, rest, rfl⟩ := List.exists_cons_of_ne_nil nonempty
      have member : first ∈ first :: rest := List.mem_cons_self
      have atMost := count_le_highestCount member
      have positive := List.count_pos_iff.mpr member
      have isOne : highestCount (first :: rest) = 1 := one
      exact ⟨first, mem_candidates.mpr member, by omega⟩
  | inr attained =>
      obtain ⟨candidate, member, same⟩ := attained
      exact ⟨candidate, member, same.symm⟩

/-- The last candidate with the highest count is the elected one. -/
theorem elected_scanLast {ballots : List α} (nonempty : ballots ≠ []) (start : α) :
    ∃ winner, Elected ballots winner ∧ ballots.count winner = highestCount ballots ∧
      scanLast (fun candidate => ballots.count candidate = highestCount ballots) id start
        (candidates ballots) = winner := by
  obtain ⟨before, winner, after, shape, isHit, misses⟩ :=
    exists_last_hit (highestCount_attained nonempty)
  have inBallots : ∀ candidate, candidate ∈ before ++ winner :: after ↔ candidate ∈ ballots := by
    intro candidate
    rw [← shape, mem_candidates]
  refine ⟨winner, ⟨(inBallots winner).mp (by simp), ?_⟩, isHit, ?_⟩
  · intro other member differs
    have atMost := count_le_highestCount member
    by_cases ties : ballots.count other = highestCount ballots
    · -- a tie stands before the last hit, so its first ballot is earlier
      have isBefore : other ∈ before := by
        cases List.mem_append.mp ((inBallots other).mpr member) with
        | inl earlier => exact earlier
        | inr later =>
            cases List.mem_cons.mp later with
            | inl same => exact absurd same differs
            | inr behind => exact absurd ties (misses other behind)
      have ordered := candidates_pairwise ballots
      rw [shape, List.pairwise_append] at ordered
      exact .inr ⟨by omega, ordered.2.2 other isBefore winner List.mem_cons_self⟩
    · exact .inl (by omega)
  · rw [shape]
    exact scanLast_of_last isHit misses

end Election

end PaintingCPS.Foundation
