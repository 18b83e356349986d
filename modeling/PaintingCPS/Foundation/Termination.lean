import PaintingCPS.Foundation.Machine

/-!
Contract: runs that cannot go on forever.

When every guarded step makes a measure smaller, a run has at most as many
steps as the measure says, and every state leads to one where no guarded step
is left.

Owns: runs with a number of steps, the bound, and the last state.

Does not own: the measure, and what holds in the last state.
-/

set_option autoImplicit false

namespace PaintingCPS.Foundation

universe u v

/-- States reached by exactly so many guarded steps. -/
inductive ReachesIn {State : Type u} {Label : Type v} (transition : Transition State Label)
    (guard : State → Label → Prop) (start : State) : Nat → State → Prop
  | refl : ReachesIn transition guard start 0 start
  | tail {steps : Nat} {state after : State} {label : Label} :
      ReachesIn transition guard start steps state →
      guard state label →
      transition state label after →
      ReachesIn transition guard start (steps + 1) after

/-- No guarded step is left. -/
def Exhausted {State : Type u} {Label : Type v} (transition : Transition State Label)
    (guard : State → Label → Prop) (state : State) : Prop :=
  ∀ label after, guard state label → ¬ transition state label after

section Rules

variable {State : Type u} {Label : Type v}
variable {transition : Transition State Label} {guard : State → Label → Prop}
variable {start : State}

theorem ReachesIn.reaches {steps : Nat} {finish : State}
    (reached : ReachesIn transition guard start steps finish) :
    ReachesUnder transition guard start finish := by
  induction reached with
  | refl => exact .refl
  | tail _ allowed step inductionHypothesis => exact .tail inductionHypothesis allowed step

/-- A measure that an invariant keeps and every guarded step makes smaller. -/
structure Decreasing (transition : Transition State Label) (guard : State → Label → Prop)
    (invariant : State → Prop) (measure : State → Nat) : Prop where
  preserved : ∀ {state after : State} {label : Label},
    invariant state → guard state label → transition state label after → invariant after
  decreases : ∀ {state after : State} {label : Label},
    invariant state → guard state label → transition state label after →
    measure after < measure state

variable {invariant : State → Prop} {measure : State → Nat}

/-- Steps taken and steps left are no more than there were at the start. -/
theorem Decreasing.bounded (decreasing : Decreasing transition guard invariant measure)
    (base : invariant start) {steps : Nat} {finish : State}
    (reached : ReachesIn transition guard start steps finish) :
    steps + measure finish ≤ measure start := by
  induction reached with
  | refl => exact Nat.le_of_eq (Nat.zero_add _)
  | @tail steps state after label before allowed step inductionHypothesis =>
      have holds := before.reaches.invariant base decreasing.preserved
      have less := decreasing.decreases holds allowed step
      omega

/-- Some run leads to the end. -/
theorem Decreasing.exists_exhausted (decreasing : Decreasing transition guard invariant measure)
    (base : invariant start) :
    ∃ finish, ReachesUnder transition guard start finish ∧
      Exhausted transition guard finish := by
  generalize bound : measure start = count
  induction count using Nat.strongRecOn generalizing start with
  | ind count inductionHypothesis =>
      by_cases over' : Exhausted transition guard start
      · exact ⟨start, .refl, over'⟩
      · simp only [Exhausted, not_forall, not_not] at over'
        obtain ⟨label, after, allowed, step⟩ := over'
        obtain ⟨finish, reached, exhausted⟩ :=
          inductionHypothesis _ (bound ▸ decreasing.decreases base allowed step)
            (decreasing.preserved base allowed step) rfl
        exact ⟨finish, (ReachesUnder.refl.tail allowed step).trans reached, exhausted⟩

end Rules

end PaintingCPS.Foundation
