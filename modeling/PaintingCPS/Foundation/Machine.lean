import Mathlib.Logic.Function.Basic
import Mathlib.Data.Option.Basic

/-!
Contract: transition systems whose every choice is resolved by a label.

A scheduler is a list of labels: which thread moves, what an uninitialised
byte holds, how many bytes one read returns. A `Machine` is executable, so a
concrete schedule is evaluated; a `Transition` is any labelled relation. The
reachability predicates quantify over all schedules.

Owns: guarded reachability, the invariant rule, execution of a concrete
schedule, and forward simulation between two transition systems.

Does not own: any particular program.
-/

set_option autoImplicit false

namespace PaintingCPS.Foundation

universe u v w x

/-- A labelled transition relation. -/
abbrev Transition (State : Type u) (Label : Type v) := State → Label → State → Prop

/-- States reached from `start` by steps that all satisfy `guard` in the state
they leave. -/
inductive ReachesUnder {State : Type u} {Label : Type v} (transition : Transition State Label)
    (guard : State → Label → Prop) (start : State) : State → Prop
  | refl : ReachesUnder transition guard start start
  | tail {state after : State} {label : Label} :
      ReachesUnder transition guard start state →
      guard state label →
      transition state label after →
      ReachesUnder transition guard start after

section Rules

variable {State : Type u} {Label : Type v}
variable {transition : Transition State Label} {guard : State → Label → Prop}
variable {start : State}

/-- The invariant rule: what holds at the start and is kept by every guarded
step holds in every state reached. -/
theorem ReachesUnder.invariant {finish : State} {invariant : State → Prop}
    (reached : ReachesUnder transition guard start finish) (base : invariant start)
    (preserved : ∀ {state after : State} {label : Label},
      invariant state → guard state label → transition state label after → invariant after) :
    invariant finish := by
  induction reached with
  | refl => exact base
  | tail _ allowed step inductionHypothesis =>
      exact preserved inductionHypothesis allowed step

/-- A weaker guard reaches at least as much. -/
theorem ReachesUnder.mono {weaker : State → Label → Prop} {finish : State}
    (reached : ReachesUnder transition guard start finish)
    (weakens : ∀ state label, guard state label → weaker state label) :
    ReachesUnder transition weaker start finish := by
  induction reached with
  | refl => exact .refl
  | tail _ allowed step inductionHypothesis =>
      exact .tail inductionHypothesis (weakens _ _ allowed) step

theorem ReachesUnder.trans {middle finish : State}
    (first : ReachesUnder transition guard start middle)
    (second : ReachesUnder transition guard middle finish) :
    ReachesUnder transition guard start finish := by
  induction second with
  | refl => exact first
  | tail _ allowed step inductionHypothesis =>
      exact .tail inductionHypothesis allowed step

end Rules

section Simulation

variable {State : Type u} {Label : Type v} {Abstract : Type w} {AbstractLabel : Type x}

/-- Forward simulation: every guarded concrete step is matched by one guarded
abstract step or by none. -/
structure Simulation (concrete : Transition State Label)
    (abstract : Transition Abstract AbstractLabel)
    (guard : State → Label → Prop)
    (abstractGuard : Abstract → AbstractLabel → Prop)
    (related : State → Abstract → Prop) : Prop where
  matched : ∀ {state after : State} {label : Label} {image : Abstract},
    related state image → guard state label → concrete state label after →
      related after image ∨
        ∃ abstractLabel imageAfter, abstractGuard image abstractLabel ∧
          abstract image abstractLabel imageAfter ∧ related after imageAfter

/-- A simulation transports reachability. -/
theorem Simulation.reaches {concrete : Transition State Label}
    {abstract : Transition Abstract AbstractLabel}
    {guard : State → Label → Prop}
    {abstractGuard : Abstract → AbstractLabel → Prop}
    {related : State → Abstract → Prop}
    (simulation : Simulation concrete abstract guard abstractGuard related)
    {start finish : State} {image : Abstract} (startRelated : related start image)
    (reached : ReachesUnder concrete guard start finish) :
    ∃ imageFinish, related finish imageFinish ∧
      ReachesUnder abstract abstractGuard image imageFinish := by
  induction reached with
  | refl => exact ⟨image, startRelated, .refl⟩
  | tail _ allowed step inductionHypothesis =>
      obtain ⟨middle, middleRelated, middleReached⟩ := inductionHypothesis
      rcases simulation.matched middleRelated allowed step with
        stutter | ⟨abstractLabel, imageAfter, abstractAllowed, abstractStep, afterRelated⟩
      · exact ⟨middle, stutter, middleReached⟩
      · exact ⟨imageAfter, afterRelated,
          middleReached.tail abstractAllowed abstractStep⟩

end Simulation

/-! ## Executable machines -/

/-- A labelled machine. `none` means that the label is not enabled. -/
structure Machine (State : Type u) (Label : Type v) where
  next : State → Label → Option State

namespace Machine

variable {State : Type u} {Label : Type v}

/-- The transition relation of a machine. -/
abbrev transition (machine : Machine State Label) : Transition State Label :=
  fun state label after => machine.next state label = some after

/-- States that a machine reaches under a guard. -/
abbrev ReachesUnder (machine : Machine State Label) (guard : State → Label → Prop)
    (start finish : State) : Prop :=
  Foundation.ReachesUnder machine.transition guard start finish

/-- States reached by an arbitrary schedule. -/
abbrev Reaches (machine : Machine State Label) (start finish : State) : Prop :=
  machine.ReachesUnder (fun _ _ => True) start finish

/-- Execute one schedule; `none` when a label is not enabled or violates the
guard. -/
def run (machine : Machine State Label) (guard : State → Label → Prop)
    [∀ state label, Decidable (guard state label)] : State → List Label → Option State
  | start, [] => some start
  | start, label :: rest =>
      if guard start label then
        (machine.next start label).bind fun middle => machine.run guard middle rest
      else none

/-- An executed schedule reaches its last state. -/
theorem reachesUnder_of_run {machine : Machine State Label} {guard : State → Label → Prop}
    [∀ state label, Decidable (guard state label)] {start finish : State} {labels : List Label}
    (executed : machine.run guard start labels = some finish) :
    machine.ReachesUnder guard start finish := by
  induction labels generalizing start with
  | nil =>
      cases executed
      exact .refl
  | cons label rest inductionHypothesis =>
      rw [run] at executed
      split at executed
      next allowed =>
        obtain ⟨middle, step, remaining⟩ := Option.bind_eq_some_iff.mp executed
        exact (ReachesUnder.refl.tail allowed step).trans (inductionHypothesis remaining)
      next => cases executed

/-- What an executed schedule shows about its last state. -/
theorem exists_of_run {machine : Machine State Label} {guard : State → Label → Prop}
    [∀ state label, Decidable (guard state label)] {start : State} {labels : List Label}
    {property : State → Bool}
    (executed : ((machine.run guard start labels).map property) = some true) :
    ∃ finish, machine.ReachesUnder guard start finish ∧ property finish = true := by
  obtain ⟨finish, reached, holds⟩ := Option.map_eq_some_iff.mp executed
  exact ⟨finish, reachesUnder_of_run reached, holds⟩

end Machine

end PaintingCPS.Foundation
