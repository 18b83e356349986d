import Mathlib.Algebra.BigOperators.Group.List.Basic
import Mathlib.Algebra.GroupWithZero.Nat
import Mathlib.Data.List.Count

/-!
Contract: a list of threads, one of which moves.

A step of one thread replaces one element of the list. What holds of every
thread, and what the threads hold together, changes only by that element.

Owns: the rules for one moving thread, for a pool in which only one thread is
active, and for threads with different keys. Does not own: any particular
thread.
-/

set_option autoImplicit false

namespace PaintingCPS.Foundation

universe u v w x

section Pool

variable {Thread : Type u} {Item : Type v} {threads : List Thread} {index : Nat}

/-- What holds of all threads holds after one of them has moved. -/
theorem forall_mem_set {property : Thread → Prop} {moved : Thread}
    (all : ∀ thread ∈ threads, property thread) (new : property moved) :
    ∀ thread ∈ threads.set index moved, property thread := by
  intro thread member
  rcases List.mem_or_eq_of_mem_set member with old | rfl
  · exact all thread old
  · exact new

/-- The threads in front of the moving one and behind it stay. -/
theorem exists_split {thread : Thread} (there : threads[index]? = some thread) (moved : Thread) :
    ∃ before after, threads = before ++ thread :: after ∧
      threads.set index moved = before ++ moved :: after := by
  obtain ⟨within, rfl⟩ := List.getElem?_eq_some_iff.mp there
  obtain ⟨before, after, split, -, updated⟩ := @List.exists_of_set _ index moved threads within
  exact ⟨before, after, split, updated⟩

/-- What the threads hold together changes by what the moving thread holds. -/
theorem count_flatMap_set [BEq Item] (holds : Thread → List Item) {thread : Thread}
    (moved : Thread) (there : threads[index]? = some thread) (item : Item) :
    ((threads.set index moved).flatMap holds).count item + (holds thread).count item =
      (threads.flatMap holds).count item + (holds moved).count item := by
  obtain ⟨before, after, split, updated⟩ := exists_split there moved
  rw [updated, split]
  simp only [List.flatMap_append, List.flatMap_cons, List.count_append]
  omega

/-- The thread at `index` has moved, and no other one. -/
theorem getElem?_set_there {thread : Thread} (moved : Thread)
    (there : threads[index]? = some thread) (other : Nat) :
    (threads.set index moved)[other]? = if other = index then some moved else threads[other]? := by
  obtain ⟨within, -⟩ := List.getElem?_eq_some_iff.mp there
  by_cases same : other = index
  · subst same
    rw [if_pos rfl, List.getElem?_set_self within]
  · rw [if_neg same, List.getElem?_set_ne (Ne.symm same)]

/-- A thread that moves to where it is changes nothing. -/
theorem set_same {thread : Thread} (there : threads[index]? = some thread) :
    threads.set index thread = threads := by
  obtain ⟨within, rfl⟩ := List.getElem?_eq_some_iff.mp there
  exact List.set_getElem_self within

/-- A thread that looks the same leaves what is seen of all threads alone. -/
theorem filterMap_set_same {view : Thread → Option Item} {thread moved : Thread}
    (there : threads[index]? = some thread) (same : view moved = view thread) :
    (threads.set index moved).filterMap view = threads.filterMap view := by
  obtain ⟨before, after, split, updated⟩ := exists_split there moved
  rw [updated, split, List.filterMap_append, List.filterMap_append, List.filterMap_cons,
    List.filterMap_cons, same]

/-- What is seen of all threads changes where the moving one is seen. -/
theorem filterMap_set_there {view : Thread → Option Item} {thread moved : Thread}
    {seen shown : Item} (there : threads[index]? = some thread) (sees : view thread = some seen)
    (shows : view moved = some shown) :
    ∃ place, (threads.filterMap view)[place]? = some seen ∧
      (threads.set index moved).filterMap view = (threads.filterMap view).set place shown := by
  obtain ⟨before, after, split, updated⟩ := exists_split there moved
  refine ⟨(before.filterMap view).length, ?_, ?_⟩
  · rw [split, List.filterMap_append, List.filterMap_cons, sees,
      List.getElem?_append_right (Nat.le_refl _), Nat.sub_self]
    rfl
  · rw [updated, split, List.filterMap_append, List.filterMap_append, List.filterMap_cons,
      List.filterMap_cons, sees, shows, List.set_append_right _ _ (Nat.le_refl _), Nat.sub_self]
    rfl

/-- The weight of all threads changes by the weight of the moving one. -/
theorem sum_map_set (weight : Thread → Nat) {thread : Thread} (moved : Thread)
    (there : threads[index]? = some thread) :
    ((threads.set index moved).map weight).sum + weight thread =
      (threads.map weight).sum + weight moved := by
  obtain ⟨before, after, split, updated⟩ := exists_split there moved
  rw [updated, split, List.map_append, List.map_append, List.map_cons, List.map_cons,
    List.sum_append_nat, List.sum_append_nat, List.sum_cons, List.sum_cons]
  omega

/-- So does the number of threads of one kind. -/
theorem countP_set_there (kind : Thread → Bool) {thread : Thread} (moved : Thread)
    (there : threads[index]? = some thread) :
    (threads.set index moved).countP kind + (if kind thread then 1 else 0) =
      threads.countP kind + (if kind moved then 1 else 0) := by
  have counted : ∀ list : List Thread,
      list.countP kind = (list.map fun one => if kind one then 1 else 0).sum := by
    intro list
    induction list with
    | nil => rfl
    | cons head tail inductionHypothesis =>
        rw [List.countP_cons, List.map_cons, List.sum_cons, inductionHypothesis, Nat.add_comm]
  rw [counted, counted]
  exact sum_map_set _ moved there

section Alone

variable {active : Thread → Bool} {holds : Thread → List Item}

/-- Without active threads nothing is held. -/
theorem flatMap_of_idle (idle : ∀ thread, active thread = false → holds thread = [])
    (none' : threads.countP active = 0) : threads.flatMap holds = [] := by
  rw [List.flatMap_eq_nil_iff]
  intro thread member
  apply idle
  simpa using List.countP_eq_zero.mp none' thread member

/-- When the only active thread moves, what is held is what it holds. -/
theorem flatMap_set_alone (idle : ∀ thread, active thread = false → holds thread = [])
    {thread : Thread} (moved : Thread) (there : threads[index]? = some thread)
    (isActive : active thread = true) (alone : threads.countP active ≤ 1) :
    threads.flatMap holds = holds thread ∧
      (threads.set index moved).flatMap holds = holds moved ∧
      (threads.set index moved).countP active = if active moved then 1 else 0 := by
  obtain ⟨before, after, split, updated⟩ := exists_split there moved
  rw [split, List.countP_append, List.countP_cons, if_pos isActive] at alone
  have noneBefore : before.flatMap holds = [] := flatMap_of_idle idle (by omega)
  have noneAfter : after.flatMap holds = [] := flatMap_of_idle idle (by omega)
  refine ⟨?_, ?_, ?_⟩
  · rw [split, List.flatMap_append, List.flatMap_cons, noneBefore, noneAfter, List.nil_append,
      List.append_nil]
  · rw [updated, List.flatMap_append, List.flatMap_cons, noneBefore, noneAfter, List.nil_append,
      List.append_nil]
  · rw [updated, List.countP_append, List.countP_cons]
    split <;> omega

end Alone

/-! ## Keys -/

section Keys

variable {Key : Type w} {View : Type x} {key : Thread → Option Key} {view : Thread → Option View}

/-- No two threads have the same key. -/
def KeysApart (key : Thread → Option Key) (threads : List Thread) : Prop :=
  ∀ (first second : Nat) (one other : Thread) (name : Key), threads[first]? = some one →
    threads[second]? = some other → key one = some name → key other = some name → first = second

theorem keysApart_nil : KeysApart key [] := by
  intro first second one other name there
  rw [List.getElem?_nil] at there
  cases there

/-- The moving thread keeps its key, gives it up, or takes one that is free. -/
theorem KeysApart.set (apart : KeysApart key threads) {thread moved : Thread}
    (there : threads[index]? = some thread)
    (kept : ∀ name, key moved = some name →
      key thread = some name ∨ ∀ other ∈ threads, key other ≠ some name) :
    KeysApart key (threads.set index moved) := by
  have alone : ∀ (second : Nat) (other : Thread) (name : Key), second ≠ index →
      threads[second]? = some other →
      key other = some name → key moved ≠ some name := by
    intro second other name different found named own
    rcases kept name own with before | free
    · exact different (apart second index other thread name found there named before)
    · exact free other (List.mem_of_getElem? found) named
  intro first second one other name foundOne foundOther namedOne namedOther
  rw [getElem?_set_there moved there] at foundOne foundOther
  by_cases here : first = index <;> by_cases also : second = index
  · rw [here, also]
  · rw [if_pos here] at foundOne
    rw [if_neg also] at foundOther
    cases foundOne
    exact absurd namedOne (alone second other name also foundOther namedOther)
  · rw [if_neg here] at foundOne
    rw [if_pos also] at foundOther
    cases foundOther
    exact absurd namedOther (alone first one name here foundOne namedOne)
  · rw [if_neg here] at foundOne
    rw [if_neg also] at foundOther
    exact apart first second one other name foundOne foundOther namedOne namedOther

/-- A new thread has no key yet. -/
theorem KeysApart.append (apart : KeysApart key threads) {thread : Thread}
    (unnamed : key thread = none) : KeysApart key (threads ++ [thread]) := by
  have within : ∀ (place : Nat) (other : Thread) (name : Key),
      (threads ++ [thread])[place]? = some other →
      key other = some name → threads[place]? = some other := by
    intro place other name found named
    by_cases early : place < threads.length
    · rw [List.getElem?_append_left early] at found
      exact found
    · have last := List.mem_of_getElem? found
      rw [List.getElem?_append_right (by omega)] at found
      rw [List.mem_singleton.mp (List.mem_of_getElem? found), unnamed] at named
      cases named
  intro first second one other name foundOne foundOther namedOne namedOther
  exact apart first second one other name (within first one name foundOne namedOne)
    (within second other name foundOther namedOther) namedOne namedOther

/-- What is seen of the only thread that can be seen. -/
theorem KeysApart.findSome? (apart : KeysApart key threads) {name : Key}
    (names : ∀ thread seen, view thread = some seen → key thread = some name)
    {thread : Thread} (there : threads[index]? = some thread) {seen : View}
    (here : view thread = some seen) : threads.findSome? view = some seen := by
  cases found : threads.findSome? view with
  | none =>
      have nothing := List.findSome?_eq_none_iff.mp found thread (List.mem_of_getElem? there)
      rw [here] at nothing
      cases nothing
  | some other =>
      obtain ⟨candidate, member, sees⟩ := List.exists_of_findSome?_eq_some found
      obtain ⟨place, at'⟩ := List.mem_iff_getElem?.mp member
      obtain rfl := apart place index candidate thread name at' there (names _ _ sees)
        (names _ _ here)
      rw [there] at at'
      cases at'
      rw [here] at sees
      exact sees.symm

/-- Where no other thread can be seen, only the moving one is. -/
theorem findSome?_set_alone {thread : Thread} (there : threads[index]? = some thread)
    (moved : Thread)
    (others : ∀ (place : Nat) (other : Thread), place ≠ index → threads[place]? = some other →
      view other = none) : (threads.set index moved).findSome? view = view moved := by
  cases found : (threads.set index moved).findSome? view with
  | none =>
      have here : (threads.set index moved)[index]? = some moved := by
        rw [getElem?_set_there moved there, if_pos rfl]
      exact (List.findSome?_eq_none_iff.mp found moved (List.mem_of_getElem? here)).symm
  | some other =>
      obtain ⟨candidate, member, sees⟩ := List.exists_of_findSome?_eq_some found
      obtain ⟨place, at'⟩ := List.mem_iff_getElem?.mp member
      rw [getElem?_set_there moved there] at at'
      by_cases same : place = index
      · rw [if_pos same] at at'
        cases at'
        exact sees.symm
      · rw [if_neg same] at at'
        rw [others place candidate same at'] at sees
        cases sees

/-- The view of a thread that is seen changes with it. -/
theorem KeysApart.findSome?_set (apart : KeysApart key threads) {name : Key}
    (names : ∀ thread seen, view thread = some seen → key thread = some name)
    {thread : Thread} (there : threads[index]? = some thread) (seen : view thread ≠ none)
    (moved : Thread) : (threads.set index moved).findSome? view = view moved := by
  apply findSome?_set_alone there
  intro place other different found
  by_contra visible
  obtain ⟨one, isOne⟩ := Option.ne_none_iff_exists'.mp visible
  obtain ⟨two, isTwo⟩ := Option.ne_none_iff_exists'.mp seen
  exact different (apart place index other thread name found there (names _ _ isOne)
    (names _ _ isTwo))

/-- Somebody comes where nobody was seen. -/
theorem findSome?_set_new (nobody : threads.findSome? view = none) {thread : Thread}
    (there : threads[index]? = some thread) (moved : Thread) :
    (threads.set index moved).findSome? view = view moved := by
  apply findSome?_set_alone there
  intro place other _ found
  exact List.findSome?_eq_none_iff.mp nobody other (List.mem_of_getElem? found)

/-- The moving thread looks the same. -/
theorem findSome?_set_same {thread moved : Thread} (there : threads[index]? = some thread)
    (same : view moved = view thread) :
    (threads.set index moved).findSome? view = threads.findSome? view := by
  obtain ⟨before, after, split, updated⟩ := exists_split there moved
  rw [updated, split, List.findSome?_append, List.findSome?_append, List.findSome?_cons,
    List.findSome?_cons, same]

end Keys

end Pool

end PaintingCPS.Foundation
