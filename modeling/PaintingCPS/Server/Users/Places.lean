import PaintingCPS.Server.Isolation.Child
import PaintingCPS.Server.Isolation.Leaving
import PaintingCPS.Server.Isolation.Sender

/-!
Contract: where the threads of a process come from, without a login.

A thread stays at its place in the list, and a new one is a connection or the
child of a `server_result`. So a session goes on whoever moves.

Owns: the origin of every thread, and the step lemma of a session.

Does not own: logins.
-/

set_option autoImplicit false

namespace PaintingCPS

open Foundation

namespace Process

/-- Where a thread comes from when nobody logs in. -/
inductive Origin (process : Process) (place : Nat) : Thread → Prop
  | stays {thread : Thread} (there : process.threads[place]? = some thread) :
      Origin process place thread
  | transmit {before after : TransmitThread}
      (there : process.threads[place]? = some (.transmit before)) (same : after.user = before.user)
      (live : before.ended = false) : Origin process place (.transmit after)
  | result {before : ResultThread} (there : process.threads[place]? = some (.result before))
      (after : ResultThread) : Origin process place (.result after)
  | worker {owner : Nat} {before : WorkerAt}
      (there : process.threads[place]? = some (.worker ⟨owner, before⟩)) (after : WorkerAt) :
      Origin process place (.worker ⟨owner, after⟩)
  | created {owner : Nat} {thread : ResultThread}
      (there : process.threads[owner]? = some (.result thread)) :
      Origin process place (.worker ⟨owner, .created⟩)
  | connection (sock : Int) : Origin process place (.connection sock)

/-- Every child was created by a `server_result`. -/
def Owned (process : Process) : Prop := ∀ (index : Nat) (child : Worker),
  process.threads[index]? = some (.worker child) →
    ∃ thread, process.threads[child.owner]? = some (.result thread)

section Places

variable {config : Config} {process after : Process} {label : ProcessStep} {index : Nat}

private theorem origin_append {threads : List Thread} {new : Thread} {place : Nat}
    {thread : Thread} (origin : threads[place]? = some thread → Origin process place thread)
    (last : Origin process place new) (there : (threads ++ [new])[place]? = some thread) :
    Origin process place thread := by
  by_cases early : place < threads.length
  · rw [List.getElem?_append_left early] at there
    exact origin there
  · rw [List.getElem?_append_right (Nat.le_of_not_lt early)] at there
    rw [List.mem_singleton.mp (List.mem_of_getElem? there)]
    exact last

private theorem origin_set {thread moved seen : Thread} {place : Nat}
    (there : process.threads[index]? = some thread)
    (found : (process.threads.set index moved)[place]? = some seen)
    (origin : Origin process index moved) : Origin process place seen := by
  rw [getElem?_set_there moved there] at found
  split at found
  next here =>
    cases found
    rw [here]
    exact origin
  next => exact .stays found

/-- Nobody takes the place of another thread. -/
theorem Moves.origin (moves : Moves config process label after)
    (noLogin : ∀ index bytes, label ≠ .header index bytes) {place : Nat} {thread : Thread}
    (found : after.threads[place]? = some thread) : Origin process place thread := by
  cases moves with
  | accept sock => exact origin_append .stays (.connection sock) found
  | turnedAway there => exact absurd rfl (noLogin _ _)
  | admitted there parsed login => exact absurd rfl (noLogin _ _)
  | event there idle stepped =>
      exact origin_set there found (.transmit there rfl (running_of_step stepped))
  | quiet there next | register there next | submit there next | push there next
  | lookup there next | post there next | discard there next =>
      exact origin_set there found (.transmit there rfl (running_of_pending next))
  | spawn there stands =>
      exact origin_append (fun old => origin_set there old (.result there _)) (.created there) found
  | look there | start there | wait there | eraseSem there | eraseQueue there | eraseUser there
  | deleteSem there | deleteQueue there | grab there | take there | spawnFailed there
  | finish there | stop there => exact origin_set there found (.result there _)
  | advance there | unwritten there | finished there | released there =>
      exact origin_set there found (.worker there _)

private theorem result_of_set {thread moved : Thread} {place : Nat} {seen : ResultThread}
    (there : process.threads[index]? = some thread)
    (same : ∀ one, thread = .result one → ∃ two, moved = .result two)
    (found : process.threads[place]? = some (.result seen)) :
    ∃ shown, (process.threads.set index moved)[place]? = some (.result shown) := by
  rw [getElem?_set_there moved there]
  split
  next here =>
    rw [here, there, Option.some.injEq] at found
    obtain ⟨two, rfl⟩ := same seen found
    exact ⟨two, rfl⟩
  next => exact ⟨seen, found⟩

private theorem result_of_append {threads more : List Thread} {place : Nat}
    (found : ∃ shown, threads[place]? = some (.result shown)) :
    ∃ shown, (threads ++ more)[place]? = some (.result shown) := by
  obtain ⟨shown, there⟩ := found
  obtain ⟨early, -⟩ := List.getElem?_eq_some_iff.mp there
  exact ⟨shown, by rw [List.getElem?_append_left early, there]⟩

/-- The place of a `server_result` stays its own. -/
theorem Moves.result_stays (moves : Moves config process label after) {place : Nat}
    {thread : ResultThread} (found : process.threads[place]? = some (.result thread)) :
    ∃ moved, after.threads[place]? = some (.result moved) := by
  cases moves with
  | accept sock => exact result_of_append ⟨thread, found⟩
  | admitted there parsed login =>
      rcases login_cases login with ⟨-, rfl⟩ | ⟨-, rfl⟩ <;>
        exact result_of_set there nofun found
  | spawn there stands => exact result_of_append (result_of_set there (fun _ _ => ⟨_, rfl⟩) found)
  | turnedAway there | event there | quiet there | register there | submit there | push there
  | lookup there | post there | discard there | advance there | unwritten there | finished there
  | released there => exact result_of_set there nofun found
  | look there | start there | wait there | eraseSem there | eraseQueue there | eraseUser there
  | deleteSem there | deleteQueue there | grab there | take there | spawnFailed there
  | finish there | stop there => exact result_of_set there (fun _ _ => ⟨_, rfl⟩) found

/-- Every step keeps the children with their owners. -/
theorem Owned.moves (owned : process.Owned) (moves : Moves config process label after) :
    after.Owned := by
  intro place child found
  suffices before : ∃ thread, process.threads[child.owner]? = some (.result thread) by
    obtain ⟨thread, there⟩ := before
    exact moves.result_stays there
  have elsewhere : ∀ {index : Nat} {thread moved : Thread},
      process.threads[index]? = some thread →
      (process.threads.set index moved)[place]? = some (.worker child) →
      (∀ other, moved ≠ .worker other) → process.threads[place]? = some (.worker child) := by
    intro index thread moved there shown notChild
    rw [getElem?_set_there moved there] at shown
    split at shown
    next => exact absurd (Option.some.inj shown) (notChild child)
    next => exact shown
  by_cases login : ∃ index bytes, label = .header index bytes
  · obtain ⟨index, bytes, rfl⟩ := login
    cases moves with
    | turnedAway there => exact owned place child (elsewhere there found nofun)
    | @admitted _ sock _ command userID _ there parsed login =>
        have notChild : ∀ other, entry userID sock command ≠ .worker other := by
          cases command <;> exact nofun
        rcases login_cases login with ⟨-, rfl⟩ | ⟨-, rfl⟩ <;>
          exact owned place child (elsewhere there found notChild)
  · have noLogin : ∀ index bytes, label ≠ .header index bytes :=
      fun index bytes same => login ⟨index, bytes, same⟩
    cases moves.origin noLogin found with
    | stays there => exact owned _ _ there
    | @worker owner before there => exact owned place ⟨owner, before⟩ there
    | created there => exact ⟨_, there⟩

end Places

end Process

namespace Cast

section Moves

variable {config : Config} {process after : Process} {cast : Cast} {index : Nat}
variable {label : ProcessStep}

/-- Whoever moves, the session goes on. -/
theorem Tracked.moves (tracked : cast.Tracked config process) (intact : process.Intact)
    (still : after.Intact) (disk : config.storm = false)
    (cooperates : process.Cooperates config label)
    (noLogin : ∀ index bytes, label ≠ .header index bytes)
    (moves : Process.Moves config process label after) :
    ∃ moved : Cast, moved.index = cast.index ∧ moved.place = cast.place ∧
      (cast.index = none → moved.receiver = cast.receiver) ∧ moved.Tracked config after := by
  have on := tracked.on
  by_cases plays : cast.Plays process label
  · cases label with
    | accept | header | brokenPipe => cases plays
    | event place junk happened =>
        obtain ⟨sender, queue, goesOn⟩ :=
          tracked.sends intact plays (.inr ⟨junk, happened, rfl⟩) moves
        exact ⟨{ cast with sender := some sender, queue := queue }, rfl, rfl, fun _ => rfl, goesOn⟩
    | act place =>
        obtain ⟨sender, queue, goesOn⟩ := tracked.sends intact plays (.inl rfl) moves
        exact ⟨{ cast with sender := some sender, queue := queue }, rfl, rfl, fun _ => rfl, goesOn⟩
    | hostMissing => cases moves
    | result place call =>
        obtain ⟨receiver, goesOn⟩ := tracked.receives still disk plays
          (fun _ stands => cooperates.created (on.receiver place plays) stands) moves
        refine ⟨{ cast with receiver := receiver }, rfl, rfl, fun isNone => ?_, goesOn⟩
        rw [show cast.index = some place from plays] at isNone
        cases isNone
    | worker place call =>
        obtain ⟨owner, pc, own, isIndex⟩ := plays
        exact ⟨cast, rfl, rfl, fun _ => rfl, tracked.works isIndex own moves⟩
  · exact ⟨cast, rfl, rfl, fun _ => rfl, tracked.spared (on.spared intact moves plays noLogin)⟩

end Moves

end Cast

end PaintingCPS
