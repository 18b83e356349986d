import PaintingCPS.Upload.Capture

/-!
Contract: the children of `display_thread` as threads with files of their own.

A child that has its name back from the struct does what a thread with that
file does. What it has not read from the disk is still to be sent.

Owns: the relation between the two systems, runs in which threads join, and
what the steps of `display_thread` leave of the relation.

Does not own: the steps of the children.
-/

set_option autoImplicit false

namespace PaintingCPS

open Foundation

/-! ## One more thread -/

namespace Contention

/-- One more thread that is about to send its file. -/
def join (contention : Contention) (sizePerTime : Nat) (file : Upload) : Contention :=
  { contention with threads := contention.threads ++ [⟨file, sizePerTime⟩] }

variable {sizePerTime : Nat} {contention after : Contention}

theorem step_join {label : ContentionStep}
    (stepped : contention.step sizePerTime label = some after) (file : Upload) :
    (contention.join sizePerTime file).step sizePerTime label =
      some (after.join sizePerTime file) := by
  cases label with
  | lock thread junk =>
      simp only [Contention.step, lockStep] at stepped
      split at stepped
      next own remaining unlocked there =>
        obtain ⟨within, -⟩ := List.getElem?_eq_some_iff.mp there
        have same : (contention.join sizePerTime file).threads[thread]? =
            some ⟨own, remaining + 1⟩ := (List.getElem?_append_left within).trans there
        simp only [Contention.step, lockStep, same,
          show (contention.join sizePerTime file).sendLock = none from unlocked]
        split at stepped
        next fault failed =>
          cases stepped
          simp [join, failed, unlocked]
        next program sending =>
          cases stepped
          simp [join, sending, List.set_append_left _ _ within]
      next => cases stepped
  | unlock thread =>
      simp only [Contention.step, unlockStep] at stepped ⊢
      split at stepped
      next allowed =>
        cases stepped
        exact if_pos allowed
      next => cases stepped
  | exchange label =>
      obtain ⟨exchange, moved, rfl⟩ := Option.map_eq_some_iff.mp stepped
      exact Option.map_eq_some_iff.mpr ⟨exchange, moved, rfl⟩

/-- The threads keep their files. -/
theorem files_step {label : ContentionStep}
    (stepped : contention.step sizePerTime label = some after) :
    after.threads.map UploadThread.file = contention.threads.map UploadThread.file := by
  cases label with
  | lock thread junk =>
      simp only [Contention.step, lockStep] at stepped
      split at stepped
      next own remaining unlocked there =>
        split at stepped
        next =>
          cases stepped
          rfl
        next =>
          cases stepped
          rw [List.map_set]
          exact set_same (by rw [List.getElem?_map, there]; rfl)
      next => cases stepped
  | unlock thread =>
      simp only [Contention.step, unlockStep] at stepped
      split at stepped
      next =>
        cases stepped
        rfl
      next => cases stepped
  | exchange label =>
      obtain ⟨exchange, -, rfl⟩ := Option.map_eq_some_iff.mp stepped
      rfl

theorem reaches_join {files : List Upload}
    (reached : (contentionMachine sizePerTime).Reaches (init sizePerTime files) contention)
    (file : Upload) :
    (contentionMachine sizePerTime).Reaches (init sizePerTime (files ++ [file]))
      (contention.join sizePerTime file) := by
  induction reached with
  | refl =>
      have same : (init sizePerTime files).join sizePerTime file =
          init sizePerTime (files ++ [file]) := by simp [join, init]
      rw [same]
      exact .refl
  | @tail state after label _ _ transition inductionHypothesis =>
      apply inductionHypothesis.tail trivial
      have running : ¬ state.exchange.fault.isSome = true := by
        intro fault
        simp [Machine.transition, contentionMachine, fault] at transition
      simp only [Machine.transition, contentionMachine,
        if_neg (show ¬ (state.join sizePerTime file).exchange.fault.isSome = true from running)]
      exact step_join (step_of_transition transition) file

end Contention

/-! ## Threads with files of their own -/

/-- A call on one end goes the same way when more is to be done after it. -/
theorem Exchange.step_append {exchange after : Exchange} {label : ExchangeStep}
    (stepped : exchange.step label = some after) (rest : List Op) :
    ({ exchange with program := exchange.program ++ rest } : Exchange).step label =
      some { after with program := after.program ++ rest } := by
  cases label with
  | client =>
      simp only [Exchange.step, clientStep] at stepped ⊢
      split at stepped
      next message more atSend =>
        cases stepped
        rw [atSend]
        rfl
      next more reply replies atAwait replied =>
        cases stepped
        rw [atAwait, replied]
        rfl
      next => cases stepped
  | read junk beyond =>
      simp only [Exchange.step, readStep] at stepped ⊢
      split at stepped
      next kind size message more asked waiting =>
        have asks : ({ exchange with program := exchange.program ++ rest } : Exchange).asks =
            some (kind, size) := asked
        rw [asks, waiting]
        dsimp only
        split at stepped
        next => cases stepped
        next => cases stepped; rfl
        next => cases stepped; rfl
      next => cases stepped
  | store =>
      simp only [Exchange.step, storeStep] at stepped ⊢
      split at stepped
      next => cases stepped
      next => cases stepped; rfl
      next => cases stepped; rfl

namespace Capture

/-- The child is about to do what the thread with its own file does. -/
structure Suits (disk : List Byte → Option (List Byte)) (sizePerTime : Nat)
    (transInfo : Option (List Byte)) (child : TransmitChild) (thread : UploadThread) : Prop where
  unbegun : thread.remaining = child.unbegun
  slot : child.reads = true → transInfo = some thread.file.fileName
  size : ∀ size, child.pc = .locking size → size = thread.file.image.length
  due : child.pc ≠ .created → child.pc ≠ .ended → child.remaining ≠ 0
  stored : disk thread.file.fileName = some thread.file.image
  sendable : thread.file.Sendable
  named : sizePerTime = 1 → thread.file.fileName.length < fileNameCapacity

/-- The same threads, each with a file of its own. `rest` is what the thread
between lock and unlock has not read from the disk. -/
structure Presents (disk : List Byte → Option (List Byte)) (sizePerTime : Nat)
    (capture : Capture) (contention : Contention) (rest : List Op) : Prop where
  exchange : contention.exchange =
    { capture.exchange with program := capture.exchange.program ++ rest }
  sendLock : contention.sendLock = capture.sendLock
  fakeId : contention.fakeId = capture.fakeId
  captured : capture.captured = (contention.threads.map UploadThread.file).map Upload.fileName
  count : contention.threads.length = capture.children.length
  suits : ∀ (index : Nat) (child : TransmitChild), capture.children[index]? = some child →
    ∃ thread, contention.threads[index]? = some thread ∧
      Suits disk sizePerTime capture.transInfo child thread
  holder : ∀ (index : Nat) (child : TransmitChild), capture.children[index]? = some child →
    (child.pc = .opening ∨ child.pc = .sending ↔ capture.sendLock = some index)
  held : ∀ index, capture.sendLock = some index → index < capture.children.length
  opening : ∀ (index : Nat) (child : TransmitChild) (thread : UploadThread),
    capture.children[index]? = some child → contention.threads[index]? = some thread →
    child.pc = .opening → rest = Cpp.blockProgram thread.file.image
  opened : (∀ child ∈ capture.children, child.pc ≠ .opening) → rest = []
  filled : ∀ fileName, capture.display = .filled fileName →
    capture.transInfo = some fileName ∧ capture.Idle ∧ Capturable disk sizePerTime fileName

section Steps

variable {disk : List Byte → Option (List Byte)} {sizePerTime : Nat}
variable {capture after : Capture} {contention : Contention} {rest : List Op}

/-- The client ends are in step with the server. -/
theorem Presents.contending (presents : Presents disk sizePerTime capture contention rest)
    (reached : (contentionMachine sizePerTime).Reaches
      (.init sizePerTime (contention.threads.map UploadThread.file)) contention) :
    contention.Contending sizePerTime (contention.threads.map UploadThread.file) := by
  have suited : ∀ file ∈ contention.threads.map UploadThread.file, file.Sendable ∧
      (sizePerTime = 1 → file.fileName.length < fileNameCapacity) := by
    intro file member
    obtain ⟨thread, isThread, rfl⟩ := List.mem_map.mp member
    obtain ⟨index, there⟩ := List.getElem?_of_mem isThread
    obtain ⟨within, -⟩ := List.getElem?_eq_some_iff.mp there
    rw [presents.count] at within
    obtain ⟨own, sameThread, suits⟩ := presents.suits index _ (List.getElem?_eq_getElem within)
    rw [there, Option.some.injEq] at sameThread
    subst sameThread
    exact ⟨suits.sendable, suits.named⟩
  exact reached.invariant
    (Contention.init_contending (fun file member => (suited file member).1)
      fun once file member => (suited file member).2 once)
    fun contending _ transition =>
      contending.step (Contention.step_of_transition transition)

/-- The struct changes while nobody uses it. -/
theorem Presents.vacate (presents : Presents disk sizePerTime capture contention rest)
    (idle : capture.Idle) {display : DisplayAt} {transInfo : Option (List Byte)}
    (filled : ∀ fileName, display = .filled fileName →
      transInfo = some fileName ∧ Capturable disk sizePerTime fileName) :
    Presents disk sizePerTime { capture with display := display, transInfo := transInfo }
      contention rest :=
  { presents with
    suits := by
      intro index child there
      obtain ⟨thread, same, suits⟩ := presents.suits index child there
      refine ⟨thread, same, { suits with slot := fun uses => ?_ }⟩
      rw [idle child (List.mem_of_getElem? there)] at uses
      cases uses
    filled := by
      intro fileName standing
      obtain ⟨info, capturable⟩ := filled fileName standing
      exact ⟨info, idle, capturable⟩ }

/-- The new child has the struct to itself. -/
theorem Presents.spawned (presents : Presents disk sizePerTime capture contention rest)
    {file : Upload} (standing : capture.display = .filled file.fileName)
    (stored : disk file.fileName = some file.image) (sendable : file.Sendable)
    (named : sizePerTime = 1 → file.fileName.length < fileNameCapacity) :
    Presents disk sizePerTime { capture with
      display := .looping
      children := capture.children ++ [⟨sizePerTime, .created⟩]
      captured := capture.captured ++ [file.fileName] }
      (contention.join sizePerTime file) rest := by
  obtain ⟨info, idle, -⟩ := presents.filled _ standing
  have split : ∀ (index : Nat) (child : TransmitChild),
      (capture.children ++ [⟨sizePerTime, .created⟩])[index]? = some child →
      capture.children[index]? = some child ∨
        (index = capture.children.length ∧ child = ⟨sizePerTime, .created⟩) := by
    intro index child there
    rcases Nat.lt_or_ge index capture.children.length with before | behind
    · exact .inl ((List.getElem?_append_left before).symm.trans there)
    · rw [List.getElem?_append_right behind, List.getElem?_singleton] at there
      split at there
      next same =>
        cases there
        exact .inr ⟨by omega, rfl⟩
      next => cases there
  have resting : ∀ (index : Nat) (child : TransmitChild),
      capture.children[index]? = some child → child.pc ≠ .opening := by
    intro index child there opening
    have quiet := idle child (List.mem_of_getElem? there)
    rw [TransmitChild.reads, opening] at quiet
    cases quiet
  refine
    { exchange := presents.exchange
      sendLock := presents.sendLock
      fakeId := presents.fakeId
      captured := ?_
      count := ?_
      suits := ?_
      holder := ?_
      held := ?_
      opening := ?_
      opened := ?_
      filled := nofun }
  · simp [Contention.join, presents.captured]
  · simp [Contention.join, presents.count]
  · intro index child there
    rcases split index child there with old | ⟨rfl, rfl⟩
    · obtain ⟨thread, same, suits⟩ := presents.suits index child old
      obtain ⟨within, -⟩ := List.getElem?_eq_some_iff.mp same
      exact ⟨thread, (List.getElem?_append_left within).trans same, suits⟩
    · refine ⟨⟨file, sizePerTime⟩, ?_, ?_⟩
      · rw [← presents.count]
        exact List.getElem?_concat_length
      · exact
          { unbegun := rfl
            slot := fun _ => info
            size := nofun
            due := fun old => absurd rfl old
            stored := stored
            sendable := sendable
            named := named }
  · intro index child there
    rcases split index child there with old | ⟨rfl, rfl⟩
    · exact presents.holder index child old
    · constructor
      · intro inside
        rcases inside with opening | sending
        · cases opening
        · cases sending
      · intro locked
        exact absurd (presents.held _ locked) (Nat.lt_irrefl _)
  · intro index locked
    rw [List.length_append]
    exact Nat.lt_add_right _ (presents.held index locked)
  · intro index child thread there _ opening
    rcases split index child there with old | ⟨-, rfl⟩
    · exact absurd opening (resting index child old)
    · cases opening
  · intro none'
    exact presents.opened fun child member => none' child (List.mem_append_left _ member)

/-- One child moves, and with it the thread that has its file. -/
theorem Presents.turn (presents : Presents disk sizePerTime capture contention rest)
    {index : Nat} {child moved : TransmitChild} {thread movedThread : UploadThread}
    (there : capture.children[index]? = some child)
    (same : contention.threads[index]? = some thread) (file : movedThread.file = thread.file)
    (suits : Suits disk sizePerTime capture.transInfo moved movedThread)
    (quiet : child.reads = false → moved.reads = false)
    (exchange : Exchange) {restAfter : List Op} {sendLock : Option Nat} (fakeId : Nat)
    (acquired : List (Upload × Upload))
    (lock : ∀ other, other ≠ index → (sendLock = some other ↔ capture.sendLock = some other))
    (inside : moved.pc = .opening ∨ moved.pc = .sending ↔ sendLock = some index)
    (behind : moved.pc = .opening → restAfter = Cpp.blockProgram thread.file.image)
    (elsewhere : ∀ (other : Nat) (seen : TransmitChild), other ≠ index →
      capture.children[other]? = some seen → seen.pc = .opening → restAfter = rest)
    (done : moved.pc ≠ .opening → (∀ (other : Nat) (seen : TransmitChild), other ≠ index →
      capture.children[other]? = some seen → seen.pc ≠ .opening) → restAfter = []) :
    Presents disk sizePerTime
      { capture.setChild index moved with
        exchange := exchange, sendLock := sendLock, fakeId := fakeId }
      { contention with
        exchange := { exchange with program := exchange.program ++ restAfter }
        sendLock := sendLock
        threads := contention.threads.set index movedThread
        fakeId := fakeId
        acquired := acquired } restAfter := by
  have split : ∀ (other : Nat) (seen : TransmitChild),
      (capture.children.set index moved)[other]? = some seen →
      (other = index ∧ seen = moved) ∨ (other ≠ index ∧ capture.children[other]? = some seen) := by
    intro other seen found
    rw [getElem?_set_there moved there] at found
    split at found
    next same =>
      cases found
      exact .inl ⟨same, rfl⟩
    next different => exact .inr ⟨different, found⟩
  have others : ∀ other, other ≠ index →
      (contention.threads.set index movedThread)[other]? = contention.threads[other]? :=
    fun other different => List.getElem?_set_ne (Ne.symm different)
  have here : (contention.threads.set index movedThread)[index]? = some movedThread := by
    rw [getElem?_set_there movedThread same, if_pos rfl]
  refine
    { exchange := rfl
      sendLock := rfl
      fakeId := rfl
      captured := ?_
      count := ?_
      suits := ?_
      holder := ?_
      held := ?_
      opening := ?_
      opened := ?_
      filled := ?_ }
  · rw [List.map_set, file, set_same (by rw [List.getElem?_map, same]; rfl)]
    exact presents.captured
  · simp [setChild, presents.count]
  · intro other seen found
    rcases split other seen found with ⟨rfl, rfl⟩ | ⟨different, old⟩
    · exact ⟨movedThread, here, suits⟩
    · obtain ⟨own, sameThread, before⟩ := presents.suits other seen old
      exact ⟨own, (others other different).trans sameThread, before⟩
  · intro other seen found
    rcases split other seen found with ⟨rfl, rfl⟩ | ⟨different, old⟩
    · exact inside
    · exact (presents.holder other seen old).trans (lock other different).symm
  · intro other locked
    rw [setChild, List.length_set]
    by_cases isIndex : other = index
    · subst isIndex
      exact (List.getElem?_eq_some_iff.mp there).1
    · exact presents.held other ((lock other isIndex).mp locked)
  · intro other seen own found sameThread opening
    rcases split other seen found with ⟨rfl, rfl⟩ | ⟨different, old⟩
    · rw [here, Option.some.injEq] at sameThread
      rw [behind opening, ← sameThread, file]
    · rw [others other different] at sameThread
      rw [elsewhere other seen different old opening]
      exact presents.opening other seen own old sameThread opening
  · intro none'
    refine done (none' moved ?_) fun other seen different old => none' seen ?_
    · exact List.mem_of_getElem? (show (capture.children.set index moved)[index]? = some moved by
        rw [getElem?_set_there moved there, if_pos rfl])
    · exact List.mem_of_getElem? ((List.getElem?_set_ne (Ne.symm different)).trans old)
  · intro fileName standing
    obtain ⟨info, idle, capturable⟩ := presents.filled fileName standing
    refine ⟨info, ?_, capturable⟩
    exact forall_mem_set idle (quiet (idle child (List.mem_of_getElem? there)))

/-- A child goes on by itself, outside lock and unlock. -/
theorem Presents.moved (presents : Presents disk sizePerTime capture contention rest)
    {index : Nat} {child moved : TransmitChild} {thread : UploadThread}
    (there : capture.children[index]? = some child)
    (same : contention.threads[index]? = some thread)
    (outside : ¬ (child.pc = .opening ∨ child.pc = .sending))
    (outsideAfter : ¬ (moved.pc = .opening ∨ moved.pc = .sending))
    (quiet : child.reads = false → moved.reads = false)
    (suits : Suits disk sizePerTime capture.transInfo moved thread) :
    Presents disk sizePerTime (capture.setChild index moved) contention rest := by
  have free : ¬ capture.sendLock = some index :=
    fun locked => outside ((presents.holder index child there).mpr locked)
  have turned := presents.turn there same rfl suits quiet capture.exchange capture.fakeId
    contention.acquired (fun _ _ => Iff.rfl) (iff_of_false outsideAfter free)
    (fun opening => absurd (.inl opening) outsideAfter) (fun _ _ _ _ _ => rfl)
    fun _ none' => presents.opened fun seen member => by
      obtain ⟨other, found⟩ := List.getElem?_of_mem member
      by_cases isIndex : other = index
      · subst isIndex
        rw [there, Option.some.injEq] at found
        subst found
        exact (not_or.mp outside).1
      · exact none' other seen isIndex found
  have unchanged : { contention with
      exchange := { capture.exchange with program := capture.exchange.program ++ rest }
      sendLock := capture.sendLock
      threads := contention.threads.set index thread
      fakeId := capture.fakeId } = contention := by
    rw [set_same same, ← presents.exchange, ← presents.sendLock, ← presents.fakeId]
  exact unchanged ▸ turned

end Steps

end Capture

end PaintingCPS
