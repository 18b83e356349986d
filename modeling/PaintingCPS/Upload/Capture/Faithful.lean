import PaintingCPS.Upload.Capture.Threads

/-!
Contract: frames are uploaded as they were captured.

As long as the struct is left to the children, every run of theirs is one of
threads with files of their own, to which the results about the upload apply.

Owns: the steps of the children, the refinement in every run, and a run in which
the struct is not left to them.

Does not own: the upload itself.
-/

set_option autoImplicit false

namespace PaintingCPS

open Foundation

namespace Capture

section Steps

variable {disk : List Byte → Option (List Byte)} {sizePerTime : Nat}
variable {capture after : Capture} {contention : Contention} {rest : List Op}

/-- A child that uses the struct finds its own file there. -/
theorem Suits.args {child : TransmitChild} {thread : UploadThread}
    (suits : Suits disk sizePerTime capture.transInfo child thread)
    (uses : child.reads = true) :
    capture.args = .ok thread.file.fileName ∧
      capture.readFile disk = .ok thread.file.image := by
  have found : capture.args = .ok thread.file.fileName := by
    rw [Capture.args, suits.slot uses]
  refine ⟨found, ?_⟩
  simp only [readFile, found, bind, Except.bind, suits.stored]
  rfl

/-- In step with threads that have files of their own. -/
def Tracked (disk : List Byte → Option (List Byte)) (sizePerTime : Nat) (capture : Capture) :
    Prop :=
  ∃ contention rest,
    (contentionMachine sizePerTime).Reaches
      (.init sizePerTime (contention.threads.map UploadThread.file)) contention ∧
    Presents disk sizePerTime capture contention rest

/-- A step of the threads with files of their own. -/
theorem Tracked.next {image : Contention} {label : ContentionStep}
    (reached : (contentionMachine sizePerTime).Reaches
      (.init sizePerTime (contention.threads.map UploadThread.file)) contention)
    (presents : Presents disk sizePerTime capture contention rest)
    (stepped : contention.step sizePerTime label = some image) {restAfter : List Op}
    (presentsAfter : Presents disk sizePerTime after image restAfter) :
    Tracked disk sizePerTime after := by
  have transition : (contentionMachine sizePerTime).transition contention label image := by
    simp only [Machine.transition, contentionMachine, (presents.contending reached).inStep.sound,
      Option.isSome_none, Bool.false_eq_true, if_false, stepped]
  refine ⟨image, restAfter, ?_, presentsAfter⟩
  rw [Contention.files_step stepped]
  exact reached.tail trivial transition

/-- `sendLock` is taken, and the header handed over. -/
theorem Presents.locks (presents : Presents disk sizePerTime capture contention rest)
    (reached : (contentionMachine sizePerTime).Reaches
      (.init sizePerTime (contention.threads.map UploadThread.file)) contention)
    (junk : Nat → Byte) {index remaining size : Nat}
    (there : capture.children[index]? = some ⟨remaining, .locking size⟩)
    (free : capture.sendLock = none) :
    ∃ fileName bufferSend, capture.headerName sizePerTime = .ok fileName ∧
      sprintf (uninitialised junk recvLength) (fileName ++ comma :: decimal size) =
        .ok bufferSend ∧
      Tracked disk sizePerTime { capture.setChild index ⟨remaining, .opening⟩ with
        exchange := { capture.exchange with
          program := [.send ⟨.header, bufferSend.take headerSize⟩] }
        sendLock := some index
        fakeId := if sizePerTime = 1 then capture.fakeId else capture.fakeId + 1 } := by
  obtain ⟨⟨file, passes⟩, same, suits⟩ := presents.suits index _ there
  have begun : passes = remaining := suits.unbegun
  obtain ⟨more, isMore⟩ := Nat.exists_eq_succ_of_ne_zero (suits.due nofun nofun)
  have isSize : size = file.image.length := suits.size size rfl
  dsimp only at isMore
  subst begun isMore isSize
  have sendable := (suits.sendable.announced suits.named capture.fakeId).1
  obtain ⟨_, produced, -⟩ := Cpp.orbitProgram_messages junk sendable.info
  obtain ⟨bufferSend, printed, -⟩ := bind_eq_ok.mp produced
  have sending : Cpp.orbitProgram junk (file.announced sizePerTime capture.fakeId) =
      .ok (.send ⟨.header, bufferSend.take headerSize⟩ :: Cpp.blockProgram file.image) := by
    rw [← Upload.announced_image file sizePerTime capture.fakeId]
    exact bind_eq_ok.mpr ⟨bufferSend, printed, rfl⟩
  rw [Upload.info, Upload.announced_image] at printed
  refine ⟨(file.announced sizePerTime capture.fakeId).fileName, bufferSend, ?_, printed, ?_⟩
  · rw [headerName, Upload.announced]
    split
    next => exact (suits.args rfl).1
    next => rfl
  · have stepped : contention.step sizePerTime (.lock index junk) = some { contention with
        exchange := { capture.exchange with
          program := .send ⟨.header, bufferSend.take headerSize⟩ :: Cpp.blockProgram file.image }
        sendLock := some index
        threads := contention.threads.set index ⟨file, more⟩
        fakeId := if sizePerTime = 1 then capture.fakeId else capture.fakeId + 1
        acquired := contention.acquired ++
          [(file, file.announced sizePerTime capture.fakeId)] } := by
      simp only [Contention.step, Contention.lockStep, presents.sendLock, free, same,
        presents.fakeId, sending, presents.exchange]
    have suitsAfter : Suits disk sizePerTime capture.transInfo ⟨more + 1, .opening⟩
        ⟨file, more⟩ :=
      { suits with
        unbegun := rfl
        slot := fun _ => suits.slot rfl
        size := by simp
        due := fun _ _ => Nat.succ_ne_zero more }
    have outside : ∀ (other : Nat) (seen : TransmitChild),
        capture.children[other]? = some seen → ¬ (seen.pc = .opening ∨ seen.pc = .sending) := by
      intro other seen found inside
      have locked := (presents.holder other seen found).mp inside
      rw [free] at locked
      cases locked
    have taken : ∀ other, other ≠ index →
        (some index = some other ↔ capture.sendLock = some other) := by
      intro other different
      rw [free]
      exact iff_of_false (fun same => different (Option.some.inj same).symm) (by simp)
    have turned := @Presents.turn _ _ _ _ _ presents _ _ ⟨more + 1, .opening⟩ _ ⟨file, more⟩
      there same rfl suitsAfter (by simp [TransmitChild.reads])
      { capture.exchange with program := [.send ⟨.header, bufferSend.take headerSize⟩] } _ _
      (if sizePerTime = 1 then capture.fakeId else capture.fakeId + 1)
      (contention.acquired ++ [(file, file.announced sizePerTime capture.fakeId)]) taken
      (iff_of_true (.inl rfl) rfl) (fun _ => rfl)
      (fun other seen _ found opening => absurd (.inl opening) (outside other seen found))
      fun impossible => absurd rfl impossible
    exact Tracked.next reached presents stepped turned

/-- The file is opened. The thread with its own file has got that far. -/
theorem Presents.opens (presents : Presents disk sizePerTime capture contention rest)
    {index remaining : Nat} (there : capture.children[index]? = some ⟨remaining, .opening⟩)
    (sent : capture.exchange.program = []) :
    ∃ image, capture.readFile disk = .ok image ∧
      Presents disk sizePerTime { capture.setChild index ⟨remaining, .sending⟩ with
        exchange := { capture.exchange with program := Cpp.blockProgram image } }
        contention [] := by
  obtain ⟨⟨file, passes⟩, same, suits⟩ := presents.suits index _ there
  have locked := (presents.holder index _ there).mp (.inl rfl)
  have isRest := presents.opening index _ _ there same rfl
  have alone : ∀ (other : Nat) (seen : TransmitChild), other ≠ index →
      capture.children[other]? = some seen → seen.pc ≠ .opening := by
    intro other seen different found opening
    have lockedToo := (presents.holder other seen found).mp (.inl opening)
    rw [locked, Option.some.injEq] at lockedToo
    exact different lockedToo.symm
  have suitsAfter : Suits disk sizePerTime capture.transInfo ⟨remaining, .sending⟩
      ⟨file, passes⟩ :=
    { suits with
      unbegun := suits.unbegun
      slot := fun _ => suits.slot rfl
      size := nofun
      due := fun _ _ => suits.due nofun nofun }
  refine ⟨file.image, (suits.args rfl).2, ?_⟩
  have turned := presents.turn there same rfl suitsAfter nofun
    { capture.exchange with program := Cpp.blockProgram file.image } capture.fakeId
    contention.acquired (fun _ _ => Iff.rfl) (iff_of_true (.inr rfl) locked) nofun
    (fun other seen different found opening => absurd opening (alone other seen different found))
    fun _ _ => rfl
  have unchanged : { contention with
      exchange := { capture.exchange with program := Cpp.blockProgram file.image ++ [] }
      sendLock := capture.sendLock
      threads := contention.threads.set index ⟨file, passes⟩
      fakeId := capture.fakeId } = contention := by
    have ahead := presents.exchange
    rw [isRest, sent, List.nil_append] at ahead
    rw [set_same same, List.append_nil, ← ahead, ← presents.sendLock, ← presents.fakeId]
  exact unchanged ▸ turned

/-- The lock is released; a pass is over. -/
theorem Presents.unlocks (presents : Presents disk sizePerTime capture contention rest)
    (reached : (contentionMachine sizePerTime).Reaches
      (.init sizePerTime (contention.threads.map UploadThread.file)) contention)
    {index remaining : Nat} (there : capture.children[index]? = some ⟨remaining, .sending⟩)
    (sent : capture.exchange.program = []) :
    Tracked disk sizePerTime { capture.setChild index
        ⟨remaining - 1, if remaining = 1 then .ended else .measuring⟩ with
      sendLock := none } := by
  obtain ⟨⟨file, passes⟩, same, suits⟩ := presents.suits index _ there
  have begun : passes = remaining - 1 := suits.unbegun
  have due : remaining ≠ 0 := suits.due nofun nofun
  have locked := (presents.holder index _ there).mp (.inr rfl)
  have others : ∀ other, other ≠ index →
      ((none : Option Nat) = some other ↔ capture.sendLock = some other) := by
    intro other different
    refine iff_of_false nofun fun lockedToo => ?_
    rw [locked, Option.some.injEq] at lockedToo
    exact different lockedToo.symm
  have nothing : rest = [] := by
    apply presents.opened
    intro seen member opening
    obtain ⟨other, found⟩ := List.getElem?_of_mem member
    have lockedToo := (presents.holder other seen found).mp (.inl opening)
    rw [locked, Option.some.injEq] at lockedToo
    subst lockedToo
    rw [there, Option.some.injEq] at found
    subst found
    cases opening
  have stepped : contention.step sizePerTime (.unlock index) =
      some { contention with sendLock := none } := by
    rw [Contention.step, Contention.unlockStep, presents.sendLock, presents.exchange, nothing,
      if_pos ⟨locked, by rw [sent]; rfl⟩]
  have suitsAfter : Suits disk sizePerTime capture.transInfo
      ⟨remaining - 1, if remaining = 1 then .ended else .measuring⟩ ⟨file, passes⟩ :=
    { suits with
      unbegun := by
        rw [begun]
        by_cases last : remaining = 1
        · rw [if_pos last]
          rfl
        · rw [if_neg last]
          rfl
      slot := by
        intro uses
        apply suits.slot
        simp only [TransmitChild.reads, bne_iff_ne, ne_eq]
        rintro rfl
        cases uses
      size := by
        intro size locking
        split at locking <;> cases locking
      due := by
        intro _ running
        dsimp only at running ⊢
        split at running
        next => exact absurd rfl running
        next => omega }
  have outsideAfter : ¬ ((if remaining = 1 then ChildAt.ended else .measuring) = .opening ∨
      (if remaining = 1 then ChildAt.ended else .measuring) = .sending) := by
    split <;> decide
  have released : ((if remaining = 1 then ChildAt.ended else .measuring) = .opening ∨
      (if remaining = 1 then ChildAt.ended else .measuring) = .sending) ↔
        (none : Option Nat) = some index := iff_of_false outsideAfter nofun
  have quiet : (⟨remaining, .sending⟩ : TransmitChild).reads = false →
      (⟨remaining - 1, if remaining = 1 then .ended else .measuring⟩ : TransmitChild).reads =
        false := by
    intro last
    have one : remaining = 1 := by simpa [TransmitChild.reads] using last
    rw [if_pos one]
    rfl
  apply Tracked.next reached presents stepped
  have turned := presents.turn there same rfl suitsAfter quiet capture.exchange capture.fakeId
    contention.acquired others released (fun opening => absurd (.inl opening) outsideAfter)
    (fun _ _ _ _ _ => rfl) fun _ _ => nothing
  have unchanged : { contention with
      exchange := { capture.exchange with program := capture.exchange.program ++ rest }
      sendLock := none
      threads := contention.threads.set index ⟨file, passes⟩
      fakeId := capture.fakeId } = { contention with sendLock := none } := by
    rw [set_same same, ← presents.exchange, ← presents.fakeId]
  exact unchanged ▸ turned

/-- No step of a child faults, and each keeps in step. -/
theorem Tracked.child (tracked : Tracked disk sizePerTime capture) {index : Nat}
    {junk : Nat → Byte} {outcome : Except Fault Capture}
    (stepped : capture.childStep disk sizePerTime index junk = some outcome) :
    ∃ moved, outcome = .ok moved ∧ Tracked disk sizePerTime moved := by
  obtain ⟨contention, rest, reached, presents⟩ := tracked
  unfold childStep at stepped
  split at stepped
  next remaining there =>
    obtain ⟨thread, same, suits⟩ := presents.suits index _ there
    rw [(suits.args rfl).1] at stepped
    cases stepped
    refine ⟨_, rfl, contention, rest, reached, ?_⟩
    have moved : ∀ pc : ChildAt, pc = (if remaining = 0 then .ended else .measuring) →
        Presents disk sizePerTime (capture.setChild index ⟨remaining, pc⟩) contention rest := by
      intro pc isPc
      have place : pc = .ended ∨ pc = .measuring := by
        rw [isPc]
        split
        · exact .inl rfl
        · exact .inr rfl
      have outsideAfter : ¬ (pc = .opening ∨ pc = .sending) := by
        rcases place with rfl | rfl <;> decide
      exact presents.moved there same (by simp) outsideAfter nofun
        { suits with
          unbegun := by rcases place with rfl | rfl <;> exact suits.unbegun
          slot := fun _ => suits.slot rfl
          size := fun size locking => by rcases place with rfl | rfl <;> cases locking
          due := fun _ running none' => running (isPc.trans (if_pos none')) }
    exact moved _ rfl
  next remaining there =>
    obtain ⟨thread, same, suits⟩ := presents.suits index _ there
    rw [(suits.args rfl).2] at stepped
    cases stepped
    refine ⟨_, rfl, contention, rest, reached, ?_⟩
    exact presents.moved there same (by simp) (by simp) nofun
      { suits with
        unbegun := suits.unbegun
        slot := fun _ => suits.slot rfl
        size := fun size locking => (ChildAt.locking.inj locking).symm
        due := fun _ _ => suits.due nofun nofun }
  next remaining size there =>
    split at stepped
    next => cases stepped
    next free =>
      obtain ⟨fileName, bufferSend, named, printed, moved⟩ :=
        presents.locks reached junk there (not_not.mp free)
      rw [named] at stepped
      simp only [bind, Except.bind, printed] at stepped
      cases stepped
      exact ⟨_, rfl, moved⟩
  next remaining there =>
    split at stepped
    next => cases stepped
    next sent =>
      obtain ⟨image, found, moved⟩ := presents.opens there (not_not.mp sent)
      rw [found] at stepped
      cases stepped
      exact ⟨_, rfl, contention, [], reached, moved⟩
  next remaining there =>
    split at stepped
    next => cases stepped
    next sent =>
      cases stepped
      exact ⟨_, rfl, presents.unlocks reached there (not_not.mp sent)⟩
  next => cases stepped

/-- A step that leaves the struct to the children. -/
theorem Tracked.step (tracked : Tracked disk sizePerTime capture) {label : CaptureStep}
    (undisturbed : capture.Undisturbed disk sizePerTime label)
    {outcome : Except Fault Capture}
    (stepped : capture.step disk false sizePerTime label = some outcome) :
    ∃ moved, outcome = .ok moved ∧ Tracked disk sizePerTime moved := by
  cases label with
  | grab fileName =>
      obtain ⟨contention, rest, reached, presents⟩ := tracked
      obtain ⟨idle, capturable⟩ := undisturbed
      obtain ⟨file, isName, -, sendable, -⟩ := id capturable
      have short : fileName.length < frameNameCapacity := by
        have info := sendable.info
        have same : headerSize = frameNameCapacity := rfl
        rw [Upload.info, List.length_append, isName] at info
        omega
      simp only [Capture.step, grab] at stepped
      split at stepped
      next =>
        rw [if_neg (by simp; omega)] at stepped
        cases stepped
        refine ⟨_, rfl, contention, rest, reached, presents.vacate idle ?_⟩
        rintro other ⟨⟩
        exact ⟨rfl, capturable⟩
      next => cases stepped
  | spawn created =>
      obtain ⟨contention, rest, reached, presents⟩ := tracked
      simp only [Capture.step, spawn] at stepped
      split at stepped
      next fileName standing =>
        obtain ⟨-, idle, file, rfl, stored, sendable, named⟩ := presents.filled fileName standing
        split at stepped
        next =>
          cases stepped
          refine ⟨_, rfl, _, rest, ?_, presents.spawned standing stored sendable named⟩
          have joined := Contention.reaches_join reached file
          rw [Contention.join, List.map_append]
          exact joined
        next =>
          cases stepped
          exact ⟨_, rfl, contention, rest, reached, presents.vacate idle (by simp)⟩
      next => cases stepped
  | leave =>
      obtain ⟨contention, rest, reached, presents⟩ := tracked
      simp only [Capture.step, leave] at stepped
      split at stepped
      next =>
        cases stepped
        exact ⟨_, rfl, contention, rest, reached, presents.vacate undisturbed (by simp)⟩
      next => cases stepped
  | child index junk => exact tracked.child stepped
  | exchange label =>
      obtain ⟨contention, rest, reached, presents⟩ := tracked
      obtain ⟨exchange, called, rfl⟩ := Option.map_eq_some_iff.mp stepped
      refine ⟨_, rfl, ?_⟩
      have appended := Exchange.step_append called rest
      rw [← presents.exchange] at appended
      have matched : contention.step sizePerTime (.exchange label) = some { contention with
          exchange := { exchange with program := exchange.program ++ rest } } := by
        rw [Contention.step, appended]
        rfl
      exact Tracked.next reached presents matched { presents with exchange := rfl }

end Steps

theorem init_tracked (disk : List Byte → Option (List Byte)) (sizePerTime : Nat) :
    Tracked disk sizePerTime init := by
  refine ⟨.init sizePerTime [], [], .refl, ?_⟩
  exact
    { exchange := rfl
      sendLock := rfl
      fakeId := rfl
      captured := rfl
      count := rfl
      suits := nofun
      holder := nofun
      held := nofun
      opening := nofun
      opened := fun _ => rfl
      filled := nofun }

section Results

variable {disk : List Byte → Option (List Byte)} {sizePerTime : Nat} {capture after : Capture}

theorem Tracked.sound (tracked : Tracked disk sizePerTime capture) :
    capture.exchange.fault = none := by
  obtain ⟨contention, rest, reached, presents⟩ := tracked
  have sound := (presents.contending reached).inStep.sound
  rw [presents.exchange] at sound
  exact sound

theorem Tracked.transition (tracked : Tracked disk sizePerTime capture) {label : CaptureStep}
    (undisturbed : capture.Undisturbed disk sizePerTime label)
    (transition : (captureMachine disk false sizePerTime).transition capture label after) :
    Tracked disk sizePerTime after := by
  simp only [Machine.transition, captureMachine, tracked.sound, Option.isSome_none,
    Bool.false_eq_true, if_false] at transition
  cases stepped : capture.step disk false sizePerTime label with
  | none => simp [stepped] at transition
  | some outcome =>
      obtain ⟨moved, rfl, movedTracked⟩ := tracked.step undisturbed stepped
      rw [stepped] at transition
      cases transition
      exact movedTracked

/-- The frames are uploaded as they were captured: the children refine threads
that have a file of their own each, and nothing is stored that does not belong
together. -/
structure Faithful (disk : List Byte → Option (List Byte)) (sizePerTime : Nat)
    (capture : Capture) (files : List Upload) : Prop where
  sound : capture.exchange.fault = none
  names : files.map Upload.fileName = capture.captured
  contents : ∀ file ∈ files, disk file.fileName = some file.image
  refines : ∃ contention rest,
    (contentionMachine sizePerTime).Reaches (.init sizePerTime files) contention ∧
    Presents disk sizePerTime capture contention rest ∧ contention.Exact sizePerTime files
  stored : ∀ entry ∈ capture.exchange.server.stored, ∃ file ∈ files,
    entry.2 = file.image ∧ (sizePerTime = 1 → entry.1 = file.fileName)

theorem Tracked.faithful (tracked : Tracked disk sizePerTime capture) :
    ∃ files, capture.Faithful disk sizePerTime files := by
  have sound := tracked.sound
  obtain ⟨contention, rest, reached, presents⟩ := tracked
  have contending := presents.contending reached
  have exact := contending.exact
  have server : contention.exchange.server = capture.exchange.server := by rw [presents.exchange]
  refine ⟨contention.threads.map UploadThread.file, sound, presents.captured.symm, ?_,
    ⟨contention, rest, reached, presents, exact⟩, ?_⟩
  · intro file member
    obtain ⟨thread, isThread, rfl⟩ := List.mem_map.mp member
    obtain ⟨index, there⟩ := List.getElem?_of_mem isThread
    obtain ⟨within, -⟩ := List.getElem?_eq_some_iff.mp there
    rw [presents.count] at within
    obtain ⟨own, same, suits⟩ := presents.suits index _ (List.getElem?_eq_getElem within)
    rw [there, Option.some.injEq] at same
    subst same
    exact suits.stored
  · intro entry member
    rw [← server] at member
    obtain ⟨⟨own, announced⟩, isPair, rfl⟩ := List.mem_map.mp (exact.order.subset member)
    obtain ⟨fakeId, isAnnounced⟩ := contending.announced _ isPair
    refine ⟨own, contending.mem_files isPair, exact.contents _ isPair, ?_⟩
    rintro rfl
    dsimp only at isAnnounced
    rw [isAnnounced, Upload.announced_one]
    rfl

end Results

end Capture

/-- In every order of the steps of `display_thread`, its children and the
server: as long as the struct is written again only when no child will use it
any more, every frame is uploaded under its own name and with its own content,
as by threads that have a file of their own each. -/
theorem capture_faithful {disk : List Byte → Option (List Byte)} {sizePerTime : Nat}
    {finish : Capture}
    (reached : (captureMachine disk false sizePerTime).ReachesUnder
      (fun capture label => capture.Undisturbed disk sizePerTime label) .init finish) :
    ∃ files, finish.Faithful disk sizePerTime files := by
  have tracked : Capture.Tracked disk sizePerTime finish := reached.invariant
    (Capture.init_tracked disk sizePerTime)
    fun tracked undisturbed transition => tracked.transition undisturbed transition
  exact tracked.faithful

instance Capture.capturableDecidable (disk : List Byte → Option (List Byte)) (sizePerTime : Nat)
    (fileName : List Byte) : Decidable (Capturable disk sizePerTime fileName) :=
  decidable_of_iff (IsField isComma fileName ∧ ∃ image ∈ disk fileName, image ≠ [] ∧
      (fileName ++ comma :: decimal image.length).length < headerSize ∧ image.length < 2 ^ 31 ∧
      (sizePerTime = 1 → fileName.length < fileNameCapacity))
    ⟨fun ⟨field, image, stored, nonempty, info, size, named⟩ =>
      ⟨⟨fileName, image, field, nonempty⟩, rfl, stored, ⟨info, size⟩, named⟩,
    fun ⟨file, isName, stored, sendable, named⟩ =>
      ⟨isName ▸ file.field, file.image, stored, file.nonempty, isName ▸ sendable.info,
        sendable.size, named⟩⟩

instance Capture.undisturbedDecidable (disk : List Byte → Option (List Byte)) (sizePerTime : Nat)
    (capture : Capture) (label : CaptureStep) :
    Decidable (capture.Undisturbed disk sizePerTime label) :=
  match label with
  | .grab fileName => inferInstanceAs (Decidable (
      (∀ child ∈ capture.children, child.reads = false) ∧ Capturable disk sizePerTime fileName))
  | .leave => inferInstanceAs (Decidable (∀ child ∈ capture.children, child.reads = false))
  | .spawn _ | .child _ _ | .exchange _ => inferInstanceAs (Decidable True)

/-- Two frames of different content. -/
def frameDisk (fileName : List Byte) : Option (List Byte) :=
  if fileName = ascii "b" then some [1]
  else if fileName = ascii "c" then some [2, 3]
  else none

/-- The second frame is captured when the first child has opened its file. -/
theorem capture_faithful_two : ∃ finish : Capture,
    finish.captured = [ascii "b", ascii "c"] ∧
      finish.exchange.server.stored = [(ascii "b", [1])] ∧
      ∃ files, finish.Faithful frameDisk 1 files := by
  obtain ⟨finish, reached, found⟩ := Machine.exists_of_run
    (show (((captureMachine frameDisk false 1).run
        (fun capture label => capture.Undisturbed frameDisk 1 label) .init
        [.grab (ascii "b"), .spawn true, .child 0 (fun _ => 7), .child 0 (fun _ => 7),
          .child 0 (fun _ => 7), .exchange .client, .child 0 (fun _ => 7), .grab (ascii "c"),
          .exchange (.read (fun _ => 9) []), .exchange .client, .exchange .client,
          .spawn true, .exchange (.read (fun _ => 9) []), .exchange .store]).map
      fun finish => decide (finish.captured = [ascii "b", ascii "c"] ∧
        finish.exchange.server.stored = [(ascii "b", [1])])) = some true by
      decide +kernel)
  obtain ⟨captured, stored⟩ := of_decide_eq_true found
  exact ⟨finish, captured, stored, capture_faithful reached⟩

/-- A frame that is captured before: the server stores the second file's content,
as much of it as the first one's size, under the first one's name. -/
theorem capture_mixes_frames : ∃ finish : Capture,
    (captureMachine frameDisk false 1).Reaches .init finish ∧
      finish.exchange.server.stored = [(ascii "b", [2])] := by
  obtain ⟨finish, reached, stored⟩ := Machine.exists_of_run
    (show (((captureMachine frameDisk false 1).run (fun _ _ => True) .init
        [.grab (ascii "b"), .spawn true, .child 0 (fun _ => 7), .child 0 (fun _ => 7),
          .child 0 (fun _ => 7), .exchange .client, .grab (ascii "c"), .child 0 (fun _ => 7),
          .exchange (.read (fun _ => 9) []), .exchange .client, .exchange .client,
          .exchange (.read (fun _ => 9) []), .exchange .store]).map
      fun finish => decide (finish.exchange.server.stored = [(ascii "b", [2])])) = some true by
      decide +kernel)
  exact ⟨finish, reached, of_decide_eq_true stored⟩

end PaintingCPS
