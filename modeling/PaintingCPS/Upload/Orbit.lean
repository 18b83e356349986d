import PaintingCPS.Foundation.Pool
import PaintingCPS.Upload.Exchange

/-!
Contract: upload by the C++ client in orbit mode.

Any number of `transmit_child` threads share one socket and take turns by
`sendLock`. Each sends its file `size_per_time` times; with more than one time,
every sending gets an invented name. Files do not change between `stat` and
the end of the transfer.

Owns: the messages of the C++ client, the threads, and exact upload in every
order of their steps.

Does not own: the server's end, which is that of the exchange.
-/

set_option autoImplicit false

namespace PaintingCPS

open Foundation

/-! ## Messages -/

namespace Cpp

/-- `transmit_child` in orbit mode between lock and unlock. -/
def orbitProgram (junk : Nat → Byte) (upload : Upload) : Except Fault (List Op) := do
  let bufferSend ← sprintf (uninitialised junk recvLength) upload.info
  return Exchange.upload (bufferSend.take headerSize)
    ((fileBlocks recvLength upload.image).map (padded recvLength))

/-- The messages are what the server expects, if the info text fits the
header. -/
theorem orbitProgram_messages (junk : Nat → Byte) {upload : Upload}
    (fits : upload.info.length < headerSize) :
    ∃ header, orbitProgram junk upload = .ok (Exchange.upload header
        ((fileBlocks recvLength upload.image).map (padded recvLength))) ∧
      Exchange.Messages upload header
        ((fileBlocks recvLength upload.image).map (padded recvLength)) := by
  have room : headerSize ≤ recvLength := by decide
  have printed := sprintf_eq
    (show upload.info.length < (uninitialised junk recvLength).length by
      rw [uninitialised_length]
      omega)
  refine ⟨(upload.info ++ nul :: (uninitialised junk recvLength).drop
    (upload.info.length + 1)).take headerSize, ?_, ?_, ?_,
    covers_fileBlocks (by decide) upload.nonempty⟩
  · rw [orbitProgram, printed]
    rfl
  · rw [Upload.IsHeader, List.prefix_take_iff, List.length_append, List.length_singleton]
    exact ⟨⟨_, List.append_assoc _ _ _⟩, fits⟩
  · rw [List.length_take, List.length_append, List.length_cons, List.length_drop,
      uninitialised_length]
    omega

end Cpp

/-! ## Invented names -/

private theorem toInt32_abs (value : Int) : (toInt32 value).natAbs ≤ 2147483648 := by
  have low : -(2 ^ 31 : Int) ≤ toInt32 value := Int.le_bmod (by decide)
  have high : toInt32 value < (2 ^ 31 : Int) := Int.bmod_lt (by decide)
  omega

private theorem decimalInt_clean (value : Int) :
    ∀ byte ∈ decimalInt value, isComma byte = false ∧ byte ≠ nul := by
  intro byte member
  have digits : byte ∈ decimal value.natAbs → isComma byte = false ∧ byte ≠ nul := fun member =>
    have digit := isDigit_of_mem_decimal member
    ⟨isComma_of_isDigit byte digit, isDigit_ne digit (by decide)⟩
  unfold decimalInt at member
  split at member
  next =>
    rcases List.mem_cons.mp member with rfl | inside
    · decide
    · exact digits inside
  next => exact digits member

private theorem decimalInt_length {value : Int} (bounded : value.natAbs ≤ 2147483648) :
    (decimalInt value).length ≤ 11 := by
  have digits : (decimal value.natAbs).length ≤ 10 := by
    rw [decimal_length_le_iff (by decide)]
    omega
  unfold decimalInt
  split
  next =>
    rw [List.length_cons]
    omega
  next => omega

/-- A number between two clean texts. -/
private theorem isField_number {front last : List Byte} (value : Int) (nonempty : front ≠ [])
    (frontClean : ∀ byte ∈ front, isComma byte = false ∧ byte ≠ nul)
    (lastClean : ∀ byte ∈ last, isComma byte = false ∧ byte ≠ nul) :
    IsField isComma (front ++ decimalInt value ++ last) := by
  refine ⟨by simp [nonempty], fun byte member => ?_⟩
  rw [List.mem_append, List.mem_append] at member
  rcases member with (first | middle) | final
  · exact frontClean byte first
  · exact decimalInt_clean value byte middle
  · exact lastClean byte final

theorem picture_field (index : Nat) : IsField isComma (picture index) :=
  isField_number _ (by decide) (show IsField isComma (ascii "pics/") by decide).2
    (show IsField isComma (ascii ".jpg") by decide).2

/-- An invented name is short. -/
theorem picture_length (index : Nat) : (picture index).length ≤ 20 := by
  have number := decimalInt_length (toInt32_abs index)
  rw [picture, List.length_append, List.length_append,
    show (ascii "pics/").length = 5 by decide, show (ascii ".jpg").length = 4 by decide]
  omega

/-- The file as it is announced: under its own name, or with several sendings
under an invented one. -/
def Upload.announced (sizePerTime fakeId : Nat) (file : Upload) : Upload :=
  if sizePerTime = 1 then file
  else { file with fileName := picture fakeId, field := picture_field fakeId }

/-- The info text fits the header and the size an `int`. -/
structure Upload.Sendable (upload : Upload) : Prop where
  info : upload.info.length < headerSize
  size : upload.image.length < 2 ^ 31

/-- An announced file arrives if its own name, where it is used, fits the
server's buffer. -/
theorem Upload.Sendable.announced {file : Upload} (sendable : file.Sendable) {sizePerTime : Nat}
    (named : sizePerTime = 1 → file.fileName.length < fileNameCapacity) (fakeId : Nat) :
    (file.announced sizePerTime fakeId).Sendable ∧
      (file.announced sizePerTime fakeId).Accepted := by
  have size := sendable.size
  unfold Upload.announced
  split
  next once => exact ⟨sendable, named once, size⟩
  next =>
    have short := picture_length fakeId
    have digits : (decimal file.image.length).length ≤ 10 :=
      (decimal_length_le_iff (by decide)).mpr (by omega)
    refine ⟨⟨?_, size⟩, Nat.lt_of_le_of_lt short (by decide), size⟩
    rw [Upload.info, List.length_append, List.length_cons]
    have room : headerSize = 100 := rfl
    dsimp only
    omega

@[simp] theorem Upload.announced_image (file : Upload) (sizePerTime fakeId : Nat) :
    (file.announced sizePerTime fakeId).image = file.image := by
  unfold Upload.announced
  split <;> rfl

theorem Upload.announced_one (file : Upload) (fakeId : Nat) : file.announced 1 fakeId = file :=
  if_pos rfl

/-! ## The threads -/

/-- A `transmit_child` thread. -/
structure UploadThread where
  file : Upload
  /-- Passes of its loop that have not begun. -/
  remaining : Nat

/-- The threads of a client, and the socket they share. -/
structure Contention where
  exchange : Exchange
  /-- The thread between lock and unlock. -/
  sendLock : Option Nat
  threads : List UploadThread
  fakeId : Nat
  /-- The files in the order in which `sendLock` was taken for them, each with
  the form in which it was announced. -/
  acquired : List (Upload × Upload)

inductive ContentionStep where
  | lock (thread : Nat) (junk : Nat → Byte)
  | unlock (thread : Nat)
  | exchange (step : ExchangeStep)

namespace Contention

/-- Every thread is about to send its file `sizePerTime` times. -/
def init (sizePerTime : Nat) (files : List Upload) : Contention where
  exchange := .init
  sendLock := none
  threads := files.map fun file => ⟨file, sizePerTime⟩
  fakeId := 0
  acquired := []

section Steps

variable (contention : Contention)

/-- A thread takes `sendLock` and begins to send. -/
def lockStep (sizePerTime thread : Nat) (junk : Nat → Byte) : Option Contention :=
  match contention.sendLock, contention.threads[thread]? with
  | none, some ⟨file, remaining + 1⟩ =>
      let announced := file.announced sizePerTime contention.fakeId
      match Cpp.orbitProgram junk announced with
      | .error fault => some { contention with exchange := contention.exchange.stuck fault }
      | .ok program =>
          some { contention with
            exchange := { contention.exchange with program := program }
            sendLock := some thread
            threads := contention.threads.set thread ⟨file, remaining⟩
            fakeId := if sizePerTime = 1 then contention.fakeId else contention.fakeId + 1
            acquired := contention.acquired ++ [(file, announced)] }
  | _, _ => none

def unlockStep (thread : Nat) : Option Contention :=
  if contention.sendLock = some thread ∧ contention.exchange.program = [] then
    some { contention with sendLock := none }
  else none

def step (sizePerTime : Nat) : ContentionStep → Option Contention
  | .lock thread junk => contention.lockStep sizePerTime thread junk
  | .unlock thread => contention.unlockStep thread
  | .exchange label =>
      (contention.exchange.step label).map fun exchange =>
        { contention with exchange := exchange }

end Steps

end Contention

/-- The threads and the server in any order. -/
def contentionMachine (sizePerTime : Nat) : Machine Contention ContentionStep where
  next contention label :=
    if contention.exchange.fault.isSome then none else contention.step sizePerTime label

theorem Contention.step_of_transition {sizePerTime : Nat} {contention after : Contention}
    {label : ContentionStep}
    (transition : (contentionMachine sizePerTime).transition contention label after) :
    contention.step sizePerTime label = some after := by
  simp only [Machine.transition, contentionMachine] at transition
  split at transition
  next => cases transition
  next => exact transition

/-! ## The invariant -/

/-- The sendings that a thread has still to begin. -/
def UploadThread.waiting (thread : UploadThread) : List (List Byte × List Byte) :=
  List.replicate thread.remaining thread.file.entry

namespace Contention

/-- The threads take turns, and everything they have begun is in step with the
server. -/
structure Contending (sizePerTime : Nat) (files : List Upload) (contention : Contention) :
    Prop where
  inStep : contention.exchange.InStep (contention.acquired.map Prod.snd)
  unlocked : contention.sendLock = none → contention.exchange.program = []
  fits : ∀ thread ∈ contention.threads, ∀ fakeId,
    (thread.file.announced sizePerTime fakeId).Sendable ∧
      (thread.file.announced sizePerTime fakeId).Accepted
  announced : ∀ pair ∈ contention.acquired,
    ∃ fakeId, pair.2 = pair.1.announced sizePerTime fakeId
  balance : ∀ entry, (contention.acquired.map fun pair => pair.1.entry).count entry +
    (contention.threads.flatMap UploadThread.waiting).count entry =
      (files.flatMap fun file => List.replicate sizePerTime file.entry).count entry

section Invariant

variable {sizePerTime : Nat} {files : List Upload} {contention after : Contention}

theorem init_contending (sendable : ∀ file ∈ files, file.Sendable)
    (named : sizePerTime = 1 → ∀ file ∈ files, file.fileName.length < fileNameCapacity) :
    (init sizePerTime files).Contending sizePerTime files where
  inStep := Exchange.init_inStep
  unlocked _ := rfl
  fits thread member := by
    obtain ⟨file, isFile, rfl⟩ := List.mem_map.mp member
    exact (sendable file isFile).announced fun once => named once file isFile
  announced _ member := by cases member
  balance entry := by
    simp only [init, List.map_nil, List.count_nil, Nat.zero_add, List.flatMap_map]
    rfl

private theorem Contending.lock (contending : contention.Contending sizePerTime files)
    {thread : Nat} {junk : Nat → Byte}
    (stepped : contention.lockStep sizePerTime thread junk = some after) :
    after.Contending sizePerTime files := by
  unfold lockStep at stepped
  split at stepped
  next file remaining unlocked there =>
    have fits := contending.fits _ (List.mem_of_getElem? there)
    obtain ⟨sendable, accepted⟩ := fits contention.fakeId
    obtain ⟨header, sending, messages⟩ := Cpp.orbitProgram_messages junk sendable.info
    simp only [sending, Option.some.injEq] at stepped
    subst stepped
    refine ⟨?_, fun free => (by cases free), forall_mem_set contending.fits fits, ?_, ?_⟩
    · have begun := contending.inStep.begin (contending.unlocked unlocked)
        accepted messages
      dsimp only
      rw [List.map_append]
      exact begun
    · intro pair member
      rcases List.mem_append.mp member with old | new
      · exact contending.announced pair old
      · rw [List.mem_singleton.mp new]
        exact ⟨_, rfl⟩
    · intro entry
      have before := contending.balance entry
      have moved := count_flatMap_set UploadThread.waiting ⟨file, remaining⟩ there entry
      simp only [UploadThread.waiting, List.replicate_succ, List.count_cons] at moved before
      simp only [List.map_append, List.count_append, List.map_cons, List.map_nil,
        List.count_cons, List.count_nil]
      omega
  next => cases stepped

theorem Contending.step (contending : contention.Contending sizePerTime files)
    {label : ContentionStep} (stepped : contention.step sizePerTime label = some after) :
    after.Contending sizePerTime files := by
  cases label with
  | lock thread junk => exact contending.lock stepped
  | unlock thread =>
      simp only [Contention.step, unlockStep] at stepped
      split at stepped
      next allowed =>
        cases stepped
        exact ⟨contending.inStep, fun _ => allowed.2, contending.fits, contending.announced,
          contending.balance⟩
      next => cases stepped
  | exchange label =>
      obtain ⟨exchange, moved, rfl⟩ := Option.map_eq_some_iff.mp stepped
      refine ⟨contending.inStep.step moved, fun unlocked => ?_, contending.fits,
        contending.announced, contending.balance⟩
      exact contention.exchange.program_nil moved (contending.unlocked unlocked)

end Invariant

/-- All threads are done, nothing is on its way, and the server waits for the
next header. -/
structure Finished (contention : Contention) : Prop where
  threads : ∀ thread ∈ contention.threads, thread.remaining = 0
  unlocked : contention.sendLock = none
  arrived : contention.exchange.toServer = []
  idle : contention.exchange.server.pc = .header

/-- The upload is exact so far, and goes on until all is done. Then the server
has stored every file as often as it was sent, in the order of the lock. -/
structure Exact (sizePerTime : Nat) (files : List Upload) (contention : Contention) : Prop where
  sound : contention.exchange.fault = none
  lockstep : ∀ read ∈ contention.exchange.reads, read.1 = read.2
  order : contention.exchange.server.stored <+:
    contention.acquired.map fun pair => pair.2.entry
  contents : ∀ pair ∈ contention.acquired, pair.2.image = pair.1.image
  progress : ¬ contention.Finished →
    ∃ label, ((contentionMachine sizePerTime).next contention label).isSome
  complete : contention.Finished →
    contention.exchange.server.stored = contention.acquired.map (fun pair => pair.2.entry) ∧
      (contention.acquired.map fun pair => pair.1.entry).Perm
        (files.flatMap fun file => List.replicate sizePerTime file.entry) ∧
      (sizePerTime = 1 → contention.exchange.server.stored.Perm (files.map Upload.entry))

section Results

variable {sizePerTime : Nat} {files : List Upload} {contention : Contention}

/-- Some thread, or the server, can move until all is done. -/
private theorem Contending.progress (contending : contention.Contending sizePerTime files)
    (unfinished : ¬ contention.Finished) :
    ∃ label, ((contentionMachine sizePerTime).next contention label).isSome := by
  have moves : (∃ label, (contention.step sizePerTime label).isSome) →
      ∃ label, ((contentionMachine sizePerTime).next contention label).isSome := by
    rintro ⟨label, moved⟩
    exact ⟨label, by simpa [contentionMachine, contending.inStep.sound] using moved⟩
  by_cases busy : contention.exchange.program ≠ [] ∨ contention.exchange.toServer ≠ [] ∨
      contention.exchange.server.pc ≠ .header
  · obtain ⟨label, moved⟩ := contending.inStep.progress busy
    exact moves ⟨.exchange label, by simpa [Contention.step] using moved⟩
  · simp only [not_or, ne_eq, not_not] at busy
    obtain ⟨done, arrived, idle⟩ := busy
    cases locked : contention.sendLock with
    | some thread =>
        exact moves ⟨.unlock thread, by simp [Contention.step, unlockStep, locked, done]⟩
    | none =>
        have left : ∃ thread ∈ contention.threads, thread.remaining ≠ 0 := by
          by_contra none
          simp only [not_exists, not_and, not_not] at none
          exact unfinished ⟨none, locked, arrived, idle⟩
        obtain ⟨⟨file, remaining⟩, member, more⟩ := left
        obtain ⟨thread, there⟩ := List.getElem?_of_mem member
        obtain ⟨fewer, rfl⟩ := Nat.exists_eq_succ_of_ne_zero more
        refine moves ⟨.lock thread (fun _ => 0), ?_⟩
        simp only [Contention.step, lockStep, locked, there]
        split <;> rfl

private theorem Contending.complete (contending : contention.Contending sizePerTime files)
    (finished : contention.Finished) :
    contention.exchange.server.stored = contention.acquired.map (fun pair => pair.2.entry) ∧
      (contention.acquired.map fun pair => pair.1.entry).Perm
        (files.flatMap fun file => List.replicate sizePerTime file.entry) ∧
      (sizePerTime = 1 → contention.exchange.server.stored.Perm (files.map Upload.entry)) := by
  have stored := contending.inStep.stored_all (contending.unlocked finished.unlocked)
    finished.arrived finished.idle
  rw [List.map_map] at stored
  have nothing : contention.threads.flatMap UploadThread.waiting = [] := by
    refine List.flatMap_eq_nil_iff.mpr fun thread member => ?_
    rw [UploadThread.waiting, finished.threads thread member, List.replicate_zero]
  have sent : (contention.acquired.map fun pair => pair.1.entry).Perm
      (files.flatMap fun file => List.replicate sizePerTime file.entry) := by
    refine List.perm_iff_count.mpr fun entry => ?_
    have balance := contending.balance entry
    rwa [nothing, List.count_nil, Nat.add_zero] at balance
  refine ⟨stored, sent, ?_⟩
  rintro rfl
  have same : contention.acquired.map (fun pair => pair.2.entry) =
      contention.acquired.map fun pair => pair.1.entry := by
    refine List.map_congr_left fun pair member => ?_
    obtain ⟨fakeId, announced⟩ := contending.announced pair member
    rw [announced, Upload.announced_one]
  have once : (files.flatMap fun file => List.replicate 1 file.entry) =
      files.map Upload.entry := by simp [List.map_eq_flatMap]
  rw [stored]
  exact once ▸ same ▸ sent

/-- Only the given files are announced. -/
theorem Contending.mem_files (contending : contention.Contending sizePerTime files)
    {pair : Upload × Upload} (member : pair ∈ contention.acquired) : pair.1 ∈ files := by
  have counted : pair.1.entry ∈ files.flatMap fun file =>
      List.replicate sizePerTime file.entry := by
    have balance := contending.balance pair.1.entry
    have positive : 0 < (contention.acquired.map fun pair => pair.1.entry).count pair.1.entry :=
      List.count_pos_iff.mpr (List.mem_map.mpr ⟨_, member, rfl⟩)
    exact List.count_pos_iff.mp (by omega)
  obtain ⟨file, isFile, repeated⟩ := List.mem_flatMap.mp counted
  rwa [Upload.entry_injective (List.eq_of_mem_replicate repeated)]

theorem Contending.exact (contending : contention.Contending sizePerTime files) :
    contention.Exact sizePerTime files where
  sound := contending.inStep.sound
  lockstep := contending.inStep.agreed
  order := by
    have order := contending.inStep.stored_prefix
    rwa [List.map_map] at order
  contents pair member := by
    obtain ⟨fakeId, announced⟩ := contending.announced pair member
    rw [announced, Upload.announced_image]
  progress := contending.progress
  complete := contending.complete

/-- The header of a file whose name is too long leads the server out of
`file_name_temp`. -/
theorem reaches_overflow {file : Upload} (member : file ∈ files) (sendable : file.Sendable)
    (long : fileNameCapacity ≤ file.fileName.length) :
    ∃ finish, (contentionMachine 1).Reaches (init 1 files) finish ∧
      finish.exchange.fault = some .outOfBounds := by
  obtain ⟨thread, there⟩ := List.getElem?_of_mem member
  obtain ⟨header, sending, messages⟩ :=
    Cpp.orbitProgram_messages (fun _ => 0) sendable.info
  have whole : header.take headerSize = header := by rw [← messages.size, List.take_length]
  have atHeader : (Transmit.init.start .orbit true).pc = .header := rfl
  have overflow : (Transmit.init.start .orbit true).step .orbit .disk (fun _ => 0)
      (.received header) = some (.error .outOfBounds) :=
    Transmit.step_orbitOverflow .disk _ long rfl messages.isHeader
  have executed : ((contentionMachine 1).run (fun _ _ => True) (init 1 files)
      [.lock thread (fun _ => 0), .exchange .client, .exchange (.read (fun _ => 0) [])]).map
        (fun finish => decide (finish.exchange.fault = some .outOfBounds)) = some true := by
    simp [Machine.run, contentionMachine, init, Contention.step, lockStep, there,
      Upload.announced_one, sending, Exchange.init, Exchange.step, Exchange.clientStep,
      Exchange.upload, Exchange.readStep, Exchange.asks, atHeader, whole, overflow,
      Exchange.stuck]
  obtain ⟨finish, reached, overflows⟩ := Machine.exists_of_run executed
  exact ⟨finish, reached, of_decide_eq_true overflows⟩

end Results

end Contention

/-- Upload in orbit mode is exact, in every order of the steps of any number of
threads, if and only if the names that are sent fit the server's buffer. Names
that are invented always do. -/
theorem orbit_upload_exact_iff {sizePerTime : Nat} {files : List Upload}
    (sendable : ∀ file ∈ files, file.Sendable) :
    (∀ contention, (contentionMachine sizePerTime).Reaches (.init sizePerTime files) contention →
        contention.Exact sizePerTime files) ↔
      (sizePerTime = 1 → ∀ file ∈ files, file.fileName.length < fileNameCapacity) := by
  constructor
  · rintro exact rfl file member
    by_contra long
    obtain ⟨finish, reached, overflows⟩ :=
      Contention.reaches_overflow member (sendable file member) (Nat.not_lt.mp long)
    rw [(exact finish reached).sound] at overflows
    cases overflows
  · intro named contention reached
    have contending : contention.Contending sizePerTime files :=
      reached.invariant (Contention.init_contending sendable named)
        fun contending _ transition =>
          contending.step (Contention.step_of_transition transition)
    exact contending.exact

/-- Two threads; the second takes the lock first. -/
def turnsFiles : List Upload :=
  [⟨ascii "b", [1], by decide, List.cons_ne_nil _ _⟩,
    ⟨ascii "c", [2, 3], by decide, List.cons_ne_nil _ _⟩]

def turnsSchedule : List ContentionStep :=
  let turn (thread : Nat) : List ContentionStep :=
    [.lock thread (fun _ => 7), .exchange .client, .exchange (.read (fun _ => 9) []),
      .exchange .client, .exchange .client, .unlock thread,
      .exchange (.read (fun _ => 9) []), .exchange .store]
  turn 1 ++ turn 0

theorem orbit_upload_exact_turns : ∃ finish : Contention,
    finish.exchange.server.stored = [(ascii "c", [2, 3]), (ascii "b", [1])] ∧
      finish.Exact 1 turnsFiles := by
  have sendable : ∀ file ∈ turnsFiles, file.Sendable := by
    simp only [turnsFiles, List.forall_mem_cons, List.not_mem_nil, false_imp_iff, implies_true,
      and_true]
    exact ⟨⟨by decide, by decide⟩, ⟨by decide, by decide⟩⟩
  obtain ⟨finish, reached, complete⟩ := Machine.exists_of_run
    (show (((contentionMachine 1).run (fun _ _ => True) (.init 1 turnsFiles) turnsSchedule).map
      fun finish => decide (finish.exchange.server.stored =
        [(ascii "c", [2, 3]), (ascii "b", [1])])) = some true by
      decide +kernel)
  exact ⟨finish, of_decide_eq_true complete,
    (orbit_upload_exact_iff sendable).mpr (fun _ => by decide) finish reached⟩

/-- `"pics/"` and a name of 55 bytes. -/
def longNameFile : Upload :=
  ⟨ascii "pics/" ++ List.replicate 51 97 ++ ascii ".jpg", [1], by decide,
    List.cons_ne_nil _ _⟩

theorem orbit_name_overflows : longNameFile.Sendable ∧
    ∃ finish, (contentionMachine 1).Reaches (.init 1 [longNameFile]) finish ∧
      finish.exchange.fault = some .outOfBounds ∧ ¬ finish.Exact 1 [longNameFile] := by
  have sendable : longNameFile.Sendable := ⟨by decide, by decide⟩
  obtain ⟨finish, reached, overflows⟩ :=
    Contention.reaches_overflow (List.mem_singleton_self _) sendable (by decide)
  refine ⟨sendable, finish, reached, overflows, fun exact => ?_⟩
  rw [exact.sound] at overflows
  cases overflows

end PaintingCPS
