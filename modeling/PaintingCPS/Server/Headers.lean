import PaintingCPS.Server.Moves

/-!
Contract: the headers that clients send, at the login and before each image.

Both are two fields behind each other. A header that has them logs its user in
or announces an image; of any other header the server makes a fault, which ends
the process for everybody.

Owns: what is expected of the server for any header, and the headers for which
it holds.

Does not own: the end of a connection, and a receive call that fails.
-/

set_option autoImplicit false

namespace PaintingCPS

open Foundation

/-- Two calls of `strtok` find these fields. -/
def TwoFields (buffer first second : List Byte) : Prop :=
  ∃ before tail between stop rest, Scanned isComma buffer before first comma tail ∧
    Scanned isComma tail between second stop rest

section Parsers

variable {buffer first second : List Byte}

/-- The first call stops at the comma. -/
private theorem TwoFields.strtok (fields : TwoFields buffer first second) :
    ∃ tail saved rest, strtok isComma buffer = .ok (some ⟨first, tail, tail⟩) ∧
      strtok isComma tail = .ok (some ⟨second, rest, saved⟩) := by
  obtain ⟨before, tail, between, stop, rest, outer, inner⟩ := fields
  have called := outer.strtok
  rw [if_neg (by decide)] at called
  exact ⟨tail, _, rest, called, inner.strtok⟩

/-- A second token is in the same text as the first. -/
theorem twoFields_of_strtok {token other : Token}
    (called : strtok isComma buffer = .ok (some token))
    (again : strtok isComma token.saved = .ok (some other)) :
    TwoFields buffer token.text other.text := by
  obtain ⟨before, stop, outer, saved⟩ := exists_scanned called
  obtain ⟨between, ends, inner, -⟩ := exists_scanned again
  rw [saved] at inner
  by_cases isNul : stop = nul
  · -- behind the terminator there is nothing
    rw [if_pos isNul, isNul] at inner
    have none' : Foundation.strtok isComma (nul :: token.tail) = .ok none := rfl
    rw [inner.strtok] at none'
    cases none'
  · rw [if_neg isNul] at inner
    obtain rfl : stop = comma := eq_of_beq (outer.ends.resolve_right isNul)
    exact ⟨before, token.tail, between, ends, other.tail, outer, inner⟩

theorem TwoFields.nonempty (fields : TwoFields buffer first second) :
    first ≠ [] ∧ second ≠ [] := by
  obtain ⟨before, tail, between, stop, rest, outer, inner⟩ := fields
  exact ⟨outer.field.1, inner.field.1⟩

/-- A login is parsed when its header has two fields. -/
theorem parseLogin_eq_ok {command : Command} {userID : User} :
    parseLogin buffer = .ok (command, userID) ↔
      ∃ threadType, TwoFields buffer threadType userID ∧ command = .ofText threadType := by
  constructor
  · intro parsed
    obtain ⟨found, called, rest⟩ := bind_eq_ok.mp parsed
    cases found with
    | none => cases rest
    | some token =>
        obtain ⟨found, again, rest⟩ := bind_eq_ok.mp rest
        cases found with
        | none => cases rest
        | some other =>
            cases rest
            exact ⟨token.text, twoFields_of_strtok called again, rfl⟩
  · rintro ⟨threadType, fields, rfl⟩
    obtain ⟨tail, saved, rest, called, again⟩ := fields.strtok
    simp only [parseLogin, called, again, bind, Except.bind, pure, Except.pure]

/-- A header is parsed when it has two fields and the first is short. -/
theorem parseHeader_eq_ok {fileName : List Byte} {fileSize : Int} :
    parseHeader buffer = .ok (fileName, fileSize) ↔
      fileName.length < fileNameCapacity ∧ ∃ fileSizeChar, TwoFields buffer fileName fileSizeChar ∧
        fileSize = toInt32 (strtol fileSizeChar) := by
  constructor
  · intro parsed
    obtain ⟨found, called, rest⟩ := bind_eq_ok.mp parsed
    cases found with
    | none => cases rest
    | some token =>
        simp only [bind, Except.bind, deref_some] at rest
        split at rest
        next => cases rest
        next short =>
          obtain ⟨found, again, rest⟩ := bind_eq_ok.mp rest
          cases found with
          | none => cases rest
          | some other =>
              cases rest
              exact ⟨Nat.not_le.mp short, other.text, twoFields_of_strtok called again, rfl⟩
  · rintro ⟨short, fileSizeChar, fields, rfl⟩
    obtain ⟨tail, saved, rest, called, again⟩ := fields.strtok
    simp only [parseHeader, called, again, bind, Except.bind, deref_some,
      if_neg (Nat.not_le.mpr short), pure, Except.pure]

end Parsers

/-! ## What is expected of the server -/

/-- The size of the buffer that a header is read into. -/
def headerCapacity : Mode → Nat
  | .tcp => bufferSize
  | _ => recvLength

/-- The thread has a name that fits and a size that can be allocated, or it has
left. -/
def TransmitPc.Announced : TransmitPc → Prop
  | .replying fileName fileSize | .body fileName fileSize _ _ =>
      fileName ≠ [] ∧ fileName.length < fileNameCapacity ∧ 0 < fileSize
  | .ended => True
  | _ => False

namespace Process

/-- The entries of a user in the three maps. -/
def SameEntries (process after : Process) (userID : User) : Prop :=
  after.userMap userID = process.userMap userID ∧ after.queueMap userID = process.queueMap userID ∧
    after.semMap userID = process.semMap userID

/-- The connection at `index` is turned away or becomes a thread of its user,
and nobody else notices. -/
def LoginContained (config : Config) (process : Process) (index : Nat) (sock : Int)
    (bytes : List Byte) : Prop :=
  ∃ after userID, process.step config (.header index (some bytes)) = some (.ok after) ∧
    userID ≠ [] ∧ (∃ command, after.threads = process.threads.set index .closed ∨
      after.threads = process.threads.set index (entry userID sock command)) ∧
    ∀ other, other ≠ userID → process.SameEntries after other

/-- The thread at `index` goes on with a file that it can receive, or leaves,
and nobody else notices. -/
def HeaderContained (config : Config) (process : Process) (index : Nat) (junk : Nat → Byte)
    (bytes : List Byte) : Prop :=
  ∃ after thread, process.step config (.event index junk (.received bytes)) = some (.ok after) ∧
    after.threads = process.threads.set index (.transmit thread) ∧ thread.state.pc.Announced ∧
    ∀ other, process.SameEntries after other

end Process

/-- A header with two fields, a name that fits and a positive size. -/
def UsableHeader (buffer : List Byte) : Prop :=
  ∃ fileName fileSizeChar, TwoFields buffer fileName fileSizeChar ∧
    fileName.length < fileNameCapacity ∧ 0 < toInt32 (strtol fileSizeChar)

namespace Process

section Contained

variable {config : Config} {process : Process} {index : Nat}

theorem loginContained_iff {sock : Int} (bytes : List Byte)
    (there : process.threads[index]? = some (.connection sock)) :
    process.LoginContained config index sock bytes ↔
      ∃ threadType userID, TwoFields (padded loginBuffer bytes) threadType userID := by
  constructor
  · rintro ⟨after, userID, stepped, -, -⟩
    simp only [Process.step, header, there, Option.getD_some] at stepped
    rw [if_neg (by simp)] at stepped
    obtain ⟨⟨command, owner⟩, parsed, -⟩ := bind_eq_ok.mp (Option.some.inj stepped)
    obtain ⟨threadType, fields, -⟩ := parseLogin_eq_ok.mp parsed
    exact ⟨threadType, owner, fields⟩
  · rintro ⟨threadType, userID, fields⟩
    have parsed := parseLogin_eq_ok.mpr ⟨threadType, fields, rfl⟩
    cases granted : process.login userID (.ofText threadType) with
    | none =>
        refine ⟨process.setThread index .closed, userID, ?_, fields.nonempty.2,
          ⟨.ofText threadType, .inl rfl⟩, fun _ _ => ⟨rfl, rfl, rfl⟩⟩
        simp only [Process.step, header, there, Option.getD_some]
        rw [if_neg (by simp), parsed]
        simp only [bind, Except.bind, granted]
        rfl
    | some admitted =>
        refine ⟨admitted.setThread index (entry userID sock (.ofText threadType)), userID, ?_,
          fields.nonempty.2, ⟨.ofText threadType, .inr ?_⟩, ?_⟩
        · simp only [Process.step, header, there, Option.getD_some]
          rw [if_neg (by simp), parsed]
          simp only [bind, Except.bind, granted]
          rfl
        · rcases login_cases granted with ⟨-, rfl⟩ | ⟨-, rfl⟩ <;> rfl
        · intro other different
          rcases login_cases granted with ⟨-, rfl⟩ | ⟨-, rfl⟩
          · exact ⟨Function.update_of_ne different _ _, rfl, rfl⟩
          · exact ⟨Function.update_of_ne different _ _, rfl, rfl⟩

/-- The step of the thread decides. -/
private theorem headerContained_of_step {thread : TransmitThread} {junk : Nat → Byte}
    {bytes : List Byte} (there : process.threads[index]? = some (.transmit thread))
    (idle : thread.pending = []) :
    process.HeaderContained config index junk bytes ↔
      ∃ state, thread.state.step config.mode config.backend junk (.received bytes) =
        some (.ok state) ∧ state.pc.Announced := by
  obtain ⟨within, -⟩ := List.getElem?_eq_some_iff.mp there
  constructor
  · rintro ⟨after, moved, stepped, threads, announced, -⟩
    simp only [Process.step, event, there] at stepped
    rw [if_neg (not_not.mpr idle)] at stepped
    split at stepped
    next => cases stepped
    next => cases stepped
    next state performed =>
      cases stepped
      have same := congrArg (fun list => list[index]?) threads
      simp only [setThread, List.getElem?_set_self within] at same
      cases same
      exact ⟨state, performed, announced⟩
  · rintro ⟨state, performed, announced⟩
    refine ⟨process.setThread index (.transmit { thread with
      state := state
      pending := state.actions.drop thread.state.actions.length }), _, ?_, rfl, announced,
      fun _ => ⟨rfl, rfl, rfl⟩⟩
    simp only [Process.step, event, there]
    rw [if_neg (not_not.mpr idle), performed]

/-- TCP: the reply comes before the allocation. -/
private theorem tcpHeader_announced {backend : Backend} {junk : Nat → Byte} {state : Transmit}
    {bytes : List Byte} (atHeader : state.pc = .header) (nonempty : bytes ≠ []) :
    (∃ after, state.step .tcp backend junk (.received bytes) = some (.ok after) ∧
        after.pc.Announced) ↔ UsableHeader (padded bufferSize bytes) := by
  simp only [Transmit.step, atHeader, Transmit.tcpHeader, if_neg nonempty]
  constructor
  · rintro ⟨after, stepped, announced⟩
    obtain ⟨⟨fileName, fileSize⟩, parsed, returned⟩ := bind_eq_ok.mp (Option.some.inj stepped)
    cases returned
    obtain ⟨short, fileSizeChar, fields, rfl⟩ := parseHeader_eq_ok.mp parsed
    exact ⟨fileName, fileSizeChar, fields, short, announced.2.2⟩
  · rintro ⟨fileName, fileSizeChar, fields, short, positive⟩
    have parsed := parseHeader_eq_ok.mpr ⟨short, fileSizeChar, fields, rfl⟩
    refine ⟨state.emit [] (.replying fileName (toInt32 (strtol fileSizeChar))), ?_,
      fields.nonempty.1, short, positive⟩
    rw [parsed]
    rfl

/-- Orbit: the image buffer is allocated at once. -/
private theorem orbitHeader_announced {backend : Backend} {junk : Nat → Byte} {state : Transmit}
    {bytes : List Byte} (atHeader : state.pc = .header) :
    (∃ after, state.step .orbit backend junk (.received bytes) = some (.ok after) ∧
        after.pc.Announced) ↔ UsableHeader (padded recvLength bytes) := by
  simp only [Transmit.step, atHeader, Transmit.orbitHeader]
  constructor
  · rintro ⟨after, stepped, announced⟩
    obtain ⟨⟨fileName, fileSize⟩, parsed, rest⟩ := bind_eq_ok.mp (Option.some.inj stepped)
    obtain ⟨img, -, returned⟩ := bind_eq_ok.mp rest
    cases returned
    obtain ⟨short, fileSizeChar, fields, rfl⟩ := parseHeader_eq_ok.mp parsed
    exact ⟨fileName, fileSizeChar, fields, short, announced.2.2⟩
  · rintro ⟨fileName, fileSizeChar, fields, short, positive⟩
    have parsed := parseHeader_eq_ok.mpr ⟨short, fileSizeChar, fields, rfl⟩
    have allocated : newArray junk (toInt32 (strtol fileSizeChar)) =
        .ok (uninitialised junk (toInt32 (strtol fileSizeChar)).toNat) := by
      rw [newArray, if_neg (by omega)]
    refine ⟨state.emit [.reply] (.body fileName (toInt32 (strtol fileSizeChar))
      (uninitialised junk (toInt32 (strtol fileSizeChar)).toNat) 0), ?_,
      fields.nonempty.1, short, positive⟩
    rw [parsed]
    simp only [bind, Except.bind, allocated]
    rfl

theorem headerContained_iff {thread : TransmitThread} {junk : Nat → Byte} {bytes : List Byte}
    (served : config.mode ≠ .mf) (there : process.threads[index]? = some (.transmit thread))
    (atHeader : thread.state.pc = .header) (idle : thread.pending = [])
    (read : config.mode = .tcp → bytes ≠ []) :
    process.HeaderContained config index junk bytes ↔
      UsableHeader (padded (headerCapacity config.mode) bytes) := by
  rw [headerContained_of_step there idle]
  cases mode : config.mode with
  | tcp => exact tcpHeader_announced atHeader (read mode)
  | orbit => exact orbitHeader_announced atHeader
  | mf => exact absurd mode served

end Contained

end Process

open Process in
/-- A login header costs at most its own connection exactly when it has two
fields, and a file header exactly when it has a name that fits and a positive
size. -/
theorem header_contained (config : Config) (process : Process) (index : Nat) (bytes : List Byte) :
    (∀ sock, process.threads[index]? = some (.connection sock) →
      (process.LoginContained config index sock bytes ↔
        ∃ threadType userID, TwoFields (padded loginBuffer bytes) threadType userID)) ∧
    ∀ thread junk, config.mode ≠ .mf → process.threads[index]? = some (.transmit thread) →
      thread.state.pc = .header → thread.pending = [] → (config.mode = .tcp → bytes ≠ []) →
      (process.HeaderContained config index junk bytes ↔
        UsableHeader (padded (headerCapacity config.mode) bytes)) :=
  ⟨fun _ there => loginContained_iff bytes there,
    fun _ _ served there atHeader idle read =>
      headerContained_iff served there atHeader idle read⟩

/-- A connection before its login, and a thread that waits for a header. -/
def headerProcess : Process :=
  { Process.init ⟨.tcp, .disk, 1⟩ with
    threads := [.connection 4, .transmit { TransmitThread.init (ascii "user") with
      state := ⟨.header, false, 1, []⟩
      pending := [] }] }

/-- The headers of a login and of a file of one byte. -/
theorem header_contained_both :
    (headerProcess.LoginContained ⟨.tcp, .disk, 1⟩ 0 4 (ascii "transmit,other") ↔
      ∃ threadType userID,
        TwoFields (padded loginBuffer (ascii "transmit,other")) threadType userID) ∧
    (headerProcess.HeaderContained ⟨.tcp, .disk, 1⟩ 1 (fun _ => 0) (ascii "pics/a.jpg,1") ↔
      UsableHeader (padded (headerCapacity .tcp) (ascii "pics/a.jpg,1"))) :=
  ⟨(header_contained ⟨.tcp, .disk, 1⟩ headerProcess 0 (ascii "transmit,other")).1 4 rfl,
    (header_contained ⟨.tcp, .disk, 1⟩ headerProcess 1 (ascii "pics/a.jpg,1")).2
      { TransmitThread.init (ascii "user") with
        state := ⟨.header, false, 1, []⟩
        pending := [] } (fun _ => 0) (by decide) rfl rfl rfl (fun _ => by decide)⟩

/-- A login header without a comma ends the process. -/
theorem header_crashes_without_user :
    ¬ ∀ (config : Config) (process : Process) (index : Nat) (sock : Int) (bytes : List Byte),
      process.threads[index]? = some (.connection sock) → bytes.length ≤ loginBuffer →
      process.LoginContained config index sock bytes := by
  intro claimed
  obtain ⟨after, userID, stepped, -⟩ := claimed ⟨.tcp, .disk, 1⟩
    { Process.init ⟨.tcp, .disk, 1⟩ with threads := [.connection 4] } 0 4 (ascii "transmit") rfl
    (by decide)
  have faults : parseLogin (padded loginBuffer (ascii "transmit")) =
      .error .nullPointer := by decide +kernel
  simp only [Process.step, Process.header, List.getElem?_cons_zero, Option.getD_some] at stepped
  rw [if_neg (by simp), faults] at stepped
  cases stepped

end PaintingCPS
