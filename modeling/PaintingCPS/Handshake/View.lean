import PaintingCPS.Handshake.Agreement

/-!
Contract: an end of the connection, seen as a peer of the rendezvous.

`Party.peer` forgets bytes and pointers. `Party.Sound` says that an end is
initialised, that its tables agree, and that every message on its way here is
a frame of an id that `accept` can hand out, in a notation that this end reads.

Owns: the view and the invariant.

Does not own: the steps.
-/

set_option autoImplicit false

namespace PaintingCPS

open Foundation

/-! ## Notices of frames -/

/-- The kind and the id of a frame. -/
def Frame.notice : Frame → Notice
  | create => .create
  | accepted id => .accepted id
  | sock id _ => .data id
  | close id => .close id

/-- The notice of a message is the notice of its frame. -/
theorem notice_written {stop : Byte} (stops : stop = comma ∨ stop = nul) {frame : Frame}
    {message : List Byte} (written : Written stop frame message) :
    PaintingCPS.notice message = some frame.notice := by
  cases frame with
  | create =>
      obtain ⟨rest, rfl⟩ := written
      rw [notice, List.append_assoc, List.cons_append, strtok_terminated (by decide)]
      rfl
  | accepted id =>
      obtain ⟨range, rest, rfl⟩ := written
      obtain ⟨saved, token⟩ := strtok_id stops range (rest ++ [nul])
      rw [notice, List.append_assoc, List.cons_append, List.append_assoc, List.cons_append,
        isField_word (by decide)]
      dsimp only
      rw [if_neg (by decide), token]
      dsimp only
      rw [if_pos rfl, range.strtol_eq]
      rfl
  | sock id payload =>
      obtain ⟨socket, rfl, rfl⟩ := written
      obtain ⟨saved, token⟩ := strtok_id (.inl rfl) socket.range (payload ++ [nul])
      rw [socket.decimalInt_int] at token
      rw [notice, List.append_assoc, sockHeader_append, isField_word (by decide)]
      dsimp only
      rw [if_neg (by decide), token]
      dsimp only
      rw [if_neg (by decide), if_pos rfl, ← socket.decimalInt_int, socket.range.strtol_eq]
      rfl
  | close id =>
      obtain ⟨range, rest, rfl⟩ := written
      obtain ⟨saved, token⟩ := strtok_id stops range (rest ++ [nul])
      rw [notice, List.append_assoc, List.cons_append, List.append_assoc, List.cons_append,
        isField_word (by decide)]
      dsimp only
      rw [if_neg (by decide), token]
      dsimp only
      rw [if_neg (by decide), if_neg (by decide), if_pos rfl, range.strtol_eq]
      rfl

/-- The message is a frame that the language reads, and only a data frame may
be longer than the receive buffer. -/
def Understood (language : Language) (message : List Byte) : Prop :=
  ∃ frame stop, Written stop frame message ∧ (stop = comma ∨ stop = nul) ∧
    (language = .java → stop = comma ∧ frame ≠ .create) ∧
    (message.length ≤ maxChunk ∨ ∃ id payload, frame = .sock id payload)

/-- `listen` does what an understood message says. -/
theorem Understood.listen {language : Language} {message : List Byte}
    (understood : Understood language message) :
    ∃ frame : Frame, PaintingCPS.notice message = some frame.notice ∧
      (∀ id, frame = .accepted id ∨ frame = .close id → IdRange id) ∧
      ∀ (endpoint : MsgDistributor) (junk : Nat → Byte), endpoint.mfsockid ≠ -1 →
        language.listen junk endpoint (some message) = frame.effect endpoint := by
  obtain ⟨frame, stop, written, stops, java, -⟩ := understood
  refine ⟨frame, notice_written stops written, ?_, ?_⟩
  · rintro id (rfl | rfl)
    · exact written.1
    · exact written.1
  · intro endpoint junk initialised
    cases language with
    | cpp => exact Cpp.listen_frame initialised junk stops written
    | java =>
        obtain ⟨rfl, notCreate⟩ := java rfl
        exact Java.listen_frame initialised notCreate written

/-- What the network delivers of an understood message is understood and has
the same notice; only a data frame is refused. -/
theorem Understood.receive {mfrecv : List Byte → Option (List Byte)}
    (contract : ReceiveContract mfrecv) {language : Language} {message : List Byte}
    (understood : Understood language message) :
    (∃ stored, mfrecv message = some stored ∧ Understood language stored ∧
      PaintingCPS.notice stored = PaintingCPS.notice message) ∨
    (mfrecv message = none ∧ ∃ id, PaintingCPS.notice message = some (.data id)) := by
  by_cases short : message.length ≤ maxChunk
  · exact .inl ⟨message, contract.whole message short, understood, rfl⟩
  · obtain ⟨frame, stop, written, stops, java, fits⟩ := understood
    obtain ⟨id, payload, rfl⟩ := fits.resolve_left short
    have noticed := notice_written stops written
    obtain ⟨socket, rfl, rfl⟩ := written
    rcases contract.limited _ (Nat.lt_of_not_le short) with refused | cut
    · exact .inr ⟨refused, _, noticed⟩
    · have headerShort : (sockHeader socket).length ≤ maxChunk := by
        have := socket.digits_le
        rw [sockHeader_length, maxChunk]
        omega
      rw [List.take_append, List.take_of_length_le headerShort] at cut
      have writtenCut : Written comma
          (.sock socket.int (payload.take (maxChunk - (sockHeader socket).length)))
          (sockHeader socket ++ payload.take (maxChunk - (sockHeader socket).length)) :=
        ⟨socket, rfl, rfl⟩
      refine .inl ⟨_, cut, ⟨_, comma, writtenCut, .inl rfl, fun _ => ⟨rfl, by simp⟩,
        .inr ⟨_, _, rfl⟩⟩, ?_⟩
      rw [notice_written (.inl rfl) writtenCut, noticed]
      rfl

/-! ## The view -/

/-- What an end amounts to. -/
def Party.peer (party : Party) : Peer where
  counter := party.endpoint.mfsockid
  requests := party.endpoint.acceptSem
  offers := party.endpoint.connectQueue
  known id := (party.endpoint.semMap id).isSome
  recorded id := (party.endpoint.semMap id).isSome || (party.endpoint.queueMap id).isSome ||
    (party.endpoint.statusMap id).isSome
  idLock := party.idLock
  pc := party.pc
  arriving := (party.hand.toList ++ party.inbox).filterMap notice
  history := party.history

/-- The ids that a thread is about to use. -/
def Pc.ids : Pc → List Int
  | took id | entered id | allocated id | announced id | listed id | closing id => [id]
  | idle | connecting | requested | awaiting | accepting => []

/-- The invariant of one end. -/
structure Party.Sound (language : Language) (party : Party) : Prop where
  ready : party.endpoint.Ready
  permits : party.endpoint.connectSem = party.endpoint.connectQueue.length
  counter : 0 ≤ party.endpoint.mfsockid
  opened : ∀ id, (party.endpoint.semMap id).isSome → IdRange id
  offered : ∀ id ∈ party.endpoint.connectQueue, IdRange id
  threads : ∀ thread, ∀ id ∈ (party.pc thread).ids, IdRange id
  understood : ∀ message ∈ party.hand.toList ++ party.inbox, Understood language message

theorem Party.init_sound (language : Language) : Party.init.Sound language where
  ready := MsgDistributor.init_ready
  permits := rfl
  counter := by decide
  opened := by simp [Party.init, MsgDistributor.init]
  offered := by simp [Party.init, MsgDistributor.init]
  threads := by simp [Party.init, Pc.ids]
  understood := by simp [Party.init]

/-- What the skip loop of `accept` returns. -/
theorem nextId_spec {semMap : Int → Option Nat} {fuel : Nat} {mfsockid newID : Int}
    (found : nextId semMap fuel mfsockid = .ok newID) :
    mfsockid < newID ∧ newID < 2147483648 ∧ semMap newID = none ∧
      ∀ skipped, mfsockid < skipped → skipped < newID → (semMap skipped).isSome = true := by
  induction fuel generalizing mfsockid with
  | zero => cases found
  | succ fuel inductionHypothesis =>
      rw [nextId] at found
      split at found
      next => cases found
      next small =>
        split at found
        next free =>
          cases found
          exact ⟨by omega, by omega, free, fun skipped above below => by omega⟩
        next taken =>
          obtain ⟨above, below, free, skips⟩ := inductionHypothesis found
          refine ⟨by omega, below, free, fun skipped after before => ?_⟩
          by_cases first : skipped = mfsockid + 1
          · rw [first]
            exact Option.isSome_iff_ne_none.mpr taken
          · exact skips skipped (by omega) before

end PaintingCPS
