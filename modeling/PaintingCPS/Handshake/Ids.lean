import PaintingCPS.Handshake.Refinement

/-!
Contract: the ids that `connect` and `accept` return.

Owns: that no call faults while only one end connects and the other accepts,
and the agreement on ids in every state that such a run reaches.

Does not own: runs in which both ends do both.
-/

set_option autoImplicit false

namespace PaintingCPS

open Foundation

/-! ## No call faults -/

/-- The skip loop ends at the first number when that is free. -/
private theorem nextId_free {semMap : Int → Option Nat} {mfsockid : Int}
    (small : mfsockid + 1 < 2147483648) (free : semMap (mfsockid + 1) = none) :
    nextId semMap (2147483648 - mfsockid).toNat mfsockid = .ok (mfsockid + 1) := by
  obtain ⟨fuel, fuelEq⟩ : ∃ fuel, (2147483648 - mfsockid).toNat = fuel + 1 :=
    ⟨(2147483648 - mfsockid).toNat - 1, by omega⟩
  rw [fuelEq, nextId, if_neg (by omega), if_pos free]

/-- A step that is not `send` returns, if `accept` has a number left. -/
private theorem Party.move_returns {mfrecv : List Byte → Option (List Byte)}
    {language : Language} {junk : Nat → Byte} {party : Party} {move : Move}
    (sound : party.Sound language) (accepts : move.accepts = true → language = .cpp)
    (noSend : move.sends = false)
    (allocates : move.allocates = true →
      party.endpoint.mfsockid + 1 < 2147483648 ∧
        party.endpoint.semMap (party.endpoint.mfsockid + 1) = none)
    (fault : Fault) : party.move mfrecv language junk move ≠ some (.error fault) := by
  intro faulted
  cases move with
  | connectLock thread =>
      simp only [Party.move, Party.connectLock] at faulted
      split at faulted <;> (try (unfold Party.lock at faulted; split at faulted)) <;>
        cases faulted
  | connectSend thread =>
      rw [Party.move] at faulted
      unfold Party.connectSend at faulted
      split at faulted
      next =>
        obtain ⟨rest, -, formatted⟩ := Cpp.connectFrame_eq junk
        rw [formatted, Party.sending_ok] at faulted
        simp at faulted
      next =>
        obtain ⟨zeros, formatted⟩ := Java.connectFrame_eq
        rw [formatted, Party.sending_ok] at faulted
        simp at faulted
      next => cases faulted
  | connectTake thread =>
      simp only [Party.move, Party.connectTake] at faulted
      split at faulted
      next =>
        split at faulted
        next => cases faulted
        next permit =>
          split at faulted
          next empty =>
            have permits := sound.permits
            rw [empty] at permits
            exact permit permits
          next => cases faulted
      next => cases faulted
  | connectRegister thread =>
      simp only [Party.move, Party.connectRegister] at faulted
      split at faulted <;> cases faulted
  | connectReturn thread =>
      simp only [Party.move, Party.connectReturn] at faulted
      split at faulted <;> cases faulted
  | acceptWait thread =>
      simp only [Party.move, Party.acceptWait] at faulted
      split at faulted <;> (try split at faulted) <;> cases faulted
  | acceptAllocate thread =>
      obtain ⟨small, free⟩ := allocates rfl
      simp only [Party.move, Party.acceptAllocate, nextId_free small free] at faulted
      split at faulted <;> (try split at faulted) <;> cases faulted
  | acceptSend thread =>
      simp only [Party.move, Party.acceptSend] at faulted
      split at faulted
      next newID atAllocated =>
        have range : IdRange newID :=
          sound.threads thread newID (by rw [atAllocated]; simp [Pc.ids])
        obtain ⟨rest, formatted⟩ := Cpp.acceptFrame_eq junk range
        rw [formatted, Party.sending_ok] at faulted
        cases faulted
      next => cases faulted
  | acceptRegister thread =>
      simp only [Party.move, Party.acceptRegister] at faulted
      split at faulted <;> cases faulted
  | acceptReturn thread =>
      simp only [Party.move, Party.acceptReturn] at faulted
      split at faulted <;> cases faulted
  | closeTables thread sock =>
      simp only [Party.move, Party.closeTables] at faulted
      split at faulted <;> (try split at faulted) <;> cases faulted
  | closeSend thread =>
      simp only [Party.move, Party.closeSend] at faulted
      split at faulted
      next sock atClosing =>
        have range : IdRange sock := sound.threads thread sock (by rw [atClosing]; simp [Pc.ids])
        cases language with
        | cpp =>
            obtain ⟨rest, formatted⟩ := Cpp.closeFrame_eq junk range
            dsimp only at faulted
            rw [formatted, Party.sending_ok] at faulted
            cases faulted
        | java =>
            obtain ⟨zeros, -, formatted⟩ := Java.closeFrame_eq range
            dsimp only at faulted
            rw [formatted, Party.sending_ok] at faulted
            cases faulted
      next => cases faulted
  | send sock payload => cases noSend
  | receive =>
      simp only [Party.move, Party.receive] at faulted
      split at faulted <;> cases faulted
  | dispatch =>
      simp only [Party.move, Party.dispatch] at faulted
      split at faulted
      next => cases faulted
      next bytes handEq =>
        obtain ⟨frame, -, -, listens⟩ := (sound.understood bytes (by rw [handEq]; simp)).listen
        obtain ⟨after, ret, effect⟩ := frame.effect_ready sound.ready
        rw [listens _ junk sound.ready.initialised, effect] at faulted
        cases faulted

/-! ## Agreement -/

/-- One end connects, the other accepts fewer than `2^31 - 1` times; `close`
calls come at any time. -/
def HandshakeStep.Agreeing (handshake : Handshake) (label : HandshakeStep) : Prop :=
  label.side.Plays label.move ∧ label.move.sends = false ∧
    (label.move.allocates = true →
      (handshake.party label.side).history.allocated.length + 1 < 2147483647)

instance (handshake : Handshake) (label : HandshakeStep) :
    Decidable (label.Agreeing handshake) :=
  inferInstanceAs (Decidable (_ ∧ _))

/-- What both ends can rely on. -/
structure Handshake.Agrees (handshake : Handshake) : Prop where
  /-- No call has failed to return. -/
  returns : handshake.fault = none
  /-- The ids returned by `connect` are distinct. -/
  distinct : (handshake.party .client).history.connected.Nodup
  /-- Each of them was chosen by exactly one `accept`. -/
  allocatedOnce : ∀ id ∈ (handshake.party .client).history.connected,
    (handshake.party .server).history.allocated.count id = 1
  /-- No id is handed to two `connect` calls. -/
  takenOnce : (handshake.party .client).history.taken.Nodup
  /-- An id that `accept` has just chosen is neither in use nor was it returned. -/
  fresh : ∀ thread id, (handshake.party .server).pc thread = .allocated id →
    (handshake.party .server).endpoint.semMap id = none ∧
      id ∉ (handshake.party .server).history.accepted
  /-- An id that `connect` is about to register has no entry in any map. -/
  unregistered : ∀ thread id, (handshake.party .client).pc thread = .took id →
    (handshake.party .client).endpoint.semMap id = none ∧
      (handshake.party .client).endpoint.queueMap id = none ∧
      (handshake.party .client).endpoint.statusMap id = none
  /-- Every `create` frame is in flight, pending, or has started an `accept`. -/
  creates : (handshake.party .client).history.createsSent =
    Notice.creates (handshake.party .server).peer.arriving +
      (handshake.party .server).endpoint.acceptSem +
      (handshake.party .server).history.acceptsStarted
  /-- Every `accepted` frame is in flight, in `connect_queue`, or taken. -/
  accepts : (handshake.party .server).history.announced.length =
    (Notice.offers (handshake.party .client).peer.arriving).length +
      (handshake.party .client).endpoint.connectQueue.length +
      (handshake.party .client).history.taken.length

/-- The agreement of the rendezvous, read off the state of the threads. -/
private theorem Handshake.agrees_of_view {handshake : Handshake}
    (returns : handshake.fault = none) (agreement : handshake.view.Agreement) :
    handshake.Agrees where
  returns := returns
  distinct := agreement.connected_nodup
  allocatedOnce _ member := agreement.allocated_once member
  takenOnce := agreement.taken_nodup
  fresh thread id atAllocated := by
    obtain ⟨unrecorded, unreturned⟩ := agreement.acceptor.allocated_fresh atAllocated
    simp only [Handshake.view, Party.peer, Bool.or_eq_false_iff, Option.isSome_eq_false_iff,
      Option.isNone_iff_eq_none] at unrecorded
    exact ⟨unrecorded.1.1, unreturned⟩
  unregistered thread id atTook := by
    have unrecorded := agreement.connector.took_fresh agreement.taken_nodup atTook
    simp only [Handshake.view, Party.peer, Bool.or_eq_false_iff, Option.isSome_eq_false_iff,
      Option.isNone_iff_eq_none] at unrecorded
    exact ⟨unrecorded.1.1, unrecorded.1.2, unrecorded.2⟩
  creates := (agreement.requests .server).symm
  accepts := by
    have announced := congrArg List.length (agreement.offers .client)
    simp only [List.length_append] at announced
    change _ = (handshake.party .server).history.announced.length at announced
    rw [← announced]
    simp only [Handshake.view, Party.peer]
    omega

/-- What a run of the handshake maintains. -/
private structure Handshake.Running (connector : Language) (handshake : Handshake) : Prop where
  sound : handshake.Sound connector
  agreement : handshake.view.Agreement
  returns : handshake.fault = none

private theorem Handshake.Running.next {mfrecv : List Byte → Option (List Byte)}
    (contract : ReceiveContract mfrecv) {connector : Language} {handshake after : Handshake}
    {label : HandshakeStep} (running : handshake.Running connector)
    (agreeing : label.Agreeing handshake)
    (step : (handshakeMachine mfrecv connector).transition handshake label after) :
    after.Running connector := by
  obtain ⟨role, noSend, bounded⟩ := agreeing
  have plays : label.Plays connector := ⟨role, fun _ => noSend⟩
  obtain ⟨sound, moves⟩ := Handshake.step_refines contract running.sound plays step
  refine ⟨sound, ?_, ?_⟩
  · rcases moves with same | stepped
    · rw [same]
      exact running.agreement
    · exact running.agreement.step role stepped
  · have accepts : label.move.accepts = true → label.side.language connector = .cpp := by
      intro accepting
      cases sideEq : label.side with
      | client =>
          rw [sideEq] at role
          exact absurd accepting (by rw [show label.move.accepts = false from role]; simp)
      | server => rfl
    have allocates : label.move.allocates = true →
        (handshake.party label.side).endpoint.mfsockid + 1 < 2147483648 ∧
          (handshake.party label.side).endpoint.semMap
            ((handshake.party label.side).endpoint.mfsockid + 1) = none := by
      intro allocating
      have isServer : label.side = .server := by
        cases sideEq : label.side with
        | client =>
            rw [sideEq] at role
            revert role allocating
            cases label.move <;> simp [Side.Plays, Move.accepts, Move.allocates]
        | server => rfl
      have few := bounded allocating
      rw [isServer] at few ⊢
      have acceptor := running.agreement.acceptor
      have counter : (handshake.party .server).endpoint.mfsockid =
          (handshake.party .server).history.allocated.length := acceptor.counter
      have unknown := acceptor.known_next
      simp only [Handshake.view, Party.peer, Option.isSome_eq_false_iff,
        Option.isNone_iff_eq_none] at unknown
      exact ⟨by omega, unknown⟩
    simp only [Machine.transition, handshakeMachine, running.returns, Option.isSome_none,
      Bool.false_eq_true, if_false] at step
    split at step
    next => cases step
    next fault faulted =>
      exact absurd faulted (Party.move_returns (running.sound label.side) accepts noSend
        allocates fault)
    next party message _ =>
      cases step
      exact running.returns

/-- In every run in which one end only connects and the other only accepts:
the ids are distinct, each stems from one `accept`, no map entry is
overwritten, and no handshake is lost or invented. -/
theorem handshake_agrees {mfrecv : List Byte → Option (List Byte)}
    (contract : ReceiveContract mfrecv) (connector : Language) {finish : Handshake}
    (reached : (handshakeMachine mfrecv connector).ReachesUnder
      (fun handshake label => label.Agreeing handshake) .init finish) :
    finish.Agrees := by
  have running : finish.Running connector :=
    reached.invariant ⟨Handshake.init_sound connector, Handshake.init_agreement, rfl⟩
      fun running agreeing step => running.next contract agreeing step
  exact Handshake.agrees_of_view running.returns running.agreement

/-- A schedule in which `connect` and `accept` agree on id 1, which the client
then closes. -/
def handshakeSchedule : List HandshakeStep :=
  [⟨.client, fun _ => 0, .connectLock 0⟩, ⟨.client, fun _ => 0, .connectSend 0⟩,
    ⟨.server, fun _ => 0, .receive⟩, ⟨.server, fun _ => 0, .dispatch⟩,
    ⟨.server, fun _ => 0, .acceptWait 0⟩, ⟨.server, fun _ => 0, .acceptAllocate 0⟩,
    ⟨.server, fun _ => 0, .acceptSend 0⟩, ⟨.server, fun _ => 0, .acceptRegister 0⟩,
    ⟨.server, fun _ => 0, .acceptReturn 0⟩, ⟨.client, fun _ => 0, .receive⟩,
    ⟨.client, fun _ => 0, .dispatch⟩, ⟨.client, fun _ => 0, .connectTake 0⟩,
    ⟨.client, fun _ => 0, .connectRegister 0⟩, ⟨.client, fun _ => 0, .connectReturn 0⟩,
    ⟨.client, fun _ => 0, .closeTables 0 1⟩, ⟨.client, fun _ => 0, .closeSend 0⟩]

theorem handshake_agrees_closed : ∃ finish : Handshake,
    (finish.party .client).history.connected = [1] ∧ finish.Agrees := by
  obtain ⟨finish, reached, connected⟩ := Machine.exists_of_run
    (show (((handshakeMachine boundedReceive .cpp).run
        (fun handshake label => label.Agreeing handshake) .init handshakeSchedule).map
      fun finish => decide ((finish.party .client).history.connected = [1])) = some true by
      decide +kernel)
  exact ⟨finish, of_decide_eq_true connected,
    handshake_agrees boundedReceive_contract .cpp reached⟩

end PaintingCPS
