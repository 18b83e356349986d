import PaintingCPS.MsgDistributor.Decoding

/-!
Contract: which frames the two implementations understand from each other.

An `Emitter` is one of the nine places that put a frame on the network. The
network function `mfrecv` is outside this repository; `ReceiveContract` is what
the code relies on.

Owns: the emitters, the interoperability property, and the exact table of
pairs for which it holds.

Does not own: runs of more than one frame.
-/

set_option autoImplicit false

namespace PaintingCPS

open Foundation

/-! ## Senders and receivers -/

/-- The transmissions of `connect`, `accept`, `send`, `close(id, 0)` in both
languages, and of `client_stop`. -/
inductive Emitter where
  | cppConnect
  | cppAccept (id : SocketId)
  | cppSend (id : SocketId) (payload : List Byte)
  | cppClose (id : SocketId)
  | clientStop (id : SocketId)
  | javaConnect
  | javaAccept (id : SocketId)
  | javaSend (id : SocketId) (payload : List Byte)
  | javaClose (id : SocketId)
deriving DecidableEq, Repr

namespace Emitter

/-- What the emitter wants to say. -/
def frame : Emitter → Frame
  | cppConnect | javaConnect => .create
  | cppAccept id | javaAccept id => .accepted id.int
  | cppSend id payload | javaSend id payload => .sock id.int payload
  | cppClose id | clientStop id | javaClose id => .close id.int

/-- The bytes it hands to `mfsend`. -/
def bytes (junk : Nat → Byte) : Emitter → Except Fault (List Byte)
  | cppConnect => Cpp.connectFrame junk
  | cppAccept id => Cpp.acceptFrame junk id.int
  | cppSend id payload => Cpp.sendFrame junk id.int payload
  | cppClose id => Cpp.closeFrame junk id.int
  | clientStop id => Cpp.clientStopFrame id.int
  | javaConnect => Java.connectFrame
  | javaAccept id => Java.acceptFrame id.int
  | javaSend id payload => Java.sendFrame id.int payload
  | javaClose id => Java.closeFrame id.int

end Emitter

/-- The implementation that an endpoint runs. -/
inductive Language where
  | cpp
  | java
deriving DecidableEq, Repr

/-- `listen` of the endpoint's implementation. -/
def Language.listen (language : Language) (junk : Nat → Byte) (endpoint : MsgDistributor)
    (received : Option (List Byte)) : Except Fault (MsgDistributor × Int) :=
  match language with
  | cpp => Cpp.listen junk endpoint received
  | java => Java.listen endpoint received

/-- A message that fits into `MAX_CHUNK` bytes is received whole; a longer one
is cut or refused. -/
structure ReceiveContract (mfrecv : List Byte → Option (List Byte)) : Prop where
  whole : ∀ message, message.length ≤ maxChunk → mfrecv message = some message
  limited : ∀ message, maxChunk < message.length →
    mfrecv message = none ∨ mfrecv message = some (message.take maxChunk)

/-- On every initialised endpoint, one `listen` call on the emitted frame
returns and does what the frame says. -/
def Interoperates (mfrecv : List Byte → Option (List Byte)) (sendJunk recvJunk : Nat → Byte)
    (emitter : Emitter) (receiver : Language) : Prop :=
  ∀ endpoint : MsgDistributor, endpoint.Ready →
    ∃ message after ret,
      emitter.bytes sendJunk = .ok message ∧
      receiver.listen recvJunk endpoint (mfrecv message) = .ok (after, ret) ∧
      emitter.frame.effect endpoint = .ok (after, ret)

/-! ## The condition -/

namespace Emitter

/-- The C++ `send` has no room for its terminator without a payload, and no
receiver has room for more than `MAX_CHUNK` bytes. -/
def fits : Emitter → Prop
  | cppSend id payload =>
      payload ≠ [] ∧ (sockHeader id ++ payload).length ≤ maxChunk
  | javaSend id payload => (sockHeader id ++ payload).length ≤ maxChunk
  | _ => True

/-- Java reads the id up to the next comma and knows no terminator. -/
def understoodBy : Language → Emitter → Prop
  | .cpp, _ => True
  | .java, cppAccept _ | .java, cppSend _ _ | .java, cppClose _ | .java, javaSend _ _ => True
  | .java, cppConnect | .java, clientStop _ | .java, javaConnect | .java, javaAccept _
  | .java, javaClose _ => False

end Emitter

/-! ## Frames on the wire -/

private theorem bufferSize_le : bufferSize ≤ maxChunk := by decide

/-- The bytes of an emitter that fits: which byte ends the id, and that the
receiver can store them. -/
private theorem Emitter.written (junk : Nat → Byte) {emitter : Emitter} (fits : emitter.fits) :
    ∃ message stop, emitter.bytes junk = .ok message ∧ Written stop emitter.frame message ∧
      (stop = comma ∨ stop = nul) ∧ message.length ≤ maxChunk ∧
      (emitter.understoodBy .java → stop = comma ∧ emitter.frame ≠ .create) := by
  cases emitter with
  | cppConnect =>
      obtain ⟨rest, -, formatted⟩ := Cpp.connectFrame_eq junk
      have length := sprintf_length formatted
      rw [uninitialised_length] at length
      exact ⟨_, nul, formatted, ⟨rest, rfl⟩, .inr rfl, length ▸ bufferSize_le, False.elim⟩
  | cppAccept id =>
      obtain ⟨rest, formatted⟩ := Cpp.acceptFrame_eq junk id.range
      have length := sprintf_length formatted
      rw [uninitialised_length] at length
      exact ⟨_, comma, formatted, ⟨id.range, nul :: rest, rfl⟩, .inl rfl, length ▸ bufferSize_le,
        fun _ => ⟨rfl, by simp [Emitter.frame]⟩⟩
  | cppSend id payload =>
      exact ⟨_, comma, Cpp.sendFrame_eq junk id fits.1, ⟨id, rfl, rfl⟩, .inl rfl, fits.2,
        fun _ => ⟨rfl, by simp [Emitter.frame]⟩⟩
  | cppClose id =>
      obtain ⟨rest, formatted⟩ := Cpp.closeFrame_eq junk id.range
      have length := sprintf_length formatted
      rw [uninitialised_length] at length
      exact ⟨_, comma, formatted, ⟨id.range, nul :: rest, rfl⟩, .inl rfl, length ▸ bufferSize_le,
        fun _ => ⟨rfl, by simp [Emitter.frame]⟩⟩
  | clientStop id =>
      obtain ⟨zeros, positive, formatted⟩ := Cpp.clientStopFrame_eq id.range
      have length := sprintf_length formatted
      obtain ⟨more, rfl⟩ := Nat.exists_eq_add_of_lt positive
      rw [List.length_replicate] at length
      exact ⟨_, nul, formatted, ⟨id.range, List.replicate (0 + more) nul, rfl⟩, .inr rfl,
        length ▸ bufferSize_le, False.elim⟩
  | javaConnect =>
      obtain ⟨zeros, formatted⟩ := Java.connectFrame_eq
      have length := Java.controlFrame_length formatted
      exact ⟨_, nul, formatted, ⟨List.replicate zeros nul, rfl⟩, .inr rfl,
        length ▸ bufferSize_le, False.elim⟩
  | javaAccept id =>
      obtain ⟨zeros, positive, formatted⟩ := Java.acceptFrame_eq id.range
      have length := Java.controlFrame_length formatted
      obtain ⟨more, rfl⟩ := Nat.exists_eq_add_of_lt positive
      exact ⟨_, nul, formatted, ⟨id.range, List.replicate (0 + more) nul, rfl⟩, .inr rfl,
        length ▸ bufferSize_le, False.elim⟩
  | javaSend id payload =>
      exact ⟨_, comma, Java.sendFrame_eq id payload, ⟨id, rfl, rfl⟩, .inl rfl, fits,
        fun _ => ⟨rfl, by simp [Emitter.frame]⟩⟩
  | javaClose id =>
      obtain ⟨zeros, positive, formatted⟩ := Java.closeFrame_eq id.range
      have length := Java.controlFrame_length formatted
      obtain ⟨more, rfl⟩ := Nat.exists_eq_add_of_lt positive
      exact ⟨_, nul, formatted, ⟨id.range, List.replicate (0 + more) nul, rfl⟩, .inr rfl,
        length ▸ bufferSize_le, False.elim⟩

/-- On an initialised endpoint every frame has an effect: no pointer is null. -/
theorem Frame.effect_ready (frame : Frame) {endpoint : MsgDistributor} (ready : endpoint.Ready) :
    ∃ after ret, frame.effect endpoint = .ok (after, ret) := by
  cases frame with
  | create => exact ⟨_, _, rfl⟩
  | accepted id => exact ⟨_, _, rfl⟩
  | sock id payload =>
      rw [Frame.effect]
      cases found : endpoint.semMap id with
      | none => exact ⟨_, _, rfl⟩
      | some semaphore =>
          obtain ⟨after, delivered, -⟩ := ready.deliver (by rw [found]; rfl) payload
          exact ⟨after, 0, by rw [delivered]; rfl⟩
  | close id => exact ⟨_, _, rfl⟩

/-! ## Frames that are lost -/

/-- A data frame for a registered id ends up in its queue. -/
private theorem Frame.effect_sock_registered (id : SocketId) (payload : List Byte) :
    ∃ after, (Frame.sock id.int payload).effect (MsgDistributor.init.register id.int) =
        .ok (after, 0) ∧
      after.connection id.int = some ⟨1, [payload]⟩ := by
  have table := MsgDistributor.register_connection MsgDistributor.init_separated id.int
  have opened : (MsgDistributor.init.register id.int).connection id.int = some ⟨0, []⟩ := by
    rw [table, Function.update_self]
  obtain ⟨after, delivered, afterTable, -⟩ := MsgDistributor.deliver_open
    (MsgDistributor.register_separated MsgDistributor.init_separated id.int) opened payload
  have found : (MsgDistributor.init.register id.int).semMap id.int = some 0 := by
    simp [MsgDistributor.register, MsgDistributor.init]
  refine ⟨after, ?_, by rw [afterTable, Function.update_self]; rfl⟩
  rw [Frame.effect, found]
  dsimp only
  rw [delivered]
  rfl

/-- A message that does not fit the receive buffer loses its end or is refused,
so the queue does not get the payload. -/
private theorem oversize_lost {mfrecv : List Byte → Option (List Byte)}
    (contract : ReceiveContract mfrecv) (recvJunk : Nat → Byte) (receiver : Language)
    (id : SocketId) (payload : List Byte)
    (long : maxChunk < (sockHeader id ++ payload).length) (after : MsgDistributor) (ret : Int)
    (effect : (Frame.sock id.int payload).effect (MsgDistributor.init.register id.int) =
      .ok (after, ret)) :
    receiver.listen recvJunk (MsgDistributor.init.register id.int)
      (mfrecv (sockHeader id ++ payload)) ≠ .ok (after, ret) := by
  have ready := MsgDistributor.init_ready.register id.int
  obtain ⟨stored, storedEffect, storedTable⟩ := Frame.effect_sock_registered id payload
  rw [effect, Except.ok.injEq, Prod.mk.injEq] at storedEffect
  obtain ⟨rfl, rfl⟩ := storedEffect
  intro listened
  rcases contract.limited _ long with refused | cut
  · -- `listen` returns -1, the effect returns 0
    rw [refused] at listened
    cases receiver <;>
      simp [Language.listen, Cpp.listen, Java.listen, ready.initialised] at listened
  · -- the queue gets what is left of the payload
    have headerShort : (sockHeader id).length ≤ maxChunk := by
      have := id.digits_le
      rw [sockHeader_length, maxChunk]
      omega
    have kept : (sockHeader id ++ payload).take maxChunk =
        sockHeader id ++ payload.take (maxChunk - (sockHeader id).length) := by
      rw [List.take_append, List.take_of_length_le headerShort]
    rw [cut, kept] at listened
    have cutEffect : receiver.listen recvJunk (MsgDistributor.init.register id.int)
        (some (sockHeader id ++ payload.take (maxChunk - (sockHeader id).length))) =
        (Frame.sock id.int (payload.take (maxChunk - (sockHeader id).length))).effect
          (MsgDistributor.init.register id.int) := by
      cases receiver with
      | cpp => exact Cpp.listen_frame ready.initialised recvJunk (.inl rfl) ⟨id, rfl, rfl⟩
      | java => exact Java.listen_frame ready.initialised (by simp) ⟨id, rfl, rfl⟩
    obtain ⟨short, shortEffect, shortTable⟩ := Frame.effect_sock_registered id
      (payload.take (maxChunk - (sockHeader id).length))
    rw [cutEffect, shortEffect, Except.ok.injEq, Prod.mk.injEq] at listened
    obtain ⟨rfl, -⟩ := listened
    rw [storedTable] at shortTable
    have lengths := congrArg (fun connection => connection.map fun open' =>
      open'.blocks.map List.length) shortTable
    simp only [Option.map_some, List.map_cons, List.map_nil, Option.some.injEq,
      List.cons.injEq, and_true, List.length_take] at lengths
    rw [List.length_append] at long
    omega

/-- Java returns -1 or throws on a frame whose id ends at NUL, and on
`create`. -/
private theorem java_lost {mfrecv : List Byte → Option (List Byte)}
    (contract : ReceiveContract mfrecv) {sendJunk : Nat → Byte} {emitter : Emitter}
    (foreign : ¬ emitter.understoodBy .java) {message : List Byte}
    (emitted : emitter.bytes sendJunk = .ok message) (after : MsgDistributor) (ret : Int)
    (effect : emitter.frame.effect MsgDistributor.init = .ok (after, ret)) :
    Java.listen MsgDistributor.init (mfrecv message) ≠ .ok (after, ret) := by
  have fits : emitter.fits := by
    cases emitter <;> first | trivial | exact absurd trivial foreign
  obtain ⟨same, -, sameEmitted, -, -, short, -⟩ := Emitter.written sendJunk fits
  rw [emitted, Except.ok.injEq] at sameEmitted
  subst sameEmitted
  rw [contract.whole _ short]
  have initialised := MsgDistributor.init_ready.initialised
  have unanswered : ∀ rest, message = ascii "create" ++ nul :: rest →
      emitter.frame = .create →
      Java.listen MsgDistributor.init (some message) ≠ .ok (after, ret) := by
    rintro rest rfl frameEq listened
    rw [Java.listen_create initialised] at listened
    rw [frameEq, Frame.effect] at effect
    simp only [Except.ok.injEq, Prod.mk.injEq] at listened effect
    have : (-1 : Int) = 0 := listened.2.trans effect.2.symm
    omega
  have thrown : ∀ (word : String) (id : Int) (zeros : Nat), IdRange id →
     
      word = "accepted" ∨ word = "close" → 0 < zeros →
      message = ascii word ++ comma :: (decimalInt id ++ List.replicate zeros nul) →
      Java.listen MsgDistributor.init (some message) ≠ .ok (after, ret) := by
    rintro word id zeros range control positive rfl listened
    rw [Java.listen_padded initialised control range positive] at listened
    cases listened
  cases emitter with
  | cppConnect =>
      obtain ⟨rest, -, formatted⟩ := Cpp.connectFrame_eq sendJunk
      exact unanswered rest (Except.ok.inj (emitted.symm.trans formatted)) rfl
  | javaConnect =>
      obtain ⟨zeros, formatted⟩ := Java.connectFrame_eq
      exact unanswered _ (Except.ok.inj (emitted.symm.trans formatted)) rfl
  | clientStop id =>
      obtain ⟨zeros, positive, formatted⟩ := Cpp.clientStopFrame_eq id.range
      exact thrown "close" _ zeros id.range (.inr rfl) positive
        (Except.ok.inj (emitted.symm.trans formatted))
  | javaAccept id =>
      obtain ⟨zeros, positive, formatted⟩ := Java.acceptFrame_eq id.range
      exact thrown "accepted" _ zeros id.range (.inl rfl) positive
        (Except.ok.inj (emitted.symm.trans formatted))
  | javaClose id =>
      obtain ⟨zeros, positive, formatted⟩ := Java.closeFrame_eq id.range
      exact thrown "close" _ zeros id.range (.inr rfl) positive
        (Except.ok.inj (emitted.symm.trans formatted))
  | cppAccept id => exact absurd trivial foreign
  | cppSend id payload => exact absurd trivial foreign
  | cppClose id => exact absurd trivial foreign
  | javaSend id payload => exact absurd trivial foreign

/-! ## The table of pairs -/

/-- A frame that does not fit is not received. -/
private theorem fits_of_interoperates {mfrecv : List Byte → Option (List Byte)}
    (contract : ReceiveContract mfrecv) {sendJunk recvJunk : Nat → Byte}
    {emitter : Emitter} {receiver : Language}
    (interoperates : Interoperates mfrecv sendJunk recvJunk emitter receiver) :
    emitter.fits := by
  have short : ∀ id payload, emitter.bytes sendJunk = .ok (sockHeader id ++ payload) →
      emitter.frame = .sock id.int payload → (sockHeader id ++ payload).length ≤ maxChunk := by
    intro id payload formatted frameEq
    by_contra long
    obtain ⟨message, after, ret, emitted, listened, effect⟩ :=
      interoperates _ (MsgDistributor.init_ready.register id.int)
    rw [formatted, Except.ok.injEq] at emitted
    subst emitted
    rw [frameEq] at effect
    exact oversize_lost contract recvJunk receiver id payload (by omega) after ret effect listened
  cases emitter with
  | cppSend id payload =>
      have nonempty : payload ≠ [] := by
        rintro rfl
        obtain ⟨message, -, -, emitted, -⟩ := interoperates _ MsgDistributor.init_ready
        rw [Emitter.bytes, Cpp.sendFrame_empty] at emitted
        cases emitted
      exact ⟨nonempty, short id payload (Cpp.sendFrame_eq sendJunk id nonempty) rfl⟩
  | javaSend id payload => exact short id payload (Java.sendFrame_eq id payload) rfl
  | _ => trivial

/-- A receiver handles a frame as meant exactly when the frame fits and its
notation is one that the receiver knows. -/
theorem interoperates_iff {mfrecv : List Byte → Option (List Byte)}
    (contract : ReceiveContract mfrecv) (sendJunk recvJunk : Nat → Byte)
    (emitter : Emitter) (receiver : Language) :
    Interoperates mfrecv sendJunk recvJunk emitter receiver ↔
      emitter.fits ∧ emitter.understoodBy receiver := by
  constructor
  · intro interoperates
    refine ⟨fits_of_interoperates contract interoperates, ?_⟩
    cases receiver with
    | cpp => trivial
    | java =>
        by_contra foreign
        obtain ⟨message, after, ret, emitted, listened, effect⟩ :=
          interoperates _ MsgDistributor.init_ready
        exact java_lost contract foreign emitted after ret effect listened
  · rintro ⟨fits, understood⟩ endpoint ready
    obtain ⟨message, stop, emitted, written, stops, short, javaForm⟩ :=
      Emitter.written sendJunk fits
    obtain ⟨after, ret, effect⟩ := emitter.frame.effect_ready ready
    refine ⟨message, after, ret, emitted, ?_, effect⟩
    rw [contract.whole message short, ← effect]
    cases receiver with
    | cpp => exact Cpp.listen_frame ready.initialised recvJunk stops written
    | java =>
        obtain ⟨rfl, notCreate⟩ := javaForm understood
        exact Java.listen_frame ready.initialised notCreate written

/-- A network function that refuses what does not fit. -/
def boundedReceive (message : List Byte) : Option (List Byte) :=
  if message.length ≤ maxChunk then some message else none

theorem boundedReceive_contract : ReceiveContract boundedReceive where
  whole message short := if_pos short
  limited message long := .inl (if_neg (by omega))

/-- The C++ server understands the Java client's `create`. -/
theorem interoperates_iff_javaConnect :
    ReceiveContract boundedReceive ∧
      (Interoperates boundedReceive (fun _ => 0) (fun _ => 0) .javaConnect .cpp ↔
        Emitter.javaConnect.fits ∧ Emitter.javaConnect.understoodBy .cpp) :=
  ⟨boundedReceive_contract, interoperates_iff boundedReceive_contract _ _ _ _⟩

/-- The Java `listen` discards a C++ `create`. -/
theorem create_discarded_by_java :
    ReceiveContract boundedReceive ∧
      ¬ Interoperates boundedReceive (fun _ => 0) (fun _ => 0) .cppConnect .java := by
  refine ⟨boundedReceive_contract, fun interoperates => ?_⟩
  obtain ⟨message, after, ret, emitted, listened, effect⟩ :=
    interoperates _ MsgDistributor.init_ready
  exact java_lost boundedReceive_contract (by exact id) emitted after ret effect listened

end PaintingCPS
