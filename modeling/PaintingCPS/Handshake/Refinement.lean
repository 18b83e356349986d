import PaintingCPS.Handshake.Moves

/-!
Contract: the threads refine the rendezvous.

What one end sends goes to the tail of the queue of the other, and both ends
keep their invariants.

Owns: the simulation.

Does not own: the invariants of the rendezvous.
-/

set_option autoImplicit false

namespace PaintingCPS

open Foundation

/-- The two ends without bytes and pointers. -/
def Handshake.view (handshake : Handshake) : Rendezvous := fun side => (handshake.party side).peer

/-- Both ends keep their invariant. -/
def Handshake.Sound (connector : Language) (handshake : Handshake) : Prop :=
  ∀ side, (handshake.party side).Sound (side.language connector)

theorem Handshake.init_sound (connector : Language) : Handshake.init.Sound connector :=
  fun side => Party.init_sound (side.language connector)

/-- The initial state agrees. -/
theorem Handshake.init_agreement : Handshake.init.view.Agreement where
  connector :=
    { role := fun _ => rfl
      locked := fun _ holds => by cases holds
      taken := rfl
      connected := rfl
      recorded := fun _ found => by cases found
      known := fun _ found => by cases found }
  acceptor :=
    { role := fun _ => rfl
      locked := fun _ holds => by cases holds
      allocated := rfl
      announced := rfl
      accepted := rfl
      counter := rfl
      bounds := fun _ member => by cases member
      fresh := List.nodup_nil
      recorded := fun _ found => by cases found
      known := fun _ found => by cases found }
  offers side := by cases side <;> rfl
  requests side := by cases side <;> rfl

/-- Only the client connects and only the server accepts. -/
def HandshakeStep.Plays (connector : Language) (label : HandshakeStep) : Prop :=
  label.side.Plays label.move ∧ label.move.Modelled (label.side.language connector)

/-- A message that is posted joins the notices of its reader. -/
private theorem Party.post_peer (party : Party) (message : Option (List Byte)) :
    (party.post message).peer = party.peer.post (message.bind notice) := by
  cases message with
  | none => simp [Party.post, Party.peer, Peer.post]
  | some bytes =>
      cases noticed : notice bytes <;>
        simp [Party.post, Party.peer, Peer.post, noticed]

private theorem Party.Sound.post {language : Language} {party : Party}
    (sound : party.Sound language) {message : Option (List Byte)}
    (understood : ∀ bytes, message = some bytes → Understood language bytes) :
    (party.post message).Sound language where
  ready := sound.ready
  permits := sound.permits
  counter := sound.counter
  opened := sound.opened
  offered := sound.offered
  threads := sound.threads
  understood := by
    intro bytes member
    rw [Party.post, ← List.append_assoc] at member
    rcases List.mem_append.mp member with before | new
    · exact sound.understood bytes before
    · exact understood bytes (Option.mem_toList.mp new)

/-- One step of the two ends, when the mover runs what its move needs and its
reader knows its notation. -/
private theorem Handshake.move_refines {mfrecv : List Byte → Option (List Byte)}
    (contract : ReceiveContract mfrecv) {connector : Language} {handshake after : Handshake}
    {label : HandshakeStep} (sound : handshake.Sound connector)
    (modelled : label.move.Modelled (label.side.language connector))
    (accepts : label.move.accepts = true → label.side.language connector = .cpp)
    (known : label.side.peer.language connector = .java →
      label.side.language connector = .cpp ∧ label.move.connects = false)
    (step : (handshakeMachine mfrecv connector).transition handshake label after) :
    after.Sound connector ∧ (after.view = handshake.view ∨
      Rendezvous.Step handshake.view (label.side, label.move) after.view) := by
  obtain ⟨side, junk, move⟩ := label
  simp only [Machine.transition, handshakeMachine] at step
  split at step
  next => cases step
  next =>
    split at step
    next => cases step
    next fault _ =>
      cases step
      exact ⟨sound, .inl rfl⟩
    next party message moved =>
      cases step
      have refines := Party.move_refines contract modelled accepts (sound side) moved
      -- the reader on the other side knows the notation of the sender
      have understood : ∀ bytes, message = some bytes →
          Understood (side.peer.language connector) bytes :=
        fun bytes sent => refines.understood bytes sent _ known
      refine ⟨fun who => ?_, ?_⟩
      · by_cases mover : who = side
        · subst mover
          simpa [Handshake.after] using refines.sound
        · have other := Side.eq_peer_of_ne mover
          subst other
          simpa [Handshake.after, mover] using (sound side.peer).post understood
      · have view : (handshake.after side party message).view =
            fun who => if who = side then party.peer
              else (handshake.view who).post (message.bind notice) := by
          funext who
          by_cases mover : who = side
          · simp [Handshake.view, Handshake.after, mover]
          · simp [Handshake.view, Handshake.after, mover, Party.post_peer]
        rcases refines.view with ⟨same, silent⟩ | moves
        · left
          subst silent
          rw [view]
          funext who
          by_cases mover : who = side
          · subst mover
            simpa [Handshake.view] using same
          · simp [mover, Peer.post]
        · exact .inr ⟨_, _, moves, view⟩

/-- One step of the two ends. -/
theorem Handshake.step_refines {mfrecv : List Byte → Option (List Byte)}
    (contract : ReceiveContract mfrecv) {connector : Language} {handshake after : Handshake}
    {label : HandshakeStep} (sound : handshake.Sound connector) (plays : label.Plays connector)
    (step : (handshakeMachine mfrecv connector).transition handshake label after) :
    after.Sound connector ∧ (after.view = handshake.view ∨
      Rendezvous.Step handshake.view (label.side, label.move) after.view) := by
  obtain ⟨role, modelled⟩ := plays
  refine Handshake.move_refines contract sound modelled (fun accepting => ?_) (fun isJava => ?_)
    step
  · cases side : label.side with
    | client =>
        rw [side] at role
        exact absurd accepting (by rw [show label.move.accepts = false from role]; simp)
    | server => rfl
  · cases side : label.side with
    | client =>
        rw [side] at isJava
        cases isJava
    | server =>
        rw [side] at role
        exact ⟨rfl, role⟩

theorem Side.language_cpp (side : Side) : side.language .cpp = .cpp := by
  cases side <;> rfl

/-- Two C++ ends may both connect and accept. -/
theorem Handshake.step_refines_cpp {mfrecv : List Byte → Option (List Byte)}
    (contract : ReceiveContract mfrecv) {handshake after : Handshake} {label : HandshakeStep}
    (sound : handshake.Sound .cpp)
    (step : (handshakeMachine mfrecv .cpp).transition handshake label after) :
    after.Sound .cpp ∧ (after.view = handshake.view ∨
      Rendezvous.Step handshake.view (label.side, label.move) after.view) := by
  refine Handshake.move_refines contract sound (fun isJava => ?_) (fun _ => label.side.language_cpp)
    (fun isJava => ?_) step
  · rw [label.side.language_cpp] at isJava
    cases isJava
  · rw [label.side.peer.language_cpp] at isJava
    cases isJava

/-- The threads refine the rendezvous. A guard on the threads becomes any
condition on the rendezvous that it implies for the steps taken. -/
theorem handshake_refines {mfrecv : List Byte → Option (List Byte)}
    (contract : ReceiveContract mfrecv) (connector : Language)
    {guard : Handshake → HandshakeStep → Prop} {condition : Rendezvous → Side × Move → Prop}
    (plays : ∀ {handshake : Handshake} {label : HandshakeStep}, guard handshake label →
      label.Plays connector)
    (implied : ∀ {handshake after : Handshake} {label : HandshakeStep},
      handshake.Sound connector → guard handshake label →
      (handshakeMachine mfrecv connector).transition handshake label after →
      condition handshake.view (label.side, label.move)) :
    Simulation (handshakeMachine mfrecv connector).transition Rendezvous.Step guard
      (fun both label => label.1.Plays label.2 ∧ condition both label)
      (fun handshake both => handshake.Sound connector ∧ both = handshake.view) where
  matched := by
    rintro handshake after label both ⟨sound, rfl⟩ allowed step
    obtain ⟨afterSound, same | moves⟩ :=
      Handshake.step_refines contract sound (plays allowed) step
    · exact .inl ⟨afterSound, same.symm⟩
    · exact .inr ⟨_, _, ⟨(plays allowed).1, implied sound allowed step⟩, moves, afterSound, rfl⟩

end PaintingCPS
