import PaintingCPS.Server.Addresses

/-!
Contract: what the clients, the disk and Storm have to do for the server.

The clean-up of `server_result` runs when it is woken and finds its queue
empty. That happens once, after the last name and the last signal of
`server_transmit`, as long as both threads come to their regular ends.

Owns: what is asked of them in every step, and what it says of logins and new
children.

Does not own: what the server does in return.
-/

set_option autoImplicit false

namespace PaintingCPS

open Foundation

namespace Thread

/-- `result_child` is going to read the struct of its owner. -/
def readsArgs (owner : Nat) : Thread → Bool
  | .worker ⟨index, .created⟩ | .worker ⟨index, .hasSock _⟩ => index == owner
  | _ => false

/-- Its struct is filled and has not gone. -/
def feeds : Thread → Bool
  | .result thread => thread.pc != .ended && thread.transInfo.isSome
  | _ => false

/-- What `server_transmit` needs of an event. -/
def Expects (config : Config) (happened : Event) : Thread → Prop
  | .transmit thread => thread.state.Expects config.mode config.backend happened
  | _ => True

end Thread

namespace Process

section Cooperation

variable (config : Config) (process : Process)

/-- Two fields. An admitted login has a known command, and the second login of
a session another one than the first. -/
def Welcomes (buffer : List Byte) : Prop :=
  ∃ fields ∈ (parseLogin buffer).toOption,
    (process.login fields.2 fields.1).isSome = true →
      fields.1 ≠ .unknown ∧
        (process.userMap fields.2 = none ∨ fields.1 ≠ process.opener fields.2)

/-- What `server_result` and its children need of a call, and what it needs of
them when it returns. After a failed write of a result in TCP mode `errorSocket`
closes the socket that the others go on to use, and another client can get its
number. -/
def Suits (index : Nat) (call : Call) : Thread → Prop
  | .result thread =>
      match thread.pc with
      | .replying | .sending => config.mode = .tcp → call = .success
      | .binding | .filled _ => call = .success
      | .receiving => call ≠ .unreadable
      | .deletingQueue => ∀ child ∈ process.threads, child.readsArgs index = false
      | _ => True
  | .worker child =>
      match child.pc with
      | .matching .. => config.mode = .tcp → call = .success
      | _ => True
  | _ => True

/-- What the clients, the disk and Storm have to do in a step. Nobody closes a
TCP connection that the server is about to write to. -/
def Cooperates : ProcessStep → Prop
  | .accept _ | .act _ => True
  | .header _ bytes =>
      (bytes = none ∧ config.mode = .tcp) ∨ process.Welcomes (padded loginBuffer (bytes.getD []))
  | .event index _ happened => ∀ thread ∈ process.threads[index]?, thread.Expects config happened
  | .hostMissing _ | .brokenPipe .. => False
  | .result index call | .worker index call =>
      ∀ thread ∈ process.threads[index]?, process.Suits config index call thread

end Cooperation

instance (config : Config) (happened : Event) (thread : Thread) :
    Decidable (thread.Expects config happened) := by
  cases thread <;> unfold Thread.Expects <;> dsimp only <;> infer_instance

instance (process : Process) (buffer : List Byte) : Decidable (process.Welcomes buffer) :=
  inferInstanceAs (Decidable (∃ fields ∈ Except.toOption _, _))

instance (config : Config) (process : Process) (index : Nat) (call : Call) (thread : Thread) :
    Decidable (process.Suits config index call thread) := by
  cases thread <;> unfold Suits <;> dsimp only <;> (try split) <;> infer_instance

instance (config : Config) (process : Process) (label : ProcessStep) :
    Decidable (process.Cooperates config label) := by
  cases label <;> unfold Cooperates <;> infer_instance

section Facts

variable {config : Config} {process : Process} {index : Nat}

/-- Every child is created. -/
theorem Cooperates.created {call : Call} {thread : ResultThread} {fileName : List Byte}
    (cooperates : process.Cooperates config (.result index call))
    (there : process.threads[index]? = some (.result thread))
    (stands : thread.pc = .filled fileName) : call = .success := by
  have suits := cooperates _ (Option.mem_def.mpr there)
  simp only [Suits, stands] at suits
  exact suits

/-- An admitted user comes first, or second after the other kind of thread. -/
theorem welcome_cases {bytes : Option (List Byte)} {command : Command} {owner : User}
    {granted : Process} (cooperates : process.Cooperates config (.header index bytes))
    (parsed : parseLogin (padded loginBuffer (bytes.getD [])) = .ok (command, owner))
    (login : process.login owner command = some granted) :
    command ≠ .unknown ∧ (process.userMap owner = none ∨ command ≠ process.opener owner) := by
  rcases cooperates with ⟨rfl, -⟩ | ⟨fields, found, welcome⟩
  · -- nothing was read, so there is no field
    have empty : (parseLogin (padded loginBuffer [])).toOption = none := by decide +kernel
    rw [Option.getD_none] at parsed
    rw [parsed] at empty
    cases empty
  · rw [parsed] at found
    cases found
    exact welcome (by rw [login]; rfl)

/-- No thread of this kind is there. -/
theorem newcomer_alone {command : Command} {owner : User} {granted : Process}
    (tidy : ∀ user, (process.visit user).Tidy)
    (fits : process.userMap owner = none ∨ command ≠ process.opener owner)
    (login : process.login owner command = some granted) :
    (command = .transmit → (process.visit owner).sender = none) ∧
      (command = .result → (process.visit owner).receiver = none) := by
  rcases login_cases login with ⟨new, -⟩ | ⟨second, -⟩
  · obtain ⟨alone, -, nobody⟩ := (tidy owner).absent new
    exact ⟨fun _ => alone, fun _ => nobody⟩
  · have other := fits.resolve_left (by simp [second])
    obtain ⟨transmit, result⟩ := (tidy owner).first second
    refine ⟨fun same => (transmit ?_).1, fun same => result ?_⟩
    · exact fun opened => other (same.trans opened.symm)
    · exact fun opened => other (same.trans opened.symm)

end Facts

end Process

end PaintingCPS
