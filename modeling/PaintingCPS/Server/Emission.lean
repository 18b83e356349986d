import PaintingCPS.Server.Transmit

/-!
Contract: the actions that one event adds to what `server_transmit` does.

An image counts as under way from `submit_request` until it is pushed on the
queue. The kinds of emission go by what becomes of it.

Owns: the kinds, and that every event is of one of them.

Does not own: who performs the actions, and faults.
-/

set_option autoImplicit false

namespace PaintingCPS

open Foundation

def Action.isPush : Action → Bool
  | .push _ => true
  | _ => false

def TransmitPc.isSubmitting : TransmitPc → Bool
  | .submitting .. => true
  | _ => false

def TransmitPc.isBody : TransmitPc → Bool
  | .body .. => true
  | _ => false

namespace Transmit

/-- A reply, or in Orbit mode the signal that follows a failure within an image. -/
def Harmless (mode : Mode) (thread : Transmit) (event : Event) (action : Action) : Prop :=
  action = .reply ∨
    (action = .post ∧ thread.semMatch = true ∧ mode = .orbit ∧ event = .failed ∧
      thread.pc.isBody = true)

/-- The actions that one event adds, by what becomes of the image under way. -/
inductive Emits (mode : Mode) (backend : Backend) (before : Transmit) :
    Event → Transmit → List Action → Prop
  /-- No image has been received completely. -/
  | receiving {event : Event} {after : Transmit} {emitted : List Action}
      (harmless : ∀ action ∈ emitted, Harmless mode before event action)
      (outside : before.pc.isSubmitting = false) (within : after.pc.isSubmitting = false)
      (running : after.pc ≠ .ended) (semSame : after.semMatch = before.semMatch) :
      Emits mode backend before event after emitted
  /-- The reply to the login failed. -/
  | refused {after : Transmit} (stands : before.pc = .starting) (tcp : mode = .tcp)
      (gone : after.pc = .ended) (semSame : after.semMatch = before.semMatch) :
      Emits mode backend before (.wrote false) after []
  /-- The client has gone; the result thread is told. -/
  | leaving {event : Event} {after : Transmit} (known : before.semMatch = true)
      (outside : before.pc.isSubmitting = false) (gone : after.pc = .ended)
      (semSame : after.semMatch = before.semMatch) :
      Emits mode backend before event after [.post]
  /-- An image is complete. -/
  | complete {event : Event} {after : Transmit} {emitted : List Action}
      (harmless : ∀ action ∈ emitted, Harmless mode before event action)
      (outside : before.pc.isSubmitting = false) (within : after.pc.isSubmitting = true)
      (semSame : after.semMatch = before.semMatch) :
      Emits mode backend before event after (emitted ++ [.submit])
  /-- The image is handed over and announced. -/
  | announced {event : Event} {after : Transmit} {handed : Action} {fileName : List Byte}
      (outward : (∃ name content, handed = .store name content) ∨
        ∃ content, handed = .forward content)
      (within : before.pc.isSubmitting = true) (opened : event = .opened false → backend = .kafka)
      (next : after.pc = .header) (known : after.semMatch = true) :
      Emits mode backend before event after [handed, .push fileName, .lookup, .post]
  /-- The file or the spout could not be opened. -/
  | abandoned {after : Transmit} {emitted : List Action}
      (discards : emitted = [] ∨ emitted = [.deleteQueue]) (blocking : backend ≠ .kafka)
      (within : before.pc.isSubmitting = true) (gone : after.pc = .ended)
      (semSame : after.semMatch = before.semMatch) :
      Emits mode backend before (.opened false) after emitted

section Emits

variable {mode : Mode} {backend : Backend} {junk : Nat → Byte} {before after : Transmit}
  {event : Event}

/-- What `emit` adds to the actions. -/
private theorem emitted_of_emit {thread : Transmit} {actions : List Action} {pc : TransmitPc} :
    (thread.emit actions pc).actions.drop thread.actions.length = actions := by
  rw [emit, List.drop_left]

private theorem signal_emits {pc : TransmitPc}
    (signalled : before.signal pc = .ok after) :
    before.semMatch = true ∧ after = before.emit [.post] pc := by
  unfold signal at signalled
  split at signalled
  next known =>
    cases signalled
    exact ⟨known, rfl⟩
  next => cases signalled

section Kinds

variable {actions : List Action} {pc : TransmitPc}

private theorem emits_receiving (harmless : ∀ action ∈ actions, Harmless mode before event action)
    (outside : before.pc.isSubmitting = false) (within : pc.isSubmitting = false)
    (running : pc ≠ .ended) :
    Emits mode backend before event (before.emit actions pc)
      ((before.emit actions pc).actions.drop before.actions.length) := by
  rw [emitted_of_emit]
  exact .receiving harmless outside within running rfl

private theorem emits_signal (outside : before.pc.isSubmitting = false)
    (signalled : before.signal .ended = .ok after) :
    Emits mode backend before event after (after.actions.drop before.actions.length) := by
  obtain ⟨known, rfl⟩ := signal_emits signalled
  rw [emitted_of_emit]
  exact .leaving known outside rfl rfl

private theorem emits_finish {fileName : List Byte} {fileSize : Int} {img : List Byte}
    (harmless : ∀ action ∈ actions, Harmless mode before event action)
    (outside : before.pc.isSubmitting = false) :
    Emits mode backend before event (before.finish actions fileName fileSize img)
      ((before.finish actions fileName fileSize img).actions.drop before.actions.length) := by
  rw [finish, emitted_of_emit]
  exact .complete harmless outside rfl rfl

end Kinds

private theorem harmless_nil (action : Action) (member : action ∈ []) :
    Harmless mode before event action := by
  cases member

private theorem harmless_reply (action : Action) (member : action ∈ [Action.reply]) :
    Harmless mode before event action := by
  rw [List.mem_singleton] at member
  exact .inl member

private theorem tcpHeader_emits (stands : before.pc = .header)
    (step : before.tcpHeader event = some (.ok after)) :
    Emits mode backend before event after (after.actions.drop before.actions.length) := by
  have outside : before.pc.isSubmitting = false := by rw [stands]; rfl
  unfold tcpHeader at step
  split at step
  next bytes =>
    split at step
    next => exact emits_signal outside (Option.some.inj step)
    next =>
      obtain ⟨⟨fileName, fileSize⟩, -, parsed⟩ := bind_eq_ok.mp (Option.some.inj step)
      cases parsed
      exact emits_receiving harmless_nil outside rfl nofun
  next => exact emits_signal outside (Option.some.inj step)
  next => cases step

private theorem tcpReply_emits {fileName : List Byte} {fileSize : Int} {success : Bool}
    (stands : before.pc = .replying fileName fileSize)
    (step : before.tcpReply junk fileName fileSize success = .ok after) :
    Emits mode backend before event after (after.actions.drop before.actions.length) := by
  have outside : before.pc.isSubmitting = false := by rw [stands]; rfl
  unfold tcpReply at step
  split at step
  next =>
    obtain ⟨img, -, allocated⟩ := bind_eq_ok.mp step
    cases allocated
    exact emits_receiving harmless_reply outside rfl nofun
  next => exact emits_signal outside step

private theorem tcpBody_emits {fileName : List Byte} {fileSize : Int} {img : List Byte}
    {offset : Nat} (stands : before.pc = .body fileName fileSize img offset)
    (step : before.tcpBody fileName fileSize img offset event = some (.ok after)) :
    Emits mode backend before event after (after.actions.drop before.actions.length) := by
  have outside : before.pc.isSubmitting = false := by rw [stands]; rfl
  unfold tcpBody at step
  split at step
  next bytes =>
    split at step
    next =>
      cases step
      exact emits_finish harmless_reply outside
    next =>
      obtain ⟨filled, -, written⟩ := bind_eq_ok.mp (Option.some.inj step)
      split at written
      next =>
        cases written
        exact emits_finish harmless_reply outside
      next =>
        cases written
        exact emits_receiving harmless_nil outside rfl nofun
  next =>
    cases step
    exact emits_finish harmless_reply outside
  next => cases step

private theorem orbitHeader_emits (stands : before.pc = .header)
    (step : before.orbitHeader junk event = some (.ok after)) :
    Emits mode backend before event after (after.actions.drop before.actions.length) := by
  have outside : before.pc.isSubmitting = false := by rw [stands]; rfl
  unfold orbitHeader at step
  split at step
  next bytes =>
    obtain ⟨⟨fileName, fileSize⟩, -, parsed⟩ := bind_eq_ok.mp (Option.some.inj step)
    obtain ⟨img, -, allocated⟩ := bind_eq_ok.mp parsed
    cases allocated
    exact emits_receiving harmless_reply outside rfl nofun
  next => exact emits_signal outside (Option.some.inj step)
  next => cases step

/-- One block is copied, after the signals `earlier`. -/
private theorem orbitCopy_emits {fileName : List Byte} {fileSize : Int} {img buffer : List Byte}
    {offset : Nat} {earlier : List Action}
    (harmless : ∀ action ∈ earlier, Harmless mode before event action)
    (outside : before.pc.isSubmitting = false)
    (copied : (before.emit earlier before.pc).orbitCopy fileName fileSize img offset buffer =
      .ok after) :
    Emits mode backend before event after (after.actions.drop before.actions.length) := by
  unfold orbitCopy at copied
  split at copied
  next =>
    obtain ⟨filled, -, written⟩ := bind_eq_ok.mp copied
    cases written
    have added : ((before.emit earlier before.pc).finish [] fileName fileSize filled).actions.drop
        before.actions.length = earlier ++ [.submit] := by
      simp [finish, emit]
    rw [added]
    exact .complete harmless outside rfl rfl
  next =>
    obtain ⟨filled, -, written⟩ := bind_eq_ok.mp copied
    cases written
    have added : ((before.emit earlier before.pc).emit []
        (.body fileName fileSize filled (offset + recvLength))).actions.drop
          before.actions.length = earlier := by
      simp [emit]
    rw [added]
    exact .receiving harmless outside rfl nofun rfl

private theorem orbitBody_emits {fileName : List Byte} {fileSize : Int} {img : List Byte}
    {offset : Nat} (stands : before.pc = .body fileName fileSize img offset)
    (step : before.orbitBody fileName fileSize img offset event = some (.ok after)) :
    Emits .orbit backend before event after (after.actions.drop before.actions.length) := by
  have outside : before.pc.isSubmitting = false := by rw [stands]; rfl
  unfold orbitBody at step
  split at step
  next bytes =>
    have same : before.emit [] before.pc = before := by simp [emit]
    have copied : (before.emit [] before.pc).orbitCopy fileName fileSize img offset
        (padded recvLength bytes) = .ok after := by
      rw [same]
      exact Option.some.inj step
    exact orbitCopy_emits harmless_nil outside copied
  next =>
    obtain ⟨signalled, signal, copied⟩ := bind_eq_ok.mp (Option.some.inj step)
    obtain ⟨known, rfl⟩ := signal_emits signal
    refine orbitCopy_emits ?_ outside copied
    intro action member
    rw [List.mem_singleton] at member
    exact .inr ⟨member, known, rfl, rfl, by rw [stands]; rfl⟩
  next => cases step

private theorem mfReceive_emits (stands : before.pc = .header)
    (step : before.mfReceive junk event = some (.ok after)) :
    Emits mode backend before event after (after.actions.drop before.actions.length) := by
  have outside : before.pc.isSubmitting = false := by rw [stands]; rfl
  have finished : ∀ (index : Nat) (fileName : List Byte) (fileSize : Int) (img : List Byte),
      Emits mode backend before event
        ({ before with fakeIndex := index }.finish [] fileName fileSize img)
        (({ before with fakeIndex := index }.finish [] fileName fileSize img).actions.drop
          before.actions.length) := by
    intro index fileName fileSize img
    have added : ({ before with fakeIndex := index }.finish [] fileName fileSize img).actions.drop
        before.actions.length = [] ++ [.submit] := by
      simp [finish, emit]
    rw [added]
    exact .complete harmless_nil outside rfl rfl
  have taken : ∀ received, before.mfTake junk received = .ok after →
      Emits mode backend before event after (after.actions.drop before.actions.length) := by
    intro received took
    obtain ⟨⟨fileSize, img⟩, -, ends⟩ := bind_eq_ok.mp took
    cases ends
    exact finished _ _ _ _
  unfold mfReceive at step
  split at step
  next bytes => exact taken _ (Option.some.inj step)
  next => exact taken _ (Option.some.inj step)
  next => cases step

private theorem handOver_emits {fileName : List Byte} {fileSize : Int} {img : List Byte}
    {success : Bool} (stands : before.pc = .submitting fileName fileSize img)
    (step : before.handOver backend fileName fileSize img success = .ok after) :
    Emits mode backend before (.opened success) after
      (after.actions.drop before.actions.length) := by
  have within : before.pc.isSubmitting = true := by rw [stands]; rfl
  have enqueued : ∀ handed : Action,
      ((∃ name content, handed = .store name content) ∨ ∃ content, handed = .forward content) →
      (Event.opened success = .opened false → backend = .kafka) →
      Emits mode backend before (.opened success) (before.enqueue handed fileName)
        ((before.enqueue handed fileName).actions.drop before.actions.length) := by
    intro handed outward opened
    have added : (before.enqueue handed fileName).actions.drop before.actions.length =
        [handed, .push fileName, .lookup, .post] := by
      simp [enqueue, emit]
    rw [added]
    exact .announced outward within opened rfl rfl
  unfold handOver at step
  split at step
  next =>
    obtain ⟨content, -, written⟩ := bind_eq_ok.mp step
    cases written
    exact enqueued _ (.inl ⟨_, _, rfl⟩) nofun
  next =>
    cases step
    rw [emitted_of_emit]
    exact .abandoned (.inr rfl) nofun within rfl rfl
  next =>
    obtain ⟨content, -, written⟩ := bind_eq_ok.mp step
    cases written
    exact enqueued _ (.inr ⟨_, rfl⟩) fun _ => rfl
  next =>
    obtain ⟨content, -, written⟩ := bind_eq_ok.mp step
    cases written
    exact enqueued _ (.inr ⟨_, rfl⟩) nofun
  next =>
    cases step
    rw [emitted_of_emit]
    exact .abandoned (.inl rfl) nofun within rfl rfl

private theorem start_emits {success : Bool} (stands : before.pc = .starting) :
    Emits mode backend before (.wrote success) (before.start mode success)
      ((before.start mode success).actions.drop before.actions.length) := by
  have outside : before.pc.isSubmitting = false := by rw [stands]; rfl
  cases mode with
  | tcp =>
      cases success with
      | true => exact emits_receiving harmless_reply outside rfl nofun
      | false =>
          rw [start, if_neg Bool.false_ne_true, emitted_of_emit]
          exact .refused stands rfl rfl rfl
  | orbit => exact emits_receiving harmless_reply outside rfl nofun
  | mf => exact emits_receiving harmless_nil outside rfl nofun

/-- Every event adds actions of one of these kinds. -/
theorem step_emits (step : before.step mode backend junk event = some (.ok after)) :
    Emits mode backend before event after (after.actions.drop before.actions.length) := by
  unfold Transmit.step at step
  split at step
  next success stands =>
    cases step
    exact start_emits stands
  next stands => exact tcpHeader_emits stands step
  next stands => exact orbitHeader_emits stands step
  next stands => exact mfReceive_emits stands step
  next stands => exact tcpReply_emits stands (Option.some.inj step)
  next stands => exact tcpBody_emits stands step
  next stands => exact orbitBody_emits stands step
  next stands => exact handOver_emits stands (Option.some.inj step)
  next => cases step

end Emits

section Extends

variable {mode : Mode} {backend : Backend} {junk : Nat → Byte} {before after : Transmit}
  {event : Event} {fileName img : List Byte} {fileSize : Int} {offset : Nat}

private theorem signal_extends {pc : TransmitPc} (step : before.signal pc = .ok after) :
    before.actions <+: after.actions := by
  unfold signal at step
  split at step
  next =>
    cases step
    exact List.prefix_append _ _
  next => cases step

private theorem orbitCopy_extends {buffer : List Byte}
    (step : before.orbitCopy fileName fileSize img offset buffer = .ok after) :
    before.actions <+: after.actions := by
  unfold orbitCopy at step
  split at step
  all_goals
    obtain ⟨filled, -, rest⟩ := bind_eq_ok.mp step
    cases rest
    exact List.prefix_append _ _

private theorem handOver_extends {success : Bool}
    (step : before.handOver backend fileName fileSize img success = .ok after) :
    before.actions <+: after.actions := by
  unfold handOver at step
  split at step
  next =>
    obtain ⟨content, -, rest⟩ := bind_eq_ok.mp step
    cases rest
    exact List.prefix_append _ _
  next =>
    cases step
    exact List.prefix_append _ _
  next =>
    obtain ⟨content, -, rest⟩ := bind_eq_ok.mp step
    cases rest
    exact List.prefix_append _ _
  next =>
    obtain ⟨content, -, rest⟩ := bind_eq_ok.mp step
    cases rest
    exact List.prefix_append _ _
  next =>
    cases step
    exact List.prefix_append _ _

/-- What a thread has been asked to do stays asked. -/
theorem step_extends (step : before.step mode backend junk event = some (.ok after)) :
    before.actions <+: after.actions := by
  unfold Transmit.step at step
  split at step
  next success stands =>
    cases step
    unfold start
    split
    next => split <;> exact List.prefix_append _ _
    next => exact List.prefix_append _ _
    next => exact List.prefix_append _ _
  next stands =>
    unfold tcpHeader at step
    split at step
    next bytes =>
      split at step
      next => exact signal_extends (Option.some.inj step)
      next =>
        obtain ⟨fields, -, rest⟩ := bind_eq_ok.mp (Option.some.inj step)
        cases rest
        exact List.prefix_append _ _
    next => exact signal_extends (Option.some.inj step)
    next => cases step
  next stands =>
    unfold orbitHeader at step
    split at step
    next bytes =>
      obtain ⟨fields, -, rest⟩ := bind_eq_ok.mp (Option.some.inj step)
      obtain ⟨memory, -, more⟩ := bind_eq_ok.mp rest
      cases more
      exact List.prefix_append _ _
    next => exact signal_extends (Option.some.inj step)
    next => cases step
  next stands =>
    have takes : ∀ received, before.mfTake junk received = .ok after →
        before.actions <+: after.actions := by
      intro received took
      obtain ⟨image, -, rest⟩ := bind_eq_ok.mp took
      cases rest
      exact List.prefix_append _ _
    unfold mfReceive at step
    split at step
    next bytes => exact takes _ (Option.some.inj step)
    next => exact takes _ (Option.some.inj step)
    next => cases step
  next success stands =>
    have replied := Option.some.inj step
    unfold tcpReply at replied
    split at replied
    next =>
      obtain ⟨memory, -, rest⟩ := bind_eq_ok.mp replied
      cases rest
      exact List.prefix_append _ _
    next => exact signal_extends replied
  next stands =>
    unfold tcpBody at step
    split at step
    next bytes =>
      split at step
      next =>
        cases step
        exact List.prefix_append _ _
      next =>
        obtain ⟨filled, -, rest⟩ := bind_eq_ok.mp (Option.some.inj step)
        split at rest <;> cases rest <;> exact List.prefix_append _ _
    next =>
      cases step
      exact List.prefix_append _ _
    next => cases step
  next stands =>
    unfold orbitBody at step
    split at step
    next bytes => exact orbitCopy_extends (Option.some.inj step)
    next =>
      obtain ⟨signalled, posted, copied⟩ := bind_eq_ok.mp (Option.some.inj step)
      exact (signal_extends posted).trans (orbitCopy_extends copied)
    next => cases step
  next stands => exact handOver_extends (Option.some.inj step)
  next => cases step

end Extends

end Transmit

end PaintingCPS
