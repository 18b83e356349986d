import PaintingCPS.Foundation.Termination
import PaintingCPS.Upload.Uplink

/-!
Contract: how the upload of the two processes ends.

The measure counts the steps that are left: those of the threads that have not
begun, those of the running program, and for every message what sending,
`listen`, reading, replying and writing still take.

Owns: exactness of every run next to any other traffic, that some step is left
until everything is stored, and that only so many are.

Does not own: fairness between the threads.
-/

set_option autoImplicit false

namespace PaintingCPS

open Foundation

/-- A step of this upload. -/
def UplinkStep.Own : UplinkStep → Prop
  | .other _ => False
  | _ => True

namespace Uplink

/-- All threads are done, nothing waits for the server, and it waits for the
next header. -/
structure Finished (sock : SocketId) (uplink : Uplink) : Prop where
  threads : ∀ thread ∈ uplink.threads, thread.remaining = 0
  unlocked : uplink.sendLock = none
  arrived : uplink.link.pending .server sock = []
  idle : uplink.server.pc = .header

/-- Every file is stored as often as it was to be sent, in the order of the
lock. -/
structure Stored (sizePerTime : Nat) (files : List Upload) (uplink : Uplink) : Prop where
  order : uplink.server.stored = uplink.acquired.map fun pair => pair.2.entry
  contents : ∀ pair ∈ uplink.acquired, pair.2.image = pair.1.image
  all : (uplink.acquired.map fun pair => pair.1.entry).Perm
    (files.flatMap fun file => List.replicate sizePerTime file.entry)
  once : sizePerTime = 1 → uplink.server.stored.Perm (files.map Upload.entry)

/-- What holds in every state: nothing has failed, what is stored is what was
sent first, under the name it was announced with, a step of this upload is left
until all is done, and then everything is stored. -/
structure Exact (mfrecv : List Byte → Option (List Byte)) (sock : SocketId) (sizePerTime : Nat)
    (files : List Upload) (uplink : Uplink) : Prop where
  sound : uplink.link.fault = none
  order : uplink.server.stored <+: uplink.acquired.map fun pair => pair.2.entry
  announced : ∀ pair ∈ uplink.acquired,
    pair.1 ∈ files ∧ ∃ fakeId, pair.2 = pair.1.announced sizePerTime fakeId
  progress : ¬ uplink.Finished sock →
    ∃ label, UplinkStep.Own label ∧
      ((uplinkMachine mfrecv sock sizePerTime).next uplink label).isSome
  complete : uplink.Finished sock → uplink.Stored sizePerTime files

/-! ## Progress -/

section Progress

variable {mfrecv : List Byte → Option (List Byte)} {ids : SocketId → Prop} {sock : SocketId}
  {sizePerTime : Nat} {files : List Upload} {uplink : Uplink} {contention : Contention}

theorem Abstracts.finished_iff (abstracts : Abstracts ids sock uplink contention) :
    uplink.Finished sock ↔ contention.Finished := by
  constructor
  · rintro ⟨threads, unlocked, arrived, idle⟩
    refine ⟨abstracts.threads ▸ threads, abstracts.sendLock ▸ unlocked, ?_,
      abstracts.server ▸ idle⟩
    rw [← abstracts.toServer] at arrived
    exact List.map_eq_nil_iff.mp arrived
  · rintro ⟨threads, unlocked, arrived, idle⟩
    refine ⟨abstracts.threads ▸ threads, abstracts.sendLock ▸ unlocked, ?_,
      abstracts.server ▸ idle⟩
    rw [← abstracts.toServer, arrived]
    rfl

/-- With empty wires and no reply due, a step over ideal sockets is a step of
the two processes. -/
theorem Abstracts.enabled (abstracts : Abstracts ids sock uplink contention) (member : ids sock)
    (quiet : ∀ side, uplink.link.wire side = []) (idle : uplink.owed = 0)
    {image : ContentionStep} (enabled : (contention.step sizePerTime image).isSome) :
    ∃ label, UplinkStep.Own label ∧
      (uplink.step mfrecv sock sizePerTime label).isSome := by
  cases image with
  | lock thread junk =>
      refine ⟨.lock thread junk, trivial, ?_⟩
      simp only [Contention.step, Contention.lockStep, abstracts.sendLock,
        abstracts.threads] at enabled
      split at enabled
      next unlocked there =>
        simp only [Uplink.step, lockStep, unlocked, there]
        split <;> rfl
      next => cases enabled
  | unlock thread =>
      refine ⟨.unlock thread, trivial, ?_⟩
      simp only [Contention.step, Contention.unlockStep, abstracts.sendLock,
        abstracts.program] at enabled
      split at enabled
      next allowed =>
        rw [Uplink.step, unlockStep, if_pos allowed]
        rfl
      next => cases enabled
  | exchange call =>
      rw [Contention.step, Option.isSome_map] at enabled
      cases call with
      | client =>
          refine ⟨.client (fun _ => 0), trivial, ?_⟩
          simp only [Exchange.step, Exchange.clientStep, abstracts.program,
            abstracts.toClient] at enabled
          split at enabled
          next atSend =>
            simp only [Uplink.step, clientStep, atSend]
            split <;> rfl
          next reply replies atAwait replied =>
            simp only [Uplink.step, clientStep, atAwait]
            rw [Option.isSome_map]
            apply abstracts.delivers.recvStep_isSome member _ (quiet .client)
            rw [idle, List.replicate_zero, List.append_nil] at replied
            rw [replied]
            exact List.cons_ne_nil _ _
          next => cases enabled
      | read junk beyond =>
          refine ⟨.read junk beyond, trivial, ?_⟩
          have arrived := abstracts.toServer
          have asks := abstracts.asks
          simp only [Exchange.step, Exchange.readStep] at enabled
          split at enabled
          next kind size message rest asked waiting =>
            rw [waiting, List.map_cons] at arrived
            rw [asked] at asks
            obtain ⟨link, received⟩ := Option.isSome_iff_exists.mp
              (abstracts.delivers.recvStep_isSome member (by rw [← arrived]; simp)
                (quiet .server))
            obtain ⟨block, others, split, returned, -⟩ :=
              abstracts.delivers.recvStep_pending member received
            rw [← arrived, List.cons.injEq] at split
            obtain ⟨rfl, -⟩ := split
            rw [abstracts.server] at enabled
            simp only [Uplink.step, readStep, idle, ne_eq, not_true_eq_false, if_false, ← asks,
              Option.map_some, received, returned]
            generalize uplink.server.step .orbit .disk junk
              (.received ((message.content ++ beyond).take size)) = served at enabled ⊢
            rcases served with _ | fault | server
            · cases enabled
            · rfl
            · rfl
          next => cases enabled
      | store =>
          refine ⟨.store, trivial, ?_⟩
          simp only [Exchange.step, Exchange.storeStep, abstracts.server] at enabled
          simp only [Uplink.step, storeStep, idle, ne_eq, not_true_eq_false, if_false]
          generalize uplink.server.step .orbit .disk (fun _ => 0) (.opened true) = served
            at enabled ⊢
          rcases served with _ | fault | server
          · cases enabled
          · rfl
          · rfl

/-- Until all is done, a step of this upload is left: a `listen`, a reply, or
what is left over ideal sockets. -/
theorem Abstracts.progress (abstracts : Abstracts ids sock uplink contention)
    (member : ids sock) (contending : contention.Contending sizePerTime files)
    (unfinished : ¬ uplink.Finished sock) :
    ∃ label, UplinkStep.Own label ∧
      ((uplinkMachine mfrecv sock sizePerTime).next uplink label).isSome := by
  have moves : (∃ label, UplinkStep.Own label ∧
      (uplink.step mfrecv sock sizePerTime label).isSome) →
      ∃ label, UplinkStep.Own label ∧
        ((uplinkMachine mfrecv sock sizePerTime).next uplink label).isSome := by
    rintro ⟨label, own, moved⟩
    exact ⟨label, own, by simpa [uplinkMachine, abstracts.delivers.sound] using moved⟩
  apply moves
  by_cases waiting : ∃ side, uplink.link.wire side ≠ []
  · obtain ⟨side, onWire⟩ := waiting
    obtain ⟨link, transition⟩ :=
      listen_enabled mfrecv abstracts.delivers.sound onWire (fun _ => 0)
    obtain ⟨-, listened⟩ := Link.step_of_next transition
    refine ⟨.listen side (fun _ => 0), trivial, ?_⟩
    change ((uplink.link.listenStep mfrecv side fun _ => 0).map _).isSome = true
    rw [Option.isSome_map, show uplink.link.listenStep mfrecv side (fun _ => 0) = some link
      from listened]
    rfl
  · simp only [ne_eq, not_exists, not_not] at waiting
    cases due : uplink.owed with
    | succ owed =>
        refine ⟨.reply (fun _ => 0), trivial, ?_⟩
        simp [Uplink.step, replyStep, due]
    | zero =>
        obtain ⟨image, enabled⟩ :=
          contending.exact.progress fun done => unfinished (abstracts.finished_iff.mpr done)
        simp only [contentionMachine, contending.inStep.sound, Option.isSome_none,
          Bool.false_eq_true, if_false] at enabled
        exact abstracts.enabled member waiting due enabled

theorem Abstracts.exact (abstracts : Abstracts ids sock uplink contention) (member : ids sock)
    (contending : contention.Contending sizePerTime files) :
    uplink.Exact mfrecv sock sizePerTime files where
  sound := abstracts.delivers.sound
  order := by
    have order := contending.exact.order
    rwa [abstracts.server, abstracts.acquired] at order
  announced pair member := by
    rw [← abstracts.acquired] at member
    exact ⟨contending.mem_files member, contending.announced pair member⟩
  progress := abstracts.progress member contending
  complete finished := by
    obtain ⟨order, all, once⟩ :=
      contending.exact.complete (abstracts.finished_iff.mp finished)
    have contents := contending.exact.contents
    rw [abstracts.server, abstracts.acquired] at order
    rw [abstracts.acquired] at all contents
    rw [abstracts.server] at once
    exact ⟨order, contents, all, once⟩

end Progress

end Uplink

/-! ## The measure -/

/-- Steps that a call of a program still takes: a message is sent, passes
`listen`, is read, and may cause a reply, its `listen` and the writing of a
file. -/
def Op.weight : Op → Nat
  | .send _ => 6
  | .await => 1

/-- One pass of the loop of a thread: lock, header, reply, blocks, unlock. -/
def Upload.effort (file : Upload) : Nat :=
  9 + 6 * (fileBlocks recvLength file.image).length

/-- 1 while a file waits to be written. -/
def Transmit.unwritten (server : Transmit) : Nat :=
  match server.pc with
  | .submitting .. => 1
  | _ => 0

theorem weight_upload (header : List Byte) (blocks : List (List Byte)) :
    ((Exchange.upload header blocks).map Op.weight).sum = 7 + 6 * blocks.length := by
  have bodies : (((Exchange.bodies blocks).map Op.send).map Op.weight).sum =
      6 * blocks.length := by
    rw [Exchange.bodies, List.map_map, List.map_map]
    simp [Function.comp_def, Op.weight, Nat.mul_comm]
  rw [Exchange.upload, List.map_cons, List.map_cons, List.sum_cons, List.sum_cons, bodies]
  simp only [Op.weight]
  omega

namespace Transmit

variable {junk : Nat → Byte} {server after : Transmit}

/-- A `recv` of the server causes a reply or leads to a file, and not both. -/
theorem step_received {bytes : List Byte}
    (stepped : server.step .orbit .disk junk (.received bytes) = some (.ok after)) :
    server.unwritten = 0 ∧
      2 * (after.replies - server.replies) + after.unwritten ≤ 2 := by
  cases at' : server.pc with
  | header =>
      simp only [step, at', orbitHeader, Option.some.injEq] at stepped
      obtain ⟨⟨fileName, fileSize⟩, -, rest⟩ := bind_eq_ok.mp stepped
      obtain ⟨img, -, done⟩ := bind_eq_ok.mp rest
      cases done
      simp [unwritten, at', emit, replies]
  | body fileName fileSize img offset =>
      simp only [step, at', orbitBody, orbitCopy, Option.some.injEq] at stepped
      split at stepped
      next =>
        obtain ⟨filled, -, done⟩ := bind_eq_ok.mp stepped
        cases done
        simp [unwritten, at', finish, emit, replies]
      next =>
        obtain ⟨filled, -, done⟩ := bind_eq_ok.mp stepped
        cases done
        simp [unwritten, at', emit, replies]
  | starting | replying _ _ | submitting _ _ _ | ended => simp [step, at'] at stepped

/-- Writing a file is no reply, and the file is written. -/
theorem step_opened
    (stepped : server.step .orbit .disk junk (.opened true) = some (.ok after)) :
    server.unwritten = 1 ∧ after.replies = server.replies ∧ after.unwritten = 0 := by
  cases at' : server.pc with
  | submitting fileName fileSize img =>
      simp only [step, at', handOver, Option.some.injEq] at stepped
      obtain ⟨content, -, done⟩ := bind_eq_ok.mp stepped
      cases done
      simp [unwritten, at', enqueue, emit, replies]
  | starting | replying _ _ | ended => simp [step, at'] at stepped
  | header => simp [step, at', orbitHeader] at stepped
  | body _ _ _ _ => simp [step, at', orbitBody] at stepped

end Transmit

namespace Uplink

/-- Steps of this upload that are left at most. -/
def weight (sock : SocketId) (uplink : Uplink) : Nat :=
  (uplink.threads.map fun thread => thread.remaining * thread.file.effort).sum +
    (uplink.program.map Op.weight).sum + (if uplink.sendLock.isSome then 1 else 0) +
    (uplink.link.wire .client).length + (uplink.link.wire .server).length +
    4 * (uplink.link.pending .server sock).length + 2 * uplink.owed + uplink.server.unwritten

section Weight

variable {mfrecv : List Byte → Option (List Byte)} {ids : SocketId → Prop} {sock : SocketId}
  {sizePerTime : Nat} {uplink after : Uplink}

private theorem weight_lock {thread : Nat} {junk : Nat → Byte}
    (stepped : uplink.lockStep sizePerTime thread junk = some after)
    (idle : uplink.program = []) (sound : after.link.fault = none) :
    after.weight sock < uplink.weight sock := by
  unfold lockStep at stepped
  split at stepped
  next file remaining unlocked there =>
    dsimp only at stepped
    split at stepped
    next =>
      cases stepped
      cases sound
    next program sending =>
      cases stepped
      obtain ⟨-, header, blocks, rfl, counted⟩ := Cpp.orbitProgram_sized sending
      rw [Upload.announced_image] at counted
      have threads := sum_map_set (fun thread : UploadThread =>
        thread.remaining * thread.file.effort) ⟨file, remaining⟩ there
      have pass : remaining.succ * file.effort = remaining * file.effort + file.effort :=
        Nat.succ_mul _ _
      have effort : file.effort = 9 + 6 * (fileBlocks recvLength file.image).length := rfl
      dsimp only at threads
      simp only [weight, idle, unlocked, weight_upload, counted, Option.isSome_none,
        Option.isSome_some, Bool.false_eq_true, if_true, if_false, List.map_nil, List.sum_nil]
      omega
  next => cases stepped

private theorem weight_unlock {thread : Nat}
    (stepped : uplink.unlockStep thread = some after) :
    after.weight sock < uplink.weight sock := by
  unfold unlockStep at stepped
  split at stepped
  next allowed =>
    cases stepped
    simp only [weight, allowed.1, Option.isSome_none, Option.isSome_some, Bool.false_eq_true,
      if_true, if_false]
    omega
  next => cases stepped

/-- A frame more on the wire, and a message more for the peer. -/
private theorem sendStep_lengths {link : Link} (delivers : link.Delivers ids)
    (member : ids sock) (side : Side) (junk : Nat → Byte) {payload : List Byte}
    (nonempty : payload ≠ []) :
    ((link.sendStep side junk sock payload).wire side.peer).length =
        (link.wire side.peer).length + 1 ∧
      (link.sendStep side junk sock payload).wire side = link.wire side ∧
      ((link.sendStep side junk sock payload).pending side.peer sock).length =
        (link.pending side.peer sock).length + 1 ∧
      (link.sendStep side junk sock payload).pending side sock = link.pending side sock := by
  rw [delivers.sendStep_pending side junk member nonempty,
    delivers.sendStep_eq side junk member nonempty, Channels.set_self,
    Channels.set_other (.inl (Side.peer_ne side).symm)]
  refine ⟨?_, Function.update_of_ne (Side.peer_ne side).symm _ _, ?_, rfl⟩
  · dsimp only
    rw [Function.update_self, List.length_append, List.length_singleton]
  · rw [List.length_append, List.length_singleton]

private theorem weight_client (delivers : uplink.link.Delivers ids) (member : ids sock)
    (sized : Sized uplink.program) {junk : Nat → Byte}
    (stepped : uplink.clientStep sock junk = some after) :
    after.weight sock < uplink.weight sock := by
  unfold clientStep at stepped
  split at stepped
  next => cases stepped
  next message rest atSend =>
    rw [atSend] at sized
    obtain ⟨nonempty, -⟩ := sized message (by simp)
    simp only [delivers.send_emits .client junk member nonempty, Option.some.injEq] at stepped
    subst stepped
    obtain ⟨onWire, otherWire, waiting, -⟩ :=
      sendStep_lengths delivers member .client junk nonempty
    simp only [Side.peer] at onWire waiting
    simp only [weight, atSend, onWire, otherWire, waiting, List.map_cons, List.sum_cons,
      Op.weight]
    omega
  next rest atAwait =>
    obtain ⟨link, received, rfl⟩ := Option.map_eq_some_iff.mp stepped
    obtain ⟨wireSame, pendingSame⟩ := delivers.recvStep_frame member received
    simp only [weight, atAwait, wireSame, pendingSame .server sock (.inl Side.server_ne),
      List.map_cons, List.sum_cons, Op.weight]
    omega

private theorem weight_serve {link : Link} {served : Option (Except Fault Transmit)}
    (stepped : ({ uplink with link := link } : Uplink).serve served = some after)
    (sound : after.link.fault = none) :
    ∃ server, served = some (.ok server) ∧
      after = { uplink with
        link := link
        server := server
        owed := uplink.owed + (server.replies - uplink.server.replies) } := by
  rcases served with _ | fault | server
  · cases stepped
  · cases stepped
    cases sound
  · cases stepped
    exact ⟨server, rfl, rfl⟩

private theorem weight_read (delivers : uplink.link.Delivers ids) (member : ids sock)
    {junk : Nat → Byte} {beyond : List Byte}
    (stepped : uplink.readStep sock junk beyond = some after)
    (sound : after.link.fault = none) : after.weight sock < uplink.weight sock := by
  unfold readStep at stepped
  split at stepped
  next => cases stepped
  next =>
    split at stepped
    next size link asked received =>
      obtain ⟨block, rest, waiting, returned, pending⟩ :=
        delivers.recvStep_pending member received
      obtain ⟨wireSame, -⟩ := delivers.recvStep_frame member received
      simp only [returned] at stepped
      obtain ⟨server, served, rfl⟩ := weight_serve stepped sound
      obtain ⟨nothing, caused⟩ := Transmit.step_received served
      simp only [weight, wireSame, pending, Channels.set_self, waiting, List.length_cons]
      omega
    next => cases stepped

private theorem weight_reply (delivers : uplink.link.Delivers ids) (member : ids sock)
    {junk : Nat → Byte} (stepped : uplink.replyStep sock junk = some after) :
    after.weight sock < uplink.weight sock := by
  unfold replyStep at stepped
  split at stepped
  next => cases stepped
  next owed due =>
    cases stepped
    obtain ⟨onWire, otherWire, -, waiting⟩ :=
      sendStep_lengths delivers member .server junk (show response ≠ [] by decide)
    simp only [Side.peer] at onWire
    simp only [weight, onWire, otherWire, waiting, due]
    omega

private theorem weight_store (stepped : uplink.storeStep = some after)
    (sound : after.link.fault = none) : after.weight sock < uplink.weight sock := by
  unfold storeStep at stepped
  split at stepped
  next => cases stepped
  next =>
    obtain ⟨server, served, rfl⟩ := weight_serve stepped sound
    obtain ⟨waits, same, written⟩ := Transmit.step_opened served
    simp only [weight, same, written, waits]
    omega

private theorem weight_listen (delivers : uplink.link.Delivers ids)
    (contract : ReceiveContract mfrecv) {side : Side} {junk : Nat → Byte} {link : Link}
    (stepped : uplink.link.listenStep mfrecv side junk = some link) :
    ({ uplink with link := link } : Uplink).weight sock < uplink.weight sock := by
  have sound := (delivers.listenStep contract stepped).sound
  obtain ⟨sentSame, takenSame, wireEq, waiting⟩ := Link.listenStep_cases stepped sound
  have pendingSame : link.pending = uplink.link.pending := by
    funext other id
    rw [Link.pending, Link.pending, sentSame, takenSame]
  have positive := List.length_pos_iff.mpr waiting
  cases side with
  | client =>
      simp only [weight, wireEq, pendingSame, Function.update_self,
        Function.update_of_ne Side.server_ne, List.length_tail]
      omega
  | server =>
      simp only [weight, wireEq, pendingSame, Function.update_self,
        Function.update_of_ne Side.server_ne.symm, List.length_tail]
      omega

/-- Every step of this upload that does not fail leaves fewer. -/
theorem Abstracts.weight_lt {contention : Contention} {files : List Upload}
    (abstracts : Abstracts ids sock uplink contention)
    (contending : contention.Contending sizePerTime files) (contract : ReceiveContract mfrecv)
    (member : ids sock) {label : UplinkStep} (own : label.Own)
    (stepped : uplink.step mfrecv sock sizePerTime label = some after)
    (sound : after.link.fault = none) : after.weight sock < uplink.weight sock := by
  cases label with
  | lock thread junk =>
      have idle : uplink.sendLock = none → uplink.program = [] := by
        rw [← abstracts.sendLock, ← abstracts.program]
        exact contending.unlocked
      cases locked : uplink.sendLock with
      | none => exact weight_lock stepped (idle locked) sound
      | some holder => simp [Uplink.step, lockStep, locked] at stepped
  | unlock thread => exact weight_unlock stepped
  | client junk => exact weight_client abstracts.delivers member abstracts.sized stepped
  | read junk beyond => exact weight_read abstracts.delivers member stepped sound
  | reply junk => exact weight_reply abstracts.delivers member stepped
  | store => exact weight_store stepped sound
  | listen side junk =>
      obtain ⟨link, listened, rfl⟩ := Option.map_eq_some_iff.mp stepped
      exact weight_listen abstracts.delivers contract listened
  | other call => exact own.elim

end Weight

/-! ## Results -/

section Results

variable {mfrecv : List Byte → Option (List Byte)} {ids : SocketId → Prop} {sock : SocketId}
  {sizePerTime : Nat} {files : List Upload} {uplink : Uplink}

/-- The upload is in step with one over ideal sockets. -/
def Tracked (ids : SocketId → Prop) (sock : SocketId) (sizePerTime : Nat) (files : List Upload)
    (uplink : Uplink) : Prop :=
  ∃ contention, Abstracts ids sock uplink contention ∧ contention.Contending sizePerTime files

theorem Tracked.next (contract : ReceiveContract mfrecv) (member : ids sock)
    (tracked : Tracked ids sock sizePerTime files uplink) {after : Uplink} {label : UplinkStep}
    (allowed : label.Allowed ids sock)
    (transition : (uplinkMachine mfrecv sock sizePerTime).transition uplink label after) :
    Tracked ids sock sizePerTime files after := by
  obtain ⟨contention, related⟩ := tracked
  rcases (simulates contract member files).matched related allowed transition with
    stutter | ⟨-, image, -, -, afterRelated⟩
  · exact ⟨contention, stutter⟩
  · exact ⟨image, afterRelated⟩

theorem own_allowed {label : UplinkStep} (own : label.Own) : label.Allowed ids sock := by
  cases label with
  | other call => exact own.elim
  | _ => trivial

theorem decreasing (contract : ReceiveContract mfrecv) (member : ids sock) :
    Decreasing (uplinkMachine mfrecv sock sizePerTime).transition (fun _ label => label.Own)
      (Tracked ids sock sizePerTime files) (weight sock) where
  preserved tracked own transition := tracked.next contract member (own_allowed own) transition
  decreases tracked own transition := by
    obtain ⟨_, after, -⟩ := tracked.next contract member (own_allowed own) transition
    obtain ⟨contention, abstracts, contending⟩ := tracked
    exact abstracts.weight_lt contending contract member own (step_of_next transition)
      after.delivers.sound

/-- Logged in over open connections, with nothing pending on the socket, and
files that can be sent. -/
structure LoggedIn (ids : SocketId → Prop) (sock : SocketId) (link : Link) (sizePerTime : Nat)
    (files : List Upload) : Prop where
  delivers : link.Delivers ids
  member : ids sock
  noMessage : link.pending .server sock = []
  noReply : link.pending .client sock = []
  sendable : ∀ file ∈ files, file.Sendable
  named : sizePerTime = 1 → ∀ file ∈ files, file.fileName.length < fileNameCapacity

theorem LoggedIn.tracked {link : Link} (loggedIn : LoggedIn ids sock link sizePerTime files) :
    Tracked ids sock sizePerTime files (init link sizePerTime files) :=
  ⟨_, init_abstracts loggedIn.delivers loggedIn.noMessage loggedIn.noReply sizePerTime files,
    Contention.init_contending loggedIn.sendable loggedIn.named⟩

end Results

/-- How the steps of the upload alone go on from here: there are at most as many
as the weight says, and where none is left everything is stored. -/
structure Completes (mfrecv : List Byte → Option (List Byte)) (sock : SocketId)
    (sizePerTime : Nat) (files : List Upload) (uplink : Uplink) : Prop where
  bounded : ∀ steps finish, ReachesIn (uplinkMachine mfrecv sock sizePerTime).transition
    (fun _ label => label.Own) uplink steps finish → steps ≤ uplink.weight sock
  ends : ∃ finish, (uplinkMachine mfrecv sock sizePerTime).ReachesUnder
      (fun _ label => label.Own) uplink finish ∧
    Exhausted (uplinkMachine mfrecv sock sizePerTime).transition (fun _ label => label.Own) finish
  stored : ∀ finish, (uplinkMachine mfrecv sock sizePerTime).ReachesUnder
      (fun _ label => label.Own) uplink finish →
    Exhausted (uplinkMachine mfrecv sock sizePerTime).transition (fun _ label => label.Own)
      finish →
    finish.Finished sock ∧ finish.Stored sizePerTime files

theorem Tracked.completes {mfrecv : List Byte → Option (List Byte)} {ids : SocketId → Prop}
    {sock : SocketId} {sizePerTime : Nat} {files : List Upload} {uplink : Uplink}
    (contract : ReceiveContract mfrecv) (member : ids sock)
    (tracked : Tracked ids sock sizePerTime files uplink) :
    uplink.Completes mfrecv sock sizePerTime files := by
  have decreasing : Decreasing (uplinkMachine mfrecv sock sizePerTime).transition
      (fun _ label => label.Own) (Tracked ids sock sizePerTime files) (weight sock) :=
    Uplink.decreasing contract member
  refine ⟨fun steps finish run => ?_, decreasing.exists_exhausted tracked,
    fun finish further exhausted => ?_⟩
  · have bounded := decreasing.bounded tracked run
    omega
  · obtain ⟨contention, abstracts, contending⟩ :=
      further.invariant tracked decreasing.preserved
    have exact : finish.Exact mfrecv sock sizePerTime files := abstracts.exact member contending
    have finished : finish.Finished sock := by
      by_contra unfinished
      obtain ⟨label, own, moved⟩ := exact.progress unfinished
      obtain ⟨after, transition⟩ := Option.isSome_iff_exists.mp moved
      exact exhausted label after own transition
    exact ⟨finished, exact.complete finished⟩

end Uplink

section Upload

variable {mfrecv : List Byte → Option (List Byte)} {ids : SocketId → Prop} {sock : SocketId}
  {sizePerTime : Nat} {files : List Upload} {link : Link} {uplink : Uplink}

end Upload

instance (label : UplinkStep) : Decidable label.Own :=
  match label with
  | .other _ => inferInstanceAs (Decidable False)
  | .lock .. | .unlock .. | .client .. | .read .. | .reply .. | .store | .listen .. =>
      inferInstanceAs (Decidable True)

end PaintingCPS
