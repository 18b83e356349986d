import PaintingCPS.MsgDistributor.Channels
import PaintingCPS.Upload.Orbit

/-!
Contract: the upload in orbit mode as the two processes perform it.

Any number of `transmit_child` threads share one socket of the client's Message
Distributor; `server_transmit` reads from the server's. Each `listen` runs in a
thread of its own, and other threads of both processes use other sockets over
the same wire. A call can return -1, and the code's reaction to it is modelled.

`server_transmit` sends its reply in a step of its own, behind the `recv` that
made it due, and does nothing else before.

Owns: the steps of the two processes, and that they refine the upload over
ideal sockets.

Does not own: the login, and the end of the run.
-/

set_option autoImplicit false

namespace PaintingCPS

open Foundation

/-! ## The two processes -/

/-- The sending threads, `server_transmit`, and the Message Distributors between
them. -/
structure Uplink where
  link : Link
  /-- What the thread between lock and unlock has still to do. -/
  program : List Op
  /-- The thread between lock and unlock. -/
  sendLock : Option Nat
  threads : List UploadThread
  fakeId : Nat
  /-- As in `Contention`. -/
  acquired : List (Upload × Upload)
  server : Transmit
  /-- Replies that are due and not yet sent. -/
  owed : Nat

inductive UplinkStep where
  | lock (thread : Nat) (junk : Nat → Byte)
  | unlock (thread : Nat)
  /-- The next `send` or `recv` of the thread between lock and unlock. -/
  | client (junk : Nat → Byte)
  /-- `recv` at the server and what follows up to the next call. -/
  | read (junk : Nat → Byte) (beyond : List Byte)
  | reply (junk : Nat → Byte)
  | store
  | listen (side : Side) (junk : Nat → Byte)
  /-- A call of another thread of either process. -/
  | other (step : LinkStep)

/-- How many bytes `server_transmit` asks for in its next `recv`. -/
def Transmit.asks (server : Transmit) : Option Nat :=
  match server.pc with
  | .header => some headerSize
  | .body .. => some recvLength
  | _ => none

namespace Uplink

/-- Logged in, with every thread about to send its file `sizePerTime` times. -/
def init (link : Link) (sizePerTime : Nat) (files : List Upload) : Uplink where
  link := link
  program := []
  sendLock := none
  threads := files.map fun file => ⟨file, sizePerTime⟩
  fakeId := 0
  acquired := []
  server := Transmit.init.start .orbit true
  owed := 0

def stuck (uplink : Uplink) (fault : Fault) : Uplink :=
  { uplink with link := uplink.link.stuck fault }

/-- The server thread has moved on; its new replies are due. -/
def serve (uplink : Uplink) : Option (Except Fault Transmit) → Option Uplink
  | none => none
  | some (.error fault) => some (uplink.stuck fault)
  | some (.ok server) =>
      some { uplink with
        server := server
        owed := uplink.owed + (server.replies - uplink.server.replies) }

section Steps

variable (mfrecv : List Byte → Option (List Byte)) (sock : SocketId) (sizePerTime : Nat)
  (uplink : Uplink)

def lockStep (thread : Nat) (junk : Nat → Byte) : Option Uplink :=
  match uplink.sendLock, uplink.threads[thread]? with
  | none, some ⟨file, remaining + 1⟩ =>
      let announced := file.announced sizePerTime uplink.fakeId
      match Cpp.orbitProgram junk announced with
      | .error fault => some (uplink.stuck fault)
      | .ok program =>
          some { uplink with
            program := program
            sendLock := some thread
            threads := uplink.threads.set thread ⟨file, remaining⟩
            fakeId := if sizePerTime = 1 then uplink.fakeId else uplink.fakeId + 1
            acquired := uplink.acquired ++ [(file, announced)] }
  | _, _ => none

def unlockStep (thread : Nat) : Option Uplink :=
  if uplink.sendLock = some thread ∧ uplink.program = [] then
    some { uplink with sendLock := none }
  else none

/-- After a failed `send` of the header the client exits, after one of a block
the loop ends. The result of `recv` is not looked at. -/
def clientStep (junk : Nat → Byte) : Option Uplink :=
  match uplink.program with
  | [] => none
  | .send message :: rest =>
      match Cpp.send junk (uplink.link.endpoint .client) sock.int message.content,
        message.kind with
      | .error fault, _ => some (uplink.stuck fault)
      | .ok none, .header => some (uplink.stuck .exited)
      | .ok none, .body => some { uplink with program := [] }
      | .ok (some _), _ =>
          some { uplink with
            link := uplink.link.sendStep .client junk sock message.content
            program := rest }
  | .await :: rest =>
      (uplink.link.recvStep .client sock).map fun link =>
        { uplink with link := link, program := rest }

def readStep (junk : Nat → Byte) (beyond : List Byte) : Option Uplink :=
  if uplink.owed ≠ 0 then none
  else
    match uplink.server.asks, uplink.link.recvStep .server sock with
    | some size, some link =>
        let event : Event :=
          match uplink.link.returned link .server sock with
          | none => .failed
          | some block => .received ((block ++ beyond).take size)
        ({ uplink with link := link } : Uplink).serve
          (uplink.server.step .orbit .disk junk event)
    | _, _ => none

/-- The result of `MsgD.send` is not looked at. -/
def replyStep (junk : Nat → Byte) : Option Uplink :=
  match uplink.owed with
  | 0 => none
  | owed + 1 =>
      some { uplink with
        link := uplink.link.sendStep .server junk sock response
        owed := owed }

/-- The image is written and queued. -/
def storeStep : Option Uplink :=
  if uplink.owed ≠ 0 then none
  else uplink.serve (uplink.server.step .orbit .disk (fun _ => 0) (.opened true))

def step : UplinkStep → Option Uplink
  | .lock thread junk => uplink.lockStep sizePerTime thread junk
  | .unlock thread => uplink.unlockStep thread
  | .client junk => uplink.clientStep sock junk
  | .read junk beyond => uplink.readStep sock junk beyond
  | .reply junk => uplink.replyStep sock junk
  | .store => uplink.storeStep
  | .listen side junk =>
      (uplink.link.listenStep mfrecv side junk).map fun link => { uplink with link := link }
  | .other call => (uplink.link.step mfrecv call).map fun link => { uplink with link := link }

end Steps

end Uplink

def uplinkMachine (mfrecv : List Byte → Option (List Byte)) (sock : SocketId)
    (sizePerTime : Nat) : Machine Uplink UplinkStep where
  next uplink label :=
    if uplink.link.fault.isSome then none else uplink.step mfrecv sock sizePerTime label

/-- Other threads stay away from the socket, and use sockets that are open. -/
def UplinkStep.Allowed (ids : SocketId → Prop) (sock : SocketId) : UplinkStep → Prop
  | .other call => call.Allowed ids ∧ call.Elsewhere sock
  | _ => True

/-! ## Programs -/

/-- Every message of a program fits the receive buffer. -/
def Sized (program : List Op) : Prop :=
  ∀ message ∈ Exchange.sends program,
    message.content ≠ [] ∧ message.content.length ≤ recvLength

theorem Sized.tail {op : Op} {rest : List Op} (sized : Sized (op :: rest)) : Sized rest := by
  intro message member
  apply sized
  cases op with
  | send first => exact List.mem_cons_of_mem _ member
  | await => exact member

/-- A program is the header, the reply and the blocks of the file, all of the
size of their buffers. -/
theorem Cpp.orbitProgram_sized {junk : Nat → Byte} {upload : Upload} {program : List Op}
    (sending : Cpp.orbitProgram junk upload = .ok program) :
    Sized program ∧ ∃ header blocks, program = Exchange.upload header blocks ∧
      blocks.length = (fileBlocks recvLength upload.image).length := by
  have room : headerSize ≤ recvLength := by decide
  obtain ⟨bufferSend, printed, rest⟩ := bind_eq_ok.mp sending
  have long := sprintf_length printed
  rw [uninitialised_length] at long
  cases rest
  refine ⟨?_, _, _, rfl, by rw [List.length_map]⟩
  intro message member
  rw [Exchange.upload, Exchange.sends_send, Exchange.sends_await, Exchange.sends_map] at member
  rcases List.mem_cons.mp member with rfl | inside
  · have size : (bufferSend.take headerSize).length = headerSize := by
      rw [List.length_take]
      omega
    refine ⟨fun empty => ?_, by dsimp only; omega⟩
    dsimp only at empty
    rw [empty] at size
    cases size
  · obtain ⟨block, isBlock, rfl⟩ := List.mem_map.mp inside
    obtain ⟨content, isContent, rfl⟩ := List.mem_map.mp isBlock
    have short := length_le_of_mem_fileBlocks isContent
    have size : (padded recvLength content).length = recvLength := by
      rw [padded, List.length_append, List.length_replicate]
      omega
    refine ⟨fun empty => ?_, Nat.le_of_eq size⟩
    dsimp only at empty
    rw [empty] at size
    cases size

theorem Side.server_ne : Side.server ≠ Side.client := by decide

/-- A message of a program fits the receive buffer with its frame header. -/
theorem fits_chunk (sock : SocketId) {payload : List Byte} (short : payload.length ≤ recvLength) :
    payload.length + (decimal sock.value).length + 6 ≤ maxChunk := by
  have digits := sock.digits_le
  have room : recvLength + 15 ≤ maxChunk := by decide
  omega

/-! ## Ideal sockets -/

namespace Uplink

/-- The same upload over sockets that are queues: what is pending at the two
Message Distributors is on its way, and so are the replies that are due. -/
structure Abstracts (ids : SocketId → Prop) (sock : SocketId) (uplink : Uplink)
    (contention : Contention) : Prop where
  delivers : uplink.link.Delivers ids
  sized : Sized uplink.program
  program : contention.exchange.program = uplink.program
  server : contention.exchange.server = uplink.server
  toServer : contention.exchange.toServer.map Message.content = uplink.link.pending .server sock
  toClient : contention.exchange.toClient =
    uplink.link.pending .client sock ++ List.replicate uplink.owed response
  sendLock : contention.sendLock = uplink.sendLock
  threads : contention.threads = uplink.threads
  fakeId : contention.fakeId = uplink.fakeId
  acquired : contention.acquired = uplink.acquired

theorem init_abstracts {ids : SocketId → Prop} {link : Link} (delivers : link.Delivers ids)
    {sock : SocketId} (noMessage : link.pending .server sock = [])
    (noReply : link.pending .client sock = []) (sizePerTime : Nat) (files : List Upload) :
    Abstracts ids sock (init link sizePerTime files) (.init sizePerTime files) where
  delivers := delivers
  sized _ member := by cases member
  program := rfl
  server := rfl
  toServer := noMessage.symm
  toClient := by
    change [] = link.pending .client sock ++ []
    rw [noReply, List.append_nil]
  sendLock := rfl
  threads := rfl
  fakeId := rfl
  acquired := rfl

section Simulation

variable {mfrecv : List Byte → Option (List Byte)} {ids : SocketId → Prop} {sock : SocketId}
  {sizePerTime : Nat} {uplink after : Uplink} {contention : Contention}

/-- What a step of the two processes is over ideal sockets, unless that fails. -/
def Matched (ids : SocketId → Prop) (sock : SocketId) (sizePerTime : Nat) (after : Uplink)
    (contention : Contention) (label : ContentionStep) : Prop :=
  ∃ image, contention.step sizePerTime label = some image ∧
    (image.exchange.fault = none → Abstracts ids sock after image)

theorem Abstracts.lock (abstracts : Abstracts ids sock uplink contention) {thread : Nat}
    {junk : Nat → Byte} (stepped : uplink.lockStep sizePerTime thread junk = some after) :
    Matched ids sock sizePerTime after contention (.lock thread junk) := by
  unfold lockStep at stepped
  split at stepped
  next file remaining unlocked there =>
    rw [← abstracts.sendLock] at unlocked
    rw [← abstracts.threads] at there
    simp only [← abstracts.fakeId] at stepped
    unfold Matched
    simp only [Contention.step, Contention.lockStep, unlocked, there]
    cases sending : Cpp.orbitProgram junk (file.announced sizePerTime contention.fakeId) with
    | error fault =>
      exact ⟨_, rfl, fun sound => by cases sound⟩
    | ok program =>
      simp only [sending] at stepped
      cases stepped
      refine ⟨_, rfl, fun _ => ?_⟩
      exact
        { delivers := abstracts.delivers
          sized := (Cpp.orbitProgram_sized sending).1
          program := rfl
          server := abstracts.server
          toServer := abstracts.toServer
          toClient := abstracts.toClient
          sendLock := rfl
          threads := by dsimp only; rw [abstracts.threads]
          fakeId := rfl
          acquired := by dsimp only; rw [abstracts.acquired] }
  next => cases stepped

theorem Abstracts.unlock (abstracts : Abstracts ids sock uplink contention) {thread : Nat}
    (stepped : uplink.unlockStep thread = some after) :
    Matched ids sock sizePerTime after contention (.unlock thread) := by
  unfold unlockStep at stepped
  split at stepped
  next allowed =>
    cases stepped
    rw [← abstracts.sendLock, ← abstracts.program] at allowed
    refine ⟨{ contention with sendLock := none }, ?_, fun _ => ?_⟩
    · simp only [Contention.step, Contention.unlockStep, if_pos allowed]
    · exact { abstracts with sendLock := rfl }
  next => cases stepped

/-- A call of the thread between lock and unlock does not fail. -/
theorem Abstracts.client (abstracts : Abstracts ids sock uplink contention) (member : ids sock)
    {junk : Nat → Byte} (stepped : uplink.clientStep sock junk = some after) :
    Matched ids sock sizePerTime after contention (.exchange .client) := by
  unfold Matched
  unfold clientStep at stepped
  have sized := abstracts.sized
  split at stepped
  next => cases stepped
  next message rest atSend =>
    rw [atSend] at sized
    obtain ⟨nonempty, short⟩ := sized message (by simp)
    have written := abstracts.delivers.sendStep_pending .client junk member nonempty
    simp only [abstracts.delivers.send_emits .client junk member nonempty,
      Option.some.injEq] at stepped
    subst stepped
    simp only [Contention.step, Exchange.step, Exchange.clientStep, abstracts.program, atSend,
      Option.map_some]
    refine ⟨_, rfl, fun _ => ?_⟩
    exact
      { delivers := abstracts.delivers.sendStep .client junk member nonempty (fits_chunk sock short)
        sized := sized.tail
        program := rfl
        server := abstracts.server
        toServer := by
          dsimp only
          rw [written, List.map_append, abstracts.toServer]
          exact (Channels.set_self _ _ _ _).symm
        toClient := by
          dsimp only
          rw [written, Channels.set_other (.inl (Side.peer_ne .client).symm)]
          exact abstracts.toClient
        sendLock := abstracts.sendLock
        threads := abstracts.threads
        fakeId := abstracts.fakeId
        acquired := abstracts.acquired }
  next rest atAwait =>
    rw [atAwait] at sized
    obtain ⟨link, received, rfl⟩ := Option.map_eq_some_iff.mp stepped
    obtain ⟨block, more, waiting, -, pending⟩ :=
      abstracts.delivers.recvStep_pending member received
    have replies := abstracts.toClient
    rw [waiting, List.cons_append] at replies
    simp only [Contention.step, Exchange.step, Exchange.clientStep, abstracts.program, atAwait,
      replies, Option.map_some]
    refine ⟨_, rfl, fun _ => ?_⟩
    exact
      { delivers := abstracts.delivers.recvStep member received
        sized := sized.tail
        program := rfl
        server := abstracts.server
        toServer := by
          dsimp only
          rw [pending, Channels.set_other (.inl Side.server_ne)]
          exact abstracts.toServer
        toClient := by
          dsimp only
          rw [pending, Channels.set_self]
        sendLock := abstracts.sendLock
        threads := abstracts.threads
        fakeId := abstracts.fakeId
        acquired := abstracts.acquired }

/-- The server thread asks for the same bytes. -/
theorem Abstracts.asks (abstracts : Abstracts ids sock uplink contention) :
    contention.exchange.asks.map Prod.snd = uplink.server.asks := by
  simp only [Exchange.asks, Transmit.asks, abstracts.server]
  cases uplink.server.pc <;> rfl

theorem Abstracts.read (abstracts : Abstracts ids sock uplink contention) (member : ids sock)
    {junk : Nat → Byte} {beyond : List Byte}
    (stepped : uplink.readStep sock junk beyond = some after) :
    Matched ids sock sizePerTime after contention (.exchange (.read junk beyond)) := by
  unfold Matched
  unfold readStep at stepped
  split at stepped
  next => cases stepped
  next idle =>
    rw [ne_eq, not_not] at idle
    split at stepped
    next size link asked received =>
      obtain ⟨block, rest, waiting, returned, pending⟩ :=
        abstracts.delivers.recvStep_pending member received
      have asks := abstracts.asks
      rw [asked] at asks
      obtain ⟨⟨kind, bytes⟩, isAsked, rfl⟩ := Option.map_eq_some_iff.mp asks
      have arrived := abstracts.toServer
      rw [waiting] at arrived
      obtain ⟨message, messages, toServer, rfl, restSame⟩ := List.map_eq_cons_iff.mp arrived
      simp only [returned] at stepped
      simp only [Contention.step, Exchange.step, Exchange.readStep, isAsked, toServer,
        abstracts.server]
      generalize uplink.server.step .orbit .disk junk
        (.received ((message.content ++ beyond).take bytes)) = served at stepped ⊢
      rcases served with _ | fault | server
      · cases stepped
      · exact ⟨_, rfl, fun sound => by cases sound⟩
      · cases stepped
        refine ⟨_, rfl, fun _ => ?_⟩
        exact
          { delivers := abstracts.delivers.recvStep member received
            sized := abstracts.sized
            program := abstracts.program
            server := rfl
            toServer := by
              dsimp only [Exchange.serve]
              rw [pending, Channels.set_self]
              exact restSame
            toClient := by
              dsimp only [Exchange.serve]
              rw [pending, Channels.set_other (.inl Side.server_ne.symm), abstracts.toClient, idle,
                Nat.zero_add, List.replicate_zero, List.append_nil]
            sendLock := abstracts.sendLock
            threads := abstracts.threads
            fakeId := abstracts.fakeId
            acquired := abstracts.acquired }
    next => cases stepped

theorem Abstracts.store (abstracts : Abstracts ids sock uplink contention)
    (stepped : uplink.storeStep = some after) :
    Matched ids sock sizePerTime after contention (.exchange .store) := by
  unfold Matched
  unfold storeStep at stepped
  split at stepped
  next => cases stepped
  next idle =>
    rw [ne_eq, not_not] at idle
    simp only [Contention.step, Exchange.step, Exchange.storeStep, abstracts.server]
    generalize uplink.server.step .orbit .disk (fun _ => 0) (.opened true) = served at stepped ⊢
    rcases served with _ | fault | server
    · cases stepped
    · exact ⟨_, rfl, fun sound => by cases sound⟩
    · cases stepped
      refine ⟨_, rfl, fun _ => ?_⟩
      exact
        { abstracts with
          server := rfl
          toClient := by
            dsimp only [Exchange.serve]
            rw [abstracts.toClient, idle, Nat.zero_add, List.replicate_zero, List.append_nil,
              abstracts.server] }

/-- A reply that was due is pending. -/
theorem Abstracts.reply (abstracts : Abstracts ids sock uplink contention) (member : ids sock)
    {junk : Nat → Byte} (stepped : uplink.replyStep sock junk = some after) :
    Abstracts ids sock after contention := by
  unfold replyStep at stepped
  split at stepped
  next => cases stepped
  next owed due =>
    cases stepped
    have nonempty : response ≠ [] := by decide
    have written := abstracts.delivers.sendStep_pending .server junk member nonempty
    exact
      { abstracts with
        delivers := abstracts.delivers.sendStep .server junk member nonempty
          (fits_chunk sock (by decide))
        toServer := by
          dsimp only
          rw [written, Channels.set_other (.inl (Side.peer_ne .server).symm)]
          exact abstracts.toServer
        toClient := by
          dsimp only
          rw [written, abstracts.toClient, due, List.replicate_succ, List.append_cons]
          exact congrArg (· ++ _) (Channels.set_self _ _ _ _).symm }

/-- What does not touch the socket is nothing over the ideal one. -/
theorem Abstracts.elsewhere (abstracts : Abstracts ids sock uplink contention) {link : Link}
    (delivers : link.Delivers ids)
    (same : ∀ side, link.pending side sock = uplink.link.pending side sock) :
    Abstracts ids sock { uplink with link := link } contention :=
  { abstracts with
    delivers := delivers
    toServer := by rw [abstracts.toServer, same]
    toClient := by rw [abstracts.toClient, same] }

theorem Abstracts.listen (abstracts : Abstracts ids sock uplink contention)
    (contract : ReceiveContract mfrecv) {side : Side} {junk : Nat → Byte} {link : Link}
    (stepped : uplink.link.listenStep mfrecv side junk = some link) :
    Abstracts ids sock { uplink with link := link } contention := by
  obtain ⟨delivers, same⟩ := abstracts.delivers.listenStep_pending contract stepped
  exact abstracts.elsewhere delivers fun other => by rw [same]

/-- A call on another socket. -/
theorem Abstracts.other (abstracts : Abstracts ids sock uplink contention) {call : LinkStep}
    (allowed : call.Allowed ids) (elsewhere : call.Elsewhere sock) {link : Link}
    (stepped : uplink.link.step mfrecv call = some link) :
    Abstracts ids sock { uplink with link := link } contention := by
  obtain ⟨delivers, same⟩ := abstracts.delivers.elsewhere allowed elsewhere stepped
  exact abstracts.elsewhere delivers same

/-- Over ideal sockets a step is either the same step or none. -/
theorem Abstracts.step (abstracts : Abstracts ids sock uplink contention)
    (contract : ReceiveContract mfrecv) (member : ids sock) {label : UplinkStep}
    (allowed : label.Allowed ids sock)
    (stepped : uplink.step mfrecv sock sizePerTime label = some after) :
    Abstracts ids sock after contention ∨
      ∃ image, Matched ids sock sizePerTime after contention image := by
  cases label with
  | lock thread junk => exact .inr ⟨_, abstracts.lock stepped⟩
  | unlock thread => exact .inr ⟨_, abstracts.unlock stepped⟩
  | client junk => exact .inr ⟨_, abstracts.client member stepped⟩
  | read junk beyond => exact .inr ⟨_, abstracts.read member stepped⟩
  | store => exact .inr ⟨_, abstracts.store stepped⟩
  | reply junk => exact .inl (abstracts.reply member stepped)
  | listen side junk =>
      obtain ⟨link, listened, rfl⟩ := Option.map_eq_some_iff.mp stepped
      exact .inl (abstracts.listen contract listened)
  | other call =>
      obtain ⟨link, called, rfl⟩ := Option.map_eq_some_iff.mp stepped
      exact .inl (abstracts.other allowed.1 allowed.2 called)

/-- A step of the machine is a step of the code, as long as nothing has
failed. -/
theorem step_of_next {label : UplinkStep}
    (stepped : (uplinkMachine mfrecv sock sizePerTime).next uplink label = some after) :
    uplink.step mfrecv sock sizePerTime label = some after := by
  simp only [uplinkMachine] at stepped
  split at stepped
  next => cases stepped
  next => exact stepped

/-- The two processes, step by step, over ideal sockets. -/
theorem simulates (contract : ReceiveContract mfrecv) (member : ids sock)
    (files : List Upload) :
    Simulation (uplinkMachine mfrecv sock sizePerTime).transition
      (contentionMachine sizePerTime).transition
      (fun _ label => label.Allowed ids sock) (fun _ _ => True)
      (fun uplink contention => Abstracts ids sock uplink contention ∧
        contention.Contending sizePerTime files) where
  matched := by
    rintro uplink after label contention ⟨abstracts, contending⟩ allowed transition
    rcases abstracts.step contract member allowed (step_of_next transition) with
      stutter | ⟨image, imageAfter, imageStep, afterAbstracts⟩
    · exact .inl ⟨stutter, contending⟩
    · have contendingAfter := contending.step imageStep
      refine .inr ⟨image, imageAfter, trivial, ?_,
        afterAbstracts contendingAfter.inStep.sound, contendingAfter⟩
      simp only [Machine.transition, contentionMachine, contending.inStep.sound,
        Option.isSome_none, Bool.false_eq_true, if_false, imageStep]

end Simulation

end Uplink

end PaintingCPS
