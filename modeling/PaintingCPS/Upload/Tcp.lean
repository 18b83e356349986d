import PaintingCPS.Foundation.Machine
import PaintingCPS.Server.Upload

/-!
Contract: upload by the C++ client over one TCP connection.

A connection is a byte stream in each direction. The schedule chooses how many
bytes each `read` and `recv` of the server returns. The server takes a header
with a single `read`, so the claim of exactness is about schedules in which
this `read` returns all of it.

Owns: the calls of the client, the two streams, and exact upload for every
other split of the stream.

Does not own: the server's end, which is `server_transmit`, and failures.
-/

set_option autoImplicit false

namespace PaintingCPS

open Foundation

/-- One call of `transmit_child` in TCP mode. -/
inductive TcpOp where
  | send (bytes : List Byte)
  /-- `read(sockfd, response, sizeof(response))` -/
  | await
deriving DecidableEq, Repr

/-- `sizeof(response)` at the client. -/
def responseCapacity : Nat := 10

namespace Cpp

/-- `transmit_child` in TCP mode between lock and unlock, for one file. -/
def tcpProgram (file : Upload) : Except Fault (List TcpOp) := do
  let bufferSend ← sprintf (List.replicate bufferSize 0) file.info
  return .send bufferSend :: .await ::
    ((fileBlocks bufferSize file.image).map .send ++ [.await])

end Cpp

/-- A client, a server and the connection between them. -/
structure TcpUpload where
  /-- What the client has still to do for the current file. -/
  program : List TcpOp
  waiting : List Upload
  begun : List Upload
  toServer : List Byte
  toClient : List Byte
  server : Transmit
  /-- What the client's reads have returned. -/
  responses : List (List Byte)
  fault : Option Fault

inductive TcpStep where
  | begin
  | client
  /-- `read` or `recv` of the server returns `count` bytes. -/
  | read (count : Nat)
  | reply (junk : Nat → Byte)
  | store

/-- `char response[] = "ok"` -/
def tcpResponse : List Byte := ascii "ok" ++ [nul]

namespace TcpUpload

/-- The client is logged in. -/
def init (files : List Upload) : TcpUpload :=
  ⟨[], files, [], [], [], Transmit.init.start .tcp true, [], none⟩

section Steps

variable (upload : TcpUpload)

def beginStep : Option TcpUpload :=
  match upload.program, upload.waiting with
  | [], file :: rest =>
      match Cpp.tcpProgram file with
      | .error fault => some { upload with fault := some fault }
      | .ok program =>
          some { upload with program := program, waiting := rest, begun := upload.begun ++ [file] }
  | _, _ => none

def clientStep : Option TcpUpload :=
  match upload.program with
  | .send bytes :: rest =>
      some { upload with program := rest, toServer := upload.toServer ++ bytes }
  | .await :: rest =>
      if upload.toClient = [] then none
      else
        some { upload with
          program := rest
          toClient := upload.toClient.drop responseCapacity
          responses := upload.responses ++ [upload.toClient.take responseCapacity] }
  | [] => none

/-- The server has done one step; its new replies are in the stream. -/
def serve : Option (Except Fault Transmit) → Option TcpUpload
  | none => none
  | some (.error fault) => some { upload with fault := some fault }
  | some (.ok server) =>
      some { upload with
        server := server
        toClient := upload.toClient ++
          (List.replicate (server.replies - upload.server.replies) tcpResponse).flatten }

/-- The server asks for `bufferSize` bytes and gets some of those that are
there. -/
def readStep (count : Nat) : Option TcpUpload :=
  if 0 < count ∧ count ≤ bufferSize ∧ count ≤ upload.toServer.length then
    { upload with toServer := upload.toServer.drop count }.serve
      (upload.server.step .tcp .disk (fun _ => 0) (.received (upload.toServer.take count)))
  else none

def step : TcpStep → Option TcpUpload
  | .begin => upload.beginStep
  | .client => upload.clientStep
  | .read count => upload.readStep count
  | .reply junk => upload.serve (upload.server.step .tcp .disk junk (.wrote true))
  | .store => upload.serve (upload.server.step .tcp .disk (fun _ => 0) (.opened true))

end Steps

end TcpUpload

def tcpMachine : Machine TcpUpload TcpStep where
  next upload label := if upload.fault.isSome then none else upload.step label

namespace TcpUpload

theorem step_of_transition {upload after : TcpUpload} {label : TcpStep}
    (transition : tcpMachine.transition upload label after) :
    upload.step label = some after := by
  simp only [Machine.transition, tcpMachine] at transition
  split at transition
  next => cases transition
  next => exact transition

/-- A `read` of a header returns the whole of it. -/
def WholeHeader (upload : TcpUpload) : TcpStep → Prop
  | .read count => upload.server.pc = .header → count = bufferSize
  | _ => True

/-! ## The invariant -/

/-- Everything the server has received is stored or is being stored. -/
inductive Settled (server : Transmit) : List Upload → Prop
  | stored {files : List Upload} :
      server.pc = .header → server.stored = files.map Upload.entry → Settled server files
  | storing {files : List Upload} {last : Upload} :
      Transmit.Submitting last server → server.stored = files.map Upload.entry →
      Settled server (files ++ [last])

/-- The blocks the client reads from a file. -/
structure Blocks (whole : List Byte) (blocks : List (List Byte)) : Prop where
  content : blocks.flatten = whole
  nonempty : ∀ block ∈ blocks, block ≠ []

/-- The header of a file as the client sends it. -/
structure Header (next : Upload) (header : List Byte) : Prop where
  isHeader : next.IsHeader header
  size : header.length = bufferSize

/-- The rest of the program once the header is sent. -/
def afterHeader (blocks : List (List Byte)) : List TcpOp :=
  .await :: (blocks.map .send ++ [.await])

/-- Where client and server are. Each constructor is one stretch of the
dialogue about the file `next`, sent after the files `earlier`. -/
inductive Phase (upload : TcpUpload) : List Upload → Prop
  | between {files : List Upload} :
      upload.program = [] → upload.toServer = [] → upload.toClient = [] →
      Settled upload.server files → Phase upload files
  | announcing {earlier : List Upload} {next : Upload} {header : List Byte}
      {blocks : List (List Byte)} :
      upload.program = .send header :: afterHeader blocks → Header next header →
      Blocks next.image blocks → upload.toServer = [] → upload.toClient = [] →
      Settled upload.server earlier → Phase upload (earlier ++ [next])
  | announced {earlier : List Upload} {next : Upload} {header : List Byte}
      {blocks : List (List Byte)} :
      upload.program = afterHeader blocks → Header next header → Blocks next.image blocks →
      upload.toServer = header → upload.toClient = [] →
      Settled upload.server earlier → Phase upload (earlier ++ [next])
  | greeted {earlier : List Upload} {next : Upload} {blocks : List (List Byte)} :
      upload.program = afterHeader blocks → Blocks next.image blocks →
      upload.toServer = [] → upload.toClient = [] →
      upload.server.pc = .replying next.fileName next.image.length →
      upload.server.stored = earlier.map Upload.entry → Phase upload (earlier ++ [next])
  | invited {earlier : List Upload} {next : Upload} {blocks : List (List Byte)} :
      upload.program = afterHeader blocks → Blocks next.image blocks →
      upload.toServer = [] → upload.toClient = tcpResponse →
      Transmit.Receiving next upload.server 0 →
      upload.server.stored = earlier.map Upload.entry → Phase upload (earlier ++ [next])
  | sending {earlier : List Upload} {next : Upload} {blocks : List (List Byte)} {offset : Nat} :
      upload.program = blocks.map .send ++ [.await] → (∀ block ∈ blocks, block ≠ []) →
      upload.toServer ++ blocks.flatten = next.image.drop offset → upload.toClient = [] →
      Transmit.Receiving next upload.server offset →
      upload.server.stored = earlier.map Upload.entry → Phase upload (earlier ++ [next])
  | received {files : List Upload} :
      upload.program = [.await] → upload.toServer = [] → upload.toClient = tcpResponse →
      Settled upload.server files → Phase upload files

/-- Client and server are in step. -/
structure InStep (files : List Upload) (upload : TcpUpload) : Prop where
  sound : upload.fault = none
  responses : ∀ response ∈ upload.responses, response = tcpResponse
  order : upload.begun ++ upload.waiting = files
  phase : upload.Phase upload.begun

section Invariant

variable {files : List Upload} {upload after : TcpUpload}

theorem init_inStep : (init files).InStep files where
  sound := rfl
  responses _ member := by cases member
  order := rfl
  phase := .between rfl rfl rfl (.stored rfl rfl)

/-- The program of a file is its header, its blocks and two reads. -/
theorem tcpProgram_eq {file : Upload} (accepted : file.Accepted) :
    ∃ header blocks, Cpp.tcpProgram file = .ok (.send header :: afterHeader blocks) ∧
      Header file header ∧ Blocks file.image blocks := by
  have name := accepted.name
  have size := accepted.size
  have positive : 0 < bufferSize := by decide
  have digits : (decimal file.image.length).length ≤ 10 := by
    rw [decimal_length_le_iff (by decide)]
    omega
  have short : file.info.length < bufferSize := by
    rw [Upload.info, List.length_append, List.length_cons]
    have capacity : fileNameCapacity = 60 := rfl
    have room : bufferSize = 1024 := rfl
    omega
  have printed := sprintf_eq
    (show file.info.length < (List.replicate bufferSize (0 : Byte)).length by
      rwa [List.length_replicate])
  refine ⟨file.info ++ nul :: (List.replicate bufferSize 0).drop (file.info.length + 1), _, ?_,
    ⟨⟨(List.replicate bufferSize 0).drop (file.info.length + 1), ?_⟩, ?_⟩,
    ⟨flatten_fileBlocks positive file.image,
      fun block member => ne_nil_of_mem_fileBlocks positive member⟩⟩
  · rw [Cpp.tcpProgram, printed]
    rfl
  · rw [List.append_assoc, List.singleton_append]
  · rw [List.length_append, List.length_cons, List.length_drop, List.length_replicate]
    omega

private theorem InStep.begin (inStep : upload.InStep files)
    (accepted : ∀ file ∈ files, file.Accepted) (stepped : upload.beginStep = some after) :
    after.InStep files := by
  obtain ⟨sound, responses, order, phase⟩ := inStep
  unfold beginStep at stepped
  split at stepped
  next file rest done waits =>
    have member : file ∈ files := by
      rw [← order, waits]
      exact List.mem_append_right _ (List.mem_cons_self ..)
    obtain ⟨header, blocks, program, isHeader, isBlocks⟩ := tcpProgram_eq (accepted file member)
    simp only [program, Option.some.injEq] at stepped
    subst stepped
    refine ⟨sound, responses, ?_, ?_⟩
    · rw [← order, waits, List.append_assoc]
      rfl
    · generalize upload.begun = begun at phase
      cases phase with
      | between _ arrived replied settled =>
          exact .announcing rfl isHeader isBlocks arrived replied settled
      | announcing program | announced program | greeted program | invited program
      | sending program | received program =>
          rw [program] at done
          simp [afterHeader] at done
  next => cases stepped

/-- A client that waits takes the reply. -/
private theorem clientStep_await {rest : List TcpOp} (waits : upload.program = .await :: rest)
    (replied : upload.toClient = tcpResponse) :
    upload.clientStep = some { upload with
      program := rest
      toClient := []
      responses := upload.responses ++ [tcpResponse] } := by
  have taken : tcpResponse.take responseCapacity = tcpResponse := by decide
  have rest : tcpResponse.drop responseCapacity = [] := by decide
  have some : tcpResponse ≠ [] := by decide
  simp only [clientStep, waits, replied, if_neg some, taken, rest]

private theorem InStep.client (inStep : upload.InStep files)
    (stepped : upload.clientStep = some after) : after.InStep files := by
  obtain ⟨sound, responses, order, phase⟩ := inStep
  have responded : ∀ response ∈ upload.responses ++ [tcpResponse], response = tcpResponse := by
    intro response member
    rcases List.mem_append.mp member with old | new
    · exact responses response old
    · exact List.mem_singleton.mp new
  generalize isBegun : upload.begun = begun at phase
  cases phase with
  | between program => simp [clientStep, program] at stepped
  | announcing program isHeader isBlocks arrived replied settled =>
      simp only [clientStep, program, arrived, List.nil_append, Option.some.injEq] at stepped
      subst stepped
      refine ⟨sound, responses, order, ?_⟩
      rw [isBegun]
      exact .announced rfl isHeader isBlocks rfl replied settled
  | announced program _ _ _ replied | greeted program _ _ replied =>
      simp [clientStep, program, afterHeader, replied] at stepped
  | @invited earlier next blocks program isBlocks arrived replied receiving stored =>
      rw [clientStep_await program replied] at stepped
      cases stepped
      refine ⟨sound, responded, order, ?_⟩
      rw [isBegun]
      refine .sending rfl isBlocks.nonempty ?_ rfl receiving stored
      rw [arrived, isBlocks.content]
      rfl
  | @sending earlier next blocks offset program nonempty content replied receiving stored =>
      cases blocks with
      | nil => simp [clientStep, program, replied] at stepped
      | cons block blocks =>
          simp only [clientStep, program, List.map_cons, List.cons_append,
            Option.some.injEq] at stepped
          subst stepped
          refine ⟨sound, responses, order, ?_⟩
          rw [isBegun]
          refine .sending rfl (List.forall_mem_cons.mp nonempty).2 ?_ replied receiving stored
          rw [List.append_assoc, ← content]
          rfl
  | received program arrived replied settled =>
      rw [clientStep_await program replied] at stepped
      cases stepped
      refine ⟨sound, responded, order, ?_⟩
      rw [isBegun]
      exact .between rfl arrived rfl settled

/-- A step of the server, and the replies it has sent. -/
private theorem serve_eq (upload : TcpUpload) {server : Transmit} {actions : List Action}
    (did : server.actions = upload.server.actions ++ actions) :
    upload.serve (some (.ok server)) = some { upload with
      server := server
      toClient := upload.toClient ++
        (List.replicate (actions.count .reply) tcpResponse).flatten } := by
  rw [serve, Transmit.replies_append did, Nat.add_sub_cancel_left]

private theorem InStep.read (inStep : upload.InStep files)
    (accepted : ∀ file ∈ files, file.Accepted) {count : Nat}
    (whole : upload.server.pc = .header → count = bufferSize)
    (stepped : upload.readStep count = some after) : after.InStep files := by
  obtain ⟨sound, responses, order, phase⟩ := inStep
  unfold readStep at stepped
  split at stepped
  next allowed =>
    obtain ⟨positive, -, available⟩ := allowed
    generalize isBegun : upload.begun = begun at phase
    cases phase with
    | between _ arrived | announcing _ _ _ arrived | greeted _ _ arrived
    | invited _ _ arrived | received _ arrived =>
        rw [arrived, List.length_nil] at available
        omega
    | @announced earlier next header blocks program isHeader isBlocks arrived replied settled =>
        cases settled with
        | stored atHeader stored =>
            have acceptedNext : next.Accepted := by
              refine accepted next ?_
              rw [← order, isBegun]
              simp
            obtain rfl := whole atHeader
            rw [arrived, List.take_of_length_le (Nat.le_of_eq isHeader.size),
              List.drop_of_length_le (Nat.le_of_eq isHeader.size),
              Transmit.step_tcpHeader .disk _ acceptedNext atHeader isHeader.isHeader,
              serve_eq { upload with toServer := [] } rfl] at stepped
            cases stepped
            refine ⟨sound, responses, order, ?_⟩
            rw [isBegun]
            refine .greeted program isBlocks rfl (by simp [replied]) rfl ?_
            rw [← stored, Transmit.stored_append rfl]
            simp
        | storing submitting =>
            simp [Transmit.step, show upload.server.pc = _ from submitting, serve] at stepped
    | @sending earlier next blocks offset program nonempty content replied receiving stored =>
        have piece : upload.toServer.take count <+: next.image.drop offset := by
          rw [← content]
          exact (List.take_prefix _ _).trans (List.prefix_append _ _)
        have size : (upload.toServer.take count).length = count := by
          rw [List.length_take, Nat.min_eq_left available]
        have some : upload.toServer.take count ≠ [] := by
          rw [← List.length_pos_iff, size]
          exact positive
        have left : upload.toServer.drop count ++ blocks.flatten =
            next.image.drop (offset + count) := by
          rw [← List.drop_drop, ← content, List.drop_append_of_le_length available]
        obtain ⟨server, served, ⟨complete, submitting, did⟩ | ⟨receiving, did⟩⟩ :=
          Transmit.step_tcpBody .disk (fun _ => 0) receiving some piece
        · rw [served, serve_eq { upload with toServer := upload.toServer.drop count } did]
            at stepped
          cases stepped
          rw [size] at complete
          rw [complete, List.drop_length, List.append_eq_nil_iff, List.flatten_eq_nil_iff] at left
          obtain ⟨nothing, allEmpty⟩ := left
          obtain rfl : blocks = [] := by
            refine List.eq_nil_iff_forall_not_mem.mpr fun block member => ?_
            exact nonempty block member (allEmpty block member)
          refine ⟨sound, responses, order, ?_⟩
          rw [isBegun]
          refine .received program nothing ?_ (.storing submitting ?_)
          · rw [replied]
            rfl
          · rw [← stored, Transmit.stored_append did]
            simp [Action.stored]
        · have nothing := did.trans (List.append_nil _).symm
          rw [served, serve_eq { upload with toServer := upload.toServer.drop count } nothing]
            at stepped
          cases stepped
          refine ⟨sound, responses, order, ?_⟩
          rw [isBegun]
          rw [size] at receiving
          refine .sending program nonempty left (by simp [replied]) receiving ?_
          rw [← stored, Transmit.stored_append nothing]
          simp
  next => cases stepped

private theorem InStep.reply (inStep : upload.InStep files) {junk : Nat → Byte}
    (stepped : upload.serve (upload.server.step .tcp .disk junk (.wrote true)) = some after) :
    after.InStep files := by
  obtain ⟨sound, responses, order, phase⟩ := inStep
  generalize isBegun : upload.begun = begun at phase
  have idle : ∀ {files}, Settled upload.server files →
      upload.server.step .tcp .disk junk (.wrote true) = none := by
    intro files settled
    cases settled with
    | stored atHeader => simp [Transmit.step, atHeader, Transmit.tcpHeader]
    | storing submitting => simp [Transmit.step, show upload.server.pc = _ from submitting]
  have busy : ∀ {next : Upload} {offset : Nat}, Transmit.Receiving next upload.server offset →
      upload.server.step .tcp .disk junk (.wrote true) = none := by
    intro next offset receiving
    obtain ⟨img, atBody, -⟩ := receiving.waiting
    simp [Transmit.step, atBody, Transmit.tcpBody]
  cases phase with
  | between _ _ _ settled | announcing _ _ _ _ _ settled | announced _ _ _ _ _ settled
  | received _ _ _ settled =>
      rw [idle settled] at stepped
      cases stepped
  | invited _ _ _ _ receiving | sending _ _ _ _ receiving =>
      rw [busy receiving] at stepped
      cases stepped
  | @greeted earlier next blocks program isBlocks arrived replied replying stored =>
      obtain ⟨server, served, receiving, did⟩ :=
        Transmit.step_tcpReply .disk junk replying
      rw [served, serve_eq upload did] at stepped
      cases stepped
      refine ⟨sound, responses, order, ?_⟩
      rw [isBegun]
      refine .invited program isBlocks arrived ?_ receiving ?_
      · rw [replied]
        rfl
      · rw [← stored, Transmit.stored_append did]
        simp [Action.stored]

/-- The file that is being stored gets stored. -/
private theorem Settled.store {server result : Transmit} {junk : Nat → Byte}
    (settled : Settled server files)
    (stepped : server.step .tcp .disk junk (.opened true) = some (.ok result)) :
    Settled result files ∧ result.replies = server.replies := by
  cases settled with
  | stored atHeader => simp [Transmit.step, atHeader, Transmit.tcpHeader] at stepped
  | storing submitting stored =>
      rw [Transmit.step_handOver .disk junk .tcp submitting] at stepped
      cases stepped
      refine ⟨.stored rfl ?_, ?_⟩
      · rw [Transmit.stored_append rfl, stored, List.map_append]
        rfl
      · rw [Transmit.replies_append rfl]
        simp [Transmit.handed]

private theorem InStep.store (inStep : upload.InStep files)
    (stepped : upload.serve (upload.server.step .tcp .disk (fun _ => 0) (.opened true)) =
      some after) : after.InStep files := by
  obtain ⟨sound, responses, order, phase⟩ := inStep
  have notStuck : ∀ {files}, Settled upload.server files →
      ∀ fault, upload.server.step .tcp .disk (fun _ => 0) (.opened true) ≠
        some (.error fault) := by
    intro files settled fault
    cases settled with
    | stored atHeader => simp [Transmit.step, atHeader, Transmit.tcpHeader]
    | storing submitting =>
        rw [Transmit.step_handOver .disk (fun _ => 0) .tcp submitting]
        simp
  have settles : ∀ {files}, Settled upload.server files → ∃ server,
      after = { upload with server := server } ∧ Settled server files := by
    intro files settled
    unfold serve at stepped
    split at stepped
    next => cases stepped
    next fault stuck => exact absurd stuck (notStuck settled fault)
    next server served =>
      cases stepped
      obtain ⟨settledAfter, same⟩ := settled.store served
      refine ⟨server, ?_, settledAfter⟩
      rw [same, Nat.sub_self, List.replicate_zero, List.flatten_nil, List.append_nil]
  generalize isBegun : upload.begun = begun at phase
  cases phase with
  | between program arrived replied settled =>
      obtain ⟨server, rfl, settledAfter⟩ := settles settled
      refine ⟨sound, responses, order, ?_⟩
      rw [isBegun]
      exact .between program arrived replied settledAfter
  | announcing program isHeader isBlocks arrived replied settled =>
      obtain ⟨server, rfl, settledAfter⟩ := settles settled
      refine ⟨sound, responses, order, ?_⟩
      rw [isBegun]
      exact .announcing program isHeader isBlocks arrived replied settledAfter
  | announced program isHeader isBlocks arrived replied settled =>
      obtain ⟨server, rfl, settledAfter⟩ := settles settled
      refine ⟨sound, responses, order, ?_⟩
      rw [isBegun]
      exact .announced program isHeader isBlocks arrived replied settledAfter
  | received program arrived replied settled =>
      obtain ⟨server, rfl, settledAfter⟩ := settles settled
      refine ⟨sound, responses, order, ?_⟩
      rw [isBegun]
      exact .received program arrived replied settledAfter
  | greeted _ _ _ _ replying => simp [Transmit.step, replying, serve] at stepped
  | invited _ _ _ _ receiving | sending _ _ _ _ receiving =>
      obtain ⟨img, atBody, -⟩ := receiving.waiting
      simp [Transmit.step, atBody, Transmit.tcpBody, serve] at stepped

/-- Every step keeps client and server in step, if headers are read whole. -/
theorem InStep.step (inStep : upload.InStep files) (accepted : ∀ file ∈ files, file.Accepted)
    {label : TcpStep} (whole : upload.WholeHeader label)
    (stepped : upload.step label = some after) : after.InStep files := by
  cases label with
  | begin => exact inStep.begin accepted stepped
  | client => exact inStep.client stepped
  | read count => exact inStep.read accepted whole stepped
  | reply junk => exact inStep.reply stepped
  | store => exact inStep.store stepped

end Invariant

/-! ## Results -/

/-- All files are sent, and the server waits for the next header. -/
structure Finished (upload : TcpUpload) : Prop where
  waiting : upload.waiting = []
  program : upload.program = []
  idle : upload.server.pc = .header

/-- The upload is exact so far, and goes on until all is done: then the server
has every file, in order, with its name and its bytes. -/
structure Exact (files : List Upload) (upload : TcpUpload) : Prop where
  sound : upload.fault = none
  responses : ∀ response ∈ upload.responses, response = tcpResponse
  lockstep : upload.toClient = [] ∨ upload.toClient = tcpResponse
  order : upload.server.stored <+: files.map Upload.entry
  progress : ¬ upload.Finished →
    ∃ label, upload.WholeHeader label ∧ (tcpMachine.next upload label).isSome
  complete : upload.Finished → upload.server.stored = files.map Upload.entry

section Results

variable {files : List Upload} {upload : TcpUpload}

private theorem Settled.begins {server : Transmit} (settled : Settled server files) :
    server.stored <+: files.map Upload.entry := by
  cases settled with
  | stored _ stored => exact stored ▸ List.prefix_refl _
  | storing _ stored =>
      rw [stored, List.map_append]
      exact List.prefix_append _ _

private theorem Phase.begins (phase : upload.Phase files) :
    upload.server.stored <+: files.map Upload.entry := by
  cases phase with
  | between _ _ _ settled | received _ _ _ settled => exact settled.begins
  | announcing _ _ _ _ _ settled | announced _ _ _ _ _ settled =>
      rw [List.map_append]
      exact settled.begins.trans (List.prefix_append _ _)
  | greeted _ _ _ _ _ stored | invited _ _ _ _ _ stored | sending _ _ _ _ _ stored =>
      rw [stored, List.map_append]
      exact List.prefix_append _ _

private theorem Phase.lockstep (phase : upload.Phase files) :
    upload.toClient = [] ∨ upload.toClient = tcpResponse := by
  cases phase with
  | between _ _ replied | announcing _ _ _ _ replied | announced _ _ _ _ replied
  | greeted _ _ _ replied | sending _ _ _ replied => exact .inl replied
  | invited _ _ _ replied | received _ _ replied => exact .inr replied

/-- When nothing is left to do, everything is stored. -/
private theorem Phase.complete (phase : upload.Phase files) (done : upload.program = [])
    (idle : upload.server.pc = .header) : upload.server.stored = files.map Upload.entry := by
  cases phase with
  | between _ _ _ settled =>
      cases settled with
      | stored _ stored => exact stored
      | storing submitting =>
          rw [show upload.server.pc = _ from submitting] at idle
          cases idle
  | announcing program | announced program | greeted program | invited program
  | sending program | received program =>
      rw [program] at done
      simp [afterHeader] at done

private theorem serve_isSome {result : Option (Except Fault Transmit)}
    (served : result.isSome) : (upload.serve result).isSome := by
  cases result with
  | none => cases served
  | some result => cases result <;> rfl

private theorem Settled.store_isSome {server : Transmit} {last : Upload}
    (submitting : Transmit.Submitting last server) :
    (server.step .tcp .disk (fun _ => 0) (.opened true)).isSome := by
  rw [Transmit.step_handOver .disk (fun _ => 0) .tcp submitting]
  rfl

private theorem InStep.progress (inStep : upload.InStep files)
    (unfinished : ¬ upload.Finished) :
    ∃ label, upload.WholeHeader label ∧ (tcpMachine.next upload label).isSome := by
  obtain ⟨sound, -, -, phase⟩ := inStep
  have moves : (∃ label, upload.WholeHeader label ∧ (upload.step label).isSome) →
      ∃ label, upload.WholeHeader label ∧ (tcpMachine.next upload label).isSome := by
    rintro ⟨label, allowed, moved⟩
    exact ⟨label, allowed, by simpa [tcpMachine, sound] using moved⟩
  apply moves
  generalize upload.begun = begun at phase
  cases phase with
  | between program _ _ settled =>
      cases settled with
      | stored atHeader =>
          cases waits : upload.waiting with
          | nil => exact absurd ⟨waits, program, atHeader⟩ unfinished
          | cons file rest =>
              refine ⟨.begin, trivial, ?_⟩
              simp only [TcpUpload.step, beginStep, program, waits]
              split <;> rfl
      | storing submitting =>
          exact ⟨.store, trivial, serve_isSome (Settled.store_isSome submitting)⟩
  | announcing program =>
      exact ⟨.client, trivial, by simp [TcpUpload.step, clientStep, program]⟩
  | announced program isHeader _ arrived _ settled =>
      cases settled with
      | stored atHeader =>
          refine ⟨.read bufferSize, fun _ => rfl, ?_⟩
          have available : bufferSize ≤ upload.toServer.length := by
            rw [arrived, isHeader.size]
          rw [TcpUpload.step, readStep, if_pos ⟨by decide, Nat.le_refl _, available⟩]
          refine serve_isSome ?_
          simp only [Transmit.step, atHeader, Transmit.tcpHeader]
          split <;> rfl
      | storing submitting =>
          exact ⟨.store, trivial, serve_isSome (Settled.store_isSome submitting)⟩
  | greeted _ _ _ _ replying =>
      refine ⟨.reply (fun _ => 0), trivial, serve_isSome ?_⟩
      simp [Transmit.step, replying]
  | invited program _ _ replied | received program _ replied =>
      exact ⟨.client, trivial, by rw [TcpUpload.step, clientStep_await program replied]; rfl⟩
  | @sending earlier next blocks offset program _ content _ receiving =>
      cases blocks with
      | cons block blocks =>
          exact ⟨.client, trivial, by simp [TcpUpload.step, clientStep, program]⟩
      | nil =>
          obtain ⟨remaining, img, atBody, -⟩ := receiving
          have available : 1 ≤ upload.toServer.length := by
            rw [← List.append_nil upload.toServer, ← List.flatten_nil, content, List.length_drop]
            omega
          refine ⟨.read 1, fun atHeader => (by rw [atBody] at atHeader; cases atHeader), ?_⟩
          rw [TcpUpload.step, readStep, if_pos ⟨Nat.one_pos, by decide, available⟩]
          refine serve_isSome ?_
          simp only [Transmit.step, atBody, Transmit.tcpBody]
          split <;> rfl

theorem InStep.exact (inStep : upload.InStep files) : upload.Exact files where
  sound := inStep.sound
  responses := inStep.responses
  lockstep := inStep.phase.lockstep
  order := by
    rw [← inStep.order, List.map_append]
    exact inStep.phase.begins.trans (List.prefix_append _ _)
  progress := inStep.progress
  complete finished := by
    have order := inStep.order
    rw [finished.waiting, List.append_nil] at order
    exact order ▸ inStep.phase.complete finished.program finished.idle

end Results

end TcpUpload

/-- Upload over TCP is exact, however the stream is split, as long as every
header is read in one piece. -/
theorem tcp_upload_exact {files : List Upload} (accepted : ∀ file ∈ files, file.Accepted)
    {finish : TcpUpload}
    (reached : tcpMachine.ReachesUnder (fun upload label => upload.WholeHeader label)
      (.init files) finish) :
    finish.Exact files := by
  have inStep : finish.InStep files :=
    reached.invariant TcpUpload.init_inStep fun inStep whole transition =>
      inStep.step accepted whole (TcpUpload.step_of_transition transition)
  exact inStep.exact

instance (upload : TcpUpload) : (label : TcpStep) → Decidable (upload.WholeHeader label)
  | .read count => inferInstanceAs (Decidable (upload.server.pc = .header → count = bufferSize))
  | .begin | .client | .reply _ | .store => inferInstanceAs (Decidable True)

/-- The bytes of the second file are received one by one. -/
def splitFiles : List Upload :=
  [⟨ascii "d", [7], by decide, List.cons_ne_nil _ _⟩,
    ⟨ascii "e", [8, 9], by decide, List.cons_ne_nil _ _⟩]

def splitSchedule : List TcpStep :=
  [.begin, .client, .read 1024, .reply (fun _ => 5), .client, .client, .read 1, .client, .store,
    .begin, .client, .read 1024, .reply (fun _ => 5), .client, .client, .read 1, .read 1, .client,
    .store]

theorem tcp_upload_exact_split : ∃ finish : TcpUpload,
    finish.server.stored = [(ascii "d", [7]), (ascii "e", [8, 9])] ∧ finish.Exact splitFiles := by
  have accepted : ∀ file ∈ splitFiles, file.Accepted := by decide
  obtain ⟨finish, reached, complete⟩ := Machine.exists_of_run
    (show ((tcpMachine.run (fun upload label => upload.WholeHeader label) (.init splitFiles)
        splitSchedule).map
      fun finish => decide (finish.server.stored =
        [(ascii "d", [7]), (ascii "e", [8, 9])])) = some true by
      decide +kernel)
  exact ⟨finish, of_decide_eq_true complete, tcp_upload_exact accepted reached⟩

def cutFile : Upload := ⟨ascii "d", [7], by decide, List.cons_ne_nil _ _⟩

/-- The header arrives in two pieces. -/
def cutHeaderSchedule : List TcpStep :=
  [.begin, .client, .read 500, .reply (fun _ => 5), .client, .client, .read 1, .store]

/-- The second piece of the header is taken for the image. -/
theorem cut_header_corrupts : ∃ finish : TcpUpload,
    tcpMachine.Reaches (.init [cutFile]) finish ∧
      finish.server.stored = [(ascii "d", [0])] ∧
      ¬ finish.Exact [cutFile] := by
  obtain ⟨finish, reached, found⟩ := Machine.exists_of_run
    (show ((tcpMachine.run (fun _ _ => True)
        (.init [cutFile]) cutHeaderSchedule).map
      fun finish => decide (finish.server.stored = [(ascii "d", [0])])) = some true by
      decide +kernel)
  have corrupt := of_decide_eq_true found
  refine ⟨finish, reached, corrupt, fun exact => ?_⟩
  have order := exact.order
  rw [corrupt] at order
  exact absurd order (by decide)

end PaintingCPS
