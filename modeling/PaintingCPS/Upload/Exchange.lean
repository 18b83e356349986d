import PaintingCPS.Foundation.Machine
import PaintingCPS.Server.Upload

/-!
Contract: one client that uploads over one socket in orbit mode, and
`server_transmit` at the other end.

The client is a program of `send` and `recv` calls for the current file; the
socket delivers the payloads of both directions in order. Messages carry no
type. What the sender means by a message and what the server takes it for are
recorded, and must agree.

`recv` copies as many bytes as were asked for; what lies behind a shorter
message is chosen by the schedule.

Owns: the exchange, its steps, and the invariant that every well-formed client
program keeps.

Does not own: where the programs come from.
-/

set_option autoImplicit false

namespace PaintingCPS

open Foundation

/-- What a message is meant to be, or is taken for. -/
inductive Kind where
  | header
  | body
deriving DecidableEq, Repr

/-- A payload on its way to the server. The kind is not transmitted. -/
structure Message where
  kind : Kind
  content : List Byte
deriving DecidableEq, Repr

/-- One call of the client. -/
inductive Op where
  | send (message : Message)
  /-- `recv` of the reply. -/
  | await
deriving DecidableEq, Repr

/-- Both ends of the socket. -/
structure Exchange where
  /-- What the client has still to do for the current file. -/
  program : List Op
  toServer : List Message
  toClient : List (List Byte)
  server : Transmit
  /-- For every message read: what the server took it for, and what it was. -/
  reads : List (Kind × Kind)
  fault : Option Fault
deriving DecidableEq, Repr

/-- The number of bytes the server asks for in its `recv` of a header. -/
def headerSize : Nat := 100

/-- `char response[] = "ok"` -/
def response : List Byte := ascii "ok" ++ [nul]

inductive ExchangeStep where
  | client
  | read (junk : Nat → Byte) (beyond : List Byte)
  | store

namespace Exchange

/-- The client is logged in and the server has replied. -/
def init : Exchange := ⟨[], [], [], Transmit.init.start .orbit true, [], none⟩

def stuck (exchange : Exchange) (fault : Fault) : Exchange := { exchange with fault := some fault }

/-- The server has moved on; its new replies are on their way. -/
def serve (exchange : Exchange) (server : Transmit) : Exchange :=
  { exchange with
    server := server
    toClient := exchange.toClient ++
      List.replicate (server.replies - exchange.server.replies) response }

section Steps

variable (exchange : Exchange)

/-- The next call of the client, blocked in `recv` without a reply. -/
def clientStep : Option Exchange :=
  match exchange.program, exchange.toClient with
  | .send message :: rest, _ =>
      some { exchange with program := rest, toServer := exchange.toServer ++ [message] }
  | .await :: rest, _ :: replies => some { exchange with program := rest, toClient := replies }
  | _, _ => none

/-- What the server takes the next message for, and how many bytes it asks
for. -/
def asks : Option (Kind × Nat) :=
  match exchange.server.pc with
  | .header => some (.header, headerSize)
  | .body .. => some (.body, recvLength)
  | _ => none

/-- `recv` at the server and what follows it. As in `Cpp.recvCopy`, what is read
behind a shorter message are arbitrary bytes of the heap. -/
def readStep (junk : Nat → Byte) (beyond : List Byte) : Option Exchange :=
  match exchange.asks, exchange.toServer with
  | some (kind, size), message :: rest =>
      let received := { exchange with
        toServer := rest
        reads := exchange.reads ++ [(kind, message.kind)] }
      match exchange.server.step .orbit .disk junk
        (.received ((message.content ++ beyond).take size)) with
      | none => none
      | some (.error fault) => some (received.stuck fault)
      | some (.ok server) => some (received.serve server)
  | _, _ => none

/-- The image is written and queued. -/
def storeStep : Option Exchange :=
  match exchange.server.step .orbit .disk (fun _ => 0) (.opened true) with
  | none => none
  | some (.error fault) => some (exchange.stuck fault)
  | some (.ok server) => some (exchange.serve server)

def step : ExchangeStep → Option Exchange
  | .client => exchange.clientStep
  | .read junk beyond => exchange.readStep junk beyond
  | .store => exchange.storeStep

end Steps

/-- Nobody but the client shortens its program, and nobody extends it. -/
theorem program_nil (exchange : Exchange) {after : Exchange} {label : ExchangeStep}
    (stepped : exchange.step label = some after) (done : exchange.program = []) :
    after.program = [] := by
  cases label with
  | client => simp [step, clientStep, done] at stepped
  | read junk beyond =>
      simp only [step, readStep] at stepped
      split at stepped
      next =>
        split at stepped <;> cases stepped <;> exact done
      next => cases stepped
  | store =>
      simp only [step, storeStep] at stepped
      split at stepped <;> cases stepped <;> exact done

/-! ## Well-formed programs -/

/-- The messages that a program sends. -/
def sends (program : List Op) : List Message :=
  program.filterMap fun op =>
    match op with
    | .send message => some message
    | .await => none

/-- The replies that a program waits for. -/
def awaits (program : List Op) : Nat := program.count .await

def bodies (blocks : List (List Byte)) : List Message := blocks.map (Message.mk .body)

/-- The messages of one file: a header that the server reads in full, and
blocks from which it reassembles the image. -/
structure Messages (upload : Upload) (header : List Byte) (blocks : List (List Byte)) : Prop where
  isHeader : upload.IsHeader header
  size : header.length = headerSize
  covers : Covers recvLength upload.image 0 blocks

/-- The program of a client for one file: the header, the reply, the blocks. -/
def upload (header : List Byte) (blocks : List (List Byte)) : List Op :=
  .send ⟨.header, header⟩ :: .await :: (bodies blocks).map .send

/-- The part of a program that a client has still to run. -/
inductive Script : List Op → Prop
  | fresh (header : List Byte) (blocks : List (List Byte)) : Script (upload header blocks)
  | waiting (blocks : List (List Byte)) : Script (.await :: (bodies blocks).map .send)
  | sending (blocks : List (List Byte)) : Script ((bodies blocks).map .send)

@[simp] theorem sends_send (message : Message) (rest : List Op) :
    sends (.send message :: rest) = message :: sends rest := rfl

@[simp] theorem sends_await (rest : List Op) : sends (.await :: rest) = sends rest := rfl

@[simp] theorem sends_map (messages : List Message) : sends (messages.map .send) = messages := by
  induction messages with
  | nil => rfl
  | cons message messages inductionHypothesis => simp [inductionHypothesis]

@[simp] theorem awaits_send (message : Message) (rest : List Op) :
    awaits (.send message :: rest) = awaits rest := by simp [awaits]

@[simp] theorem awaits_await (rest : List Op) : awaits (.await :: rest) = awaits rest + 1 := by
  simp [awaits]

@[simp] theorem awaits_map (messages : List Message) : awaits (messages.map .send) = 0 := by
  induction messages with
  | nil => rfl
  | cons message messages inductionHypothesis => simp [inductionHypothesis]

/-- A call leads to the rest of the program. -/
theorem Script.tail {op : Op} {rest : List Op} (script : Script (op :: rest)) : Script rest := by
  generalize same : op :: rest = program at script
  cases script with
  | fresh header blocks =>
      cases same
      exact .waiting blocks
  | waiting blocks =>
      cases same
      exact .sending blocks
  | sending blocks =>
      cases blocks with
      | nil => cases same
      | cons block blocks =>
          cases same
          exact .sending blocks

/-- After the reply a program sends blocks only. -/
theorem Script.after_await {rest : List Op} (script : Script (.await :: rest)) :
    ∃ blocks, rest = (bodies blocks).map .send := by
  generalize same : Op.await :: rest = program at script
  cases script with
  | fresh => cases same
  | waiting blocks =>
      cases same
      exact ⟨blocks, rfl⟩
  | sending blocks => cases blocks <;> cases same

/-! ## The invariant -/

/-- The file the server is working on, and what it has still to read of it. -/
inductive Serving (server : Transmit) : List Upload → List Message → Prop
  | idle : server.pc = .header → Serving server [] []
  | receiving {upload : Upload} {offset : Nat} {blocks : List (List Byte)} :
      Transmit.Receiving upload server offset →
      Covers recvLength upload.image offset blocks →
      Serving server [upload] (bodies blocks)
  | submitting {upload : Upload} :
      Transmit.Submitting upload server → Serving server [upload] []

/-- The file whose header the server has not read, and its messages. -/
inductive Announced : List Upload → List Message → Prop
  | none : Announced [] []
  | one {upload : Upload} {header : List Byte} {blocks : List (List Byte)} :
      Messages upload header blocks → upload.Accepted →
      Announced [upload] (⟨.header, header⟩ :: bodies blocks)

/-- Where both ends are in the list of files begun: what is on its way or still
to be sent is what the server has still to read, in order. -/
structure Position (uploads : List Upload) (exchange : Exchange) (current todo : List Upload)
    (pending rest : List Message) : Prop where
  serving : Serving exchange.server current pending
  announced : Announced todo rest
  messages : exchange.toServer ++ sends exchange.program = pending ++ rest
  files : exchange.server.stored ++ (current ++ todo).map Upload.entry = uploads.map Upload.entry
  replies : awaits exchange.program = exchange.toClient.length + todo.length

/-- Client and server are in step on the files begun so far. -/
structure InStep (uploads : List Upload) (exchange : Exchange) : Prop where
  sound : exchange.fault = none
  agreed : ∀ read ∈ exchange.reads, read.1 = read.2
  script : Script exchange.program
  position : ∃ current todo pending rest, exchange.Position uploads current todo pending rest

theorem init_inStep : init.InStep [] where
  sound := rfl
  agreed _ member := by cases member
  script := .sending []
  position := ⟨[], [], [], [], .idle rfl, .none, rfl, rfl, rfl⟩

section Invariant

variable {uploads : List Upload} {exchange after : Exchange}

/-- The next file may begin when the program for the last one is done. -/
theorem InStep.begin (inStep : exchange.InStep uploads) (done : exchange.program = [])
    {next : Upload} (accepted : next.Accepted) {header : List Byte} {blocks : List (List Byte)}
    (messages : Messages next header blocks) :
    ({ exchange with program := upload header blocks } : Exchange).InStep
      (uploads ++ [next]) := by
  obtain ⟨sound, agreed, -, current, todo, pending, rest, position⟩ := inStep
  have replies := position.replies
  have sent := position.messages
  have files := position.files
  rw [done, show awaits [] = 0 from rfl] at replies
  obtain rfl : todo = [] := List.length_eq_zero_iff.mp (by omega)
  cases position.announced
  rw [done, show sends [] = [] from rfl, List.append_nil, List.append_nil] at sent
  refine ⟨sound, agreed, .fresh header blocks, current, [next], pending, _, position.serving,
    .one messages accepted, ?_, ?_, ?_⟩
  · change exchange.toServer ++ sends (upload header blocks) = _
    rw [sent, upload, sends_send, sends_await, sends_map]
  · rw [List.append_nil] at files
    change exchange.server.stored ++ _ = _
    rw [List.map_append, ← List.append_assoc, files, List.map_append]
  · change awaits (upload header blocks) = exchange.toClient.length + 1
    rw [upload, awaits_send, awaits_await, awaits_map]
    simp only [List.length_nil] at replies
    omega

/-- The client's calls keep both ends in step. -/
theorem InStep.client (inStep : exchange.InStep uploads)
    (stepped : exchange.clientStep = some after) : after.InStep uploads := by
  obtain ⟨sound, agreed, script, current, todo, pending, rest, position⟩ := inStep
  have replies := position.replies
  have sent := position.messages
  unfold clientStep at stepped
  split at stepped
  next message program _ atSend =>
    cases stepped
    rw [atSend] at replies sent script
    refine ⟨sound, agreed, script.tail, current, todo, pending, rest, position.serving,
      position.announced, ?_, position.files, ?_⟩
    · rw [sends_send] at sent
      rw [← sent, List.append_assoc]
      rfl
    · rwa [awaits_send] at replies
  next program _ more atAwait atReply =>
    cases stepped
    rw [atAwait] at replies sent script
    refine ⟨sound, agreed, script.tail, current, todo, pending, rest, position.serving,
      position.announced, sent, position.files, ?_⟩
    rw [awaits_await, atReply, List.length_cons] at replies
    change awaits program = more.length + todo.length
    omega
  next => cases stepped

/-- The server has read a message, or has written a file, and both ends are
where the rest of the list says. -/
private theorem Position.advance {current todo : List Upload} {pending rest : List Message}
    (position : exchange.Position uploads current todo pending rest) {server : Transmit}
    {actions : List Action} (did : server.actions = exchange.server.actions ++ actions)
    {currentAfter todoAfter : List Upload} {pendingAfter restAfter : List Message}
    (serving : Serving server currentAfter pendingAfter) (announced : Announced todoAfter restAfter)
    {arriving : List Message} (reads : List (Kind × Kind))
    (messages : arriving ++ sends exchange.program = pendingAfter ++ restAfter)
    (files : actions.filterMap Action.stored ++ (currentAfter ++ todoAfter).map Upload.entry =
      (current ++ todo).map Upload.entry)
    (replies : todo.length = actions.count .reply + todoAfter.length) :
    ({ exchange with toServer := arriving, reads := reads }.serve server).Position uploads
      currentAfter todoAfter pendingAfter restAfter where
  serving := serving
  announced := announced
  messages := messages
  files := by
    rw [← position.files, ← files, ← List.append_assoc, ← Transmit.stored_append did]
    rfl
  replies := by
    change awaits exchange.program = (exchange.toClient ++
      List.replicate (server.replies - exchange.server.replies) response).length + _
    have before := position.replies
    rw [List.length_append, List.length_replicate, Transmit.replies_append did]
    omega

private theorem agreed_append {reads : List (Kind × Kind)}
    (agreed : ∀ read ∈ reads, read.1 = read.2) (kind : Kind) :
    ∀ read ∈ reads ++ [(kind, kind)], read.1 = read.2 := by
  intro read member
  rcases List.mem_append.mp member with old | new
  · exact agreed read old
  · rw [List.mem_singleton.mp new]

/-- Every read of the server keeps both ends in step: a header is read as a
header, and a block as a block. -/
theorem InStep.read (inStep : exchange.InStep uploads) {junk : Nat → Byte} {beyond : List Byte}
    (stepped : exchange.readStep junk beyond = some after) : after.InStep uploads := by
  obtain ⟨sound, agreed, script, current, todo, pending, rest, position⟩ := inStep
  have sent := position.messages
  unfold readStep at stepped
  split at stepped
  next kind size message waiting asked arrived =>
    rw [arrived, List.cons_append] at sent
    cases position.serving with
    | idle atHeader =>
        simp only [asks, atHeader, Option.some.injEq, Prod.mk.injEq] at asked
        obtain ⟨rfl, rfl⟩ := asked
        rw [List.nil_append] at sent
        cases position.announced with
        | none => cases sent
        | @one next header blocks messages accepted =>
            obtain ⟨rfl, sentRest⟩ := List.cons.inj sent
            have whole : (header ++ beyond).take headerSize = header := by
              rw [← messages.size, List.take_left]
            obtain ⟨server, served, receiving, did⟩ :=
              Transmit.step_orbitHeader .disk junk accepted atHeader messages.isHeader
            rw [whole, served] at stepped
            cases stepped
            exact ⟨sound, agreed_append agreed .header, script, [next], [], bodies blocks, [],
              position.advance did (.receiving receiving messages.covers) .none _
                (by rw [List.append_nil]; exact sentRest) rfl rfl⟩
    | @receiving upload offset blocks receiving covers =>
        obtain ⟨img, atBody, -⟩ := receiving.waiting
        simp only [asks, atBody, Option.some.injEq, Prod.mk.injEq] at asked
        obtain ⟨rfl, rfl⟩ := asked
        cases covers with
        | @last _ block small content =>
            obtain ⟨rfl, sentRest⟩ := List.cons.inj sent
            have taken : upload.image.drop offset <+: (block ++ beyond).take recvLength := by
              rw [List.prefix_take_iff, List.length_drop]
              exact ⟨content.trans (List.prefix_append _ _), small⟩
            obtain ⟨server, served, submitting, did⟩ :=
              Transmit.step_orbitLast .disk junk receiving small taken
            rw [served] at stepped
            cases stepped
            exact ⟨sound, agreed_append agreed .body, script, [upload], todo, [], rest,
              position.advance did (.submitting submitting) position.announced _ sentRest rfl
                (by simp)⟩
        | @more _ block blocks large content covers =>
            obtain ⟨rfl, sentRest⟩ := List.cons.inj sent
            have long := content.length_le
            rw [List.length_take, List.length_drop] at long
            have full : ((block ++ beyond).take recvLength).length = recvLength := by
              rw [List.length_take, List.length_append]
              omega
            have taken : (upload.image.drop offset).take recvLength <+:
                (block ++ beyond).take recvLength := by
              rw [List.prefix_take_iff, List.length_take]
              exact ⟨content.trans (List.prefix_append _ _), by omega⟩
            obtain ⟨server, served, receivingAfter, did⟩ :=
              Transmit.step_orbitMore .disk junk receiving large full taken
            rw [served] at stepped
            cases stepped
            exact ⟨sound, agreed_append agreed .body, script, [upload], todo, bodies blocks, rest,
              position.advance (did.trans (List.append_nil _).symm)
                (.receiving receivingAfter covers) position.announced _ sentRest rfl (by simp)⟩
    | submitting submitting =>
        simp [asks, show exchange.server.pc = _ from submitting] at asked
  next => cases stepped

/-- Writing a file keeps both ends in step. -/
theorem InStep.store (inStep : exchange.InStep uploads)
    (stepped : exchange.storeStep = some after) : after.InStep uploads := by
  obtain ⟨sound, agreed, script, current, todo, pending, rest, position⟩ := inStep
  unfold storeStep at stepped
  cases position.serving with
  | idle atHeader => simp [Transmit.step, atHeader, Transmit.orbitHeader] at stepped
  | receiving receiving =>
      obtain ⟨img, atBody, -⟩ := receiving.waiting
      simp [Transmit.step, atBody, Transmit.orbitBody] at stepped
  | @submitting upload submitting =>
      rw [Transmit.step_handOver .disk _ .orbit submitting] at stepped
      cases stepped
      exact ⟨sound, agreed, script, [], todo, [], rest,
        position.advance rfl (.idle rfl) position.announced _ position.messages rfl
          (by simp [Transmit.handed])⟩

/-- Both ends stay in step whatever happens next. -/
theorem InStep.step (inStep : exchange.InStep uploads) {label : ExchangeStep}
    (stepped : exchange.step label = some after) : after.InStep uploads := by
  cases label with
  | client => exact inStep.client stepped
  | read junk beyond => exact inStep.read stepped
  | store => exact inStep.store stepped

/-! ## Consequences -/

/-- What is stored is what was begun first. -/
theorem InStep.stored_prefix (inStep : exchange.InStep uploads) :
    exchange.server.stored <+: uploads.map Upload.entry := by
  obtain ⟨-, -, -, current, todo, pending, rest, position⟩ := inStep
  exact ⟨_, position.files⟩

/-- When nothing is left to send, to read or to write, everything is stored. -/
theorem InStep.stored_all (inStep : exchange.InStep uploads) (done : exchange.program = [])
    (nothing : exchange.toServer = []) (idle : exchange.server.pc = .header) :
    exchange.server.stored = uploads.map Upload.entry := by
  obtain ⟨-, -, -, current, todo, pending, rest, position⟩ := inStep
  have files := position.files
  have sent := position.messages
  rw [done, nothing, show sends [] = [] from rfl, List.append_nil] at sent
  obtain ⟨rfl, rfl⟩ := List.append_eq_nil_iff.mp sent.symm
  have announced := position.announced
  have serving := position.serving
  generalize nothingToDo : ([] : List Message) = left at announced
  cases announced with
  | one => cases nothingToDo
  | none =>
      generalize nothingToRead : ([] : List Message) = left at serving
      cases serving with
      | idle =>
          rw [List.append_nil, List.map_nil, List.append_nil] at files
          exact files
      | receiving receiving =>
          obtain ⟨img, atBody, -⟩ := receiving.waiting
          rw [atBody] at idle
          cases idle
      | submitting submitting =>
          rw [show exchange.server.pc = _ from submitting] at idle
          cases idle

/-- A client that waits for its reply has it, or its header is on its way. -/
private theorem InStep.reply_or_header (inStep : exchange.InStep uploads) {after : List Op}
    (waits : exchange.program = .await :: after) :
    exchange.toClient ≠ [] ∨ exchange.toServer ≠ [] := by
  obtain ⟨-, -, script, current, todo, pending, rest, position⟩ := inStep
  by_contra blocked
  simp only [not_or, ne_eq, not_not] at blocked
  obtain ⟨noReply, noMessage⟩ := blocked
  have replies := position.replies
  have sent := position.messages
  rw [waits, awaits_await, noReply, List.length_nil, Nat.zero_add] at replies
  rw [waits] at script sent
  obtain ⟨blocks, rfl⟩ := script.after_await
  rw [noMessage, sends_await, sends_map, List.nil_append] at sent
  cases position.announced with
  | none => simp at replies
  | @one next header _ messages =>
      have member : (⟨.header, header⟩ : Message) ∈ bodies blocks := by
        rw [sent]
        simp
      obtain ⟨block, -, impossible⟩ := List.mem_map.mp member
      cases impossible

/-- A message that the server waits for is read. -/
private theorem readStep_isSome (asked : exchange.asks.isSome) (arrived : exchange.toServer ≠ [])
    (junk : Nat → Byte) (beyond : List Byte) : (exchange.readStep junk beyond).isSome := by
  obtain ⟨⟨kind, size⟩, asks⟩ := Option.isSome_iff_exists.mp asked
  obtain ⟨message, rest, split⟩ := List.exists_cons_of_ne_nil arrived
  have served : exchange.server.step .orbit .disk junk
      (.received ((message.content ++ beyond).take size)) ≠ none := by
    unfold Exchange.asks at asks
    split at asks
    next atHeader => simp [Transmit.step, atHeader, Transmit.orbitHeader]
    next atBody => simp [Transmit.step, atBody, Transmit.orbitBody]
    next => cases asks
  simp only [readStep, asks, split]
  split
  next refused => exact absurd refused served
  next => rfl
  next => rfl

/-- Both ends never block each other: unless all is done, one of them can
move. -/
theorem InStep.progress (inStep : exchange.InStep uploads)
    (busy : exchange.program ≠ [] ∨ exchange.toServer ≠ [] ∨ exchange.server.pc ≠ .header) :
    ∃ label, (exchange.step label).isSome := by
  have reply : ∀ after, exchange.program = .await :: after →
      exchange.toClient ≠ [] ∨ exchange.toServer ≠ [] := fun _ => inStep.reply_or_header
  obtain ⟨-, -, script, current, todo, pending, rest, position⟩ := inStep
  have client : exchange.program ≠ [] → exchange.toServer = [] →
      ∃ label, (exchange.step label).isSome := by
    intro unfinished nothing
    refine ⟨.client, ?_⟩
    obtain ⟨op, rest, split⟩ := List.exists_cons_of_ne_nil unfinished
    cases op with
    | send message => simp [Exchange.step, clientStep, split]
    | await =>
        rcases reply rest split with replied | arrived
        · obtain ⟨first, replies, replied⟩ := List.exists_cons_of_ne_nil replied
          simp [Exchange.step, clientStep, split, replied]
        · exact absurd nothing arrived
  by_cases nothing : exchange.toServer = []
  · cases position.serving with
    | idle atHeader =>
        refine client ?_ nothing
        rcases busy with unfinished | arrived | working
        · exact unfinished
        · exact absurd nothing arrived
        · exact absurd atHeader working
    | receiving receiving covers =>
        refine client (fun done => ?_) nothing
        have sent := position.messages
        rw [nothing, done, List.nil_append] at sent
        have none := (List.append_eq_nil_iff.mp sent.symm).1
        exact covers.ne_nil (List.map_eq_nil_iff.mp none)
    | submitting submitting =>
        refine ⟨.store, ?_⟩
        simp [Exchange.step, storeStep, Transmit.step_handOver .disk _ .orbit submitting]
  · cases position.serving with
    | idle atHeader =>
        exact ⟨.read (fun _ => 0) [], readStep_isSome (by simp [asks, atHeader]) nothing _ _⟩
    | receiving receiving =>
        obtain ⟨img, atBody, -⟩ := receiving.waiting
        exact ⟨.read (fun _ => 0) [], readStep_isSome (by simp [asks, atBody]) nothing _ _⟩
    | submitting submitting =>
        refine ⟨.store, ?_⟩
        simp [Exchange.step, storeStep, Transmit.step_handOver .disk _ .orbit submitting]

end Invariant

end Exchange

end PaintingCPS
