import PaintingCPS.Foundation.Machine
import PaintingCPS.Server.Session

/-!
Contract: the whole server process, for any number of connections and users.

Connection threads log their user in and become `server_transmit` or
`server_result`; `result_child` threads are created by the latter. The three
maps, the semaphores and queues they point to, `process_sem` and the counters
of `Metrics` are shared by all. A step is one access to something shared, or
the return of one call that waits for somebody else, with its outcome. The
first fault ends the process. A write to a TCP peer that has gone can return
an error, or raise `SIGPIPE`, which ends the process too.

The login of one connection is one step: the header is parsed on the stack of
the thread, and `user_map` is read and written under its lock. `opener` is not
part of the program: it remembers which command put a user into `user_map`.

Owns: the process, its threads and its machine.

Does not own: any property of the machine, and `SIGINT`.
-/

set_option autoImplicit false

namespace PaintingCPS

open Foundation

/-- A user id, as in the header of a connection. -/
abbrev User := List Byte

/-- What the first field of a header asks for. -/
inductive Command where
  | transmit
  | result
  | unknown
deriving DecidableEq, Repr

def Command.ofText (threadType : List Byte) : Command :=
  if threadType = ascii "transmit" then .transmit
  else if threadType = ascii "result" then .result
  else .unknown

/-- `sizeof(buffer)` in `serverThread` -/
def loginBuffer : Nat := 100

/-- `threadType` and `userID`. Without a second field `strtok` returns a null
pointer, and the assignment to `userID` takes its length. -/
def parseLogin (buffer : List Byte) : Except Fault (Command × User) := do
  match ← strtok isComma buffer with
  | none => .error .nullPointer
  | some threadType =>
      match ← strtok isComma threadType.saved with
      | none => .error .nullPointer
      | some userID => return (Command.ofText threadType.text, userID.text)

/-- The command line of the server. -/
structure Config where
  mode : Mode
  /-- Anything but the disk is `-storm`. -/
  backend : Backend
  /-- `-p` -/
  parallelism : Nat
deriving DecidableEq, Repr

def Config.storm (config : Config) : Bool := config.backend != .disk

/-! ## Threads -/

/-- A thread in `server_transmit`. -/
structure TransmitThread where
  user : User
  /-- `imgQueue` -/
  queue : Option Nat
  /-- `sem_match` -/
  semMatch : Option Nat
  state : Transmit
  /-- What it does before it waits again. -/
  pending : List Action
deriving DecidableEq, Repr

/-- On entry. -/
def TransmitThread.init (user : User) : TransmitThread where
  user := user
  queue := none
  semMatch := none
  state := .init
  pending := Transmit.init.actions

/-- The thread has left `server_transmit`. -/
def TransmitThread.ended (thread : TransmitThread) : Bool :=
  thread.state.pc == .ended && thread.pending.isEmpty

/-- Where a thread in `server_result` stands. -/
inductive ResultAt where
  | starting
  /-- At the reply to the client. -/
  | replying
  /-- Storm: at `bind`. -/
  | binding
  /-- At `sem_wait(sem_match)`. -/
  | waiting
  /-- Woken; `imgQueue` may be null. -/
  | woken
  /-- At the test for an empty queue. -/
  | testing
  /-- At `sem_map.erase`, and so on. -/
  | erasingSem
  | erasingQueue
  | erasingUser
  /-- At `delete(sem_match)`. -/
  | deletingSem
  /-- At `delete(imgQueue)`. -/
  | deletingQueue
  /-- At `sem_wait(&process_sem)`. -/
  | grabbing
  /-- At `front` and `pop`. -/
  | permitted
  | popped (fileName : List Byte)
  /-- `trans_info` is filled. -/
  | filled (fileName : List Byte)
  /-- Storm: at `pop`. -/
  | taking
  /-- Storm: at `recv`. -/
  | receiving
  /-- Storm: at the reply to the client. -/
  | sending
  /-- Storm: at `finish_request`. -/
  | finishing
  /-- At the label `stop`. -/
  | stopping
  | ended
deriving DecidableEq, Repr

/-- A thread in `server_result`. -/
structure ResultThread where
  user : User
  sock : Int
  pc : ResultAt
  /-- `sem_match`; meaningless before it is allocated. -/
  sem : Nat
  /-- `imgQueue`, null at first. -/
  queue : Option Nat
  transInfo : Option ArgResult
deriving DecidableEq, Repr

/-- On entry. -/
def ResultThread.init (user : User) (sock : Int) : ResultThread where
  user := user
  sock := sock
  pc := .starting
  sem := 0
  queue := none
  transInfo := none

/-- Where a `result_child` stands. -/
inductive WorkerAt where
  | created
  /-- `args->sock` is read. -/
  | hasSock (sock : Int)
  /-- `matchImg` has read the name. -/
  | matching (sock : Int) (fileName : List Byte)
  /-- The result is written; at `finish_request`. -/
  | replied
  /-- At `sem_post(&process_sem)`. -/
  | finished
  | ended
deriving DecidableEq, Repr

/-- A `result_child`. `owner` is the thread whose `trans_info` it was given. -/
structure Worker where
  owner : Nat
  pc : WorkerAt
deriving DecidableEq, Repr

inductive Thread where
  /-- `serverThread` before the login. -/
  | connection (sock : Int)
  /-- `serverThread` after it turned its client away. -/
  | closed
  | transmit (thread : TransmitThread)
  | result (thread : ResultThread)
  | worker (worker : Worker)
deriving DecidableEq, Repr

/-- The outcome of a call that can fail. -/
inductive Call where
  | success
  /-- The return value of a failed call. -/
  | failure (code : Int)
  /-- A datagram without a number in front: `std::stoi` throws. -/
  | unreadable
deriving DecidableEq, Repr

/-! ## The process -/

/-- What the threads share, and the threads. An address is an index of `sems`
or `queues`; `none` there is an object that was deleted. -/
structure Process where
  userMap : User → Option Nat
  semMap : User → Option Nat
  queueMap : User → Option Nat
  sems : List (Option Nat)
  queues : List (Option (List (List Byte)))
  processSem : Nat
  requestSubmitted : Nat
  requestFinished : Nat
  threads : List Thread
  opener : User → Command
  fault : Option Fault

inductive ProcessStep where
  /-- The main thread accepts a connection. -/
  | accept (sock : Int)
  /-- The header of a connection is read; `none` is a failed `read`. -/
  | header (index : Nat) (bytes : Option (List Byte))
  /-- `server_transmit` gets what it waits for. -/
  | event (index : Nat) (junk : Nat → Byte) (event : Event)
  /-- `server_transmit` performs its next action. -/
  | act (index : Nat)
  /-- `gethostbyaddr` does not know the spout. -/
  | hostMissing (index : Nat)
  | result (index : Nat) (call : Call)
  | worker (index : Nat) (call : Call)
  /-- A write to a TCP peer that has closed; `bytes` is the header of a
  connection. -/
  | brokenPipe (index : Nat) (bytes : List Byte)

namespace Process

/-- The process after a step, or the fault. `none` is a step that its thread
cannot take now. -/
abbrev Outcome := Option (Except Fault Process)

/-- The user id of the two threads in MF mode. -/
def mfUser : User := ascii "mf"

/-- The process when it starts to serve. In MF mode its two threads are there
from the beginning. -/
def init (config : Config) : Process where
  userMap :=
    if config.mode = .mf then Function.update (fun _ => none) mfUser (some 2) else fun _ => none
  semMap := fun _ => none
  queueMap := fun _ => none
  sems := []
  queues := []
  processSem := config.parallelism
  requestSubmitted := 0
  requestFinished := 0
  threads :=
    if config.mode = .mf then
      [.result (.init mfUser 0), .transmit (.init mfUser)]
    else []
  opener := fun _ => .unknown
  fault := none

section Steps

variable (config : Config) (process : Process)

def setThread (index : Nat) (thread : Thread) : Process :=
  { process with threads := process.threads.set index thread }

/-- The contents of a queue that is about to be used. -/
def liveQueue (address : Option Nat) : Except Fault (List (List Byte)) :=
  match address with
  | none => .error .nullPointer
  | some queue =>
      match process.queues[queue]? with
      | some (some names) => .ok names
      | _ => .error .danglingPointer

/-- The value of a semaphore that is about to be used. -/
def liveSem (address : Option Nat) : Except Fault Nat :=
  match address with
  | none => .error .nullPointer
  | some sem =>
      match process.sems[sem]? with
      | some (some value) => .ok value
      | _ => .error .danglingPointer

/-! ### Connections -/

def accept (sock : Int) : Outcome :=
  match config.mode with
  | .mf => none
  | _ => some (.ok { process with threads := process.threads ++ [.connection sock] })

/-- `user_map` for one more thread of `userID`; `none` is a refusal. -/
def login (userID : User) (command : Command) : Option Process :=
  match process.userMap userID with
  | none =>
      some { process with
        userMap := Function.update process.userMap userID (some 1)
        opener := Function.update process.opener userID command }
  | some count =>
      if count = 1 then
        some { process with userMap := Function.update process.userMap userID (some 2) }
      else none

/-- What a connection thread becomes. -/
def entry (userID : User) (sock : Int) : Command → Thread
  | .transmit => .transmit (.init userID)
  | .result => .result (.init userID sock)
  | .unknown => .closed

/-- `serverThread`. In Orbit mode the return value of `MsgD.recv` is ignored. -/
def header (index : Nat) (bytes : Option (List Byte)) : Outcome :=
  match process.threads[index]? with
  | some (.connection sock) =>
      if bytes = none ∧ config.mode = .tcp then some (.ok (process.setThread index .closed))
      else
        some do
          let (command, userID) ← parseLogin (padded loginBuffer (bytes.getD []))
          match process.login userID command with
          | none => return process.setThread index .closed
          | some admitted => return admitted.setThread index (entry userID sock command)
  | _ => none

/-! ### `server_transmit` -/

def event (index : Nat) (junk : Nat → Byte) (event : Event) : Outcome :=
  match process.threads[index]? with
  | some (.transmit thread) =>
      if thread.pending ≠ [] then none
      else
        match thread.state.step config.mode config.backend junk event with
        | none => none
        | some (.error fault) => some (.error fault)
        | some (.ok after) =>
            some (.ok (process.setThread index (.transmit { thread with
              state := after
              pending := after.actions.drop thread.state.actions.length })))
  | _ => none

/-- One action of `server_transmit`. -/
def perform (index : Nat) (thread : TransmitThread) : Action → Outcome
  | .register =>
      some (.ok { process with
        queueMap := Function.update process.queueMap thread.user (some process.queues.length)
        queues := process.queues ++ [some []]
        threads := process.threads.set index (.transmit { thread with
          queue := some process.queues.length }) })
  | .submit =>
      some (.ok { process.setThread index (.transmit thread) with
        requestSubmitted := process.requestSubmitted + 1 })
  | .push fileName =>
      some do
        let names ← process.liveQueue thread.queue
        return { process.setThread index (.transmit thread) with
          queues := process.queues.set (thread.queue.getD 0) (some (names ++ [fileName])) }
  | .lookup =>
      match thread.semMatch, process.semMap thread.user with
      | some _, _ => some (.ok (process.setThread index (.transmit thread)))
      | none, some sem =>
          some (.ok (process.setThread index (.transmit { thread with semMatch := some sem })))
      | none, none => none
  | .post =>
      some do
        let value ← process.liveSem thread.semMatch
        return { process.setThread index (.transmit thread) with
          sems := process.sems.set (thread.semMatch.getD 0) (some (value + 1)) }
  | .deleteQueue =>
      some do
        let _ ← process.liveQueue thread.queue
        return { process.setThread index (.transmit thread) with
          queues := process.queues.set (thread.queue.getD 0) none }
  | .reply | .store .. | .forward .. => some (.ok (process.setThread index (.transmit thread)))

def act (index : Nat) : Outcome :=
  match process.threads[index]? with
  | some (.transmit thread) =>
      match thread.pending with
      | [] => none
      | action :: rest => process.perform index { thread with pending := rest } action
  | _ => none

/-- `exit(0)` when the host of the spout is unknown. -/
def hostMissing (index : Nat) : Outcome :=
  match process.threads[index]?, config.backend with
  | some (.transmit thread), .spout =>
      match thread.state.pc, thread.pending with
      | .submitting .., [] => some (.error .exited)
      | _, _ => none
  | _, _ => none

/-! ### `server_result` -/

/-- The steps that change the thread alone. -/
def look (thread : ResultThread) (call : Call) : Option (Except Fault ResultThread) :=
  match thread.pc with
  | .replying =>
      if config.mode = .tcp ∧ call ≠ .success then some (.error .exited)
      else if config.storm then some (.ok { thread with pc := .binding })
      else some (.ok { thread with pc := .waiting })
  | .binding =>
      if call = .success then some (.ok { thread with pc := .waiting })
      else some (.ok { thread with pc := .stopping })
  | .woken =>
      match thread.queue, process.queueMap thread.user with
      | some _, _ => some (.ok { thread with pc := .testing })
      | none, some queue => some (.ok { thread with queue := some queue, pc := .testing })
      | none, none => some (.error .nullPointer)
  | .testing =>
      match process.liveQueue thread.queue with
      | .error fault => some (.error fault)
      | .ok [] => some (.ok { thread with pc := .erasingSem })
      | .ok (_ :: _) =>
          some (.ok { thread with pc := if config.storm then .taking else .grabbing })
  | .popped fileName =>
      some (.ok { thread with
        transInfo := some ⟨thread.sock, fileName⟩
        pc := .filled fileName })
  | .receiving =>
      match call with
      | .success => some (.ok { thread with pc := .sending })
      | .failure _ => some (.ok { thread with pc := .finishing })
      | .unreadable => some (.error .uncaughtException)
  | .sending =>
      -- only TCP looks at the result; `errorSocket` ends the thread there
      if config.mode = .tcp ∧ call ≠ .success then some (.ok { thread with pc := .ended })
      else some (.ok { thread with pc := .finishing })
  | _ => none

/-- The thread at `index` takes the front of its queue and goes on to `pc`. -/
def takeFront (index : Nat) (thread : ResultThread) (pc : List Byte → ResultAt) : Outcome :=
  some do
    match ← process.liveQueue thread.queue with
    | [] => .error .emptyQueue
    | fileName :: rest =>
        return { process.setThread index (.result { thread with pc := pc fileName }) with
          queues := process.queues.set (thread.queue.getD 0) (some rest) }

/-- The steps that change what is shared. -/
def share (index : Nat) (thread : ResultThread) (call : Call) : Outcome :=
  match thread.pc with
  | .starting =>
      some (.ok { process with
        semMap := Function.update process.semMap thread.user (some process.sems.length)
        sems := process.sems ++ [some 0]
        threads := process.threads.set index (.result { thread with
          sem := process.sems.length
          pc := .replying }) })
  | .waiting =>
      match process.liveSem (some thread.sem) with
      | .error fault => some (.error fault)
      | .ok 0 => none
      | .ok (value + 1) =>
          some (.ok { process.setThread index (.result { thread with pc := .woken }) with
            sems := process.sems.set thread.sem (some value) })
  | .erasingSem =>
      some (.ok { process.setThread index (.result { thread with pc := .erasingQueue }) with
        semMap := Function.update process.semMap thread.user none })
  | .erasingQueue =>
      some (.ok { process.setThread index (.result { thread with pc := .erasingUser }) with
        queueMap := Function.update process.queueMap thread.user none })
  | .erasingUser =>
      some (.ok { process.setThread index (.result { thread with pc := .deletingSem }) with
        userMap := Function.update process.userMap thread.user none })
  | .deletingSem =>
      some do
        let _ ← process.liveSem (some thread.sem)
        return { process.setThread index (.result { thread with pc := .deletingQueue }) with
          sems := process.sems.set thread.sem none }
  | .deletingQueue =>
      some do
        let _ ← process.liveQueue thread.queue
        return { process.setThread index (.result { thread with pc := .ended }) with
          queues := process.queues.set (thread.queue.getD 0) none }
  | .grabbing =>
      match process.processSem with
      | 0 => none
      | value + 1 =>
          some (.ok { process.setThread index (.result { thread with pc := .permitted }) with
            processSem := value })
  | .permitted => process.takeFront index thread .popped
  | .filled _ =>
      match call with
      | .success =>
          some (.ok { process with
            threads := process.threads.set index (.result { thread with pc := .waiting }) ++
              [.worker ⟨index, .created⟩] })
      | .failure code =>
          -- an error number other than -1 goes unnoticed; `pthread_detach` of an
          -- identifier that was never set, which follows it, is left out
          some (.ok (process.setThread index (.result { thread with
            pc := if code = -1 then .stopping else .waiting })))
      | .unreadable => none
  | .taking => process.takeFront index thread fun _ => .receiving
  | .finishing =>
      some (.ok { process.setThread index (.result { thread with pc := .waiting }) with
        requestFinished := process.requestFinished + 1 })
  | .stopping =>
      some do
        let _ ← process.liveSem (some thread.sem)
        return { process.setThread index (.result { thread with pc := .ended }) with
          sems := process.sems.set thread.sem none }
  | _ => none

def result (index : Nat) (call : Call) : Outcome :=
  match process.threads[index]? with
  | some (.result thread) =>
      match process.look config thread call with
      | some (.error fault) => some (.error fault)
      | some (.ok after) => some (.ok (process.setThread index (.result after)))
      | none => process.share index thread call
  | _ => none

/-! ### `result_child` -/

/-- `args`: the struct on the stack of the owner, gone when it has returned. -/
def args (owner : Nat) : Except Fault ArgResult :=
  match process.threads[owner]? with
  | some (.result thread) =>
      if thread.pc = .ended then .error .danglingPointer
      else
        match thread.transInfo with
        | some info => .ok info
        | none => .error .danglingPointer
  | _ => .error .danglingPointer

def worker (index : Nat) (call : Call) : Outcome :=
  match process.threads[index]? with
  | some (.worker ⟨owner, .created⟩) =>
      some do
        let info ← process.args owner
        return process.setThread index (.worker ⟨owner, .hasSock info.sock⟩)
  | some (.worker ⟨owner, .hasSock sock⟩) =>
      some do
        let info ← process.args owner
        return process.setThread index (.worker ⟨owner, .matching sock info.fileName⟩)
  | some (.worker ⟨owner, .matching _ _⟩) =>
      -- only TCP looks at the result; `errorSocket` ends the thread there
      some (.ok (process.setThread index (.worker
        ⟨owner, if config.mode = .tcp ∧ call ≠ .success then .ended else .replied⟩)))
  | some (.worker ⟨owner, .replied⟩) =>
      some (.ok { process.setThread index (.worker ⟨owner, .finished⟩) with
        requestFinished := process.requestFinished + 1 })
  | some (.worker ⟨owner, .finished⟩) =>
      some (.ok { process.setThread index (.worker ⟨owner, .ended⟩) with
        processSem := process.processSem + 1 })
  | _ => none

/-! ### `SIGPIPE` -/

/-- The header is answered with `failed`. -/
def refuses (bytes : List Byte) : Bool :=
  match parseLogin (padded loginBuffer bytes) with
  | .ok (command, userID) => (process.login userID command).isNone
  | .error _ => false

/-- The next call of the thread is a `write` to a TCP peer: its client, or the
spout. -/
def writes (bytes : List Byte) : Thread → Bool
  | .connection _ => config.mode == .tcp && process.refuses bytes
  | .closed => false
  | .transmit thread =>
      match thread.pending, thread.state.pc with
      | [], .starting | [], .replying .. => config.mode == .tcp
      -- the reply to an image, whose result is not looked at
      | .reply :: .submit :: _, _ => config.mode == .tcp
      | [], .submitting .. => config.backend == .spout
      | _, _ => false
  | .result thread => config.mode == .tcp && (thread.pc == .replying || thread.pc == .sending)
  | .worker ⟨_, .matching ..⟩ => config.mode == .tcp
  | .worker _ => false

/-- Nobody handles the signal, so it ends the whole process. -/
def brokenPipe (index : Nat) (bytes : List Byte) : Outcome :=
  match process.threads[index]? with
  | some thread =>
      if process.writes config bytes thread = true then some (.error .killed) else none
  | none => none

def step : ProcessStep → Outcome
  | .accept sock => process.accept config sock
  | .header index bytes => process.header config index bytes
  | .event index junk event => process.event config index junk event
  | .act index => process.act index
  | .hostMissing index => process.hostMissing config index
  | .result index call => process.result config index call
  | .worker index call => process.worker config index call
  | .brokenPipe index bytes => process.brokenPipe config index bytes

end Steps

end Process

/-- All threads of the server in any order. -/
def processMachine (config : Config) : Machine Process ProcessStep where
  next process label :=
    if process.fault.isSome then none
    else
      match process.step config label with
      | none => none
      | some (.error fault) => some { process with fault := some fault }
      | some (.ok after) => some after

end PaintingCPS
