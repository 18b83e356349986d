import PaintingCPS.Foundation.Machine
import PaintingCPS.Server.Attempts

/-!
Contract: one session of one user on a server that matches locally.

The transmit thread performs its actions, the result thread runs
`server_result`, and every `result_child` runs on its own. A step is one access
to something shared: a map, the queue, a semaphore, the argument struct on the
stack of `server_result`, or the client's socket. Both threads have passed the
login, so the user is in `user_map`.

The argument struct is one slot: it is overwritten in every pass of the loop,
and it is gone when `server_result` has returned. `pthread_create` succeeds.
`sem_destroy` after `delete` touches nothing in the model.

Owns: the session, its machine, and its step relation.

Does not own: any property of the machine, and how the actions of the transmit
thread come about.
-/

set_option autoImplicit false

namespace PaintingCPS

open Foundation

/-- `struct arg_result` -/
structure ArgResult where
  sock : Int
  fileName : List Byte
deriving DecidableEq, Repr

/-- Where a `result_child` stands. -/
inductive ChildPc where
  | created
  /-- `args->sock` is read. -/
  | hasSock (sock : Int)
  /-- `matchImg` has read the name. -/
  | matching (sock : Int) (fileName : List Byte)
  /-- The result is sent. -/
  | replied
  | ended
  /-- The argument struct did not exist any more. -/
  | faulted
deriving DecidableEq, Repr

/-- A `result_child` and the name it was created for. -/
structure Child where
  own : List Byte
  pc : ChildPc
deriving DecidableEq, Repr

/-- The child has not read its name yet. -/
def Child.pending (child : Child) : Bool :=
  match child.pc with
  | .created | .hasSock _ => true
  | _ => false

/-- Where `server_result` stands. -/
inductive ResultPc where
  /-- `sem_match` is not in `sem_map` yet. -/
  | starting
  /-- At `sem_wait(sem_match)`. -/
  | waiting
  /-- Woken; `imgQueue` may still be null. -/
  | woken
  /-- At the test for an empty queue. -/
  | testing
  /-- At `sem_wait(&process_sem)`. -/
  | grabbing
  /-- At `front` and `pop`. -/
  | permitted
  | popped (fileName : List Byte)
  /-- `trans_info` is filled. -/
  | filled (fileName : List Byte)
  | returned
deriving DecidableEq, Repr

/-- What the threads of one session share, where they stand, and what they have
done. -/
structure Session where
  processSem : Nat
  semMap : Bool
  queueMap : Bool
  userMap : Bool
  /-- The queue object; `none` before `new` and after `delete`. -/
  imgQueue : Option (List (List Byte))
  /-- The value of the semaphore; `none` before `new` and after `delete`. -/
  semMatch : Option Nat
  /-- What the transmit thread has still to do. -/
  program : List Action
  /-- Its `sem_match` is not null. -/
  transmitSem : Bool
  sock : Int
  result : ResultPc
  /-- The `imgQueue` of `server_result` is not null. -/
  resultQueue : Bool
  /-- The argument struct; `none` before it is filled and after the return. -/
  transInfo : Option ArgResult
  children : List Child
  pushed : List (List Byte)
  popped : List (List Byte)
  /-- The names on which `matchImg` was called. -/
  matched : List (List Byte)
  /-- Results sent: the name the child was created for, and the socket and the
  name it used. -/
  sent : List (List Byte × ArgResult)
  fault : Option Fault
deriving DecidableEq, Repr

inductive SessionMove where
  | transmit
  | resultStart
  | resultWait
  | resultFetch
  | resultTest
  | resultGrab
  | resultPop
  | resultFill
  | resultSpawn
  | childSock (index : Nat)
  | childName (index : Nat)
  | childReply (index : Nat) (success : Bool)
  | childPost (index : Nat)
deriving DecidableEq, Repr

namespace Session

/-- A session before its first step. -/
def init (parallelism : Nat) (sock : Int) (program : List Action) : Session where
  processSem := parallelism
  semMap := false
  queueMap := false
  userMap := true
  imgQueue := none
  semMatch := none
  program := program
  transmitSem := false
  sock := sock
  result := .starting
  resultQueue := false
  transInfo := none
  children := []
  pushed := []
  popped := []
  matched := []
  sent := []
  fault := none

/-- The session after a step, or the fault. `none` is a step that its thread
cannot take now. -/
abbrev Outcome := Option (Except Fault Session)

section Moves

variable (session : Session)

/-- One action of the transmit thread. -/
def act : Action → Outcome
  | .register => some (.ok { session with queueMap := true, imgQueue := some [] })
  | .push fileName =>
      match session.imgQueue with
      | none => some (.error .danglingPointer)
      | some queue =>
          some (.ok { session with
            imgQueue := some (queue ++ [fileName])
            pushed := session.pushed ++ [fileName] })
  | .lookup =>
      if session.transmitSem then some (.ok session)
      else if session.semMap then some (.ok { session with transmitSem := true })
      else none
  | .post =>
      if session.transmitSem then
        match session.semMatch with
        | none => some (.error .danglingPointer)
        | some value => some (.ok { session with semMatch := some (value + 1) })
      else some (.error .nullPointer)
  | .deleteQueue => some (.ok { session with imgQueue := none })
  | .reply | .submit | .store .. | .forward .. => some (.ok session)

def transmit : Outcome :=
  match session.program with
  | [] => none
  | action :: rest => { session with program := rest }.act action

def resultStart : Outcome :=
  match session.result with
  | .starting =>
      some (.ok { session with semMatch := some 0, semMap := true, result := .waiting })
  | _ => none

def resultWait : Outcome :=
  match session.result, session.semMatch with
  | .waiting, some (value + 1) =>
      some (.ok { session with semMatch := some value, result := .woken })
  | _, _ => none

/-- `if (imgQueue == 0) imgQueue = queue_map[userID]`; the use of a null queue
follows. -/
def resultFetch : Outcome :=
  match session.result with
  | .woken =>
      if session.resultQueue ∨ session.queueMap then
        some (.ok { session with resultQueue := true, result := .testing })
      else some (.error .nullPointer)
  | _ => none

/-- The user leaves the maps, both objects are deleted, and the frame with the
argument struct is gone. -/
def tearDown : Session :=
  { session with
    semMap := false
    queueMap := false
    userMap := false
    semMatch := none
    imgQueue := none
    transInfo := none
    result := .returned }

def resultTest : Outcome :=
  match session.result, session.imgQueue with
  | .testing, none => some (.error .danglingPointer)
  | .testing, some [] => some (.ok session.tearDown)
  | .testing, some (_ :: _) => some (.ok { session with result := .grabbing })
  | _, _ => none

def resultGrab : Outcome :=
  match session.result, session.processSem with
  | .grabbing, value + 1 =>
      some (.ok { session with processSem := value, result := .permitted })
  | _, _ => none

def resultPop : Outcome :=
  match session.result, session.imgQueue with
  | .permitted, none => some (.error .danglingPointer)
  | .permitted, some [] => some (.error .emptyQueue)
  | .permitted, some (fileName :: rest) =>
      some (.ok { session with
        imgQueue := some rest
        popped := session.popped ++ [fileName]
        result := .popped fileName })
  | _, _ => none

def resultFill : Outcome :=
  match session.result with
  | .popped fileName =>
      some (.ok { session with
        transInfo := some ⟨session.sock, fileName⟩
        result := .filled fileName })
  | _ => none

def resultSpawn : Outcome :=
  match session.result with
  | .filled fileName =>
      some (.ok { session with
        children := session.children ++ [⟨fileName, .created⟩]
        result := .waiting })
  | _ => none

/-- The child at `index` moves on to `pc`. -/
def setChild (index : Nat) (child : Child) (pc : ChildPc) : Session :=
  { session with children := session.children.set index { child with pc := pc } }

def childSock (index : Nat) : Outcome :=
  match session.children[index]? with
  | some ⟨own, .created⟩ =>
      match session.transInfo with
      | none => some (.ok (session.setChild index ⟨own, .created⟩ .faulted))
      | some info => some (.ok (session.setChild index ⟨own, .created⟩ (.hasSock info.sock)))
  | _ => none

def childName (index : Nat) : Outcome :=
  match session.children[index]? with
  | some ⟨own, .hasSock sock⟩ =>
      match session.transInfo with
      | none => some (.ok (session.setChild index ⟨own, .hasSock sock⟩ .faulted))
      | some info =>
          some (.ok { session.setChild index ⟨own, .hasSock sock⟩
              (.matching sock info.fileName) with
            matched := session.matched ++ [info.fileName] })
  | _ => none

/-- The result is sent. Only TCP looks at the result of the call: after a
failed `write`, `errorSocket` ends the thread. -/
def childReply (mode : Mode) (index : Nat) (success : Bool) : Outcome :=
  match session.children[index]? with
  | some ⟨own, .matching sock fileName⟩ =>
      if success then
        some (.ok { session.setChild index ⟨own, .matching sock fileName⟩ .replied with
          sent := session.sent ++ [(own, ⟨sock, fileName⟩)] })
      else if mode = .tcp then
        some (.ok (session.setChild index ⟨own, .matching sock fileName⟩ .ended))
      else none
  | _ => none

def childPost (index : Nat) : Outcome :=
  match session.children[index]? with
  | some ⟨own, .replied⟩ =>
      some (.ok { session.setChild index ⟨own, .replied⟩ .ended with
        processSem := session.processSem + 1 })
  | _ => none

end Moves

def move (mode : Mode) (session : Session) : SessionMove → Outcome
  | .transmit => session.transmit
  | .resultStart => session.resultStart
  | .resultWait => session.resultWait
  | .resultFetch => session.resultFetch
  | .resultTest => session.resultTest
  | .resultGrab => session.resultGrab
  | .resultPop => session.resultPop
  | .resultFill => session.resultFill
  | .resultSpawn => session.resultSpawn
  | .childSock index => session.childSock index
  | .childName index => session.childName index
  | .childReply index success => session.childReply mode index success
  | .childPost index => session.childPost index

end Session

/-- The threads of one session in any order. -/
def sessionMachine (mode : Mode) : Machine Session SessionMove where
  next session label :=
    if session.fault.isSome then none
    else
      match session.move mode label with
      | none => none
      | some (.error fault) => some { session with fault := some fault }
      | some (.ok after) => some after

/-! ## The step relation -/

namespace Session

/-- A use of a pointer or a queue that fails. -/
inductive Crash (session : Session) : SessionMove → Fault → Prop
  | push {fileName : List Byte} {rest : List Action} :
      session.program = .push fileName :: rest → session.imgQueue = none →
      Crash session .transmit .danglingPointer
  | postNull {rest : List Action} :
      session.program = .post :: rest → session.transmitSem = false →
      Crash session .transmit .nullPointer
  | postDeleted {rest : List Action} :
      session.program = .post :: rest → session.transmitSem = true →
      session.semMatch = none → Crash session .transmit .danglingPointer
  | fetch :
      session.result = .woken → session.queueMap = false →
      Crash session .resultFetch .nullPointer
  | test :
      session.result = .testing → session.imgQueue = none →
      Crash session .resultTest .danglingPointer
  | popDeleted :
      session.result = .permitted → session.imgQueue = none →
      Crash session .resultPop .danglingPointer
  | popEmpty :
      session.result = .permitted → session.imgQueue = some [] →
      Crash session .resultPop .emptyQueue

/-- One step, by what it does. -/
inductive Step (mode : Mode) (session : Session) : SessionMove → Session → Prop
  | register {rest : List Action} :
      session.program = .register :: rest →
      Step mode session .transmit
        { session with program := rest, queueMap := true, imgQueue := some [] }
  | push {fileName : List Byte} {rest : List Action} {queue : List (List Byte)} :
      session.program = .push fileName :: rest → session.imgQueue = some queue →
      Step mode session .transmit
        { session with
          program := rest
          imgQueue := some (queue ++ [fileName])
          pushed := session.pushed ++ [fileName] }
  | lookup {rest : List Action} :
      session.program = .lookup :: rest →
      session.transmitSem = true ∨ session.semMap = true →
      Step mode session .transmit { session with program := rest, transmitSem := true }
  | post {rest : List Action} {value : Nat} :
      session.program = .post :: rest → session.transmitSem = true →
      session.semMatch = some value →
      Step mode session .transmit
        { session with program := rest, semMatch := some (value + 1) }
  | deleteQueue {rest : List Action} :
      session.program = .deleteQueue :: rest →
      Step mode session .transmit { session with program := rest, imgQueue := none }
  | aside {action : Action} {rest : List Action} :
      session.program = action :: rest → action.shared = false →
      Step mode session .transmit { session with program := rest }
  | start :
      session.result = .starting →
      Step mode session .resultStart
        { session with semMatch := some 0, semMap := true, result := .waiting }
  | wait {value : Nat} :
      session.result = .waiting → session.semMatch = some (value + 1) →
      Step mode session .resultWait
        { session with semMatch := some value, result := .woken }
  | fetch :
      session.result = .woken →
      Step mode session .resultFetch
        { session with resultQueue := true, result := .testing }
  | tearDown :
      session.result = .testing → session.imgQueue = some [] →
      Step mode session .resultTest session.tearDown
  | goOn {fileName : List Byte} {rest : List (List Byte)} :
      session.result = .testing → session.imgQueue = some (fileName :: rest) →
      Step mode session .resultTest { session with result := .grabbing }
  | grab {value : Nat} :
      session.result = .grabbing → session.processSem = value + 1 →
      Step mode session .resultGrab
        { session with processSem := value, result := .permitted }
  | pop {fileName : List Byte} {rest : List (List Byte)} :
      session.result = .permitted → session.imgQueue = some (fileName :: rest) →
      Step mode session .resultPop
        { session with
          imgQueue := some rest
          popped := session.popped ++ [fileName]
          result := .popped fileName }
  | fill {fileName : List Byte} :
      session.result = .popped fileName →
      Step mode session .resultFill
        { session with
          transInfo := some ⟨session.sock, fileName⟩
          result := .filled fileName }
  | spawn {fileName : List Byte} :
      session.result = .filled fileName →
      Step mode session .resultSpawn
        { session with
          children := session.children ++ [⟨fileName, .created⟩]
          result := .waiting }
  | sock {index : Nat} {own : List Byte} {info : ArgResult} :
      session.children[index]? = some ⟨own, .created⟩ → session.transInfo = some info →
      Step mode session (.childSock index)
        (session.setChild index ⟨own, .created⟩ (.hasSock info.sock))
  | name {index : Nat} {own : List Byte} {sock : Int} {info : ArgResult} :
      session.children[index]? = some ⟨own, .hasSock sock⟩ → session.transInfo = some info →
      Step mode session (.childName index)
        { session.setChild index ⟨own, .hasSock sock⟩ (.matching sock info.fileName) with
          matched := session.matched ++ [info.fileName] }
  | miss {index : Nat} {child : Child} {move : SessionMove} :
      session.children[index]? = some child → child.pending = true →
      session.transInfo = none →
      Step mode session move (session.setChild index child .faulted)
  | reply {index : Nat} {own fileName : List Byte} {sock : Int} :
      session.children[index]? = some ⟨own, .matching sock fileName⟩ →
      Step mode session (.childReply index true)
        { session.setChild index ⟨own, .matching sock fileName⟩ .replied with
          sent := session.sent ++ [(own, ⟨sock, fileName⟩)] }
  | hangUp {index : Nat} {own fileName : List Byte} {sock : Int} :
      session.children[index]? = some ⟨own, .matching sock fileName⟩ → mode = .tcp →
      Step mode session (.childReply index false)
        (session.setChild index ⟨own, .matching sock fileName⟩ .ended)
  | permit {index : Nat} {own : List Byte} :
      session.children[index]? = some ⟨own, .replied⟩ →
      Step mode session (.childPost index)
        { session.setChild index ⟨own, .replied⟩ .ended with
          processSem := session.processSem + 1 }
  | crash {move : SessionMove} {fault : Fault} :
      session.Crash move fault → Step mode session move { session with fault := some fault }

/-- What a move may lead to. -/
def Allows (mode : Mode) (session : Session) (label : SessionMove) : Outcome → Prop
  | none => True
  | some (.error fault) => session.Crash label fault
  | some (.ok after) => Step mode session label after

section Moves

variable {mode : Mode} (session : Session)

theorem transmit_allows : session.Allows mode .transmit session.transmit := by
  unfold transmit
  split
  next => trivial
  next action rest atAction =>
    cases action with
    | register => exact .register atAction
    | push fileName =>
        simp only [act]
        split
        next deleted => exact .push atAction deleted
        next queue live => exact .push atAction live
    | lookup =>
        simp only [act]
        split
        next known =>
          have same : { session with program := rest } =
              { session with program := rest, transmitSem := true } := by rw [← known]
          rw [same]
          exact .lookup atAction (.inl known)
        next =>
          split
          next present => exact .lookup atAction (.inr present)
          next => trivial
    | post =>
        simp only [act]
        split
        next known =>
          split
          next deleted => exact .postDeleted atAction known deleted
          next value live => exact .post atAction known live
        next unknown => exact .postNull atAction (Bool.eq_false_iff.mpr unknown)
    | deleteQueue => exact .deleteQueue atAction
    | reply => exact .aside atAction rfl
    | submit => exact .aside atAction rfl
    | store fileName content => exact .aside atAction rfl
    | forward content => exact .aside atAction rfl

theorem move_allows (label : SessionMove) :
    session.Allows mode label (session.move mode label) := by
  cases label with
  | transmit => exact session.transmit_allows
  | resultStart =>
      simp only [move, resultStart]
      split
      next atStart => exact .start atStart
      next => trivial
  | resultWait =>
      simp only [move, resultWait]
      split
      next atWait value => exact .wait atWait value
      next => trivial
  | resultFetch =>
      simp only [move, resultFetch]
      split
      next atWoken =>
        split
        next => exact .fetch atWoken
        next neither =>
          rw [not_or, Bool.not_eq_true, Bool.not_eq_true] at neither
          exact Crash.fetch atWoken neither.2
      next => trivial
  | resultTest =>
      simp only [move, resultTest]
      split
      next atTest deleted => exact Crash.test atTest deleted
      next atTest empty => exact .tearDown atTest empty
      next atTest filled => exact .goOn atTest filled
      next => trivial
  | resultGrab =>
      simp only [move, resultGrab]
      split
      next atGrab value => exact .grab atGrab value
      next => trivial
  | resultPop =>
      simp only [move, resultPop]
      split
      next atPop deleted => exact Crash.popDeleted atPop deleted
      next atPop empty => exact Crash.popEmpty atPop empty
      next atPop filled => exact .pop atPop filled
      next => trivial
  | resultFill =>
      simp only [move, resultFill]
      split
      next atFill => exact .fill atFill
      next => trivial
  | resultSpawn =>
      simp only [move, resultSpawn]
      split
      next atSpawn => exact .spawn atSpawn
      next => trivial
  | childSock index =>
      simp only [move, childSock]
      split
      next atCreated =>
        split
        next gone => exact .miss atCreated rfl gone
        next there => exact .sock atCreated there
      next => trivial
  | childName index =>
      simp only [move, childName]
      split
      next atName =>
        split
        next gone => exact .miss atName rfl gone
        next there => exact .name atName there
      next => trivial
  | childReply index success =>
      simp only [move, childReply]
      split
      next atReply =>
        split
        next succeeded =>
          subst succeeded
          exact .reply atReply
        next failed =>
          rw [Bool.not_eq_true] at failed
          subst failed
          split
          next isTcp => exact .hangUp atReply isTcp
          next => trivial
      next => trivial
  | childPost index =>
      simp only [move, childPost]
      split
      next atPost => exact .permit atPost
      next => trivial

end Moves

/-- Every transition of the machine is a step of the relation, from a session
without a fault. -/
theorem step_of_transition {mode : Mode} {session after : Session} {label : SessionMove}
    (transition : (sessionMachine mode).transition session label after) :
    session.fault = none ∧ Step mode session label after := by
  have allowed : session.Allows mode label (session.move mode label) :=
    session.move_allows label
  simp only [Machine.transition, sessionMachine] at transition
  split at transition
  next => cases transition
  next sound =>
    refine ⟨by simpa using sound, ?_⟩
    split at transition
    next => cases transition
    next fault crashed =>
      rw [crashed] at allowed
      cases transition
      exact .crash allowed
    next result moved =>
      rw [moved] at allowed
      cases transition
      exact allowed

end Session

end PaintingCPS
