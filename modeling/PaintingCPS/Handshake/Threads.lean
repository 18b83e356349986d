import PaintingCPS.Foundation.Machine
import PaintingCPS.MsgDistributor.Delivery

/-!
Contract: the threads of two endpoints, step by step.

Each end has any number of threads that call `connect`, `accept` and
`close(id, 0)`, and one listener. A step is one lock or semaphore operation
with the code that needs no other thread, one locked map update, one `mfsend`,
or one half of `listen`: the return of `mfrecv_blk`, and the rest. `send` is
one step. The link is reliable, so the branches for a failed `mfsend` are
absent.

`connect` exists in the C++ and in the Java order of lock and `mfsend`;
`accept` is the C++ method.

Owns: the program counters, the machine, and the histories it records.

Does not own: any property of the machine.
-/

set_option autoImplicit false

namespace PaintingCPS

open Foundation

/-- Where a thread stands. -/
inductive Pc where
  | idle
  /-- `connect`, C++: `id_lock` is held, `create` is not sent. -/
  | connecting
  /-- `connect`, Java: `create` is sent, `idLock` is not held. -/
  | requested
  /-- `connect`: `create` is sent and the lock is held. -/
  | awaiting
  /-- `connect`: `newID` is popped. -/
  | took (newID : Int)
  /-- `connect`: the maps hold `newID`. -/
  | entered (newID : Int)
  /-- `accept`: woken by `accept_sem`. -/
  | accepting
  /-- `accept`: the lock is held and `mfsockid` is chosen. -/
  | allocated (newID : Int)
  /-- `accept`: the `accepted` frame is sent. -/
  | announced (newID : Int)
  /-- `accept`: the maps hold `newID`. -/
  | listed (newID : Int)
  /-- `close`: the maps are updated, the frame is not sent. -/
  | closing (sock : Int)
deriving DecidableEq, Repr

/-- What the threads of one end have done so far. -/
structure History where
  /-- `create` frames sent. -/
  createsSent : Nat
  /-- `accept` calls that got past `accept_sem`. -/
  acceptsStarted : Nat
  /-- Ids chosen by `accept`. -/
  allocated : List Int
  /-- Ids in the `accepted` frames sent. -/
  announced : List Int
  /-- Ids popped by `connect`. -/
  taken : List Int
  /-- Ids put into the maps. -/
  registered : List Int
  /-- Ids returned by `connect`. -/
  connected : List Int
  /-- Ids returned by `accept`. -/
  accepted : List Int
  /-- Ids that a call of `close(id, 0)` removed. -/
  closed : List Int
  /-- Ids that a `close` frame removed. -/
  hungUp : List Int
  /-- Ids of data and `close` frames that found no entry, although no call of
  `close(id, 0)` had removed it here. -/
  lost : List Int

def History.empty : History := ⟨0, 0, [], [], [], [], [], [], [], [], []⟩

/-! ## What a message is about -/

/-- The kind of a message and its id. -/
inductive Notice where
  | create
  | accepted (id : Int)
  | data (id : Int)
  | close (id : Int)
deriving DecidableEq, Repr

/-- The kind that `listen` sees in a message, for the histories. -/
def notice (message : List Byte) : Option Notice :=
  match strtok isComma (message ++ [nul]) with
  | .ok (some header) =>
      if header.text = ascii "create" then some .create
      else
        match strtok isComma header.saved with
        | .ok (some idChar) =>
            let id := toInt32 (strtol idChar.text)
            if header.text = ascii "accepted" then some (.accepted id)
            else if header.text = ascii "sock" then some (.data id)
            else if header.text = ascii "close" then some (.close id)
            else none
        | _ => none
  | _ => none

/-- The histories after `listen` has seen a notice. -/
def History.observe (history : History) (known : Bool) : Option Notice → History
  | some (.data id) =>
      if known = false ∧ id ∉ history.closed then { history with lost := history.lost ++ [id] }
      else history
  | some (.close id) =>
      if known then { history with hungUp := history.hungUp ++ [id] }
      else if id ∉ history.closed then { history with lost := history.lost ++ [id] }
      else history
  | _ => history

/-- Whether the id of a notice is in `sem_map`. -/
def Notice.knownTo (known : Int → Bool) : Option Notice → Bool
  | some (.data id) | some (.close id) => known id
  | _ => false

/-! ## One end -/

/-- An endpoint with its threads. -/
structure Party where
  endpoint : MsgDistributor
  idLock : Option Nat
  pc : Nat → Pc
  /-- Messages on their way here, oldest first. -/
  inbox : List (List Byte)
  /-- The message that `mfrecv_blk` has returned to the listener. -/
  hand : Option (List Byte)
  history : History

/-- One step of some thread of an end. -/
inductive Move where
  | connectLock (thread : Nat)
  | connectSend (thread : Nat)
  | connectTake (thread : Nat)
  | connectRegister (thread : Nat)
  | connectReturn (thread : Nat)
  | acceptWait (thread : Nat)
  | acceptAllocate (thread : Nat)
  | acceptSend (thread : Nat)
  | acceptRegister (thread : Nat)
  | acceptReturn (thread : Nat)
  | closeTables (thread : Nat) (sock : Int)
  | closeSend (thread : Nat)
  | send (sock : Int) (payload : List Byte)
  | receive
  | dispatch

/-- The end after a step and the message it sends, or the fault. `none` is a
step that its thread cannot take now. -/
abbrev Outcome := Option (Except Fault (Party × Option (List Byte)))

/-- `++mfsockid`, then again while `sem_map` holds the number. -/
def nextId (semMap : Int → Option Nat) : Nat → Int → Except Fault Int
  | 0, _ => .error .outOfFuel
  | fuel + 1, mfsockid =>
      if 2147483648 ≤ mfsockid + 1 then .error .signedOverflow
      else if semMap (mfsockid + 1) = none then .ok (mfsockid + 1)
      else nextId semMap fuel (mfsockid + 1)

namespace Party

def goto (party : Party) (thread : Nat) (pc : Pc) : Party :=
  { party with pc := Function.update party.pc thread pc }

/-- A step that sends nothing. -/
def silently (party : Party) : Outcome := some (.ok (party, none))

/-- `mfsend` of a frame, then `party`. -/
def sending (frame : Except Fault (List Byte)) (party : Party) : Outcome :=
  match frame with
  | .error fault => some (.error fault)
  | .ok message => some (.ok (party, some message))

@[simp] theorem sending_ok (message : List Byte) (party : Party) :
    sending (.ok message) party = some (.ok (party, some message)) := rfl

/-- `pthread_mutex_lock(&id_lock)`, then on to `pc`. -/
def lock (party : Party) (thread : Nat) (pc : Pc) : Outcome :=
  if party.idLock = none then silently { party.goto thread pc with idLock := some thread }
  else none

section Moves

variable (party : Party) (thread : Nat)

def connectLock (language : Language) : Outcome :=
  match language, party.pc thread with
  | .cpp, .idle => party.lock thread .connecting
  | .java, .requested => party.lock thread .awaiting
  | _, _ => none

def connectSend (language : Language) (junk : Nat → Byte) : Outcome :=
  let counted := { party with
    history := { party.history with createsSent := party.history.createsSent + 1 } }
  match language, party.pc thread with
  | .cpp, .connecting => sending (Cpp.connectFrame junk) (counted.goto thread .awaiting)
  | .java, .idle => sending Java.connectFrame (counted.goto thread .requested)
  | _, _ => none

/-- `sem_wait(&connect_sem)`, `front` and `pop`. -/
def connectTake : Outcome :=
  match party.pc thread with
  | .awaiting =>
      if party.endpoint.connectSem = 0 then none
      else
        match party.endpoint.connectQueue with
        | [] => some (.error .emptyQueue)
        | newID :: rest =>
            silently { party.goto thread (.took newID) with
              endpoint := { party.endpoint with
                connectSem := party.endpoint.connectSem - 1
                connectQueue := rest }
              history := { party.history with taken := party.history.taken ++ [newID] } }
  | _ => none

/-- The locked map update of `connect` and `accept`. -/
def enter (newID : Int) : Party :=
  { party with
    endpoint := party.endpoint.register newID
    history := { party.history with registered := party.history.registered ++ [newID] } }

def connectRegister : Outcome :=
  match party.pc thread with
  | .took newID => silently ((party.enter newID).goto thread (.entered newID))
  | _ => none

/-- Unlock and return. -/
def connectReturn : Outcome :=
  match party.pc thread with
  | .entered newID =>
      silently { party.goto thread .idle with
        idLock := none
        history := { party.history with connected := party.history.connected ++ [newID] } }
  | _ => none

/-- `sem_wait(&accept_sem)`. -/
def acceptWait : Outcome :=
  match party.pc thread with
  | .idle =>
      if party.endpoint.acceptSem = 0 then none
      else
        silently { party.goto thread .accepting with
          endpoint := { party.endpoint with acceptSem := party.endpoint.acceptSem - 1 }
          history := { party.history with
            acceptsStarted := party.history.acceptsStarted + 1 } }
  | _ => none

/-- Lock, and the choice of a new id. -/
def acceptAllocate : Outcome :=
  match party.pc thread with
  | .accepting =>
      if party.idLock = none then
        match nextId party.endpoint.semMap (2147483648 - party.endpoint.mfsockid).toNat
          party.endpoint.mfsockid with
        | .error fault => some (.error fault)
        | .ok newID =>
            silently { party.goto thread (.allocated newID) with
              idLock := some thread
              endpoint := { party.endpoint with mfsockid := newID }
              history := { party.history with
                allocated := party.history.allocated ++ [newID] } }
      else none
  | _ => none

def acceptSend (junk : Nat → Byte) : Outcome :=
  match party.pc thread with
  | .allocated newID =>
      sending (Cpp.acceptFrame junk newID) { party.goto thread (.announced newID) with
        history := { party.history with announced := party.history.announced ++ [newID] } }
  | _ => none

def acceptRegister : Outcome :=
  match party.pc thread with
  | .announced newID => silently ((party.enter newID).goto thread (.listed newID))
  | _ => none

/-- Unlock and return. -/
def acceptReturn : Outcome :=
  match party.pc thread with
  | .listed newID =>
      silently { party.goto thread .idle with
        idLock := none
        history := { party.history with accepted := party.history.accepted ++ [newID] } }
  | _ => none

/-- `close(sock, 0)` up to its unlock. -/
def closeTables (sock : Int) : Outcome :=
  match party.pc thread with
  | .idle =>
      match party.endpoint.closeLocked sock with
      | none => party.silently
      | some after =>
          silently { party.goto thread (.closing sock) with
            endpoint := after
            history := { party.history with closed := party.history.closed ++ [sock] } }
  | _ => none

def closeSend (language : Language) (junk : Nat → Byte) : Outcome :=
  match party.pc thread with
  | .closing sock =>
      sending (match language with
        | .cpp => Cpp.closeFrame junk sock
        | .java => Java.closeFrame sock) (party.goto thread .idle)
  | _ => none

def send (language : Language) (junk : Nat → Byte) (sock : Int) (payload : List Byte) :
    Outcome :=
  match language with
  | .cpp => some ((Cpp.send junk party.endpoint sock payload).map fun frame => (party, frame))
  | .java => some ((Java.send party.endpoint sock payload).map fun frame => (party, frame))

/-- `mfrecv_blk` returns; on an error `listen` returns at once. -/
def receive (mfrecv : List Byte → Option (List Byte)) : Outcome :=
  match party.hand, party.inbox with
  | none, message :: rest => silently { party with hand := mfrecv message, inbox := rest }
  | _, _ => none

/-- The rest of `listen`. -/
def dispatch (language : Language) (junk : Nat → Byte) : Outcome :=
  match party.hand with
  | none => none
  | some message =>
      match language.listen junk party.endpoint (some message) with
      | .error fault => some (.error fault)
      | .ok (after, _) =>
          silently { party with
            endpoint := after
            hand := none
            history := party.history.observe
              (Notice.knownTo (fun id => (party.endpoint.semMap id).isSome) (notice message))
              (notice message) }

end Moves

def move (mfrecv : List Byte → Option (List Byte)) (language : Language) (junk : Nat → Byte)
    (party : Party) : Move → Outcome
  | .connectLock thread => party.connectLock thread language
  | .connectSend thread => party.connectSend thread language junk
  | .connectTake thread => party.connectTake thread
  | .connectRegister thread => party.connectRegister thread
  | .connectReturn thread => party.connectReturn thread
  | .acceptWait thread => party.acceptWait thread
  | .acceptAllocate thread => party.acceptAllocate thread
  | .acceptSend thread => party.acceptSend thread junk
  | .acceptRegister thread => party.acceptRegister thread
  | .acceptReturn thread => party.acceptReturn thread
  | .closeTables thread sock => party.closeTables thread sock
  | .closeSend thread => party.closeSend thread language junk
  | .send sock payload => party.send language junk sock payload
  | .receive => party.receive mfrecv
  | .dispatch => party.dispatch language junk

/-- An initialised end with nothing done yet. -/
def init : Party where
  endpoint := .init
  idLock := none
  pc _ := .idle
  inbox := []
  hand := none
  history := .empty

/-- A message joins the inbox. -/
def post (party : Party) (message : Option (List Byte)) : Party :=
  { party with inbox := party.inbox ++ message.toList }

end Party

/-! ## Both ends -/

/-- The two ends. `fault` is set when a call does not return. -/
structure Handshake where
  party : Side → Party
  fault : Option Fault

/-- Which end moves, what its uninitialised memory holds, and how it moves. -/
structure HandshakeStep where
  side : Side
  junk : Nat → Byte
  move : Move

/-- The connecting end runs `connector`, the accepting end runs C++. -/
def Side.language (connector : Language) : Side → Language
  | client => connector
  | server => .cpp

def Handshake.init : Handshake where
  party _ := .init
  fault := none

/-- The moving end changes, its message goes to the other end. -/
def Handshake.after (handshake : Handshake) (side : Side) (party : Party)
    (message : Option (List Byte)) : Handshake :=
  { handshake with
    party := fun who => if who = side then party else (handshake.party who).post message }

def handshakeMachine (mfrecv : List Byte → Option (List Byte)) (connector : Language) :
    Machine Handshake HandshakeStep where
  next handshake label :=
    if handshake.fault.isSome then none
    else
      match (handshake.party label.side).move mfrecv (label.side.language connector)
        label.junk label.move with
      | none => none
      | some (.error fault) => some { handshake with fault := some fault }
      | some (.ok (party, message)) => some (handshake.after label.side party message)

end PaintingCPS
