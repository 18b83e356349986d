import PaintingCPS.Foundation.Pool
import PaintingCPS.Server.Process

/-!
Contract: what the login has to guarantee, for one user and without addresses.

`user_map` only counts the threads of a user. The rest of the server relies on
more: that they are one `server_transmit` and one `server_result`, and that the
entries of `sem_map` and `queue_map` are free when they register.

A lobby is the three entries of one user and the seats of all threads. Its
steps open and join a session as they should: a session is opened when no
thread of the user is left, and joined by the other kind of thread.

Owns: the invariant of the lobby and its step lemma.

Does not own: the server, which admits more than the lobby does.
-/

set_option autoImplicit false

namespace PaintingCPS

open Foundation

/-- What a thread still does to the entries of one user. -/
inductive Seat where
  /-- It does not belong to the user, or it has ended. -/
  | absent
  /-- `server_transmit` before and after `queue_map[userID] = imgQueue`. -/
  | registering
  | transmitting
  /-- `server_result` before and after `sem_map[userID] = sem_match`. -/
  | starting
  | serving
  /-- It has its queue. -/
  | fetched
  /-- After `sem_map.erase`, and so on. -/
  | semErased
  | queueErased
  | userErased
deriving DecidableEq, Repr

namespace Seat

def isTransmit : Seat → Bool
  | registering | transmitting => true
  | _ => false

def isResult : Seat → Bool
  | starting | serving | fetched | semErased | queueErased | userErased => true
  | _ => false

/-- It has its queue and its user is still there. -/
def hasQueue : Seat → Bool
  | fetched | semErased | queueErased => true
  | _ => false

def hasErasedSem : Seat → Bool
  | semErased | queueErased => true
  | _ => false

/-- The seat of a new thread. -/
def ofCommand : Command → Seat
  | .transmit => registering
  | .result => starting
  | .unknown => absent

end Seat

/-- The entries of one user, and what the threads still do to them. -/
structure Lobby where
  count : Option Nat
  opener : Command
  semSet : Bool
  queueSet : Bool
  seats : List Seat

namespace Lobby

section Counts

variable (seats : List Seat)

def transmits : Nat := seats.countP Seat.isTransmit
def results : Nat := seats.countP Seat.isResult
def registering : Nat := seats.countP (· == .registering)
def starting : Nat := seats.countP (· == .starting)
def withQueue : Nat := seats.countP Seat.hasQueue
def withoutSem : Nat := seats.countP Seat.hasErasedSem
def withoutQueue : Nat := seats.countP (· == .queueErased)
def withoutUser : Nat := seats.countP (· == .userErased)

end Counts

/-- One step of a thread, or a login. -/
inductive Step (lobby : Lobby) : Lobby → Prop
  | stay : Step lobby lobby
  | arrive : Step lobby { lobby with seats := lobby.seats ++ [.absent] }
  /-- The first login; no thread of the user is left. -/
  | opened {index : Nat} (command : Command) (there : lobby.seats[index]? = some .absent)
      (new : lobby.count = none) (free : transmits lobby.seats = 0 ∧ results lobby.seats = 0) :
      Step lobby { lobby with
        count := some 1
        opener := command
        seats := lobby.seats.set index (.ofCommand command) }
  /-- The second login, of the other kind, or after the first thread has ended. -/
  | joined {index : Nat} (command : Command) (there : lobby.seats[index]? = some .absent)
      (second : lobby.count = some 1)
      (other : command ≠ lobby.opener ∨ (transmits lobby.seats = 0 ∧ results lobby.seats = 0)) :
      Step lobby { lobby with
        count := some 2
        seats := lobby.seats.set index (.ofCommand command) }
  | register {index : Nat} (there : lobby.seats[index]? = some .registering) :
      Step lobby { lobby with
        queueSet := true
        seats := lobby.seats.set index .transmitting }
  | start {index : Nat} (there : lobby.seats[index]? = some .starting) :
      Step lobby { lobby with
        semSet := true
        seats := lobby.seats.set index .serving }
  | fetch {index : Nat} (there : lobby.seats[index]? = some .serving)
      (found : lobby.queueSet = true) :
      Step lobby { lobby with seats := lobby.seats.set index .fetched }
  | eraseSem {index : Nat} (there : lobby.seats[index]? = some .fetched) :
      Step lobby { lobby with
        semSet := false
        seats := lobby.seats.set index .semErased }
  | eraseQueue {index : Nat} (there : lobby.seats[index]? = some .semErased) :
      Step lobby { lobby with
        queueSet := false
        seats := lobby.seats.set index .queueErased }
  | eraseUser {index : Nat} (there : lobby.seats[index]? = some .queueErased) :
      Step lobby { lobby with
        count := none
        seats := lobby.seats.set index .userErased }
  /-- A thread ends, wherever it stands after its registration. -/
  | leave {index : Nat} {seat : Seat} (there : lobby.seats[index]? = some seat)
      (registered : seat ≠ .registering ∧ seat ≠ .starting) :
      Step lobby { lobby with seats := lobby.seats.set index .absent }

/-- What holds between the logins and the clean-up. -/
structure Orderly (lobby : Lobby) : Prop where
  oneTransmit : transmits lobby.seats ≤ 1
  oneResult : results lobby.seats ≤ 1
  firstTransmit : lobby.count = some 1 → lobby.opener ≠ .transmit →
    transmits lobby.seats = 0 ∧ lobby.queueSet = false
  firstResult : lobby.count = some 1 → lobby.opener ≠ .result →
    results lobby.seats = 0 ∧ lobby.semSet = false
  fresh : lobby.count = none → lobby.semSet = false ∧ lobby.queueSet = false ∧
    registering lobby.seats = 0 ∧ starting lobby.seats = 0
  queueFree : 0 < registering lobby.seats →
    lobby.queueSet = false ∨ (results lobby.seats = 0 ∧ lobby.count = some 2)
  semFree : 0 < starting lobby.seats →
    lobby.semSet = false ∨ (transmits lobby.seats = 0 ∧ lobby.count = some 2)
  both : 0 < withQueue lobby.seats →
    registering lobby.seats = 0 ∧ lobby.count ≠ none ∧ lobby.count ≠ some 1
  noSem : 0 < withoutSem lobby.seats → lobby.semSet = false
  noQueue : 0 < withoutQueue lobby.seats → lobby.queueSet = false
  noUser : 0 < withoutUser lobby.seats → lobby.count = none

section Preservation

variable {lobby after : Lobby} {seats : List Seat}

/-- Every kind of seat is counted among the kinds that include it. -/
private theorem counts_le (seats : List Seat) :
    registering seats ≤ transmits seats ∧
    starting seats + withQueue seats + withoutUser seats ≤ results seats ∧
    withoutSem seats ≤ withQueue seats ∧ withoutQueue seats ≤ withoutSem seats := by
  unfold registering transmits starting withQueue withoutUser results withoutSem withoutQueue
  induction seats with
  | nil => simp
  | cons seat seats inductionHypothesis =>
      simp only [List.countP_cons]
      cases seat <;>
        simp [Seat.isTransmit, Seat.isResult, Seat.hasQueue, Seat.hasErasedSem] <;> omega

/-- What one seat adds to the counts. -/
private def share (kind : Seat → Bool) (seat : Seat) : Nat := if kind seat then 1 else 0

/-- The counts after one thread has moved. -/
private theorem counts_set {index : Nat} {seat : Seat} (moved : Seat)
    (there : seats[index]? = some seat) :
    transmits (seats.set index moved) + share Seat.isTransmit seat =
      transmits seats + share Seat.isTransmit moved ∧
    results (seats.set index moved) + share Seat.isResult seat =
      results seats + share Seat.isResult moved ∧
    registering (seats.set index moved) + share (· == .registering) seat =
      registering seats + share (· == .registering) moved ∧
    starting (seats.set index moved) + share (· == .starting) seat =
      starting seats + share (· == .starting) moved ∧
    withQueue (seats.set index moved) + share Seat.hasQueue seat =
      withQueue seats + share Seat.hasQueue moved ∧
    withoutSem (seats.set index moved) + share Seat.hasErasedSem seat =
      withoutSem seats + share Seat.hasErasedSem moved ∧
    withoutQueue (seats.set index moved) + share (· == .queueErased) seat =
      withoutQueue seats + share (· == .queueErased) moved ∧
    withoutUser (seats.set index moved) + share (· == .userErased) seat =
      withoutUser seats + share (· == .userErased) moved := by
  refine ⟨?_, ?_, ?_, ?_, ?_, ?_, ?_, ?_⟩ <;> exact countP_set_there _ moved there

/-- A thread that does nothing to the entries is not counted. -/
private theorem counts_arrive (seats : List Seat) :
    transmits (seats ++ [.absent]) = transmits seats ∧
    results (seats ++ [.absent]) = results seats ∧
    registering (seats ++ [.absent]) = registering seats ∧
    starting (seats ++ [.absent]) = starting seats ∧
    withQueue (seats ++ [.absent]) = withQueue seats ∧
    withoutSem (seats ++ [.absent]) = withoutSem seats ∧
    withoutQueue (seats ++ [.absent]) = withoutQueue seats ∧
    withoutUser (seats ++ [.absent]) = withoutUser seats := by
  refine ⟨?_, ?_, ?_, ?_, ?_, ?_, ?_, ?_⟩ <;> exact List.countP_append

theorem Orderly.step (orderly : Orderly lobby) (step : Step lobby after) : Orderly after := by
  obtain ⟨oneTransmit, oneResult, firstTransmit, firstResult, fresh, queueFree, semFree, both,
    noSem, noQueue, noUser⟩ := orderly
  have bounds := counts_le lobby.seats
  cases step with
  | stay => constructor <;> assumption
  | arrive =>
      obtain ⟨same₁, same₂, same₃, same₄, same₅, same₆, same₇, same₈⟩ :=
        counts_arrive lobby.seats
      constructor <;> simp only [same₁, same₂, same₃, same₄, same₅, same₆, same₇, same₈] <;>
        assumption
  | opened command there new free =>
      have counts := counts_set (.ofCommand command) there
      cases command <;> simp [share, Seat.ofCommand, Seat.isTransmit, Seat.isResult,
        Seat.hasQueue, Seat.hasErasedSem] at counts <;> constructor <;> grind [Seat.ofCommand]
  | joined command there second other =>
      have counts := counts_set (.ofCommand command) there
      cases command <;> simp [share, Seat.ofCommand, Seat.isTransmit, Seat.isResult,
        Seat.hasQueue, Seat.hasErasedSem] at counts <;> constructor <;> grind [Seat.ofCommand]
  | register there =>
      have counts := counts_set .transmitting there
      simp [share, Seat.isTransmit, Seat.isResult, Seat.hasQueue, Seat.hasErasedSem] at counts
      constructor <;> grind
  | start there =>
      have counts := counts_set .serving there
      simp [share, Seat.isTransmit, Seat.isResult, Seat.hasQueue, Seat.hasErasedSem] at counts
      constructor <;> grind
  | fetch there found =>
      have counts := counts_set .fetched there
      have present : 0 < results lobby.seats :=
        List.countP_pos_iff.mpr ⟨_, List.mem_of_getElem? there, rfl⟩
      simp [share, Seat.isTransmit, Seat.isResult, Seat.hasQueue, Seat.hasErasedSem] at counts
      constructor <;> grind
  | eraseSem there =>
      have counts := counts_set .semErased there
      simp [share, Seat.isTransmit, Seat.isResult, Seat.hasQueue, Seat.hasErasedSem] at counts
      constructor <;> grind
  | eraseQueue there =>
      have counts := counts_set .queueErased there
      simp [share, Seat.isTransmit, Seat.isResult, Seat.hasQueue, Seat.hasErasedSem] at counts
      constructor <;> grind
  | eraseUser there =>
      have counts := counts_set .userErased there
      simp [share, Seat.isTransmit, Seat.isResult, Seat.hasQueue, Seat.hasErasedSem] at counts
      constructor <;> grind
  | @leave index seat there registered =>
      have fewer : transmits (lobby.seats.set index .absent) ≤ transmits lobby.seats ∧
          results (lobby.seats.set index .absent) ≤ results lobby.seats ∧
          registering (lobby.seats.set index .absent) = registering lobby.seats ∧
          starting (lobby.seats.set index .absent) = starting lobby.seats ∧
          withQueue (lobby.seats.set index .absent) ≤ withQueue lobby.seats ∧
          withoutSem (lobby.seats.set index .absent) ≤ withoutSem lobby.seats ∧
          withoutQueue (lobby.seats.set index .absent) ≤ withoutQueue lobby.seats ∧
          withoutUser (lobby.seats.set index .absent) ≤ withoutUser lobby.seats := by
        have counts := counts_set .absent there
        cases seat <;> simp [share, Seat.isTransmit, Seat.isResult, Seat.hasQueue,
          Seat.hasErasedSem] at counts registered <;> omega
      constructor <;> grind

end Preservation

end Lobby

end PaintingCPS
