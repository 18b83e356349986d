import PaintingCPS.Foundation.Pool
import PaintingCPS.Foundation.Termination
import PaintingCPS.Results.Decoding

/-!
Contract: the threads that hand a result over.

`resultQueue` is a `LinkedList` without a lock: `ResultThread` offers what it
has received, and each call of `getResult` polls after it has got a permit.

Owns: the threads and their steps, and what is asked of them.

Does not own: `sendImage`, and how the messages get to `msgD.recv`.
-/

set_option autoImplicit false

namespace PaintingCPS

open Foundation

/-! ## Results -/

/-- A result that says nothing or has a line of the database. -/
inductive Answer where
  | none
  | found (writer : ResultWriter) (line : InfoLine) (index : Int)

namespace Answer

/-- As the server knows it. -/
def result : Answer → ServerResult
  | none => .notMatched
  | found writer line index => .matched writer line.bytes index

/-- What `getResult` is to return. -/
def text : Answer → List Byte
  | none => ascii "none"
  | found _ line _ => line.bytes

/-- `ResultThread` takes the text out of the message. -/
theorem offered {answer : Answer} {junk : Nat → Byte} {message : List Byte}
    (written : answer.result.bytes junk = .ok message) :
    JClient.offered (filled (List.replicate bufferSize 0) message bufferSize) =
      .ok answer.text := by
  rw [filled_zeros (ServerResult.bytes_length written), padded]
  cases answer with
  | none =>
      cases written
      exact offered_none _
  | found writer line index =>
      obtain ⟨rest, rfl⟩ := sprintf_ok written
      rw [List.append_assoc]
      exact line.offered index _

end Answer

/-! ## Threads -/

/-- Where `ResultThread` stands, from its loop on. -/
inductive ResultThreadPc where
  /-- `while (!globalStop)` is next. -/
  | loop
  /-- `msgD.recv` is next. -/
  | receive
  /-- `resultQueue.offer` is next. -/
  | offer (result : List Byte)
  /-- It is inside `offer`. -/
  | offering (result : List Byte)
  /-- `resultSem.release()` is next. -/
  | release
  /-- The loop is left, or an exception has ended the thread. -/
  | ended
deriving DecidableEq, Repr

/-- It has no result in its hands. -/
def ResultThreadPc.free : ResultThreadPc → Bool
  | loop | receive | ended => true
  | offer _ | offering _ | release => false

/-- Where a call of `getResult` stands. -/
inductive GetResultPc where
  /-- `resultSem.acquire()` is next. -/
  | entry
  /-- `resultQueue.poll` is next. -/
  | acquired
  /-- It is inside `poll`. -/
  | polling
  /-- It has returned; `none` is a null reference. -/
  | returned (result : Option (List Byte))
deriving DecidableEq, Repr

/-- It has a permit and has not returned. -/
def GetResultPc.busy : GetResultPc → Bool
  | entry | returned _ => false
  | acquired | polling => true

/-- The fields that the threads share, and the threads. -/
structure ResultQueue where
  /-- Images sent. -/
  requested : Nat
  /-- Results that the server has sent, oldest first. -/
  answers : List Answer
  /-- Messages that `msgD.recv` is going to return. -/
  messages : List (List Byte)
  thread : ResultThreadPc
  resultQueue : List (List Byte)
  resultSem : Nat
  calls : List GetResultPc
  /-- The calls that have polled and what they got, oldest first. -/
  polled : List (Nat × Option (List Byte))
  globalStop : Bool
  /-- Two threads were inside methods of `resultQueue`. -/
  overlapped : Bool
  /-- `System.exit(1)` -/
  exited : Bool

namespace ResultQueue

/-- Logged in, and the calls that are going to be made. -/
def init (calls : Nat) : ResultQueue where
  requested := 0
  answers := []
  messages := []
  thread := .loop
  resultQueue := []
  resultSem := 0
  calls := List.replicate calls .entry
  polled := []
  globalStop := false
  overlapped := false
  exited := false

/-! ## Steps -/

/-- Some thread is inside `offer` or `poll`. -/
def inUse (queue : ResultQueue) : Bool :=
  (match queue.thread with
    | .offering _ => true
    | _ => false) || queue.calls.any (· == .polling)

/-- A thread enters a method of `resultQueue`. -/
def enter (queue after : ResultQueue) : ResultQueue :=
  if queue.inUse then { queue with overlapped := true } else after

/-- The server sends a result for an image it has got. -/
def answerStep (queue : ResultQueue) (answer : Answer) (junk : Nat → Byte) :
    Option ResultQueue :=
  if queue.answers.length < queue.requested then
    match answer.result.bytes junk with
    | .error _ => none
    | .ok message =>
        some { queue with
          answers := queue.answers ++ [answer]
          messages := queue.messages ++ [message] }
  else none

/-- `ResultThread`; `answered` tells whether `msgD.recv` succeeds. -/
def threadStep (queue : ResultQueue) (answered : Bool) : Option ResultQueue :=
  match queue.thread with
  | .loop => some { queue with thread := if queue.globalStop then .ended else .receive }
  | .receive =>
      if answered then
        match queue.messages with
        | [] => none
        | message :: rest =>
            some { queue with
              messages := rest
              thread :=
                match JClient.offered
                    (filled (List.replicate bufferSize 0) message bufferSize) with
                | .ok result => .offer result
                | .error _ => .ended }
      else some { queue with exited := true }
  | .offer result => some (queue.enter { queue with thread := .offering result })
  | .offering result =>
      some { queue with
        resultQueue := queue.resultQueue ++ [result]
        thread := .release }
  | .release =>
      some { queue with
        resultSem := queue.resultSem + 1
        thread := .loop }
  | .ended => none

/-- `getResult` -/
def callStep (queue : ResultQueue) (index : Nat) : Option ResultQueue := do
  let pc ← queue.calls[index]?
  match pc with
  | .entry =>
      if queue.resultSem = 0 then none
      else
        some { queue with
          resultSem := queue.resultSem - 1
          calls := queue.calls.set index .acquired }
  | .acquired => some (queue.enter { queue with calls := queue.calls.set index .polling })
  | .polling =>
      some { queue with
        resultQueue := queue.resultQueue.tail
        calls := queue.calls.set index (.returned queue.resultQueue.head?)
        polled := queue.polled ++ [(index, queue.resultQueue.head?)] }
  | .returned _ => none

end ResultQueue

/-- What happens. -/
inductive ResultQueueStep where
  /-- `sendImage` has sent the image; the result may come before it returns. -/
  | request
  | answer (answer : Answer) (junk : Nat → Byte)
  | thread (answered : Bool)
  | call (index : Nat)
  /-- `globalStop = true` in `stop` -/
  | stop

def resultQueueMachine : Machine ResultQueue ResultQueueStep where
  next queue label :=
    if queue.overlapped ∨ queue.exited then none
    else
      match label with
      | .request => some { queue with requested := queue.requested + 1 }
      | .answer answer junk => queue.answerStep answer junk
      | .thread answered => queue.threadStep answered
      | .call index => queue.callStep index
      | .stop => some { queue with globalStop := true }

namespace ResultQueue

/-! ## The property -/

/-- An image is sent when there is a result for every one before it. -/
def OneByOne (queue : ResultQueue) : ResultQueueStep → Prop
  | .request => queue.polled.length = queue.requested
  | _ => True

instance (queue : ResultQueue) (label : ResultQueueStep) : Decidable (queue.OneByOne label) := by
  cases label <;> unfold OneByOne <;> infer_instance

/-- The calls get the results in the order of the server, each result once and
every call its own. -/
structure InOrder (queue : ResultQueue) : Prop where
  apart : queue.overlapped = false
  results : queue.polled.map Prod.snd =
    (queue.answers.take queue.polled.length).map fun answer => some answer.text
  once : (queue.polled.map Prod.fst).Nodup
  returned : ∀ (index : Nat) (result : Option (List Byte)),
    queue.calls[index]? = some (.returned result) ↔ (index, result) ∈ queue.polled

end ResultQueue

/-- A step of `ResultThread` or of a call, with a `recv` that succeeds. -/
def ResultQueueStep.Own : ResultQueueStep → Prop
  | .thread answered => answered = true
  | .call _ => True
  | _ => False

/-- The steps left to the thread in this pass. -/
def ResultThreadPc.weight : ResultThreadPc → Nat
  | ended | receive => 0
  | loop => 1
  | release => 2
  | offering _ => 3
  | offer _ => 4

/-- The steps left to the call. -/
def GetResultPc.weight : GetResultPc → Nat
  | returned _ => 0
  | polling => 1
  | acquired => 2
  | entry => 3

namespace ResultQueue

/-- A bound for the steps of the threads alone. -/
def effort (queue : ResultQueue) : Nat :=
  5 * queue.messages.length + queue.thread.weight + (queue.calls.map GetResultPc.weight).sum

/-- How the threads go on alone: they take at most as many steps as the effort
says, and stop only when no result is left or every call has returned, unless
the client is being stopped. -/
structure Fetches (queue : ResultQueue) : Prop where
  bounded : ∀ steps finish,
    ReachesIn resultQueueMachine.transition (fun _ label => label.Own) queue steps finish →
      steps ≤ queue.effort
  ends : ∃ finish, resultQueueMachine.ReachesUnder (fun _ label => label.Own) queue finish ∧
    Exhausted resultQueueMachine.transition (fun _ label => label.Own) finish
  served : queue.exited = false → queue.globalStop = false → ∀ finish,
    resultQueueMachine.ReachesUnder (fun _ label => label.Own) queue finish →
    Exhausted resultQueueMachine.transition (fun _ label => label.Own) finish →
    finish.answers = queue.answers ∧
      (finish.polled.length = queue.answers.length ∨
        ∀ pc ∈ finish.calls, ∃ result, pc = .returned result)

end ResultQueue

end PaintingCPS
