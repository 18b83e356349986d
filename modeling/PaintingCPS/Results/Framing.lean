import Mathlib.Data.List.Forall2
import PaintingCPS.Foundation.Machine
import PaintingCPS.Foundation.Tokens
import PaintingCPS.MsgDistributor.State

/-!
Contract: results on a TCP connection, from the server's writes to the
client's `result_thread`.

The server writes 5, 200 or 1024 bytes for a result. The client takes what one
`recv` of at most 1024 bytes returns for one result. The schedule chooses the
results, their order and how many bytes each `recv` returns.

Owns: the messages, the client's loop, and exact processing in every run whose
`recv` calls return one message each.

Does not own: which image a result belongs to, the end of the connection, and
the conversion of the coordinates by `atof`.
-/

set_option autoImplicit false

namespace PaintingCPS

open Foundation

/-! ## Messages -/

/-- The places that write a match: `result_child`, and the Storm branch of
`server_result`. -/
inductive ResultWriter where
  | resultChild
  | stormBranch
deriving DecidableEq, Repr

/-- `sizeof(sendInfo)` -/
def ResultWriter.size : ResultWriter → Nat
  | resultChild => 200
  | stormBranch => 1024

/-- A result as the server knows it. -/
inductive ServerResult where
  | notMatched
  | matched (writer : ResultWriter) (info : List Byte) (index : Int)
deriving DecidableEq, Repr

namespace ServerResult

/-- What `%s` prints of the info text, the index, and eight zeros, each followed
by a comma. -/
def text (info : List Byte) (index : Int) : List Byte :=
  info.takeWhile (fun byte => byte != nul) ++ comma ::
    (decimalInt index ++ comma :: ascii "0,0,0,0,0,0,0,0,")

/-- `defMsg`, with its terminator. -/
def defMsg : List Byte := ascii "none" ++ [nul]

/-- The bytes handed to `write`. -/
def bytes (junk : Nat → Byte) : ServerResult → Except Fault (List Byte)
  | notMatched => .ok defMsg
  | matched writer info index => sprintf (uninitialised junk writer.size) (text info index)

/-- The info text has its title, artist and date, and the whole text fits. -/
def Complete : ServerResult → Prop
  | notMatched => True
  | matched writer info index =>
      3 ≤ (fields isComma (info.takeWhile fun byte => byte != nul)).length ∧
        (text info index).length < writer.size

instance : DecidablePred Complete
  | notMatched => inferInstanceAs (Decidable True)
  | matched _ _ _ => inferInstanceAs (Decidable (_ ∧ _))

end ServerResult

/-! ## The client -/

/-- What one result does to the display: nothing to draw, or the texts for
title, artist, date, index and the eight coordinates. -/
inductive Display where
  | none
  | fields (texts : List (List Byte))
deriving DecidableEq, Repr

namespace Cpp

/-- `result_thread` from the test for "none" on. -/
def showResult (buffer : List Byte) : Except Fault Display :=
  if buffer.take 5 = ascii "none" ++ [nul] then .ok .none
  else do
    let texts ← nextTokens isComma 12 buffer
    return .fields texts

end Cpp

/-- What a result is to be shown as. -/
def ServerResult.display : ServerResult → Display
  | notMatched => .none
  | matched _ info index => .fields ((fields isComma (text info index)).take 12)

/-! ## The connection -/

/-- A result connection after the login. -/
structure ResultConnection where
  /-- Time stamps that `transmit_child` has pushed, in order. -/
  requests : List Nat
  timeQueue : List Nat
  written : List ServerResult
  /-- What was handed to `write`, message by message. -/
  messages : List (List Byte)
  /-- Bytes on their way to the client. -/
  stream : List Byte
  counter : Int
  /-- Passes of the client's loop that decremented `counter`. -/
  decrements : Nat
  popped : List Nat
  shown : List Display
  fault : Option Fault
deriving DecidableEq, Repr

inductive ResultStep where
  /-- The client pushes the time and sends an image. -/
  | request (stamp : Nat)
  /-- The server answers the oldest open request. -/
  | write (result : ServerResult) (junk : Nat → Byte)
  /-- `recv` returns `count` bytes. -/
  | receive (count : Nat)

namespace ResultConnection

def init (sizePerTime : Int) : ResultConnection :=
  ⟨[], [], [], [], [], sizePerTime, 0, [], [], none⟩

section Steps

variable (connection : ResultConnection)

def writeStep (result : ServerResult) (junk : Nat → Byte) : Option ResultConnection :=
  if connection.written.length < connection.requests.length then
    match result.bytes junk with
    | .error fault => some { connection with fault := some fault }
    | .ok message =>
        some { connection with
          written := connection.written ++ [result]
          messages := connection.messages ++ [message]
          stream := connection.stream ++ message }
  else none

/-- `timeQueue->front()` and `pop()`, in consumption mode. -/
def popTime (consume : Bool) : ResultConnection :=
  if consume then
    match connection.timeQueue with
    | [] => connection
    | tpstart :: rest =>
        { connection with timeQueue := rest, popped := connection.popped ++ [tpstart] }
  else connection

/-- One pass of the client's loop with `n > 0`. -/
def processBuffer (consume : Bool) (sizePerTime : Int) (buffer : List Byte) : ResultConnection :=
  let connection := { connection with
    counter := connection.counter - 1
    decrements := connection.decrements + 1 }
  if connection.counter > 0 then connection
  else
    let connection := { connection with counter := sizePerTime }.popTime consume
    match Cpp.showResult buffer with
    | .error fault => { connection with fault := some fault }
    | .ok display => { connection with shown := connection.shown ++ [display] }

/-- `bzero`, `recv` and the pass of the loop. -/
def receiveStep (consume : Bool) (sizePerTime : Int) (count : Nat) : Option ResultConnection :=
  if 1 ≤ count ∧ count ≤ bufferSize ∧ count ≤ connection.stream.length then
    let buffer := connection.stream.take count ++ List.replicate (bufferSize - count) 0
    some ({ connection with stream := connection.stream.drop count }.processBuffer consume
      sizePerTime buffer)
  else none

def step (consume : Bool) (sizePerTime : Int) : ResultStep → Option ResultConnection
  | .request stamp =>
      some { connection with
        requests := connection.requests ++ [stamp]
        timeQueue := connection.timeQueue ++ [stamp] }
  | .write result junk => connection.writeStep result junk
  | .receive count => connection.receiveStep consume sizePerTime count

end Steps

end ResultConnection

/-- Client and server on one result connection. -/
def resultMachine (consume : Bool) (sizePerTime : Int) :
    Machine ResultConnection ResultStep where
  next connection label :=
    if connection.fault.isSome then none else connection.step consume sizePerTime label

/-- Every written result is complete, and a `recv` returns the bytes of the next
result, all of them and no others. -/
def ResultConnection.WholeResults (connection : ResultConnection) : ResultStep → Prop
  | .request _ => True
  | .write result _ => result.Complete
  | .receive count => connection.messages[connection.decrements]?.map List.length = some count

instance (connection : ResultConnection) (label : ResultStep) :
    Decidable (connection.WholeResults label) :=
  match label with
  | .request _ => inferInstanceAs (Decidable True)
  | .write result _ => inferInstanceAs (Decidable result.Complete)
  | .receive _ => inferInstanceAs (Decidable (_ = _))

/-- The results so far are processed in order, once each: one decrement, one
time stamp and one display for every result whose bytes are received. -/
structure ResultConnection.InOrder (consume : Bool) (connection : ResultConnection) : Prop where
  sound : connection.fault = none
  received : connection.decrements ≤ connection.written.length
  unread : connection.stream = (connection.messages.drop connection.decrements).flatten
  shown : connection.shown =
    (connection.written.take connection.decrements).map ServerResult.display
  popped : connection.popped =
    if consume then connection.requests.take connection.decrements else []

/-! ## One message -/

section Message

variable {info : List Byte} {index : Int}

theorem isField_decimalInt (value : Int) : IsField isComma (decimalInt value) := by
  have digits : ∀ number : Nat, IsField isComma (decimal number) :=
    isField_decimal isComma_of_isDigit
  rw [decimalInt]
  split
  · refine ⟨List.cons_ne_nil _ _, fun byte member => ?_⟩
    cases List.mem_cons.mp member with
    | inl minus =>
        rw [minus]
        decide
    | inr digit => exact (digits _).2 byte digit
  · exact digits _

namespace ServerResult

theorem text_clean : nul ∉ text info index := by
  intro member
  cases List.mem_append.mp member with
  | inl inInfo => simpa using List.mem_takeWhile_imp inInfo
  | inr rest =>
      cases List.mem_cons.mp rest with
      | inl separator => exact absurd separator (by decide)
      | inr numbers =>
          cases List.mem_append.mp numbers with
          | inl inIndex => exact notMem_decimalInt (by decide) (by decide) index inIndex
          | inr zeros => exact absurd zeros (by decide)

/-- The fields of the info text, the index, and eight zeros. -/
theorem fields_text :
    (fields isComma (text info index)).length =
      (fields isComma (info.takeWhile fun byte => byte != nul)).length + 9 := by
  rw [text, fields_append _ isComma_comma, fields_append _ isComma_comma,
    fields_field (isField_decimalInt index), List.length_append, List.length_append]
  rfl

theorem text_long : 5 ≤ (text info index).length := by
  have zeros : (ascii "0,0,0,0,0,0,0,0,").length = 16 := by decide
  simp only [text, List.length_append, List.length_cons, zeros]
  omega

/-- The client shows a complete message, and whatever follows it in the buffer,
as the result it stands for. -/
theorem showResult_bytes {result : ServerResult} (complete : result.Complete)
    {junk : Nat → Byte} {message : List Byte} (written : result.bytes junk = .ok message)
    (beyond : List Byte) : Cpp.showResult (message ++ beyond) = .ok result.display := by
  cases result with
  | notMatched =>
      cases written
      have isNone : (defMsg ++ beyond).take 5 = defMsg := List.take_left' (by decide)
      exact if_pos isNone
  | matched writer info index =>
      obtain ⟨named, fits⟩ := complete
      rw [bytes, sprintf_eq (by rw [uninitialised_length]; exact fits)] at written
      cases written
      have notNone : ¬ (text info index ++ nul ::
          (uninitialised junk writer.size).drop ((text info index).length + 1) ++ beyond).take 5 =
            ascii "none" ++ [nul] := by
        intro same
        rw [List.append_assoc, List.take_append_of_le_length text_long] at same
        have member : nul ∈ (text info index).take 5 := by rw [same]; simp
        exact text_clean (List.mem_of_mem_take member)
      rw [Cpp.showResult, if_neg notNone, List.append_assoc, List.cons_append,
        nextTokens_eq (by decide) 12 text_clean, if_pos (by rw [fields_text]; omega)]
      rfl

theorem bytes_length {result : ServerResult} {junk : Nat → Byte} {message : List Byte}
    (written : result.bytes junk = .ok message) : message.length ≤ bufferSize := by
  cases result with
  | notMatched =>
      cases written
      decide
  | matched writer info index =>
      rw [writeBytes_length written, uninitialised_length]
      cases writer <;> decide

theorem bytes_complete {result : ServerResult} (complete : result.Complete) (junk : Nat → Byte) :
    ∃ message, result.bytes junk = .ok message ∧ 1 ≤ message.length := by
  cases result with
  | notMatched => exact ⟨defMsg, rfl, by decide⟩
  | matched writer info index =>
      refine ⟨_, sprintf_eq (by rw [uninitialised_length]; exact complete.2), ?_⟩
      rw [List.length_append, List.length_cons]
      omega

end ServerResult

end Message

/-! ## Runs -/

/-- A result and the bytes it was written as. -/
def ServerResult.WrittenAs (result : ServerResult) (message : List Byte) : Prop :=
  result.Complete ∧ ∃ junk, result.bytes junk = .ok message

namespace ResultConnection

/-- What holds with one image a request as long as every `recv` returns one
whole result. -/
structure Tracks (consume : Bool) (connection : ResultConnection) : Prop extends
    connection.InOrder consume where
  messages : List.Forall₂ ServerResult.WrittenAs connection.written connection.messages
  requested : connection.written.length ≤ connection.requests.length
  counter : connection.counter = 1
  timeQueue : connection.timeQueue =
    if consume then connection.requests.drop connection.decrements else connection.requests

theorem init_tracks (consume : Bool) : (init 1).Tracks consume where
  sound := rfl
  received := Nat.le_refl 0
  unread := rfl
  shown := rfl
  popped := by cases consume <;> rfl
  messages := List.Forall₂.nil
  requested := Nat.le_refl 0
  counter := rfl
  timeQueue := by cases consume <;> rfl

variable {consume : Bool} {connection after : ResultConnection}

/-- A request adds a time stamp behind all others. -/
theorem Tracks.request (tracks : connection.Tracks consume) (stamp : Nat) :
    Tracks consume { connection with
      requests := connection.requests ++ [stamp]
      timeQueue := connection.timeQueue ++ [stamp] } where
  sound := tracks.sound
  received := tracks.received
  unread := tracks.unread
  shown := tracks.shown
  popped := by
    have bound := Nat.le_trans tracks.received tracks.requested
    rw [tracks.popped, List.take_append_of_le_length bound]
  messages := tracks.messages
  requested := by
    rw [List.length_append]
    exact Nat.le_trans tracks.requested (Nat.le_add_right _ _)
  counter := tracks.counter
  timeQueue := by
    have bound := Nat.le_trans tracks.received tracks.requested
    rw [tracks.timeQueue, List.drop_append_of_le_length bound]
    split <;> rfl

/-- A complete result is appended to the stream. -/
theorem Tracks.write (tracks : connection.Tracks consume) {result : ServerResult}
    (complete : result.Complete) {junk : Nat → Byte}
    (step : connection.writeStep result junk = some after) : after.Tracks consume := by
  obtain ⟨message, written, -⟩ := ServerResult.bytes_complete complete junk
  rw [writeStep, written] at step
  split at step
  next open' =>
    cases step
    have paired := tracks.messages.length_eq
    exact
      { sound := tracks.sound
        received := by
          rw [List.length_append]
          exact Nat.le_trans tracks.received (Nat.le_add_right _ _)
        unread := by
          have bound : connection.decrements ≤ connection.messages.length := by
            rw [← paired]
            exact tracks.received
          rw [tracks.unread, List.drop_append_of_le_length bound, List.flatten_append,
            List.flatten_singleton]
        shown := by rw [tracks.shown, List.take_append_of_le_length tracks.received]
        popped := tracks.popped
        messages := List.rel_append tracks.messages (.cons ⟨complete, junk, written⟩ .nil)
        requested := by
          rw [List.length_append]
          exact open'
        counter := tracks.counter
        timeQueue := tracks.timeQueue }
  next => contradiction

/-- The oldest time stamp goes with the next result. -/
theorem Tracks.popTime_eq (tracks : connection.Tracks consume)
    (open' : connection.decrements < connection.requests.length) (counter : Int)
    (decrements : Nat) (stream : List Byte) :
    ({ connection with stream, counter, decrements }).popTime consume =
      { connection with
        stream, counter, decrements
        timeQueue := if consume then connection.requests.drop (connection.decrements + 1)
          else connection.requests
        popped := if consume then connection.requests.take (connection.decrements + 1)
          else [] } := by
  have queued := tracks.timeQueue
  have taken := tracks.popped
  cases consume with
  | true =>
      simp only [if_true] at queued taken ⊢
      rw [List.drop_eq_getElem_cons open'] at queued
      simp only [popTime, if_true, queued, taken, List.take_append_getElem]
  | false =>
      simp only [Bool.false_eq_true, if_false] at queued taken ⊢
      simp only [popTime, Bool.false_eq_true, if_false, ← queued, ← taken]

/-- A `recv` that returns the next result processes it. -/
theorem Tracks.receive (tracks : connection.Tracks consume) {count : Nat}
    (whole : connection.messages[connection.decrements]?.map List.length = some count)
    (step : connection.receiveStep consume 1 count = some after) : after.Tracks consume := by
  obtain ⟨message, found, rfl⟩ := Option.map_eq_some_iff.mp whole
  have paired := tracks.messages.length_eq
  obtain ⟨inMessages, atMessage⟩ := List.getElem?_eq_some_iff.mp found
  have inWritten : connection.decrements < connection.written.length := by omega
  have inRequests := Nat.lt_of_lt_of_le inWritten tracks.requested
  have writtenAs : ServerResult.WrittenAs connection.written[connection.decrements] message := by
    rw [← atMessage]
    exact tracks.messages.get inWritten inMessages
  obtain ⟨complete, junk, written⟩ := writtenAs
  have streamEq : connection.stream =
      message ++ (connection.messages.drop (connection.decrements + 1)).flatten := by
    rw [tracks.unread, List.drop_eq_getElem_cons inMessages, List.flatten_cons, atMessage]
  have shows := ServerResult.showResult_bytes complete written
    (List.replicate (bufferSize - message.length) 0)
  rw [receiveStep] at step
  split at step
  next =>
    rw [streamEq, List.take_left, List.drop_left] at step
    have processed := Option.some.inj step
    simp only [processBuffer, tracks.counter, Int.sub_self, gt_iff_lt, Int.lt_irrefl, if_false,
      tracks.popTime_eq inRequests, shows] at processed
    rw [← processed]
    exact
      { sound := tracks.sound
        received := inWritten
        unread := rfl
        shown := by
          rw [tracks.shown, ← List.take_append_getElem inWritten, List.map_append]
          rfl
        popped := rfl
        messages := tracks.messages
        requested := tracks.requested
        counter := rfl
        timeQueue := rfl }
  next => contradiction

/-- One step that keeps to the condition. -/
theorem Tracks.step (tracks : connection.Tracks consume) {label : ResultStep}
    (allowed : connection.WholeResults label)
    (step : (resultMachine consume 1).transition connection label after) :
    after.Tracks consume := by
  have running : ¬ connection.fault.isSome = true := by rw [tracks.sound]; decide
  simp only [Machine.transition, resultMachine, if_neg running] at step
  cases label with
  | request stamp =>
      cases step
      exact tracks.request stamp
  | write result junk => exact tracks.write allowed step
  | receive count => exact tracks.receive allowed step

end ResultConnection

/-- In every run in which each `recv` returns exactly the next result, the
client processes the results in order and each of them once. -/
theorem results_in_order {consume : Bool} {finish : ResultConnection}
    (reached : (resultMachine consume 1).ReachesUnder
      (fun connection label => connection.WholeResults label) (.init 1) finish) :
    finish.InOrder consume := by
  have tracks : finish.Tracks consume := reached.invariant
    (ResultConnection.init_tracks consume)
    fun tracks allowed step => tracks.step allowed step
  exact tracks.toInOrder

/-- A match of image 7. -/
def sampleMatch : ServerResult := .matched .resultChild (ascii "t,a,d") 7

theorem results_in_order_sample : ∃ finish : ResultConnection,
    finish.shown.length = 2 ∧ finish.popped = [20, 30] ∧ finish.InOrder true := by
  obtain ⟨finish, reached, found⟩ := Machine.exists_of_run
    (show (((resultMachine true 1).run (fun connection label => connection.WholeResults label)
        (.init 1) [.request 20, .request 30, .write .notMatched (fun _ => 9),
          .write sampleMatch (fun _ => 9), .receive 5, .receive 200]).map
      fun finish => decide (finish.shown.length = 2 ∧ finish.popped = [20, 30])) = some true by
      decide +kernel)
  obtain ⟨shown, popped⟩ := of_decide_eq_true found
  exact ⟨finish, shown, popped, results_in_order reached⟩

/-- Two short messages in one `recv` count as one result, and a match in two
pieces ends the client at the second piece. -/
theorem merged_or_split_results :
    (∃ finish, (resultMachine true 1).Reaches (.init 1) finish ∧
      finish.written = [.notMatched, .notMatched] ∧ finish.stream = [] ∧
      finish.shown = [.none] ∧ ¬ finish.InOrder true) ∧
    (∃ finish, (resultMachine true 1).Reaches (.init 1) finish ∧
      finish.written = [sampleMatch] ∧ finish.fault = some .nullPointer ∧
      ¬ finish.InOrder true) := by
  constructor
  · obtain ⟨finish, reached, found⟩ := Machine.exists_of_run
      (show (((resultMachine true 1).run (fun _ _ => True) (.init 1)
          [.request 20, .request 30, .write .notMatched (fun _ => 9),
            .write .notMatched (fun _ => 9), .receive 10]).map
        fun finish => decide (finish.written = [.notMatched, .notMatched] ∧ finish.stream = [] ∧
          finish.shown = [.none] ∧
          (finish.messages.drop finish.decrements).flatten ≠ [])) = some true by
        decide +kernel)
    obtain ⟨written, stream, shown, unread⟩ := of_decide_eq_true found
    refine ⟨finish, reached, written, stream, shown, fun inOrder => ?_⟩
    rw [← inOrder.unread] at unread
    exact unread stream
  · obtain ⟨finish, reached, found⟩ := Machine.exists_of_run
      (show (((resultMachine true 1).run (fun _ _ => True) (.init 1)
          [.request 20, .write sampleMatch (fun _ => 0), .receive 190, .receive 10]).map
        fun finish => decide (finish.written = [sampleMatch] ∧
          finish.fault = some .nullPointer)) = some true by
        decide +kernel)
    obtain ⟨written, crashed⟩ := of_decide_eq_true found
    refine ⟨finish, reached, written, crashed, fun inOrder => ?_⟩
    rw [inOrder.sound] at crashed
    contradiction

end PaintingCPS
