import PaintingCPS.Foundation.Termination
import PaintingCPS.MsgDistributor.Channels
import PaintingCPS.MsgDistributor.Receiving
import PaintingCPS.Results.Framing
import PaintingCPS.Upload.Uplink

/-!
Contract: results on a connection in orbit mode.

The server's threads hand every result to `MsgD.send`, and `result_thread`
takes one message with each `MsgD.recv`. There is no stream that could be cut
or merged, for any number of images a request. The buffer of `recv` is longer
than most messages: what it holds behind them is whatever lies in the heap
there.

Owns: the connection over two Message Distributors, exact processing in every
run, and that everything sent gets processed.

Does not own: the login, and the order in which the server answers.
-/

set_option autoImplicit false

namespace PaintingCPS

open Foundation

/-! ## Every so many -/

section EveryNth

variable {Item : Type}

/-- The last one of every `count` items; an incomplete rest has none. -/
def everyNth (count : Nat) (items : List Item) : List Item :=
  (List.range (items.length / count)).filterMap fun group =>
    items[count * group + (count - 1)]?

/-- An item completes a group or belongs to the rest. -/
theorem everyNth_concat {count : Nat} (positive : 0 < count) (items : List Item) (item : Item) :
    everyNth count (items ++ [item]) =
      everyNth count items ++ if count ∣ items.length + 1 then [item] else [] := by
  have earlier : ∀ group ∈ List.range (items.length / count),
      (items ++ [item])[count * group + (count - 1)]? =
        items[count * group + (count - 1)]? := by
    intro group member
    apply List.getElem?_append_left
    have below : count * (group + 1) ≤ items.length :=
      Nat.le_trans (Nat.mul_le_mul_left _ (List.mem_range.mp member))
        (Nat.mul_div_le items.length count)
    rw [Nat.mul_add, Nat.mul_one] at below
    omega
  rw [everyNth, List.length_append, List.length_singleton, Nat.succ_div]
  by_cases full : count ∣ items.length + 1
  · rw [if_pos full, if_pos full, List.range_succ, List.filterMap_append,
      List.filterMap_congr earlier, ← everyNth]
    have last : count * (items.length / count) + (count - 1) = items.length := by
      have whole := Nat.mul_div_cancel' full
      rw [Nat.succ_div, if_pos full, Nat.mul_add, Nat.mul_one] at whole
      omega
    rw [List.filterMap_cons, last, List.getElem?_concat_length]
    rfl
  · rw [if_neg full, if_neg full, Nat.add_zero, List.filterMap_congr earlier, ← everyNth,
      List.append_nil]

end EveryNth

/-! ## The connection -/

/-- The result connection of a client. The byte stream of `connection` stays
empty, since the messages travel over the link. -/
structure Downlink where
  link : Link
  connection : ResultConnection

inductive DownlinkStep where
  /-- `transmit_child` pushes the time and sends its images. -/
  | request (stamp : Nat)
  /-- A thread of the server sends the result for an image it has got. -/
  | write (result : ServerResult) (junk : Nat → Byte)
  /-- One pass of the loop of `result_thread`; `beyond` lies in the heap behind
  the message. -/
  | receive (beyond : List Byte)
  | listen (side : Side) (junk : Nat → Byte)
  /-- A call of another thread of either process. -/
  | other (step : LinkStep)

namespace Downlink

/-- Logged in, with the loop of `result_thread` about to start. -/
def init (link : Link) (sizePerTime : Nat) : Downlink := ⟨link, .init sizePerTime⟩

section Steps

variable (mfrecv : List Byte → Option (List Byte)) (sock : SocketId) (consume : Bool)
  (sizePerTime : Nat) (downlink : Downlink)

/-- The result of `MsgD.send` is not looked at. -/
def writeStep (result : ServerResult) (junk : Nat → Byte) : Option Downlink :=
  if downlink.connection.written.length < sizePerTime * downlink.connection.requests.length then
    match result.bytes junk with
    | .error fault => some { downlink with link := downlink.link.stuck fault }
    | .ok message =>
        some {
          link := downlink.link.sendStep .server junk sock message
          connection := { downlink.connection with
            written := downlink.connection.written ++ [result]
            messages := downlink.connection.messages ++ [message] } }
  else none

/-- `bzero`, `recv` and the pass of the loop. A negative result of `recv` ends
the client. -/
def receiveStep (beyond : List Byte) : Option Downlink :=
  (downlink.link.recvStep .client sock).map fun link =>
    match downlink.link.returned link .client sock with
    | none => { downlink with link := if link.fault = none then link.stuck .exited else link }
    | some block =>
        { link := link
          connection := downlink.connection.processBuffer consume sizePerTime
            (Cpp.recvCopy (List.replicate bufferSize 0) block beyond bufferSize) }

def step : DownlinkStep → Option Downlink
  | .request stamp =>
      some { downlink with
        connection := { downlink.connection with
          requests := downlink.connection.requests ++ [stamp]
          timeQueue := downlink.connection.timeQueue ++ [stamp] } }
  | .write result junk => downlink.writeStep sock sizePerTime result junk
  | .receive beyond => downlink.receiveStep sock consume sizePerTime beyond
  | .listen side junk =>
      (downlink.link.listenStep mfrecv side junk).map fun link => { downlink with link := link }
  | .other call =>
      (downlink.link.step mfrecv call).map fun link => { downlink with link := link }

end Steps

end Downlink

def downlinkMachine (mfrecv : List Byte → Option (List Byte)) (sock : SocketId) (consume : Bool)
    (sizePerTime : Nat) : Machine Downlink DownlinkStep where
  next downlink label :=
    if downlink.link.fault.isSome ∨ downlink.connection.fault.isSome then none
    else downlink.step mfrecv sock consume sizePerTime label

/-- The server sends complete results. Other threads stay away from the socket,
and use sockets that are open. -/
def DownlinkStep.Allowed (ids : SocketId → Prop) (sock : SocketId) : DownlinkStep → Prop
  | .write result _ => result.Complete
  | .other call => call.Allowed ids ∧ call.Elsewhere sock
  | _ => True

/-- A step of the client's `result_thread` and its listener. -/
def DownlinkStep.Own : DownlinkStep → Prop
  | .receive _ => True
  | .listen side _ => side = .client
  | _ => False

namespace Downlink

/-- The results so far are processed in order, once each. Every `sizePerTime`-th
is shown and takes one time stamp; the others are counted. -/
structure InOrder (sock : SocketId) (consume : Bool) (sizePerTime : Nat) (downlink : Downlink) :
    Prop where
  sound : downlink.link.fault = none ∧ downlink.connection.fault = none
  received : downlink.connection.decrements ≤ downlink.connection.written.length
  unread : downlink.link.pending .client sock =
    downlink.connection.messages.drop downlink.connection.decrements
  shown : downlink.connection.shown =
    (everyNth sizePerTime
      (downlink.connection.written.take downlink.connection.decrements)).map ServerResult.display
  popped : downlink.connection.popped =
    if consume then
      downlink.connection.requests.take (downlink.connection.decrements / sizePerTime)
    else []

/-! ## The invariant -/

structure Tracks (ids : SocketId → Prop) (sock : SocketId) (consume : Bool) (sizePerTime : Nat)
    (downlink : Downlink) : Prop extends downlink.InOrder sock consume sizePerTime where
  delivers : downlink.link.Delivers ids
  messages : List.Forall₂ ServerResult.WrittenAs downlink.connection.written
    downlink.connection.messages
  requested : downlink.connection.written.length ≤
    sizePerTime * downlink.connection.requests.length
  counter : downlink.connection.counter =
    sizePerTime - (downlink.connection.decrements % sizePerTime : Nat)
  timeQueue : downlink.connection.timeQueue =
    if consume then
      downlink.connection.requests.drop (downlink.connection.decrements / sizePerTime)
    else downlink.connection.requests

section Invariant

variable {mfrecv : List Byte → Option (List Byte)} {ids : SocketId → Prop} {sock : SocketId}
  {consume : Bool} {sizePerTime : Nat} {downlink after : Downlink}

theorem init_tracks {link : Link} (delivers : link.Delivers ids)
    (noReply : link.pending .client sock = []) (sizePerTime : Nat) :
    (init link sizePerTime).Tracks ids sock consume sizePerTime where
  sound := ⟨delivers.sound, rfl⟩
  received := Nat.le_refl 0
  unread := noReply
  shown := by simp [init, ResultConnection.init, everyNth]
  popped := by cases consume <;> simp [init, ResultConnection.init]
  delivers := delivers
  messages := List.Forall₂.nil
  requested := Nat.zero_le _
  counter := by simp [init, ResultConnection.init]
  timeQueue := by cases consume <;> simp [init, ResultConnection.init]

/-- The number of time stamps taken. -/
theorem Tracks.taken_le (tracks : downlink.Tracks ids sock consume sizePerTime) :
    downlink.connection.decrements / sizePerTime ≤ downlink.connection.requests.length :=
  Nat.div_le_of_le_mul (Nat.le_trans tracks.received tracks.requested)

theorem Tracks.request (tracks : downlink.Tracks ids sock consume sizePerTime) (stamp : Nat) :
    Tracks ids sock consume sizePerTime { downlink with
      connection := { downlink.connection with
        requests := downlink.connection.requests ++ [stamp]
        timeQueue := downlink.connection.timeQueue ++ [stamp] } } :=
  { tracks with
    popped := by
      dsimp only
      rw [tracks.popped, List.take_append_of_le_length tracks.taken_le]
    requested := by
      dsimp only
      rw [List.length_append, Nat.mul_add]
      exact Nat.le_trans tracks.requested (Nat.le_add_right _ _)
    timeQueue := by
      dsimp only
      rw [tracks.timeQueue, List.drop_append_of_le_length tracks.taken_le]
      split <;> rfl }

/-- A complete result becomes the last message that is pending. -/
theorem Tracks.write (tracks : downlink.Tracks ids sock consume sizePerTime) (member : ids sock)
    {result : ServerResult} (complete : result.Complete) {junk : Nat → Byte}
    (stepped : downlink.writeStep sock sizePerTime result junk = some after) :
    after.Tracks ids sock consume sizePerTime := by
  obtain ⟨message, written, long⟩ := ServerResult.bytes_complete complete junk
  have nonempty : message ≠ [] := by
    rintro rfl
    cases long
  have room : bufferSize ≤ recvLength := by decide
  have short := Nat.le_trans (ServerResult.bytes_length written) room
  have pending := tracks.delivers.sendStep_pending .server junk member nonempty
  have delivers := tracks.delivers.sendStep .server junk member nonempty (fits_chunk sock short)
  have paired := tracks.messages.length_eq
  rw [writeStep, written] at stepped
  split at stepped
  next asked =>
    cases stepped
    exact
      { sound := ⟨delivers.sound, tracks.sound.2⟩
        received := by
          dsimp only
          rw [List.length_append]
          exact Nat.le_trans tracks.received (Nat.le_add_right _ _)
        unread := by
          dsimp only
          have bound := Nat.le_trans tracks.received (Nat.le_of_eq paired)
          rw [pending, List.drop_append_of_le_length bound, ← tracks.unread]
          exact Channels.set_self _ _ _ _
        shown := by
          dsimp only
          rw [tracks.shown, List.take_append_of_le_length tracks.received]
        popped := tracks.popped
        delivers := delivers
        messages := List.rel_append tracks.messages (.cons ⟨complete, junk, written⟩ .nil)
        requested := by
          dsimp only
          rw [List.length_append]
          exact asked
        counter := tracks.counter
        timeQueue := tracks.timeQueue }
  next => cases stepped

/-- A call that leaves the socket alone. -/
theorem Tracks.elsewhere (tracks : downlink.Tracks ids sock consume sizePerTime) {link : Link}
    (delivers : link.Delivers ids)
    (same : link.pending .client sock = downlink.link.pending .client sock) :
    Tracks ids sock consume sizePerTime { downlink with link := link } :=
  { tracks with
    sound := ⟨delivers.sound, tracks.sound.2⟩
    unread := same.trans tracks.unread
    delivers := delivers }

/-! ### One pass of the loop -/

/-- A message and what lies behind it, as the buffer holds it. -/
theorem recvCopy_message {message : List Byte} (short : message.length ≤ bufferSize)
    (beyond : List Byte) :
    ∃ rest, Cpp.recvCopy (List.replicate bufferSize 0) message beyond bufferSize =
      message ++ rest := by
  refine ⟨beyond.take (bufferSize - message.length), ?_⟩
  rw [MsgDistributor.recvCopy_short short,
    List.drop_of_length_le (Nat.le_of_eq List.length_replicate), List.append_nil]

/-- What the loop makes of the message of the next result. -/
theorem Tracks.process (tracks : downlink.Tracks ids sock consume sizePerTime)
    (positive : 0 < sizePerTime) {result : ServerResult} {message : List Byte}
    (writtenAs : result.WrittenAs message)
    (asked : downlink.connection.decrements < sizePerTime * downlink.connection.requests.length)
    (rest : List Byte) :
    downlink.connection.processBuffer consume sizePerTime (message ++ rest) =
      { downlink.connection with
        counter := sizePerTime - ((downlink.connection.decrements + 1) % sizePerTime : Nat)
        decrements := downlink.connection.decrements + 1
        timeQueue :=
          if consume then
            downlink.connection.requests.drop
              ((downlink.connection.decrements + 1) / sizePerTime)
          else downlink.connection.requests
        popped :=
          if consume then
            downlink.connection.requests.take
              ((downlink.connection.decrements + 1) / sizePerTime)
          else []
        shown := downlink.connection.shown ++
          if sizePerTime ∣ downlink.connection.decrements + 1 then [result.display] else [] } := by
  obtain ⟨complete, junk, written⟩ := writtenAs
  have shows := ServerResult.showResult_bytes complete written rest
  have counter := tracks.counter
  have queued := tracks.timeQueue
  have taken := tracks.popped
  have inGroup := Nat.mod_lt downlink.connection.decrements positive
  have divided := Nat.mod_add_div downlink.connection.decrements sizePerTime
  rw [Nat.succ_div]
  by_cases last : downlink.connection.decrements % sizePerTime + 1 = sizePerTime
  · have full : sizePerTime ∣ downlink.connection.decrements + 1 := by
      refine ⟨downlink.connection.decrements / sizePerTime + 1, ?_⟩
      rw [Nat.mul_add, Nat.mul_one]
      omega
    have due : ¬ downlink.connection.counter - 1 > 0 := by omega
    have inRequests : downlink.connection.decrements / sizePerTime <
        downlink.connection.requests.length := Nat.div_lt_of_lt_mul asked
    rw [if_pos full, if_pos full, Nat.mod_eq_zero_of_dvd full]
    simp only [ResultConnection.processBuffer, if_neg due, shows, Int.sub_zero, Nat.cast_zero]
    cases consume with
    | true =>
        simp only [if_true] at queued taken ⊢
        rw [List.drop_eq_getElem_cons inRequests] at queued
        simp only [ResultConnection.popTime, if_true, queued, taken, List.take_append_getElem]
    | false =>
        simp only [Bool.false_eq_true, if_false] at queued taken ⊢
        simp only [ResultConnection.popTime, Bool.false_eq_true, if_false, ← queued, ← taken]
  · have inside : (downlink.connection.decrements + 1) % sizePerTime =
        downlink.connection.decrements % sizePerTime + 1 := by
      have split : downlink.connection.decrements + 1 =
          downlink.connection.decrements % sizePerTime + 1 +
            sizePerTime * (downlink.connection.decrements / sizePerTime) := by omega
      rw [split, Nat.add_mul_mod_self_left, Nat.mod_eq_of_lt (by omega)]
    have partial' : ¬ sizePerTime ∣ downlink.connection.decrements + 1 := by
      intro full
      have whole := Nat.mod_eq_zero_of_dvd full
      omega
    have due : downlink.connection.counter - 1 > 0 := by omega
    rw [if_neg partial', if_neg partial', inside, Nat.add_zero, List.append_nil, ← queued, ← taken]
    simp only [ResultConnection.processBuffer, if_pos due]
    congr 1
    omega

/-- `recv` returns the message of the next result, and the loop processes it. -/
theorem Tracks.receive (tracks : downlink.Tracks ids sock consume sizePerTime)
    (member : ids sock) (positive : 0 < sizePerTime) {beyond : List Byte}
    (stepped : downlink.receiveStep sock consume sizePerTime beyond = some after) :
    after.Tracks ids sock consume sizePerTime ∧
      after.connection.written = downlink.connection.written ∧
      after.connection.decrements = downlink.connection.decrements + 1 ∧
      after.link.wire = downlink.link.wire := by
  obtain ⟨link, received, rfl⟩ := Option.map_eq_some_iff.mp stepped
  obtain ⟨block, others, waiting, returned, pending⟩ :=
    tracks.delivers.recvStep_pending member received
  have delivers := tracks.delivers.recvStep member received
  have paired := tracks.messages.length_eq
  have unread := tracks.unread
  rw [waiting] at unread
  have inMessages : downlink.connection.decrements < downlink.connection.messages.length := by
    by_contra outside
    rw [List.drop_of_length_le (Nat.not_lt.mp outside)] at unread
    cases unread
  have inWritten : downlink.connection.decrements < downlink.connection.written.length := by omega
  rw [List.drop_eq_getElem_cons inMessages, List.cons.injEq] at unread
  obtain ⟨isMessage, rest⟩ := unread
  have writtenAs : ServerResult.WrittenAs
      downlink.connection.written[downlink.connection.decrements] block := by
    rw [isMessage]
    exact tracks.messages.get inWritten inMessages
  have short := ServerResult.bytes_length writtenAs.2.choose_spec
  obtain ⟨behind, filled⟩ := recvCopy_message short beyond
  simp only [returned, filled, tracks.process positive writtenAs
    (Nat.lt_of_lt_of_le inWritten tracks.requested) behind]
  refine ⟨?_, trivial, trivial, (tracks.delivers.recvStep_frame member received).1⟩
  exact
    { sound := ⟨delivers.sound, tracks.sound.2⟩
      received := inWritten
      unread := by
        dsimp only
        rw [pending, Channels.set_self, rest]
      shown := by
        dsimp only
        rw [tracks.shown, ← List.take_append_getElem inWritten, everyNth_concat positive,
          List.length_take_of_le (Nat.le_of_lt inWritten), List.map_append]
        split <;> rfl
      popped := rfl
      delivers := delivers
      messages := tracks.messages
      requested := tracks.requested
      counter := rfl
      timeQueue := rfl }

/-- One step of either process, or of another thread. -/
theorem Tracks.step (tracks : downlink.Tracks ids sock consume sizePerTime)
    (contract : ReceiveContract mfrecv) (member : ids sock) (positive : 0 < sizePerTime)
    {label : DownlinkStep} (allowed : label.Allowed ids sock)
    (stepped : downlink.step mfrecv sock consume sizePerTime label = some after) :
    after.Tracks ids sock consume sizePerTime := by
  cases label with
  | request stamp =>
      cases stepped
      exact tracks.request stamp
  | write result junk => exact tracks.write member allowed stepped
  | receive beyond => exact (tracks.receive member positive stepped).1
  | listen side junk =>
      obtain ⟨link, listened, rfl⟩ := Option.map_eq_some_iff.mp stepped
      obtain ⟨delivers, same⟩ := tracks.delivers.listenStep_pending contract listened
      exact tracks.elsewhere delivers (by rw [same])
  | other call =>
      obtain ⟨link, called, rfl⟩ := Option.map_eq_some_iff.mp stepped
      obtain ⟨delivers, same⟩ := tracks.delivers.elsewhere allowed.1 allowed.2 called
      exact tracks.elsewhere delivers (same .client)

theorem step_of_next {label : DownlinkStep}
    (stepped : (downlinkMachine mfrecv sock consume sizePerTime).next downlink label =
      some after) : downlink.step mfrecv sock consume sizePerTime label = some after := by
  simp only [downlinkMachine] at stepped
  split at stepped
  next => cases stepped
  next => exact stepped

/-! ### The end -/

/-- Frames for the client, and results it has not processed. -/
def backlog (downlink : Downlink) : Nat :=
  (downlink.link.wire .client).length +
    (downlink.connection.written.length - downlink.connection.decrements)

/-- A step of the client makes the backlog smaller, and the server's part stays. -/
theorem Tracks.own (tracks : downlink.Tracks ids sock consume sizePerTime)
    (contract : ReceiveContract mfrecv) (member : ids sock) (positive : 0 < sizePerTime)
    {label : DownlinkStep} (own : label.Own)
    (stepped : downlink.step mfrecv sock consume sizePerTime label = some after) :
    after.Tracks ids sock consume sizePerTime ∧
      after.connection.written = downlink.connection.written ∧
      after.backlog < downlink.backlog := by
  cases label with
  | request => exact own.elim
  | write => exact own.elim
  | other => exact own.elim
  | receive beyond =>
      obtain ⟨next, written, counted, wire⟩ := tracks.receive member positive stepped
      have received := next.received
      refine ⟨next, written, ?_⟩
      rw [backlog, backlog, wire]
      rw [written] at received ⊢
      omega
  | listen side junk =>
      have next := tracks.step contract member positive
        (show DownlinkStep.Allowed ids sock (.listen side junk) from trivial) stepped
      obtain ⟨link, listened, rfl⟩ := Option.map_eq_some_iff.mp stepped
      obtain ⟨-, -, wire, waiting⟩ := Link.listenStep_cases listened next.delivers.sound
      cases own
      have shorter : (link.wire .client).length + 1 = (downlink.link.wire .client).length := by
        have frames := List.length_pos_of_ne_nil waiting
        rw [wire, Function.update_self, List.length_tail]
        omega
      refine ⟨next, rfl, ?_⟩
      rw [backlog, backlog]
      dsimp only
      omega

theorem decreasing (contract : ReceiveContract mfrecv) (member : ids sock)
    (positive : 0 < sizePerTime) (written : List ServerResult) :
    Decreasing (downlinkMachine mfrecv sock consume sizePerTime).transition
      (fun _ label => label.Own)
      (fun downlink => downlink.Tracks ids sock consume sizePerTime ∧
        downlink.connection.written = written) backlog where
  preserved := by
    rintro downlink after label ⟨tracks, same⟩ own transition
    obtain ⟨next, kept, -⟩ := tracks.own contract member positive own (step_of_next transition)
    exact ⟨next, kept.trans same⟩
  decreases := by
    rintro downlink after label ⟨tracks, -⟩ own transition
    exact (tracks.own contract member positive own (step_of_next transition)).2.2

/-- While results are left, the listener or `result_thread` can go on. -/
theorem Tracks.progress (tracks : downlink.Tracks ids sock consume sizePerTime)
    (member : ids sock)
    (left : downlink.connection.decrements ≠ downlink.connection.written.length) :
    ∃ label, DownlinkStep.Own label ∧
      ((downlinkMachine mfrecv sock consume sizePerTime).next downlink label).isSome := by
  have running : ¬ (downlink.link.fault.isSome = true ∨
      downlink.connection.fault.isSome = true) := by
    rw [tracks.sound.1, tracks.sound.2]
    decide
  by_cases quiet : downlink.link.wire .client = []
  · refine ⟨.receive [], trivial, ?_⟩
    have received := tracks.received
    have paired := tracks.messages.length_eq
    have waiting : downlink.link.pending .client sock ≠ [] := by
      rw [tracks.unread]
      intro empty
      have short := List.drop_eq_nil_iff.mp empty
      omega
    have enabled := tracks.delivers.recvStep_isSome member waiting quiet
    simpa only [downlinkMachine, if_neg running, Downlink.step, receiveStep,
      Option.isSome_map] using enabled
  · refine ⟨.listen .client fun _ => 0, rfl, ?_⟩
    obtain ⟨link, transition⟩ :=
      listen_enabled mfrecv tracks.delivers.sound quiet (fun _ => 0)
    obtain ⟨-, listened⟩ := Link.step_of_next transition
    have enabled : (downlink.link.listenStep mfrecv .client fun _ => 0).isSome := by
      rw [show downlink.link.listenStep mfrecv .client (fun _ => 0) = some link from listened]
      rfl
    simpa only [downlinkMachine, if_neg running, Downlink.step, Option.isSome_map] using enabled

end Invariant

end Downlink

instance (sock : SocketId) (label : DownlinkStep) : Decidable (label.Allowed (· = sock) sock) :=
  match label with
  | .write result _ => inferInstanceAs (Decidable result.Complete)
  | .other (.send _ _ id payload) =>
      inferInstanceAs (Decidable ((id = sock ∧ payload ≠ [] ∧
        payload.length + (decimal id.value).length + 6 ≤ maxChunk) ∧ id ≠ sock))
  | .other (.recv _ id) => inferInstanceAs (Decidable (id = sock ∧ id ≠ sock))
  | .other (.listen _ _) => inferInstanceAs (Decidable (True ∧ False))
  | .request _ | .receive _ | .listen _ _ => inferInstanceAs (Decidable True)

end PaintingCPS
