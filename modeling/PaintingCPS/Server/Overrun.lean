import Mathlib.Algebra.GroupWithZero.Nat
import PaintingCPS.Server.Upload

/-!
Contract: the bounds of the receive loop of `server_transmit` in TCP mode.

The client names the size of the image and sends what it likes. The loop stops
when its sum of lengths equals the size; `writeBytes` faults on the first byte
that is written behind the array.

Owns: the loop on a given sequence of `recv` results, and the exact sequences
that stay inside the image.

Does not own: what the image is used for.
-/

set_option autoImplicit false

namespace PaintingCPS

open Foundation

/-- `length`, where it counts. -/
def Event.length : Event → Nat
  | .received bytes => bytes.length
  | _ => 0

/-- What `recv` returns: chunks, then 0 or a negative value. -/
structure RecvResults where
  chunks : List (List Byte)
  nonempty : ∀ chunk ∈ chunks, chunk ≠ []
  stop : Event
  stops : stop = .received [] ∨ stop = .failed

def RecvResults.events (results : RecvResults) : List Event :=
  results.chunks.map .received ++ [results.stop]

namespace Transmit

/-- The receive loop. It does not ask for what is left when it is over. -/
def receiveLoop (backend : Backend) (junk : Nat → Byte) :
    Transmit → List Event → Except Fault Transmit
  | thread, [] => .ok thread
  | thread, event :: rest =>
      match thread.step .tcp backend junk event with
      | none => .ok thread
      | some (.error fault) => .error fault
      | some (.ok after) => receiveLoop backend junk after rest

/-- After any number of these results every write was inside the image, `offset`
is at most its size, and the loop is over once the size is reached. `base`
bytes have come before. -/
def Contained (backend : Backend) (junk : Nat → Byte) (thread : Transmit) (size base : Nat)
    (events : List Event) : Prop :=
  ∀ count, ∃ after, thread.receiveLoop backend junk (events.take count) = .ok after ∧
    (∀ fileName img offset, after.pc = .body fileName size img offset → offset ≤ size) ∧
    (size ≤ base + ((events.take count).map Event.length).sum → after.AtSubmission)

end Transmit

/-- Whenever the chunks reach the size, some of the first of them make exactly
this size. -/
def Lands (size base : Nat) (chunks : List (List Byte)) : Prop :=
  ∀ count, size ≤ base + (chunks.take count).flatten.length →
    ∃ earlier ≤ count, base + (chunks.take earlier).flatten.length = size

/-! ## Chunk by chunk -/

section Lands

variable {size base : Nat} {chunk : List Byte} {rest : List (List Byte)}

theorem lands_nil (below : base < size) : Lands size base [] := by
  intro count reached
  rw [List.take_nil, List.flatten_nil, List.length_nil] at reached
  omega

/-- The chunk that makes the size ends the matter. -/
theorem lands_exact (below : base < size) (exact' : base + chunk.length = size) :
    Lands size base (chunk :: rest) := by
  intro count reached
  cases count with
  | zero =>
      rw [List.take_zero, List.flatten_nil, List.length_nil] at reached
      omega
  | succ count => exact ⟨1, by omega, by simpa using exact'⟩

/-- A chunk that passes the size. -/
theorem not_lands_beyond (below : base < size) (beyond : size < base + chunk.length) :
    ¬ Lands size base (chunk :: rest) := by
  intro lands
  obtain ⟨earlier, within, made⟩ := lands 1 (by simp; omega)
  have few : earlier = 0 ∨ earlier = 1 := by omega
  rcases few with rfl | rfl
  · rw [List.take_zero, List.flatten_nil, List.length_nil] at made
    omega
  · rw [List.take_succ_cons, List.take_zero, List.flatten_cons, List.flatten_nil,
      List.append_nil] at made
    omega

/-- A chunk that stays below the size only moves the base. -/
theorem lands_short (short : base + chunk.length < size) :
    Lands size base (chunk :: rest) ↔ Lands size (base + chunk.length) rest := by
  have next : ∀ count, base + ((chunk :: rest).take (count + 1)).flatten.length =
      base + chunk.length + (rest.take count).flatten.length := by
    intro count
    rw [List.take_succ_cons, List.flatten_cons, List.length_append]
    omega
  constructor
  · intro lands count reached
    obtain ⟨earlier, within, made⟩ := lands (count + 1) (by rw [next]; exact reached)
    cases earlier with
    | zero =>
        rw [List.take_zero, List.flatten_nil, List.length_nil] at made
        omega
    | succ earlier => exact ⟨earlier, by omega, by rw [← next]; exact made⟩
  · intro lands count reached
    cases count with
    | zero =>
        rw [List.take_zero, List.flatten_nil, List.length_nil] at reached
        omega
    | succ count =>
        obtain ⟨earlier, within, made⟩ := lands count (by rw [← next]; exact reached)
        exact ⟨earlier + 1, by omega, by rw [next]; exact made⟩

end Lands

namespace Transmit

section Loop

variable {backend : Backend} {junk : Nat → Byte} {thread : Transmit} {fileName img : List Byte}
  {size offset : Nat}

/-- Behind the loop no result is taken. -/
private theorem receiveLoop_over (over' : thread.AtSubmission) {events : List Event}
    (results : ∀ event ∈ events, ∀ success, event ≠ .opened success) :
    thread.receiveLoop backend junk events = .ok thread := by
  obtain ⟨name, announced, image, submitting⟩ := over'
  cases events with
  | nil => rfl
  | cons event rest =>
      have notTaken : thread.step .tcp backend junk event = none := by
        have other := results event List.mem_cons_self
        cases event with
        | opened success => exact absurd rfl (other success)
        | received bytes => simp only [step, submitting]
        | failed => simp only [step, submitting]
        | wrote success => simp only [step, submitting]
      rw [receiveLoop, notTaken]

/-- Before the first result the thread stands where it is, inside the image. -/
private theorem contained_of_succ (atBody : thread.pc = .body fileName size img offset)
    (below : offset < size) {events : List Event}
    (later : ∀ count, ∃ after,
      thread.receiveLoop backend junk (events.take (count + 1)) = .ok after ∧
      (∀ name image other, after.pc = .body name size image other → other ≤ size) ∧
      (size ≤ offset + ((events.take (count + 1)).map Event.length).sum → after.AtSubmission)) :
    thread.Contained backend junk size offset events := by
  intro count
  cases count with
  | zero =>
      refine ⟨thread, rfl, ?_, fun reached => ?_⟩
      · intro name image other stands
        rw [atBody] at stands
        cases stands
        omega
      · simp at reached
        omega
  | succ count => exact later count

/-- One chunk: it is written behind the others, or does not fit. -/
private theorem step_chunk (atBody : thread.pc = .body fileName size img offset) {chunk : List Byte}
    (nonempty : chunk ≠ []) :
    thread.step .tcp backend junk (.received chunk) =
      some ((writeBytes img offset chunk).bind fun filled =>
        if (offset + chunk.length : Nat) = (size : Int) then
          .ok (thread.finish [.reply] fileName size filled)
        else .ok (thread.emit [] (.body fileName size filled (offset + chunk.length)))) := by
  simp only [step, atBody, tcpBody, if_neg nonempty]
  rfl

/-- The end of the data ends the loop. -/
private theorem step_stop (atBody : thread.pc = .body fileName size img offset) {stop : Event}
    (stops : stop = .received [] ∨ stop = .failed) :
    thread.step .tcp backend junk stop = some (.ok (thread.finish [.reply] fileName size img)) := by
  rcases stops with rfl | rfl
  · simp only [step, atBody, tcpBody, if_true]
  · simp only [step, atBody, tcpBody]

private theorem contained_stop (atBody : thread.pc = .body fileName size img offset)
    (below : offset < size) {stop : Event} (stops : stop = .received [] ∨ stop = .failed) :
    thread.Contained backend junk size offset [stop] := by
  refine contained_of_succ atBody below fun count => ?_
  refine ⟨thread.finish [.reply] fileName size img, ?_, nofun, fun _ => ⟨_, _, _, rfl⟩⟩
  rw [List.take_of_length_le (by simp), receiveLoop, step_stop atBody stops]
  rfl

/-- The chunk that makes the size: the loop is over, whatever follows. -/
private theorem contained_exact (atBody : thread.pc = .body fileName size img offset)
    (allocated : img.length = size) (below : offset < size) {chunk : List Byte}
    (nonempty : chunk ≠ []) (exact' : offset + chunk.length = size) {rest : List Event}
    (results : ∀ event ∈ rest, ∀ success, event ≠ .opened success) :
    thread.Contained backend junk size offset (.received chunk :: rest) := by
  have fits : offset + chunk.length ≤ img.length := by omega
  have isLast : ((offset + chunk.length : Nat) : Int) = size := by omega
  obtain ⟨filled, written⟩ : ∃ filled, writeBytes img offset chunk = .ok filled :=
    ⟨_, writeBytes_eq fits⟩
  have stepped : thread.step .tcp backend junk (.received chunk) =
      some (.ok (thread.finish [.reply] fileName size filled)) := by
    rw [step_chunk atBody nonempty, written, Except.bind, if_pos isLast]
  refine contained_of_succ atBody below fun count => ?_
  refine ⟨thread.finish [.reply] fileName size filled, ?_, ?_,
    fun _ => ⟨fileName, size, _, rfl⟩⟩
  · rw [List.take_succ_cons, receiveLoop, stepped]
    apply receiveLoop_over ⟨_, _, _, rfl⟩
    exact fun event member => results event (List.mem_of_mem_take member)
  · intro name image other stands
    cases stands

/-- A chunk beyond the size is written over the end. -/
private theorem not_contained_beyond (atBody : thread.pc = .body fileName size img offset)
    (allocated : img.length = size) {chunk : List Byte} (nonempty : chunk ≠ [])
    (beyond : size < offset + chunk.length) (rest : List Event) :
    ¬ thread.Contained backend junk size offset (.received chunk :: rest) := by
  intro contained
  obtain ⟨after, looped, -⟩ := contained 1
  rw [List.take_succ_cons, receiveLoop, step_chunk atBody nonempty, writeBytes,
    if_pos (by omega)] at looped
  cases looped

/-- A chunk that stays below the size moves `offset` only. -/
private theorem contained_short (atBody : thread.pc = .body fileName size img offset)
    (allocated : img.length = size) {chunk : List Byte} (nonempty : chunk ≠ [])
    (short : offset + chunk.length < size) (rest : List Event) :
    ∃ (after : Transmit) (filled : List Byte),
      after.pc = .body fileName size filled (offset + chunk.length) ∧
      filled.length = size ∧
      (thread.Contained backend junk size offset (.received chunk :: rest) ↔
        after.Contained backend junk size (offset + chunk.length) rest) := by
  have fits : offset + chunk.length ≤ img.length := by omega
  have notLast : ((offset + chunk.length : Nat) : Int) ≠ size := by omega
  obtain ⟨filled, written⟩ : ∃ filled, writeBytes img offset chunk = .ok filled :=
    ⟨_, writeBytes_eq fits⟩
  have stepped : thread.step .tcp backend junk (.received chunk) = some (.ok
      (thread.emit [] (.body fileName size filled (offset + chunk.length)))) := by
    rw [step_chunk atBody nonempty, written, Except.bind, if_neg notLast]
  refine ⟨thread.emit [] (.body fileName size filled (offset + chunk.length)), filled, rfl,
    (writeBytes_length written).trans allocated, ?_⟩
  have next : ∀ count, thread.receiveLoop backend junk
      ((Event.received chunk :: rest).take (count + 1)) =
        (thread.emit [] (.body fileName size filled (offset + chunk.length))).receiveLoop
          backend junk (rest.take count) := by
    intro count
    rw [List.take_succ_cons, receiveLoop, stepped]
  have sum : ∀ count, offset +
      (((Event.received chunk :: rest).take (count + 1)).map Event.length).sum =
        offset + chunk.length + ((rest.take count).map Event.length).sum := by
    intro count
    rw [List.take_succ_cons, List.map_cons, List.sum_cons, Event.length]
    omega
  constructor
  · intro contained count
    obtain ⟨after, looped, bounded, ends⟩ := contained (count + 1)
    rw [next] at looped
    rw [sum] at ends
    exact ⟨after, looped, bounded, ends⟩
  · intro contained
    refine contained_of_succ atBody (by omega) fun count => ?_
    obtain ⟨after, looped, bounded, ends⟩ := contained count
    rw [← next] at looped
    rw [← sum] at ends
    exact ⟨after, looped, bounded, ends⟩

/-- From any point of the loop. -/
private theorem contained_iff_lands {chunks : List (List Byte)}
    (atBody : thread.pc = .body fileName size img offset) (allocated : img.length = size)
    (below : offset < size) (nonempty : ∀ chunk ∈ chunks, chunk ≠ []) {stop : Event}
    (stops : stop = .received [] ∨ stop = .failed) :
    thread.Contained backend junk size offset (chunks.map .received ++ [stop]) ↔
      Lands size offset chunks := by
  induction chunks generalizing thread img offset with
  | nil => exact iff_of_true (contained_stop atBody below stops) (lands_nil below)
  | cons chunk rest inductionHypothesis =>
      obtain ⟨some', restNonempty⟩ := List.forall_mem_cons.mp nonempty
      rw [List.map_cons, List.cons_append]
      rcases Nat.lt_trichotomy (offset + chunk.length) size with short | exact' | beyond
      · obtain ⟨after, filled, afterAt, kept, same⟩ :=
          @contained_short backend junk thread fileName img size offset atBody allocated chunk some'
            short (rest.map .received ++ [stop])
        rw [same, lands_short short]
        exact inductionHypothesis afterAt kept short restNonempty
      · refine iff_of_true (contained_exact atBody allocated below some' exact' ?_)
          (lands_exact below exact')
        intro event member success
        rcases List.mem_append.mp member with inRest | isStop
        · obtain ⟨other, -, rfl⟩ := List.mem_map.mp inRest
          exact nofun
        · rw [List.mem_singleton.mp isStop]
          rcases stops with rfl | rfl <;> exact nofun
      · exact iff_of_false (not_contained_beyond atBody allocated some' beyond _)
          (not_lands_beyond below beyond)

end Loop

/-- After the reply to a header with this size the loop stays inside the image
exactly when no chunk passes the announced size. -/
theorem contained_iff {backend : Backend} {junk : Nat → Byte} {thread body : Transmit}
    {fileName : List Byte} {size : Nat} (positive : 1 ≤ size)
    (replied : thread.tcpReply junk fileName size true = .ok body) (results : RecvResults) :
    body.Contained backend junk size 0 results.events ↔ Lands size 0 results.chunks := by
  have allocated : newArray junk size = .ok (uninitialised junk size) := by
    rw [newArray, if_neg (by omega), Int.toNat_natCast]
  simp only [tcpReply, if_true, allocated] at replied
  cases replied
  exact contained_iff_lands rfl (uninitialised_length junk size) positive results.nonempty
    results.stops

/-- Two bytes are announced. -/
def twoAnnounced : Transmit := ⟨.replying (ascii "a") 2, false, 1, [.register]⟩

/-- They arrive one by one, and more would be sent. -/
def twoChunks : RecvResults where
  chunks := [[1], [2], [3, 4]]
  nonempty := by decide
  stop := .failed
  stops := .inr rfl

theorem contained_iff_two : ∃ body,
    twoAnnounced.tcpReply (fun _ => 0) (ascii "a") 2 true = .ok body ∧
      body.Contained .disk (fun _ => 0) 2 0 twoChunks.events := by
  refine ⟨_, rfl, (contained_iff (by decide) rfl twoChunks).mpr ?_⟩
  intro count reached
  refine ⟨2, ?_, rfl⟩
  by_contra below
  have few : count = 0 ∨ count = 1 := by omega
  rcases few with rfl | rfl <;> exact absurd reached (by decide)

/-- One `recv` returns three bytes where two were announced. -/
theorem three_bytes_overrun : ∃ body,
    twoAnnounced.tcpReply (fun _ => 0) (ascii "a") 2 true = .ok body ∧
      ¬ body.Contained .disk (fun _ => 0) 2 0 [.received [1, 2, 3], .received []] := by
  refine ⟨twoAnnounced.emit [.reply] (.body (ascii "a") 2 [0, 0] 0), rfl, ?_⟩
  have atBody : (twoAnnounced.emit [.reply] (.body (ascii "a") 2 [0, 0] 0)).pc =
      .body (ascii "a") ((2 : Nat) : Int) [0, 0] 0 := rfl
  have some' : ([1, 2, 3] : List Byte) ≠ [] := by decide
  exact not_contained_beyond atBody rfl some' (by decide) _

end Transmit

end PaintingCPS
