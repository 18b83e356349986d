import PaintingCPS.Storm.Loop

/-!
Contract: the connections after which the spout can serve again.

An exception in a call leaves the port bound, and a connection that is closed
in the loop keeps the call in it.

Owns: how a call ends, and when it recovers.

Does not own: which image arrives.
-/

set_option autoImplicit false

namespace PaintingCPS

open Foundation

theorem Arrivals.read_le {arrivals rest : Arrivals} {buffer after : List Byte} {off len ret : Int}
    (read : arrivals.read buffer off len = .ok (ret, after, rest)) :
    rest.bytes.length ≤ arrivals.bytes.length := by
  unfold Arrivals.read at read
  split at read
  next => cases read
  next =>
    split at read
    next =>
      cases read
      exact Nat.le_refl _
    next =>
      cases arrivals with
      | closed =>
          cases read
          exact Nat.le_refl _
      | reset => cases read
      | portion first more later =>
          obtain ⟨written, -, returned⟩ := bind_eq_ok.mp read
          cases returned
          rw [bytes_behind, Arrivals.bytes, List.length_append, List.length_append,
            List.length_drop]
          omega

/-- The size field parses, and every byte of the image is read: the read that
finds at most 2048 bytes missing gets them all. -/
def Arrivals.Complete (parseInt : List Byte → Option Int32) (arrivals : Arrivals) : Prop :=
  ∃ ret receivedData rest fileSize,
    arrivals.read (List.replicate 100 0) 0 100 = .ok (ret, receivedData, rest) ∧
      parseInt receivedData = some fileSize ∧ 0 ≤ fileSize.toInt ∧
      (fileSize.toInt = 0 ∨ LoopReads fileSize.toInt.toNat rest fileSize.toInt.toNat)

/-- A size of one digit in a whole field, and what comes behind it. -/
def Arrivals.sized (digit : Byte) (rest : Arrivals) : Arrivals :=
  .portion digit (List.replicate 99 0) rest

/-- The call ends soon, emits only what was received, and releases the port. -/
structure NextTuple.Recovers (constant : Nat) (spout : Spout) (call : NextTuple) : Prop where
  ends : call.reads ≤ call.received + constant
  whole : call.emitted.isSome → call.announced = some (call.received : Int)
  counted : call.spout.index =
    if call.emitted.isSome then toInt32 (spout.index + 1) else spout.index
  released : call.spout.bound = false

/-- What completeness says of a field that is read and parsed. -/
theorem Arrivals.complete_iff {parseInt : List Byte → Option Int32} {arrivals rest : Arrivals}
    {ret : Int} {receivedData : List Byte} {fileSize : Int32}
    (read : arrivals.read (List.replicate 100 0) 0 100 = .ok (ret, receivedData, rest))
    (parsed : parseInt receivedData = some fileSize) :
    arrivals.Complete parseInt ↔ 0 ≤ fileSize.toInt ∧
      (fileSize.toInt = 0 ∨ LoopReads fileSize.toInt.toNat rest fileSize.toInt.toNat) := by
  constructor
  · rintro ⟨_, _, _, _, got, isParsed, complete⟩
    rw [read] at got
    cases got
    rw [parsed] at isParsed
    cases isParsed
    exact complete
  · exact fun complete => ⟨_, _, _, _, read, parsed, complete⟩

namespace Spout

variable {parseInt : List Byte → Option Int32} {passes : Nat} {spout : Spout}
variable {arrivals rest : Arrivals} {ret : Int} {receivedData : List Byte} {fileSize : Int32}

/-- A call that is caught leaves the port bound. -/
theorem not_recovers_caught (announced : Option Int) (reads received constant : Nat) :
    ¬ (spout.caught announced reads received).Recovers constant spout := by
  intro recovers
  cases recovers.released

/-- The call that emits what the loop has read. -/
def emits (spout : Spout) (fileSize : Int32) (receipt : Receipt) : NextTuple where
  spout := ⟨true, toInt32 (spout.index + 1), false⟩
  emitted := some (receipt.img, spout.index)
  datagrams := spout.here ++ [(ascii "spout", monitorPort)]
  announced := some fileSize.toInt
  reads := receipt.reads
  received := receipt.received

/-- A call that emits recovers exactly when the loop has read the whole image. -/
private theorem emits_recovers_iff {receipt : Receipt} {size got constant : Nat}
    (positive : 0 < constant) (natural : fileSize.toInt = size)
    (received : receipt.received = got) (counted : receipt.reads ≤ got + 1) :
    (spout.emits fileSize receipt).Recovers constant spout ↔ size = got := by
  constructor
  · intro recovers
    have whole := recovers.whole rfl
    rw [emits, received, natural] at whole
    simpa using whole
  · rintro rfl
    refine ⟨?_, fun _ => ?_, rfl, rfl⟩
    · rw [emits, received]
      dsimp only
      omega
    · rw [emits, received]
      exact congrArg some natural

/-- The calls that do not come to the loop. -/
theorem nextTuple_caught (parseInt : List Byte → Option Int32) (passes : Nat)
    (noLoop : spout.bound = true ∨ ∀ ret receivedData rest fileSize,
      arrivals.read (List.replicate 100 0) 0 100 = .ok (ret, receivedData, rest) →
        parseInt receivedData = some fileSize → fileSize.toInt < 0) :
    ∃ announced, spout.nextTuple parseInt passes arrivals = some (spout.caught announced 0 0) := by
  unfold nextTuple
  cases free : spout.bound with
  | true => exact ⟨none, rfl⟩
  | false =>
      rw [if_neg (by decide)]
      cases read : arrivals.read (List.replicate 100 0) 0 100 with
      | error fault => exact ⟨none, rfl⟩
      | ok result =>
          obtain ⟨ret, receivedData, rest⟩ := result
          dsimp only
          cases parsed : parseInt receivedData with
          | none => exact ⟨none, rfl⟩
          | some fileSize =>
              have negative := (noLoop.resolve_left (by simp [free])) _ _ _ _ read parsed
              exact ⟨some fileSize.toInt, if_pos negative⟩

/-- A size that is read and parsed leads to the loop. -/
theorem nextTuple_eq (free : spout.bound = false)
    (read : arrivals.read (List.replicate 100 0) 0 100 = .ok (ret, receivedData, rest))
    (parsed : parseInt receivedData = some fileSize) {size : Nat} (natural : fileSize.toInt = size)
    {receipt : Receipt} {fault : Option Fault}
    (looped : (Receipt.start size rest).loop size passes = some (receipt, fault)) :
    spout.nextTuple parseInt passes arrivals = some
      (if fault = none then spout.emits fileSize receipt
        else spout.caught (some fileSize.toInt) receipt.reads receipt.received) := by
  rw [nextTuple, free, if_neg (by decide), read]
  dsimp only
  rw [parsed]
  dsimp only
  rw [if_neg (by omega), natural, Int.toNat_natCast, looped]
  cases fault with
  | none => rw [if_pos rfl, emits, natural]
  | some fault => rw [if_neg (by simp)]

/-- The call recovers exactly when the port is free and the image arrives
whole. -/
theorem nextTuple_recovers (parseInt : List Byte → Option Int32) (spout : Spout)
    (arrivals : Arrivals) {constant passes : Nat} (positive : 0 < constant)
    (enough : 2 * arrivals.bytes.length + 3 ≤ passes) :
    ∃ call, spout.nextTuple parseInt passes arrivals = some call ∧
      (call.Recovers constant spout ↔
        spout.bound = false ∧ arrivals.Complete parseInt) := by
  by_cases noLoop : spout.bound = true ∨ ∀ ret receivedData rest fileSize,
      arrivals.read (List.replicate 100 0) 0 100 = .ok (ret, receivedData, rest) →
        parseInt receivedData = some fileSize → fileSize.toInt < 0
  · obtain ⟨announced, called⟩ := nextTuple_caught parseInt passes noLoop
    refine ⟨_, called, iff_of_false (not_recovers_caught announced 0 0 constant) ?_⟩
    rintro ⟨free, _, _, _, fileSize, read, parsed, natural, -⟩
    rcases noLoop with bound | negative
    · rw [free] at bound
      cases bound
    · exact absurd (negative _ _ _ _ read parsed) (Int.not_lt.mpr natural)
  · simp only [not_or, Bool.not_eq_true, not_forall, Int.not_lt] at noLoop
    obtain ⟨free, ret, receivedData, rest, fileSize, read, parsed, nonnegative⟩ := noLoop
    obtain ⟨size, natural⟩ := Int.eq_ofNat_of_zero_le nonnegative
    have int : size < 2147483648 := by
      have := fileSize.toInt_lt
      omega
    have fewer := Arrivals.read_le read
    have at' : (Receipt.start size rest).At size 0 := Receipt.start_at int
    have complete : (spout.bound = false ∧ arrivals.Complete parseInt) ↔
        size = 0 ∨ LoopReads size rest size := by
      rw [Arrivals.complete_iff read parsed, natural, Int.toNat_natCast]
      simp [free]
    rw [complete]
    by_cases empty : size = 0
    · subst empty
      obtain ⟨passes, rfl⟩ := Nat.exists_eq_add_of_le' (show 1 ≤ passes by omega)
      refine ⟨_, nextTuple_eq free read parsed natural (Receipt.loop_empty rest passes),
        iff_of_true ?_ (.inl rfl)⟩
      rw [if_pos rfl]
      exact (emits_recovers_iff positive natural rfl (Nat.le_refl 1)).mpr rfl
    · rcases at'.loop_cases (by omega) (show 2 * rest.bytes.length + 0 + 2 ≤ passes by omega) with
        ⟨got, reads⟩ | ⟨receipt, fault, looped⟩
      · obtain ⟨receipt, looped, -, received, counted⟩ := at'.loop_eq (by omega) reads
          (show rest.bytes.length < passes by omega)
        refine ⟨_, nextTuple_eq free read parsed natural looped, ?_⟩
        replace received : receipt.received = got := received.trans (Nat.zero_add got)
        replace counted : receipt.reads ≤ 0 + got + 1 := counted
        rw [if_pos rfl, emits_recovers_iff positive natural received (by omega)]
        constructor
        · rintro rfl
          exact .inr reads
        · exact fun complete => (reads.unique (complete.resolve_left empty)).symm
      · refine ⟨_, nextTuple_eq free read parsed natural looped, ?_⟩
        rw [if_neg (by simp)]
        refine iff_of_false (not_recovers_caught _ _ _ constant) ?_
        rintro (none' | reads)
        · exact empty none'
        · obtain ⟨after, ended, -⟩ := at'.loop_eq (by omega) reads
            (show rest.bytes.length < passes by omega)
          rw [looped] at ended
          cases ended

/-- Two bytes that arrive together serve the next call. -/
theorem nextTuple_recovers_two :
    ∃ call, (⟨false, 0, false⟩ : Spout).nextTuple Java.parseSize 300
        (.sized 50 (.portion 7 [9] .closed)) = some call ∧
      call.Recovers 1 ⟨false, 0, false⟩ := by
  have enough : 2 * (Arrivals.sized 50 (.portion 7 [9] .closed)).bytes.length + 3 ≤ 300 := by
    decide +kernel
  obtain ⟨call, called, recovers⟩ := nextTuple_recovers Java.parseSize ⟨false, 0, false⟩
    (.sized 50 (.portion 7 [9] .closed)) Nat.one_pos enough
  refine ⟨call, called, recovers.mpr ⟨rfl, _, _, _, 2, rfl, by decide +kernel, by decide, .inr ?_⟩⟩
  exact .last (show 2 ≤ 2048 by omega)

/-- The peer ends before the last byte, and an array is emitted; for a negative
size the port stays bound, and the next call serves nobody. -/
theorem nextTuple_fails :
    (∃ call, (⟨false, 0, false⟩ : Spout).nextTuple Java.parseSize 300
        (.sized 50 (.portion 7 [] .closed)) = some call ∧
      call.emitted = some ([7, 0], 0) ∧ call.announced = some 2 ∧ call.received = 1 ∧
      ∀ constant, ¬ call.Recovers constant ⟨false, 0, false⟩) ∧
    ∃ call, (⟨false, 0, false⟩ : Spout).nextTuple Java.parseSize 300
        (.portion 45 (49 :: List.replicate 98 0) .closed) = some call ∧
      call.spout.bound = true ∧
      (∀ arrivals, call.spout.nextTuple Java.parseSize 300 arrivals =
        some (call.spout.caught none 0 0)) ∧
      ∀ constant, ¬ call.Recovers constant ⟨false, 0, false⟩ := by
  constructor
  · refine ⟨⟨⟨true, 1, false⟩, some ([7, 0], 0),
      [(ascii "here", spoutFinderPort), (ascii "spout", monitorPort)], some 2, 1, 1⟩,
      by decide +kernel, rfl, rfl, rfl, fun constant recovers => ?_⟩
    have whole := recovers.whole rfl
    revert whole
    decide
  · exact ⟨(⟨false, 0, false⟩ : Spout).caught (some (-1)) 0 0, by decide +kernel, rfl,
      fun arrivals => rfl, fun constant => not_recovers_caught _ _ _ constant⟩

end Spout

end PaintingCPS
