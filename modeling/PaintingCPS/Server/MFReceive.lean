import PaintingCPS.Server.Transmit

/-!
Contract: the messages that `recvImage` and its caller take without harm.

`recvImage` neither looks for a missing size nor compares the size with what
has arrived, and `server_transmit` does not look for a failure.

Owns: what is expected of both for any result of the receive call, and the
results for which it holds.

Does not own: the round trip.
-/

set_option autoImplicit false

namespace PaintingCPS

open Foundation

namespace MFPackager

/-- An image of the message is handed out, or it is refused. Memory that ends
with the message gives the same, so no byte outside is read. -/
def Tolerated (bufSize : Nat) (buf : List Byte) (received : Option (List Byte)) : Prop :=
  ∃ size after,
    (∀ junk, recvImage junk bufSize buf received = .ok (size, after)) ∧
    (∀ message ∈ received, takeImage message buf = .ok (size, after)) ∧
    ((0 ≤ size ∧ ∃ message ∈ received, size + imageStart ≤ message.length ∧
        after.take size.toNat = (message.drop imageStart).take size.toNat) ∨
      (size < 0 ∧ after = buf))

/-- The first field between spaces and commas is a size, the image behind byte
10 is there, and the byte that ends the field is not part of it. -/
def WellFormed (message : List Byte) : Prop :=
  ∃ before text stop tail, Scanned isSpaceOrComma message before text stop tail ∧
    ∃ size : Nat, toInt32 (strtol text) = size ∧ imageStart + size ≤ message.length ∧
      (stop = nul ∨ (before ++ text).length < imageStart ∨
        imageStart + size ≤ (before ++ text).length)

section Overwritten

variable {before tail : List Byte} {old new : Byte} {start count : Nat}

/-- Overwriting one byte is not seen in a range without it. -/
private theorem range_set (outside : before.length < start ∨ start + count ≤ before.length) :
    ((before ++ new :: tail).drop start).take count =
      ((before ++ old :: tail).drop start).take count := by
  rcases outside with early | late
  · have split : ∀ byte : Byte, before ++ byte :: tail = (before ++ [byte]) ++ tail := by simp
    have behind : ∀ byte : Byte, (before ++ byte :: tail).drop start =
        tail.drop (start - (before.length + 1)) := by
      intro byte
      have short : (before ++ [byte]).length = before.length + 1 := by simp
      rw [split byte, List.drop_append, List.drop_of_length_le (by omega), List.nil_append,
        short]
    rw [behind new, behind old]
  · have inside : count ≤ (before.drop start).length := by
      rw [List.length_drop]
      omega
    rw [List.drop_append_of_le_length (by omega), List.drop_append_of_le_length (by omega),
      List.take_append_of_le_length inside, List.take_append_of_le_length inside]

/-- Another byte in the range is seen. -/
private theorem outside_of_range (differ : new ≠ old)
    (same : ((before ++ new :: tail).drop start).take count =
      ((before ++ old :: tail).drop start).take count) :
    before.length < start ∨ start + count ≤ before.length := by
  by_contra inside
  rw [not_or, Nat.not_lt, Nat.not_le] at inside
  obtain ⟨from', to'⟩ := inside
  have at' : ∀ byte : Byte,
      (((before ++ byte :: tail).drop start).take count)[before.length - start]? =
        some byte := by
    intro byte
    rw [List.getElem?_take_of_lt (by omega), List.getElem?_drop,
      show start + (before.length - start) = before.length by omega,
      List.getElem?_append_right (Nat.le_refl _), Nat.sub_self]
    rfl
  have found := congrArg (fun bytes => bytes[before.length - start]?) same
  simp only [at', Option.some.injEq] at found
  exact differ found

end Overwritten

section Tolerated

variable {bufSize : Nat} {buf : List Byte}

theorem WellFormed.tolerated {message : List Byte} (wellFormed : WellFormed message)
    (room : buf.length = bufSize) (fits : message.length ≤ bufSize) :
    Tolerated bufSize buf (some message) := by
  obtain ⟨before, text, stop, tail, scanned, size, value, inside, kept⟩ := wellFormed
  have same : ((before ++ (text ++ nul :: tail)).drop imageStart).take size =
      (message.drop imageStart).take size := by
    rw [scanned.split, ← List.append_assoc, ← List.append_assoc]
    rcases kept with isNul | outside
    · rw [isNul]
    · exact range_set outside
  have length : (before ++ (text ++ nul :: tail)).length = message.length := by
    rw [scanned.split]
    simp only [List.length_append, List.length_cons]
  have taken : ∀ beyond : List Byte, takeImage (message ++ beyond) buf =
      .ok ((size : Int), (message.drop imageStart).take size ++ buf.drop size) := by
    intro beyond
    have shape : before ++ (text ++ nul :: (tail ++ beyond)) =
        (before ++ (text ++ nul :: tail)) ++ beyond := by simp
    rw [takeImage_eq_ok (scanned.append beyond) value
      (by rw [shape, List.length_append, length]; omega)
      (by rw [imageStart] at inside; omega), shape,
      List.drop_append_of_le_length (by omega),
      List.take_append_of_le_length (by rw [List.length_drop]; omega), same]
  refine ⟨size, _, fun junk => taken _, ?_, .inl ⟨by omega, message, rfl, by omega, ?_⟩⟩
  · rintro other ⟨⟩
    have alone := taken []
    rwa [List.append_nil] at alone
  · have available : ((message.drop imageStart).take size).length = size := by
      rw [List.length_take, List.length_drop]
      omega
    rw [Int.toNat_natCast, List.take_append_of_le_length (by omega),
      List.take_of_length_le (by omega)]

theorem wellFormed_of_tolerated {message : List Byte}
    (tolerated : Tolerated bufSize buf (some message)) : WellFormed message := by
  obtain ⟨size, after, -, alone, outcome⟩ := tolerated
  have took := alone message rfl
  obtain ⟨found, scan, rest⟩ := bind_eq_ok.mp took
  cases found with
  | none => cases rest
  | some token =>
      obtain ⟨before, stop, scanned, -⟩ := exists_scanned scan
      rw [takeImage_eq scanned] at took
      obtain ⟨bytes, read, returned⟩ := bind_eq_ok.mp took
      obtain ⟨written, wrote, ends⟩ := bind_eq_ok.mp returned
      cases ends
      obtain ⟨count, value, -, rfl⟩ := readBytes_eq_ok read
      rw [value] at outcome
      rcases outcome with ⟨-, other, held, inside, image⟩ | ⟨negative, -⟩
      · cases held
        refine ⟨before, token.text, stop, token.tail, scanned, count, value, by omega, ?_⟩
        by_cases isNul : stop = nul
        · exact .inl isNul
        · refine .inr (@outside_of_range _ token.tail _ _ _ _ (Ne.symm isNul) ?_)
          unfold writeBytes at wrote
          split at wrote
          next => cases wrote
          next =>
            cases wrote
            have available : count ≤ (((before ++ (token.text ++ nul :: token.tail)).drop
                imageStart).take count).length := by
              rw [scanned.split] at inside
              simp only [List.length_append, List.length_cons] at inside
              simp only [List.length_take, List.length_drop, List.length_append,
                List.length_cons]
              omega
            rw [Int.toNat_natCast, List.take_zero, List.nil_append,
              List.take_append_of_le_length available,
              List.take_of_length_le (List.length_take_le _ _), scanned.split,
              ← List.append_assoc, ← List.append_assoc] at image
            exact image
      · omega

end Tolerated

end MFPackager

/-- The event that the receive call is for `server_transmit`. -/
def Event.ofReceived : Option (List Byte) → Event
  | none => .failed
  | some message => .received message

/-- `server_transmit` does not go on to submit an image of negative size. -/
def Transmit.Heeds (received : Option (List Byte)) : Prop :=
  ∀ (backend : Backend) (junk : Nat → Byte) (thread after : Transmit) (fileName : List Byte)
    (fileSize : Int) (img : List Byte), thread.pc = .header →
    thread.step .mf backend junk (.ofReceived received) = some (.ok after) →
    after.pc = .submitting fileName fileSize img → 0 ≤ fileSize

namespace Transmit

/-- A size that `memcpy` accepts is not negative. -/
theorem heeds_message (message : List Byte) : Heeds (some message) := by
  intro backend junk thread after fileName fileSize img atHeader step submits
  simp only [Transmit.step, atHeader, Event.ofReceived, mfReceive, Option.some.injEq] at step
  obtain ⟨⟨size, filled⟩, taken, finished⟩ := bind_eq_ok.mp step
  cases finished
  obtain ⟨-, rfl, -⟩ := TransmitPc.submitting.inj submits
  obtain ⟨found, -, rest⟩ := bind_eq_ok.mp taken
  obtain ⟨token, -, copied⟩ := bind_eq_ok.mp rest
  obtain ⟨bytes, read, returned⟩ := bind_eq_ok.mp copied
  obtain ⟨written, -, ends⟩ := bind_eq_ok.mp returned
  cases ends
  obtain ⟨count, value, -, -⟩ := readBytes_eq_ok read
  rw [value]
  exact Int.natCast_nonneg count

/-- The failure of a receive call is taken for an image of size -1. -/
theorem not_heeds_failure : ¬ Heeds none := by
  intro heeds
  have negative := heeds .disk (fun _ => 0) ⟨.header, false, 1, []⟩ _ _ _ _ rfl rfl rfl
  exact absurd negative (by decide)

end Transmit

open MFPackager in
/-- Whatever the receive call returned: an image is handed out or refused, and
no image of negative size is submitted, exactly when a well-formed message has
arrived. -/
theorem recvImage_tolerates (bufSize : Nat) (buf : List Byte) (room : buf.length = bufSize)
    (received : Option (List Byte)) (fits : ∀ message ∈ received, message.length ≤ bufSize) :
    (Tolerated bufSize buf received ∧ Transmit.Heeds received) ↔
      ∃ message ∈ received, WellFormed message := by
  cases received with
  | none =>
      refine ⟨fun claimed => absurd claimed.2 Transmit.not_heeds_failure, ?_⟩
      rintro ⟨message, member, -⟩
      cases member
  | some message =>
      constructor
      · rintro ⟨tolerated, -⟩
        exact ⟨message, rfl, wellFormed_of_tolerated tolerated⟩
      · rintro ⟨other, member, wellFormed⟩
        cases member
        exact ⟨wellFormed.tolerated room (fits message rfl), Transmit.heeds_message message⟩

open MFPackager in
/-- A whole message of one byte. -/
theorem recvImage_tolerates_one :
    (Tolerated 11 (List.replicate 11 0) (some (ascii "1,-------" ++ [0, 7])) ∧
        Transmit.Heeds (some (ascii "1,-------" ++ [0, 7]))) ↔
      ∃ message ∈ some (ascii "1,-------" ++ [0, 7]), WellFormed message :=
  recvImage_tolerates 11 (List.replicate 11 0) rfl _ (by decide)

open MFPackager in
/-- An image of 20 bytes that was cut at the capacity: 20 bytes are copied, and
10 have arrived. -/
theorem recvImage_reads_beyond :
    ¬ ∀ (bufSize : Nat) (buf : List Byte) (received : Option (List Byte)),
      buf.length = bufSize → (∀ message ∈ received, message.length ≤ bufSize) →
      Tolerated bufSize buf received ∧ Transmit.Heeds received := by
  intro claimed
  have cut := claimed 20 (List.replicate 20 0)
    ((sendImage (fun _ => 0) (List.replicate 20 7) 20).toOption.map (List.take 20))
    List.length_replicate (by decide +kernel)
  obtain ⟨size, after, -, alone, -⟩ := cut.1
  have message : (sendImage (fun _ => 0) (List.replicate 20 7) 20).toOption.map (List.take 20) =
      some (ascii "20," ++ List.replicate 7 0 ++ List.replicate 10 7) := by decide +kernel
  have took := alone _ message
  have faults : takeImage (ascii "20," ++ List.replicate 7 0 ++ List.replicate 10 7)
      (List.replicate 20 0) = .error .outOfBounds := by decide +kernel
  rw [faults] at took
  cases took

end PaintingCPS
