import PaintingCPS.Foundation.CString

/-!
Contract: images as MobilityFirst messages, from `sendImage` of the client to
`recvImage` of the server.

The size is printed in front, and the image starts at byte 10 whatever was
printed. `recvImage` believes the size.

Owns: both methods, what a message is taken for, and the round trip.

Does not own: what `server_transmit` does with the image. The debug output is
absent.
-/

set_option autoImplicit false

namespace PaintingCPS

open Foundation

/-- The delimiter set `" ,"`. -/
def isSpaceOrComma (byte : Byte) : Bool := byte == 32 || byte == comma

namespace MFPackager

/-- Where the image starts in a message. -/
def imageStart : Nat := 10

/-- `sendImage`: the message for `mfsend`. -/
def sendImage (junk : Nat → Byte) (buf : List Byte) (bufSize : Int) :
    Except Fault (List Byte) := do
  if bufSize + imageStart ≤ 0 then .error .negativeSize
  else
    let tmp ← sprintf (uninitialised junk (bufSize + imageStart).toNat)
      (decimalInt bufSize ++ [comma])
    writeBytes tmp imageStart (← readBytes buf bufSize)

/-- `recvImage` after the receive call: `tmp` holds the message, and the image
is copied to `buf`. -/
def takeImage (tmp buf : List Byte) : Except Fault (Int × List Byte) := do
  let token ← deref (← strtok isSpaceOrComma tmp)
  let imgSize := toInt32 (strtol token.text)
  return (imgSize, ← writeBytes buf 0
    (← readBytes ((token.overwritten tmp).drop imageStart) imgSize))

/-- `recvImage`: the return value and the new contents of `buf`. `none` is a
failure of `mfrecv_blk`. -/
def recvImage (junk : Nat → Byte) (bufSize : Nat) (buf : List Byte) :
    Option (List Byte) → Except Fault (Int × List Byte)
  | none => .ok (-1, buf)
  | some message => takeImage (message ++ uninitialised junk (bufSize - message.length)) buf

/-! ## What `recvImage` makes of a message -/

section Take

variable {tmp buf before text tail : List Byte} {stop : Byte}

/-- The first token is the size, and the image is read from the overwritten
message. -/
theorem takeImage_eq (scanned : Scanned isSpaceOrComma tmp before text stop tail) :
    takeImage tmp buf = (do
      let bytes ← readBytes ((before ++ (text ++ nul :: tail)).drop imageStart)
        (toInt32 (strtol text))
      return (toInt32 (strtol text), ← writeBytes buf 0 bytes)) := by
  rw [takeImage, scanned.strtok]
  simp only [bind, Except.bind, deref_some, scanned.overwritten]

/-- `count` bytes of the memory behind byte 10 are copied to the front. -/
theorem takeImage_eq_ok (scanned : Scanned isSpaceOrComma tmp before text stop tail) {count : Nat}
    (size : toInt32 (strtol text) = count)
    (inside : imageStart + count ≤ (before ++ (text ++ nul :: tail)).length)
    (room : count ≤ buf.length) :
    takeImage tmp buf = .ok ((count : Int),
      ((before ++ (text ++ nul :: tail)).drop imageStart).take count ++ buf.drop count) := by
  have available : count ≤ ((before ++ (text ++ nul :: tail)).drop imageStart).length := by
    rw [List.length_drop]
    omega
  have taken : (((before ++ (text ++ nul :: tail)).drop imageStart).take count).length =
      count := by
    rw [List.length_take]
    omega
  rw [takeImage_eq scanned, size, readBytes_eq available]
  simp only [bind, Except.bind]
  rw [writeBytes_eq (by omega), List.take_zero, List.nil_append, taken, Nat.zero_add]
  rfl

end Take

/-! ## Round trip -/

section RoundTrip

variable {img : List Byte}

private theorem isSpaceOrComma_of_isDigit (byte : Byte) (digit : isDigit byte = true) :
    isSpaceOrComma byte = false := by
  simp only [isSpaceOrComma, Bool.or_eq_false_iff, beq_eq_false_iff_ne]
  exact ⟨isDigit_ne digit (by decide), isDigit_ne digit (by decide)⟩

/-- The message is the printed size, a comma, filler up to byte 10 if there is
room, and the image. -/
theorem sendImage_eq (small : img.length < 10 ^ 9) (junk : Nat → Byte) :
    ∃ filler, (decimal img.length ++ comma :: filler).length = imageStart ∧
      sendImage junk img img.length =
        .ok (decimal img.length ++ comma :: (filler ++ img)) := by
  have digits : (decimal img.length).length ≤ 9 := (decimal_length_le_iff (by decide)).mpr small
  have size : ((img.length : Int) + imageStart).toNat = img.length + imageStart := by omega
  have fits : (decimal img.length ++ [comma]).length <
      (uninitialised junk (img.length + imageStart)).length := by
    rw [uninitialised_length, List.length_append, List.length_singleton]
    by_cases empty : img.length = 0
    · rw [empty]
      decide
    · rw [imageStart]
      omega
  have read : readBytes img img.length = .ok img := by
    have whole := readBytes_append img []
    rwa [List.append_nil] at whole
  generalize rest : nul :: (uninitialised junk (img.length + imageStart)).drop
    ((decimal img.length ++ [comma]).length + 1) = behind at *
  have printed := sprintf_eq fits
  rw [rest] at printed
  have total : (decimal img.length ++ [comma] ++ behind).length = img.length + imageStart := by
    rw [uninitialised_length] at fits
    rw [← rest, List.length_append, List.length_cons, List.length_drop, uninitialised_length]
    omega
  have header : (decimal img.length ++ [comma]).length ≤ imageStart := by
    rw [List.length_append, List.length_singleton, imageStart]
    omega
  have start : (decimal img.length ++ [comma] ++ behind).take imageStart =
      decimal img.length ++ comma ::
        behind.take (imageStart - (decimal img.length ++ [comma]).length) := by
    rw [List.take_append, List.take_of_length_le header, List.append_assoc,
      List.singleton_append]
  refine ⟨behind.take (imageStart - (decimal img.length ++ [comma]).length), ?_, ?_⟩
  · rw [← start, List.length_take, total]
    omega
  · rw [sendImage, if_neg (by rw [imageStart]; omega), size, decimalInt_natCast, printed]
    simp only [bind, Except.bind, read]
    rw [writeBytes_eq (by omega), start, List.drop_of_length_le (by omega), List.append_nil,
      List.append_assoc, List.cons_append]

end RoundTrip

end MFPackager

open MFPackager in
/-- An image that fits next to its header arrives whole, whatever the filler
is, and nothing behind the message is read: the last conclusion is about memory
that ends with the message. -/
theorem recvImage_sendImage (bufSize : Nat) (low : 11 ≤ bufSize) (high : bufSize < 10 ^ 9)
    (img : List Byte) (fits : img.length ≤ bufSize - 10) (sendJunk recvJunk : Nat → Byte)
    (buf : List Byte) (room : buf.length = bufSize) :
    ∃ message, sendImage sendJunk img img.length = .ok message ∧
      message.length = img.length + 10 ∧
      recvImage recvJunk bufSize buf (some message) =
        .ok ((img.length : Int), img ++ buf.drop img.length) ∧
      takeImage message buf = .ok ((img.length : Int), img ++ buf.drop img.length) := by
  obtain ⟨filler, header, sent⟩ := sendImage_eq (show img.length < 10 ^ 9 by omega) sendJunk
  have scanned : Scanned isSpaceOrComma (decimal img.length ++ comma :: (filler ++ img)) []
      (decimal img.length) comma (filler ++ img) :=
    ⟨rfl, nofun, isField_decimal isSpaceOrComma_of_isDigit _, .inl rfl⟩
  have size : toInt32 (strtol (decimal img.length)) = img.length := by
    rw [strtol_decimal (by omega), toInt32_of_range (by omega) (by omega)]
  have replaced : (decimal img.length ++ nul :: filler).length = imageStart := by
    rw [← header, List.length_append, List.length_append, List.length_cons, List.length_cons]
  have taken : ∀ beyond : List Byte,
      takeImage (decimal img.length ++ comma :: (filler ++ img) ++ beyond) buf =
        .ok ((img.length : Int), img ++ buf.drop img.length) := by
    intro beyond
    have shape : ([] : List Byte) ++ (decimal img.length ++ nul :: (filler ++ img ++ beyond)) =
        (decimal img.length ++ nul :: filler) ++ (img ++ beyond) := by
      simp
    have behind : ((decimal img.length ++ nul :: filler) ++ (img ++ beyond)).drop imageStart =
        img ++ beyond := by
      rw [← replaced, List.drop_left]
    have took : takeImage _ buf = _ := takeImage_eq_ok (scanned.append beyond) size
      (by rw [shape, List.length_append, replaced, List.length_append]; omega) (by omega)
    rw [shape, behind, List.take_left] at took
    exact took
  refine ⟨_, sent, ?_, taken _, ?_⟩
  · rw [← List.cons_append, ← List.append_assoc, List.length_append, header, imageStart]
    omega
  · have alone := taken []
    rwa [List.append_nil] at alone

/-- The largest image for the smallest buffer. -/
theorem recvImage_sendImage_one :
    ∃ message, MFPackager.sendImage (fun _ => 65) [7] 1 = .ok message ∧
      message.length = 11 ∧
      MFPackager.recvImage (fun _ => 66) 11 (List.replicate 11 0) (some message) =
        .ok (1, 7 :: List.replicate 10 0) ∧
      MFPackager.takeImage message (List.replicate 11 0) =
        .ok (1, 7 :: List.replicate 10 0) :=
  recvImage_sendImage 11 (by decide) (by decide) [7] (by decide) (fun _ => 65) (fun _ => 66)
    (List.replicate 11 0) rfl

end PaintingCPS
