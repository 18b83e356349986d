import PaintingCPS.MsgDistributor.Receiving
import PaintingCPS.Results.Display
import PaintingCPS.Storm.Spout

/-!
Contract: results from the two places that encode them to the two clients that
decode them.

`result_child` prints the index itself; the Storm branch of `server_result`
copies the text that came from Storm. The C++ client takes tokens from its
buffer; JClient trims and splits a padded array, whose bytes it reads as
characters of an ASCII-compatible charset.

Owns: the Storm branch, JClient's decoder, and the agreement of all four.

Does not own: transport, and info lines of another form.
-/

set_option autoImplicit false

namespace PaintingCPS

open Foundation

/-! ## Encoders -/

/-- `std::stoi`: an exception without a number in front, or outside `int`. -/
def stoi (text : List Byte) : Except Fault Int :=
  let number := text.dropWhile isSpace
  let digits := if number.head? = some 45 ∨ number.head? = some 43 then number.tail else number
  if digits.takeWhile isDigit = [] then .error .uncaughtException
  else if -2147483648 ≤ strtol text ∧ strtol text < 2147483648 then .ok (strtol text)
  else .error .uncaughtException

/-- `result_child` from the end of the match on: what it sends. -/
def Local.resultMessage (junk : Nat → Byte) (getInfo : Int → List Byte) (matchedIndex : Int) :
    Except Fault (List Byte) :=
  if matchedIndex = 0 then .ok ServerResult.defMsg
  else
    sprintf (uninitialised junk ResultWriter.resultChild.size)
      (ServerResult.text (getInfo matchedIndex) matchedIndex)

namespace Storm

/-- What `matchImg` returns for an index. -/
def matchText (matched : Int) : List Byte := decimalInt matched ++ ascii ",0,0,0,0,0,0,0,0,"

/-- The Storm branch of `server_result` with what it received: what it sends. -/
def resultMessage (junk : Nat → Byte) (getInfo : Int → List Byte) (buf : List Byte) :
    Except Fault (List Byte) := do
  let numbers := cString buf
  let indexString ← deref (← strtok isComma buf)
  let matchedIndex ← stoi indexString.text
  if matchedIndex = 0 then return ServerResult.defMsg
  else
    sprintf (uninitialised junk ResultWriter.stormBranch.size)
      (cString (getInfo matchedIndex) ++ comma :: numbers)

end Storm

/-- The message for a matched index, 0 without a match. The Storm branch zeroes
its buffer and receives the text into it. -/
def ResultWriter.write (junk : Nat → Byte) (getInfo : Int → List Byte) (matched : Int) :
    ResultWriter → Except Fault (List Byte)
  | resultChild => Local.resultMessage junk getInfo matched
  | stormBranch =>
      Storm.resultMessage junk getInfo (padded bufferSize (Storm.matchText matched))

/-! ## JClient -/

/-- `ResultThread` with a received array: what it offers to the queue. -/
def JClient.offered (buf : List Byte) : Except Fault (List Byte) := do
  let tokens := Java.split (Java.trim buf)
  let first ← Java.token tokens 0
  if first = ascii "none" then return ascii "none"
  else
    let second ← Java.token tokens 1
    let third ← Java.token tokens 2
    return first ++ comma :: (second ++ comma :: third)

/-! ## Info lines -/

/-- A title, an artist and a date. The title does not begin with a space or a
control character and is not `none`. -/
structure InfoLine where
  title : List Byte
  artist : List Byte
  date : List Byte
  titleField : IsField isComma title
  artistField : IsField isComma artist
  dateField : IsField isComma date
  named : title ≠ ascii "none"
  visible : ∀ first ∈ title.head?, 32 < first

namespace InfoLine

def bytes (line : InfoLine) : List Byte :=
  line.title ++ comma :: (line.artist ++ comma :: line.date)

/-- The globals of the C++ client when this line is shown. -/
def view {Value : Type} [Zero Value] (line : InfoLine) (matched : Int) : ResultView Value where
  drawResult := 1
  resultTitle := ascii "Title: " ++ line.title
  resultArtist := ascii "Artist: " ++ line.artist
  resultDate := ascii "Date: " ++ line.date
  matchIndex := decimalInt matched
  coord _ := 0

variable (line : InfoLine)

theorem bytes_clean : nul ∉ line.bytes := by
  have clean : ∀ {text : List Byte}, IsField isComma text → nul ∉ text :=
    fun field member => (field.2 nul member).2 rfl
  intro member
  rcases List.mem_append.mp member with inTitle | rest
  · exact clean line.titleField inTitle
  · rcases List.mem_cons.mp rest with separator | more
    · exact absurd separator (by decide)
    · rcases List.mem_append.mp more with inArtist | last
      · exact clean line.artistField inArtist
      · rcases List.mem_cons.mp last with separator | inDate
        · exact absurd separator (by decide)
        · exact clean line.dateField inDate

theorem fields_bytes : fields isComma line.bytes = [line.title, line.artist, line.date] := by
  rw [bytes, fields_append _ isComma_comma, fields_append _ isComma_comma,
    fields_field line.titleField, fields_field line.artistField, fields_field line.dateField]
  rfl

/-- The fields of a message: the line, the index, eight zeros. -/
theorem fields_text (matched : Int) :
    fields isComma (ServerResult.text line.bytes matched) =
      [line.title, line.artist, line.date, decimalInt matched] ++ List.replicate 8 (ascii "0") := by
  have zeros : fields isComma (ascii "0,0,0,0,0,0,0,0,") = List.replicate 8 (ascii "0") := by
    decide +kernel
  have whole : line.bytes.takeWhile (fun byte => byte != nul) = line.bytes :=
    cString_of_notMem line.bytes_clean
  rw [ServerResult.text, whole, fields_append _ isComma_comma, fields_append _ isComma_comma,
    line.fields_bytes, fields_field (isField_decimalInt matched), zeros]
  rfl

end InfoLine

/-! ## Both encoders -/

/-- `stoi` reads an index back. -/
theorem stoi_decimalInt {matched : Int} (nonnegative : 0 ≤ matched) (int : matched < 2147483648) :
    stoi (decimalInt matched) = .ok matched := by
  obtain ⟨value, rfl⟩ := Int.eq_ofNat_of_zero_le nonnegative
  rw [decimalInt_natCast]
  obtain ⟨first, rest, shape⟩ := List.exists_cons_of_ne_nil (decimal_ne_nil value)
  have member : first ∈ decimal value := by rw [shape]; simp
  have digit : isDigit first = true := isDigit_of_mem_decimal member
  have notSpace : isSpace first = false := isSpace_of_isDigit digit
  have number : (decimal value).dropWhile isSpace = decimal value := by
    rw [shape, List.dropWhile_cons_of_neg (by simp [notSpace])]
  have unsigned : ¬ ((decimal value).head? = some 45 ∨ (decimal value).head? = some 43) := by
    rw [shape, List.head?_cons, Option.some.injEq, Option.some.injEq]
    rintro (minus | plus)
    · exact isDigit_ne digit (by decide) minus
    · exact isDigit_ne digit (by decide) plus
  have digits : (decimal value).takeWhile isDigit ≠ [] := by
    rw [shape, List.takeWhile_cons_of_pos digit]
    exact List.cons_ne_nil _ _
  have read : strtol (decimal value) = value := strtol_decimal (by omega)
  simp only [stoi, number, if_neg unsigned, if_neg digits, read]
  rw [if_pos ⟨by omega, int⟩]

/-- From the text that Storm sends, the Storm branch makes the message of
`result_child` in a larger array. -/
theorem Storm.resultMessage_eq (junk : Nat → Byte) (getInfo : Int → List Byte) {matched : Int}
    (nonnegative : 0 ≤ matched) (int : matched < 2147483648) :
    Storm.resultMessage junk getInfo (padded bufferSize (Storm.matchText matched)) =
      if matched = 0 then .ok ServerResult.defMsg
      else
        sprintf (uninitialised junk ResultWriter.stormBranch.size)
          (ServerResult.text (getInfo matched) matched) := by
  have separated : Storm.matchText matched =
      decimalInt matched ++ comma :: ascii "0,0,0,0,0,0,0,0," := rfl
  have clean : nul ∉ Storm.matchText matched := by
    rw [separated]
    intro member
    rcases List.mem_append.mp member with inIndex | zeros
    · exact notMem_decimalInt (by decide) (by decide) matched inIndex
    · exact absurd zeros (by decide)
  have numbers : cString (padded bufferSize (Storm.matchText matched)) =
      Storm.matchText matched := by
    rw [cString_padded, cString_of_notMem clean]
  have first : ∃ tail, strtok isComma (padded bufferSize (Storm.matchText matched)) =
      .ok (some ⟨decimalInt matched, tail, tail⟩) := by
    rw [padded, separated, List.append_assoc, List.cons_append]
    exact ⟨_, strtok_delimited (isField_decimalInt matched) isComma_comma (by decide) _⟩
  obtain ⟨tail, first⟩ := first
  rw [Storm.resultMessage, first, numbers]
  change (stoi (decimalInt matched) >>= _) = _
  rw [stoi_decimalInt nonnegative int]
  rfl

/-- Every encoder sends the result of its match. -/
theorem ResultWriter.write_eq (junk : Nat → Byte) (getInfo : Int → List Byte) {matched : Int}
    (nonnegative : 0 ≤ matched) (int : matched < 2147483648) (writer : ResultWriter) :
    writer.write junk getInfo matched =
      if matched = 0 then ServerResult.bytes junk .notMatched
      else ServerResult.bytes junk (.matched writer (getInfo matched) matched) := by
  cases writer with
  | resultChild => rfl
  | stormBranch => exact Storm.resultMessage_eq junk getInfo nonnegative int

/-! ## JClient's decoder -/

section Java

/-- What is behind a visible text stays behind it. -/
theorem Java.trim_append {text : List Byte} (starts : ∀ first ∈ text.head?, 32 < first)
    (ends : ∀ last ∈ text.getLast?, 32 < last) (some' : text ≠ []) (rest : List Byte) :
    Java.trim (text ++ rest) = text ++ (rest.reverse.dropWhile (· ≤ 32)).reverse := by
  obtain ⟨first, more, rfl⟩ := List.exists_cons_of_ne_nil some'
  have firstVisible := starts first rfl
  have front : (first :: more ++ rest).dropWhile (· ≤ 32) = first :: more ++ rest :=
    List.dropWhile_cons_of_neg (by simpa using firstVisible)
  have back : (first :: more).reverse.dropWhile (· ≤ 32) = (first :: more).reverse := by
    cases shape : (first :: more).reverse with
    | nil => rfl
    | cons last others =>
        have lastVisible : 32 < last := by
          apply ends last
          rw [← List.head?_reverse, shape]
          rfl
        exact List.dropWhile_cons_of_neg (by simpa using lastVisible)
  rw [Java.trim, front, List.reverse_append, List.dropWhile_append, back]
  split
  next none => rw [List.isEmpty_iff.mp none, List.reverse_reverse]; simp
  next => rw [List.reverse_append, List.reverse_reverse]

/-- The first three tokens of a message with three non-empty fields. -/
theorem Java.split_three {first second third : List Byte} (firstField : IsField isComma first)
    (secondField : IsField isComma second) (thirdField : IsField isComma third)
    (rest : List Byte) :
    ∃ more, Java.split (first ++ comma :: (second ++ comma :: (third ++ comma :: rest))) =
      first :: second :: third :: more := by
  have plain : ∀ {text : List Byte}, IsField isComma text → comma ∉ text := by
    intro text field member
    have notComma := (field.2 comma member).1
    rw [isComma_comma] at notComma
    cases notComma
  refine ⟨dropTrailingEmpty (splitComma rest), ?_⟩
  rw [Java.split, splitComma_field (plain firstField), splitComma_field (plain secondField),
    splitComma_field (plain thirdField), dropTrailingEmpty_cons firstField.1,
    dropTrailingEmpty_cons secondField.1, dropTrailingEmpty_cons thirdField.1]

/-- A message in JClient's array, with the zeros it is created with. -/
theorem filled_zeros {message : List Byte} (fits : message.length ≤ bufferSize) :
    filled (List.replicate bufferSize 0) message bufferSize = padded bufferSize message := by
  rw [filled, Int.toNat_natCast, List.take_of_length_le fits, Nat.min_eq_left fits,
    List.drop_replicate, padded]

/-- JClient takes the line out of any array that starts with the message. -/
theorem InfoLine.offered (line : InfoLine) (matched : Int) (beyond : List Byte) :
    JClient.offered (ServerResult.text line.bytes matched ++ beyond) = .ok line.bytes := by
  have whole : line.bytes.takeWhile (fun byte => byte != nul) = line.bytes :=
    cString_of_notMem line.bytes_clean
  have shape : ServerResult.text line.bytes matched = line.title ++ comma ::
      (line.artist ++ comma :: (line.date ++ comma ::
        (decimalInt matched ++ comma :: ascii "0,0,0,0,0,0,0,0,"))) := by
    rw [ServerResult.text, whole, InfoLine.bytes]
    simp
  obtain ⟨first, more, title⟩ := List.exists_cons_of_ne_nil line.titleField.1
  have starts : ∀ byte ∈ (ServerResult.text line.bytes matched).head?, 32 < byte := by
    have visible := line.visible
    rw [shape, title] at *
    exact visible
  have ends : ∀ byte ∈ (ServerResult.text line.bytes matched).getLast?, 32 < byte := by
    have last : (ServerResult.text line.bytes matched).getLast? = some comma := by
      have split : ServerResult.text line.bytes matched = (line.title ++ comma ::
          (line.artist ++ comma :: (line.date ++ comma ::
            (decimalInt matched ++ comma :: ascii "0,0,0,0,0,0,0,0")))) ++ [comma] := by
        rw [shape]
        have zeros : ascii "0,0,0,0,0,0,0,0," = ascii "0,0,0,0,0,0,0,0" ++ [comma] := by decide
        rw [zeros]
        simp
      rw [split, List.getLast?_concat]
    intro byte member
    rw [last] at member
    cases member
    decide
  have some' : ServerResult.text line.bytes matched ≠ [] := by
    rw [shape, title]
    exact List.cons_ne_nil _ _
  rw [JClient.offered, Java.trim_append starts ends some', shape]
  simp only [List.append_assoc, List.cons_append]
  obtain ⟨tokens, split⟩ := Java.split_three line.titleField line.artistField line.dateField
    (decimalInt matched ++ comma :: (ascii "0,0,0,0,0,0,0,0," ++
      (beyond.reverse.dropWhile (· ≤ 32)).reverse))
  rw [split]
  have named : line.title ≠ ascii "none" := line.named
  simp only [Java.token, List.getElem?_cons_zero, List.getElem?_cons_succ, bind, Except.bind,
    if_neg named]
  rfl

/-- JClient recognises `none` in its array of zeros. -/
theorem offered_none (zeros : Nat) :
    JClient.offered (ServerResult.defMsg ++ List.replicate zeros 0) = .ok (ascii "none") := by
  have blank : ((nul :: List.replicate zeros 0).reverse.dropWhile (· ≤ 32) : List Byte) = [] := by
    apply List.dropWhile_eq_nil_iff.mpr
    intro byte member
    rcases List.mem_cons.mp (List.mem_reverse.mp member) with rfl | zero
    · decide
    · rw [List.eq_of_mem_replicate zero]
      decide
  have starts : ∀ first ∈ (ascii "none").head?, 32 < first := by
    rintro first ⟨⟩
    decide
  have ends : ∀ last ∈ (ascii "none").getLast?, 32 < last := by
    rintro last ⟨⟩
    decide
  have trimmed : Java.trim (ServerResult.defMsg ++ List.replicate zeros 0) = ascii "none" := by
    rw [ServerResult.defMsg, List.append_assoc, List.singleton_append,
      Java.trim_append starts ends (by decide), blank]
    rfl
  rw [JClient.offered, trimmed]
  decide +kernel

end Java

/-! ## The C++ client's decoder -/

section Cpp

variable {Value : Type} {atof : List Byte → Value}

/-- The client shows nothing for `none`. -/
theorem receive_none (view : ResultView Value) (beyond : List Byte) :
    view.receive atof (ServerResult.defMsg ++ beyond) = (view.cleared, none) :=
  if_pos (List.take_left' (by decide))

variable [Zero Value]

/-- The client shows the line, whatever follows the message in its buffer. -/
theorem InfoLine.received (zero : atof (ascii "0") = 0) (line : InfoLine) {matched : Int}
    {writer : ResultWriter} {junk : Nat → Byte} {message : List Byte}
    (fits : (ServerResult.text line.bytes matched).length < writer.size)
    (written : ServerResult.bytes junk (.matched writer line.bytes matched) = .ok message)
    (view : ResultView Value) (beyond : List Byte) :
    view.receive atof (message ++ beyond) = (line.view matched, none) := by
  have whole : line.bytes.takeWhile (fun byte => byte != nul) = line.bytes :=
    cString_of_notMem line.bytes_clean
  have complete : (ServerResult.matched writer line.bytes matched).Complete := by
    refine ⟨?_, fits⟩
    rw [whole, line.fields_bytes]
    exact Nat.le_refl 3
  have shows := ServerResult.showResult_bytes complete written beyond
  have received := @ResultView.receive_eq Value atof view (message ++ beyond)
  rw [shows, ServerResult.display, line.fields_text matched] at received
  have tokens : ResultView.shown atof (([line.title, line.artist, line.date,
      decimalInt matched] ++ List.replicate 8 (ascii "0")).take 12) = line.view matched := by
    apply ResultView.ext
    case drawResult => rfl
    case resultTitle => rfl
    case resultArtist => rfl
    case resultDate => rfl
    case matchIndex => rfl
    case coord =>
      funext i
      fin_cases i <;> exact zero
  rw [← tokens]
  exact received

end Cpp

/-- Both encoders send the same C string for a match, from which both clients
take the line, and `none` without a match, which both recognise. -/
theorem result_messages_decode {Value : Type} [Zero Value] {atof : List Byte → Value}
    (zero : atof (ascii "0") = 0) (line : InfoLine) {getInfo : Int → List Byte} {matched : Int}
    (positive : 1 ≤ matched) (int : matched < 2147483648)
    (info : getInfo matched = line.bytes) :
    (∀ (writer : ResultWriter) (junk : Nat → Byte),
      (ServerResult.text line.bytes matched).length < writer.size →
      ∃ message, writer.write junk getInfo matched = .ok message ∧
        cString message = ServerResult.text line.bytes matched ∧
        (∀ (view : ResultView Value) (beyond : List Byte),
          view.receive atof (message ++ beyond) = (line.view matched, none)) ∧
        JClient.offered (filled (List.replicate bufferSize 0) message bufferSize) =
          .ok line.bytes) ∧
    (∀ (childJunk stormJunk : Nat → Byte) (child storm : List Byte),
      ResultWriter.resultChild.write childJunk getInfo matched = .ok child →
      ResultWriter.stormBranch.write stormJunk getInfo matched = .ok storm →
      cString child = cString storm) ∧
    ∀ (writer : ResultWriter) (junk : Nat → Byte), ∃ message,
      writer.write junk getInfo 0 = .ok message ∧
        (∀ (view : ResultView Value) (beyond : List Byte),
          view.receive atof (message ++ beyond) = (view.cleared, none)) ∧
        JClient.offered (filled (List.replicate bufferSize 0) message bufferSize) =
          .ok (ascii "none") := by
  have writes : ∀ (writer : ResultWriter) (junk : Nat → Byte),
      writer.write junk getInfo matched =
        ServerResult.bytes junk (.matched writer line.bytes matched) := by
    intro writer junk
    rw [writer.write_eq junk getInfo (by omega) int, if_neg (by omega), info]
  refine ⟨?_, ?_, ?_⟩
  · intro writer junk fits
    have room : (ServerResult.text line.bytes matched).length <
        (uninitialised junk writer.size).length := by
      rw [uninitialised_length]
      exact fits
    have written : ServerResult.bytes junk (.matched writer line.bytes matched) = .ok _ :=
      sprintf_eq room
    have small := ServerResult.bytes_length written
    refine ⟨_, (writes writer junk).trans written, cString_append ServerResult.text_clean _,
      line.received zero fits written, ?_⟩
    rw [filled_zeros small, padded, List.append_assoc]
    exact line.offered matched _
  · intro childJunk stormJunk child storm childWritten stormWritten
    rw [writes] at childWritten stormWritten
    obtain ⟨childRest, rfl⟩ := sprintf_ok childWritten
    obtain ⟨stormRest, rfl⟩ := sprintf_ok stormWritten
    rw [cString_append ServerResult.text_clean, cString_append ServerResult.text_clean]
  · intro writer junk
    refine ⟨ServerResult.defMsg, ?_, receive_none, ?_⟩
    · rw [writer.write_eq junk getInfo (Int.le_refl 0) (by decide), if_pos rfl]
      rfl
    · rw [filled_zeros (by decide), padded]
      exact offered_none _

/-- A line of three letters. -/
def shortLine : InfoLine where
  title := ascii "t"
  artist := ascii "p"
  date := ascii "y"
  titleField := by decide
  artistField := by decide
  dateField := by decide
  named := by decide
  visible := by
    rintro first ⟨⟩
    decide

theorem result_messages_decode_short : ∃ message,
    ResultWriter.resultChild.write (fun _ => 44) (fun _ => shortLine.bytes) 7 = .ok message ∧
      JClient.offered (filled (List.replicate bufferSize 0) message bufferSize) =
        .ok (ascii "t,p,y") := by
  have zero : strtol (ascii "0") = 0 := by decide +kernel
  have seven : (1 : Int) ≤ 7 ∧ (7 : Int) < 2147483648 := by decide
  have decoded := @result_messages_decode Int _ strtol zero shortLine (fun _ => shortLine.bytes) 7
    seven.1 seven.2 rfl
  have fits : (ServerResult.text shortLine.bytes 7).length < ResultWriter.resultChild.size := by
    decide +kernel
  obtain ⟨message, written, -, -, offered⟩ := decoded.1 .resultChild (fun _ => 44) fits
  exact ⟨message, written, offered⟩

end PaintingCPS
