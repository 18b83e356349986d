import Mathlib.Data.Fintype.Basic
import Mathlib.Data.List.FinRange
import Mathlib.Tactic.FinCases
import PaintingCPS.Foundation.Blocks
import PaintingCPS.Foundation.IntStream
import PaintingCPS.Results.Framing

/-!
Contract: what one received result does to the globals of the C++ client.

`result_thread` assigns to the globals token by token, so a fault leaves those
of the earlier tokens changed. The conversion `atof` is a parameter: it is
total, and only its values are stored.

Owns: the assignments, the line of an info file that the server sends, and the
exact messages that the client gets through.

Does not own: when results arrive, and how they are drawn.
-/

set_option autoImplicit false

namespace PaintingCPS

open Foundation

/-- The globals that the display reads. `coord` holds eight numbers. -/
@[ext]
structure ResultView (Value : Type) where
  drawResult : Int
  resultTitle : List Byte
  resultArtist : List Byte
  resultDate : List Byte
  matchIndex : List Byte
  coord : Fin 8 → Value

namespace ResultView

variable {Value : Type}

/-- What `strtok` returned is assigned, call by call. -/
def takeTokens : List (List Byte → ResultView Value → ResultView Value) → List Byte →
    ResultView Value → ResultView Value × Option Fault
  | [], _, view => (view, none)
  | assign :: rest, memory, view =>
      match strtok isComma memory with
      | .error fault => (view, some fault)
      | .ok none => (view, some .nullPointer)
      | .ok (some token) => takeTokens rest token.saved (assign token.text view)

/-- The twelve assignments: title, artist, date, index and the coordinates. -/
def assignments (atof : List Byte → Value) :
    List (List Byte → ResultView Value → ResultView Value) :=
  (fun token view => { view with resultTitle := ascii "Title: " ++ token }) ::
    (fun token view => { view with resultArtist := ascii "Artist: " ++ token }) ::
    (fun token view => { view with resultDate := ascii "Date: " ++ token }) ::
    (fun token view => { view with matchIndex := token }) ::
    (List.finRange 8).map fun i token view =>
      { view with coord := Function.update view.coord i (atof token) }

/-- `drawResult = 1` -/
def drawn (view : ResultView Value) : ResultView Value := { view with drawResult := 1 }

/-- `drawResult = 0` -/
def cleared (view : ResultView Value) : ResultView Value := { view with drawResult := 0 }

/-- `result_thread` from `strcmp(buffer, "none")` on. -/
def receive (atof : List Byte → Value) (view : ResultView Value) (buffer : List Byte) :
    ResultView Value × Option Fault :=
  if buffer.take 5 = ascii "none" ++ [nul] then (view.cleared, none)
  else
    match takeTokens (assignments atof) buffer view.cleared with
    | (after, none) => (after.drawn, none)
    | (after, some fault) => (after, some fault)

/-- The globals once these tokens have been taken. -/
def shown (atof : List Byte → Value) (tokens : List (List Byte)) : ResultView Value where
  drawResult := 1
  resultTitle := ascii "Title: " ++ tokens.getD 0 []
  resultArtist := ascii "Artist: " ++ tokens.getD 1 []
  resultDate := ascii "Date: " ++ tokens.getD 2 []
  matchIndex := tokens.getD 3 []
  coord i := atof (tokens.getD (4 + i) [])

end ResultView

/-- A result of these bytes is received into the zeroed buffer without a null
token: either the first twelve fields of its text are shown, or only
`drawResult` changes. -/
def Survives {Value : Type} (atof : List Byte → Value) (message : List Byte) : Prop :=
  ∀ view : ResultView Value, ∃ after,
    view.receive atof (padded bufferSize message) = (after, none) ∧
    ((12 ≤ (fields isComma (cString message)).length ∧
        after = ResultView.shown atof ((fields isComma (cString message)).take 12)) ∨
      after = view.cleared)

/-! ## The info text -/

/-- The lines that `getline` yields. -/
def getlines : List Byte → List (List Byte)
  | [] => []
  | byte :: rest =>
      if byte = lineFeed then [] :: getlines rest
      else
        match getlines rest with
        | [] => [[byte]]
        | line :: more => (byte :: line) :: more

/-- `ImgMatch::getInfo`: the last line of the file, or nothing without one. -/
def ImgMatch.getInfo (infoFile : Option (List Byte)) : List Byte :=
  match infoFile with
  | none => []
  | some content => (getlines content).getLast?.getD []

/-! ## Token by token -/

section Tokens

variable {Value : Type} {atof : List Byte → Value}

/-- The assignments succeed with the tokens of the loop, and fail with it. -/
theorem ResultView.takeTokens_eq
    (assigns : List (List Byte → ResultView Value → ResultView Value)) (memory : List Byte)
    (view : ResultView Value) :
    match nextTokens isComma assigns.length memory with
    | .ok tokens => takeTokens assigns memory view =
        ((assigns.zip tokens).foldl (fun view pair => pair.1 pair.2 view) view, none)
    | .error fault => ∃ after, takeTokens assigns memory view = (after, some fault) := by
  induction assigns generalizing memory view with
  | nil => rfl
  | cons assign rest inductionHypothesis =>
      rw [List.length_cons, nextTokens, takeTokens]
      cases called : strtok isComma memory with
      | error fault => exact ⟨view, rfl⟩
      | ok found =>
          cases found with
          | none => exact ⟨view, rfl⟩
          | some token =>
              have remaining := inductionHypothesis token.saved (assign token.text view)
              change match (nextTokens isComma rest.length token.saved >>= fun more =>
                Except.ok (token.text :: more)) with | .ok tokens => _ | .error fault => _
              cases next : nextTokens isComma rest.length token.saved with
              | error fault =>
                  rw [next] at remaining
                  exact remaining
              | ok more =>
                  rw [next] at remaining
                  exact remaining

/-- Twelve tokens determine all globals. -/
theorem ResultView.foldl_assignments (view : ResultView Value) {tokens : List (List Byte)}
    (twelve : tokens.length = 12) :
    (((assignments atof).zip tokens).foldl (fun view pair => pair.1 pair.2 view) view).drawn =
      shown atof tokens := by
  match tokens, twelve with
  | [title, artist, date, index, a, b, c, d, e, f, g, h], _ =>
      apply ResultView.ext
      case drawResult => rfl
      case resultTitle => rfl
      case resultArtist => rfl
      case resultDate => rfl
      case matchIndex => rfl
      case coord =>
        funext i
        fin_cases i <;> rfl

/-- The globals after a result, from what the client is to display. -/
theorem ResultView.receive_eq (view : ResultView Value) (buffer : List Byte) :
    match Cpp.showResult buffer with
    | .ok .none => view.receive atof buffer = (view.cleared, none)
    | .ok (.fields texts) => view.receive atof buffer = (shown atof texts, none)
    | .error fault => ∃ after, view.receive atof buffer = (after, some fault) := by
  by_cases isNone : buffer.take 5 = ascii "none" ++ [nul]
  · rw [Cpp.showResult, if_pos isNone, receive, if_pos isNone]
  · have taken := takeTokens_eq (assignments atof) buffer view.cleared
    have twelve : (assignments atof).length = 12 := rfl
    rw [twelve] at taken
    rw [Cpp.showResult, if_neg isNone, receive, if_neg isNone]
    cases called : nextTokens isComma 12 buffer with
    | error fault =>
        rw [called] at taken
        obtain ⟨after, stopped⟩ := taken
        exact ⟨after, by rw [stopped]⟩
    | ok texts =>
        rw [called] at taken
        have count : texts.length = 12 := by
          obtain ⟨enough, rfl⟩ := (nextTokens_ok_iff (by decide)).mp called
          rw [List.length_take]
          omega
        change _ = (shown atof texts, none)
        rw [taken, ← foldl_assignments view.cleared count]

end Tokens

/-! ## Messages -/

/-- The text from which `strtok` takes tokens when these bytes are received. -/
def resultText (message : List Byte) : List Byte :=
  tokenText isComma (padded bufferSize message)

/-- `strcmp(buffer, "none")` compares C strings. -/
theorem take_none_iff (message : List Byte) :
    (padded bufferSize message).take 5 = ascii "none" ++ [nul] ↔
      cString message = ascii "none" := by
  have clean : nul ∉ ascii "none" := by decide
  rw [← cString_padded bufferSize message]
  constructor
  · intro same
    have whole := List.take_append_drop 5 (padded bufferSize message)
    rw [same, List.append_assoc, List.singleton_append] at whole
    rw [← whole, cString_append clean]
  · intro same
    have terminated : nul ∈ padded bufferSize message := by
      by_contra unterminated
      have length := le_padded_length bufferSize message
      rw [← cString_of_notMem unterminated, same] at length
      exact absurd length (by decide)
    obtain ⟨rest, whole, -⟩ := exists_cString terminated
    rw [whole, same]
    rfl

section Survives

variable {Value : Type} {atof : List Byte → Value} {message : List Byte}

/-- What the client is to display, for any received bytes. -/
theorem showResult_padded (named : cString message ≠ ascii "none") :
    Cpp.showResult (padded bufferSize message) =
      nextTokens isComma 12 (padded bufferSize message) >>= fun texts =>
        Except.ok (Display.fields texts) :=
  if_neg fun same => named ((take_none_iff message).mp same)

theorem survives_none (isNone : cString message = ascii "none") : Survives atof message :=
  fun view => ⟨view.cleared, if_pos ((take_none_iff message).mpr isNone), .inr rfl⟩

/-- With a name other than `none` everything depends on the twelfth token. -/
theorem survives_iff_of_named (named : cString message ≠ ascii "none") :
    Survives atof message ↔ 12 ≤ (fields isComma (resultText message)).length := by
  have shows := showResult_padded named
  constructor
  · intro survives
    have received := @ResultView.receive_eq Value atof (ResultView.shown atof [])
      (padded bufferSize message)
    obtain ⟨after, sound, -⟩ := survives (ResultView.shown atof [])
    cases called : nextTokens isComma 12 (padded bufferSize message) with
    | ok texts => exact ((nextTokens_ok_iff (by decide)).mp called).1
    | error fault =>
        rw [shows, called] at received
        obtain ⟨_, stopped⟩ := received
        rw [sound] at stopped
        cases stopped
  · intro enough view
    have called : nextTokens isComma 12 (padded bufferSize message) =
        .ok ((fields isComma (resultText message)).take 12) :=
      (nextTokens_ok_iff (by decide)).mpr ⟨enough, rfl⟩
    have received := @ResultView.receive_eq Value atof view (padded bufferSize message)
    rw [shows, called] at received
    have first := @fields_tokenText_first isComma (padded bufferSize message)
    rw [cString_padded] at first
    obtain ⟨more, whole⟩ := first
    have same : (fields isComma (cString message)).take 12 =
        (fields isComma (resultText message)).take 12 := by
      rw [← whole]
      exact List.take_append_of_le_length enough
    refine ⟨_, received, .inl ⟨?_, by rw [same]⟩⟩
    rw [← whole, List.length_append]
    exact Nat.le_trans enough (Nat.le_add_right _ _)

end Survives

/-- The text of a match has nine fields behind those of its info text. -/
theorem survives_match_iff {Value : Type} {atof : List Byte → Value} {writer : ResultWriter}
    {info : List Byte} {index : Int} {junk : Nat → Byte} {message : List Byte}
    (written : ServerResult.bytes junk (.matched writer info index) = .ok message) :
    Survives atof message ↔ 3 ≤ (fields isComma (cString info)).length := by
  have clean := @ServerResult.text_clean info index
  obtain ⟨rest, rfl⟩ := sprintf_ok written
  have text : cString (ServerResult.text info index ++ nul :: rest) =
      ServerResult.text info index := cString_append clean rest
  have terminated : nul ∈ padded bufferSize (ServerResult.text info index ++ nul :: rest) :=
    List.mem_append_left _ (by simp)
  have named : ServerResult.text info index ≠ ascii "none" := by
    intro same
    have separated : comma ∈ ServerResult.text info index := by simp [ServerResult.text]
    rw [same] at separated
    exact absurd separated (by decide)
  rw [survives_iff_of_named (by rw [text]; exact named), resultText, tokenText,
    if_pos terminated, cString_padded, text, ServerResult.fields_text, ← cString]
  omega

/-- The client gets through a message when its text is `none` or has twelve
fields that end in the buffer; a message of the server with an info text has
them when the info text has three. -/
theorem survives_iff {Value : Type} (atof : List Byte → Value) :
    (∀ message, Survives atof message ↔
      cString message = ascii "none" ∨ 12 ≤ (fields isComma (resultText message)).length) ∧
    ∀ writer infoFile index junk message,
      ServerResult.bytes junk (.matched writer (ImgMatch.getInfo infoFile) index) = .ok message →
      (Survives atof message ↔
        3 ≤ (fields isComma (cString (ImgMatch.getInfo infoFile))).length) := by
  constructor
  · intro message
    by_cases isNone : cString message = ascii "none"
    · exact iff_of_true (survives_none isNone) (.inl isNone)
    · rw [survives_iff_of_named isNone, or_iff_right isNone]
  · intro writer infoFile index junk message written
    exact survives_match_iff written

/-- A matched image without an info file. -/
theorem missing_info_faults : ∃ message,
    ServerResult.bytes (fun _ => 0) (.matched .resultChild (ImgMatch.getInfo none) 7) =
      .ok message ∧ ¬ Survives strtol message := by
  have fits : (ServerResult.text [] 7).length < (uninitialised (fun _ => 0) 200).length := by
    rw [uninitialised_length]
    decide +kernel
  have written := sprintf_eq fits
  refine ⟨_, written, fun survives => ?_⟩
  have named := (@survives_match_iff _ strtol .resultChild [] 7 (fun _ => 0) _ written).mp survives
  exact absurd named (by decide)

end PaintingCPS
