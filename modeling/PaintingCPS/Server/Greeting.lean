import PaintingCPS.Foundation.Tokens
import PaintingCPS.MsgDistributor.Interop
import PaintingCPS.Server.Headers

/-!
Contract: the login of a client, as the server reads it.

A client sends its command and its user id behind each other in an array that
is longer. `serverThread` takes what one `read` returns, which over TCP may be
any part from the front, and does not look for more. A part of the user id is
another user, and without any of it the server ends.

Owns: the messages of both clients, and what the server makes of a part of them.

Does not own: the answer, and who is logged in already.
-/

set_option autoImplicit false

namespace PaintingCPS

open Foundation

/-! ## The messages -/

/-- The threads of a client that log in. -/
inductive ClientThread where
  /-- `display_thread` and `TransmitThread` -/
  | transmit
  /-- `result_thread` and `ResultThread` -/
  | result
deriving DecidableEq, Repr

namespace ClientThread

def command : ClientThread → Command
  | transmit => .transmit
  | result => .result

def word : ClientThread → List Byte
  | transmit => ascii "transmit"
  | result => ascii "result"

/-- What is printed: the word, a comma and the user id. -/
def greeting (thread : ClientThread) (user : List Byte) : List Byte :=
  thread.word ++ comma :: user

/-- The length of the array in `JClient`, -/
def javaBuffer : ClientThread → Nat
  | transmit => 4 * bufferSize
  | result => bufferSize

/-- and how much of it is sent. -/
def javaLength : ClientThread → Nat
  | transmit => 100
  | result => bufferSize

end ClientThread

/-- `sizeof(header)` in the C++ client -/
def loginHeaderSize : Nat := 100

/-- The bytes a client sends: the text in an array on the stack, or in one of
zeros. The C++ client overruns its array with a text that is too long. -/
def loginHeader (junk : Nat → Byte) (thread : ClientThread) (user : List Byte) :
    Language → Except Fault (List Byte)
  | .cpp => sprintf (uninitialised junk loginHeaderSize) (thread.greeting user)
  | .java => .ok ((padded thread.javaBuffer (thread.greeting user)).take thread.javaLength)

/-! ## What the server reads -/

/-- A login that has received this part of the user id. -/
def ClientThread.seen (thread : ClientThread) (part : List Byte) :
    Except Fault (Command × User) :=
  match fields isComma part with
  | [] => .error .nullPointer
  | userID :: _ => .ok (thread.command, userID)

section Parsing

variable {thread : ClientThread} {user : List Byte}

/-- The login of a terminated text is in its first two fields. -/
theorem parseLogin_text {text : List Byte} (clean : nul ∉ text) (beyond : List Byte) :
    parseLogin (text ++ nul :: beyond) =
      match fields isComma text with
      | threadType :: userID :: _ => .ok (Command.ofText threadType, userID)
      | _ => .error .nullPointer := by
  have first := @strtok_fields isComma (by decide) text clean beyond
  cases found : fields isComma text with
  | nil =>
      rw [found] at first
      rw [parseLogin, first]
      rfl
  | cons threadType more =>
      rw [found] at first
      obtain ⟨tail, rest, restClean, restFields, called⟩ := first
      have second := @strtok_fields isComma (by decide) rest restClean beyond
      rw [restFields] at second
      cases more with
      | nil =>
          simp only [parseLogin, called, second, bind, Except.bind]
      | cons userID others =>
          obtain ⟨_, _, -, -, again⟩ := second
          simp only [parseLogin, called, again, bind, Except.bind, pure, Except.pure]

private theorem word_field (thread : ClientThread) : IsField isComma thread.word := by
  cases thread <;> decide

private theorem ofText_word (thread : ClientThread) :
    Command.ofText thread.word = thread.command := by
  cases thread <;> decide

/-- A text that fits is sent with a terminator, by either client. -/
theorem loginHeader_terminated {junk : Nat → Byte} {language : Language} {message : List Byte}
    (fits : (thread.greeting user).length < loginBuffer)
    (sent : loginHeader junk thread user language = .ok message) :
    ∃ rest, message = thread.greeting user ++ nul :: rest := by
  cases language with
  | cpp => exact sprintf_ok sent
  | java =>
      have room : (thread.greeting user).length < thread.javaLength ∧
          thread.javaLength ≤ thread.javaBuffer := by
        have large : loginBuffer ≤ thread.javaLength ∧
            thread.javaLength ≤ thread.javaBuffer := by
          cases thread <;> decide
        exact ⟨Nat.lt_of_lt_of_le fits large.1, large.2⟩
      obtain ⟨zeros, enough⟩ := Nat.exists_eq_add_of_lt
        (Nat.lt_of_lt_of_le room.1 room.2)
      obtain ⟨left, more⟩ := Nat.exists_eq_add_of_lt room.1
      cases sent
      have behind : thread.javaBuffer - (thread.greeting user).length = zeros + 1 := by omega
      have kept : thread.javaLength - (thread.greeting user).length = left + 1 := by omega
      refine ⟨(List.replicate zeros 0).take left, ?_⟩
      rw [padded, behind, List.replicate_succ, List.take_append,
        List.take_of_length_le (Nat.le_of_lt room.1), kept, List.take_succ_cons]
      rfl

/-- What `serverThread` has in its buffer: a part of the text, terminated. -/
theorem received_part {text rest : List Byte} (fits : text.length < loginBuffer) (count : Nat) :
    ∃ beyond, padded loginBuffer ((text ++ nul :: rest).take count) =
      text.take count ++ nul :: beyond := by
  rcases Nat.lt_or_ge text.length count with whole | partly
  · obtain ⟨left, more⟩ := Nat.exists_eq_add_of_lt whole
    have kept : count - text.length = left + 1 := by omega
    rw [padded, List.take_append, kept, List.take_succ_cons, List.append_assoc, List.cons_append]
    exact ⟨_, rfl⟩
  · obtain ⟨zeros, more⟩ := Nat.exists_eq_add_of_lt (Nat.lt_of_le_of_lt partly fits)
    have part : (text ++ nul :: rest).take count = text.take count :=
      List.take_append_of_le_length partly
    have behind : loginBuffer - (text.take count).length = zeros + 1 := by
      rw [List.length_take_of_le partly]
      omega
    rw [part, padded, behind, List.replicate_succ]
    exact ⟨_, rfl⟩

/-- The fields of a part of the text. -/
private theorem fields_part (thread : ClientThread) (user : List Byte) (count : Nat) :
    (count ≤ thread.word.length ∧ (fields isComma ((thread.greeting user).take count)).length ≤ 1) ∨
      thread.word.length < count ∧
        fields isComma ((thread.greeting user).take count) =
          thread.word :: fields isComma (user.take (count - (thread.word.length + 1))) := by
  rcases Nat.lt_or_ge thread.word.length count with behind | before
  · refine .inr ⟨behind, ?_⟩
    obtain ⟨left, more⟩ := Nat.exists_eq_add_of_lt behind
    have kept : count - thread.word.length = left + 1 := by omega
    have part : count - (thread.word.length + 1) = left := by omega
    rw [ClientThread.greeting, List.take_append, List.take_of_length_le (Nat.le_of_lt behind),
      kept, List.take_succ_cons, fields_append _ (by decide), fields_field (word_field thread),
      part]
    rfl
  · refine .inl ⟨before, ?_⟩
    have plain : ∀ byte ∈ thread.word.take count, isComma byte = false :=
      fun byte member => ((word_field thread).2 byte (List.mem_of_mem_take member)).1
    rw [ClientThread.greeting, List.take_append_of_le_length before, fields,
      fieldsFrom_plain plain]
    split <;> simp

/-- The server reads the command, and the first field of the part of the user
id that it has received. -/
theorem parseLogin_received {junk : Nat → Byte} {language : Language} {message : List Byte}
    (clean : nul ∉ user) (fits : (thread.greeting user).length < loginBuffer)
    (sent : loginHeader junk thread user language = .ok message) (count : Nat) :
    parseLogin (padded loginBuffer (message.take count)) =
      thread.seen (user.take (count - (thread.word.length + 1))) := by
  obtain ⟨rest, rfl⟩ := loginHeader_terminated fits sent
  obtain ⟨beyond, shape⟩ := @received_part _ rest fits count
  have textClean : nul ∉ (thread.greeting user).take count := by
    intro member
    rcases List.mem_append.mp (List.mem_of_mem_take member) with inWord | others
    · exact ((word_field thread).2 nul inWord).2 rfl
    · rcases List.mem_cons.mp others with separator | inUser
      · exact absurd separator (by decide)
      · exact clean inUser
  rw [shape, parseLogin_text textClean, ClientThread.seen]
  rcases fields_part thread user count with ⟨before, few⟩ | ⟨behind, found⟩
  · have nothing : count - (thread.word.length + 1) = 0 := by omega
    rw [nothing, List.take_zero]
    cases shape : fields isComma ((thread.greeting user).take count) with
    | nil => rfl
    | cons first more =>
        rw [shape, List.length_cons] at few
        obtain rfl : more = [] := List.length_eq_zero_iff.mp (by omega)
        rfl
  · rw [found]
    cases fields isComma (user.take (count - (thread.word.length + 1))) with
    | nil => rfl
    | cons userID others =>
        dsimp only
        rw [ofText_word]

/-- The user of a part is the user of the whole when the part is the whole, and
the user id is one field. -/
theorem seen_eq_ok (clean : nul ∉ user) (length : Nat) :
    thread.seen (user.take length) = .ok (thread.command, user) ↔
      IsField isComma user ∧ user.length ≤ length := by
  constructor
  · intro seen
    unfold ClientThread.seen at seen
    split at seen
    next => cases seen
    next userID others found =>
      cases seen
      have member : user ∈ fields isComma (user.take length) := by
        rw [found]
        exact List.mem_cons_self
      have partClean : nul ∉ user.take length := fun inPart => clean (List.mem_of_mem_take inPart)
      obtain ⟨field, short⟩ := fieldsFrom_isField partClean (by simp) member
      refine ⟨field, ?_⟩
      rw [List.length_nil, List.length_take] at short
      omega
  · rintro ⟨field, whole⟩
    rw [List.take_of_length_le whole, ClientThread.seen, fields_field field]

end Parsing

/-- The server logs a client in as the first field of the part of its user id
that one `read` returns, and ends when there is none. It is the client's own
user id exactly when that is one field and all of it has arrived. -/
theorem login_round_trip {config : Config} {process : Process} {index : Nat} {sock : Int}
    (there : process.threads[index]? = some (.connection sock)) {junk : Nat → Byte}
    {language : Language} {thread : ClientThread} {user message : List Byte}
    (clean : nul ∉ user) (fits : (thread.greeting user).length < loginBuffer)
    (sent : loginHeader junk thread user language = .ok message) (count : Nat) :
    process.header config index (some (message.take count)) =
        some ((thread.seen (user.take (count - (thread.word.length + 1)))).map fun login =>
          match process.login login.2 login.1 with
          | none => process.setThread index .closed
          | some admitted =>
              admitted.setThread index (Process.entry login.2 sock login.1)) ∧
      (parseLogin (padded loginBuffer (message.take count)) = .ok (thread.command, user) ↔
        IsField isComma user ∧ (thread.greeting user).length ≤ count) := by
  have parsed := parseLogin_received clean fits sent count
  constructor
  · have login : ¬ (some (message.take count) = none ∧ config.mode = .tcp) := by simp
    simp only [Process.header, there, if_neg login, Option.getD_some, parsed]
    cases thread.seen (user.take (count - (thread.word.length + 1))) with
    | error fault => rfl
    | ok login =>
        change some (match process.login login.2 login.1 with
          | none => Except.ok (process.setThread index .closed)
          | some admitted => Except.ok
              (admitted.setThread index (Process.entry login.2 sock login.1))) = _
        rw [Except.map]
        cases process.login login.2 login.1 <;> rfl
  · rw [parsed, seen_eq_ok clean, ClientThread.greeting, List.length_append, List.length_cons]
    refine and_congr_right fun field => ?_
    have nonempty := List.length_pos_of_ne_nil field.1
    omega

/-- A client of eight letters, of which five arrive with the first part. -/
theorem login_round_trip_part : ∃ message,
    loginHeader (fun _ => 9) .transmit (ascii "rembrand") .cpp = .ok message ∧
      parseLogin (padded loginBuffer (message.take 17)) =
        .ok (.transmit, ascii "rembrand") ∧
      parseLogin (padded loginBuffer (message.take 14)) ≠
        .ok (.transmit, ascii "rembrand") := by
  let process : Process := { Process.init ⟨.tcp, .disk, 1⟩ with threads := [.connection 4] }
  have fits : (ClientThread.transmit.greeting (ascii "rembrand")).length < loginHeaderSize := by
    decide
  obtain ⟨message, sent⟩ : ∃ message,
      loginHeader (fun _ => 9) .transmit (ascii "rembrand") .cpp = .ok message :=
    ⟨_, sprintf_eq (by rw [uninitialised_length]; exact fits)⟩
  have there : process.threads[0]? = some (.connection 4) := rfl
  have read := fun count => (@login_round_trip ⟨.tcp, .disk, 1⟩ process 0 4 there (fun _ => 9)
    .cpp .transmit (ascii "rembrand") message (by decide) fits sent count).2
  refine ⟨message, sent, (read 17).mpr (by decide), fun parsed => ?_⟩
  exact absurd ((read 14).mp parsed).2 (by decide)

end PaintingCPS
