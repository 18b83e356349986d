import PaintingCPS.Foundation.SharedStrtok
import PaintingCPS.Server.Headers

/-!
Contract: the calls of `strtok` in the threads of the server and of the client.

Every thread splits its own message, and all share the position that `strtok`
saves. What a thread reads from a message is its own as long as nobody starts
on another message in between.

Owns: which threads call how often, and what they read.

Does not own: what they do with it. A thread that uses a null pointer does not
call again.
-/

set_option autoImplicit false

namespace PaintingCPS

open Foundation

/-- The functions that call `strtok` for a message. -/
inductive Caller where
  /-- `MsgDistributor::listen` -/
  | listen
  /-- `serverThread` -/
  | serverThread
  /-- `server_transmit` -/
  | transmit
  /-- `server_result`, for the answer of Storm -/
  | result
  /-- `result_thread` of the client -/
  | resultThread
deriving DecidableEq, Repr

/-- Another call follows these tokens. -/
def Caller.again : Caller → List (Option (List Byte)) → Bool
  | .listen, [some newMessage] =>
      newMessage = ascii "accepted" || newMessage = ascii "sock" || newMessage = ascii "close"
  | .serverThread, [_] => true
  | .transmit, [some _] => true
  | .resultThread, token :: tokens =>
      -- title, artist, date, index and eight coordinates
      tokens.length < 11 && (token :: tokens).all Option.isSome
  | _, _ => false

def callers : StrtokProgram Caller where
  delimiter _ := isComma
  again := Caller.again
  fresh kind := by cases kind <;> rfl

/-- The first two tokens of a thread are the first two fields of its message. -/
private theorem twoFields_of_own {thread : Tokenizing Caller} {rest : List Byte}
    (own : callers.Own thread rest) {first second : List Byte} {more : List (Option (List Byte))}
    (tokens : thread.tokens = some first :: some second :: more) :
    TwoFields thread.original first second := by
  unfold StrtokProgram.Own at own
  rw [tokens, List.length_cons, List.length_cons, Nat.add_assoc, Nat.add_comm] at own
  obtain ⟨-, middle, calls⟩ := callsAlone_prefix more.length own
  obtain ⟨⟨earlier, place⟩, one, last⟩ := bind_eq_ok.mp calls
  obtain ⟨called, call, returned⟩ := bind_eq_ok.mp last
  obtain ⟨⟨nothing, whole⟩, none', firstCall⟩ := bind_eq_ok.mp one
  cases none'
  obtain ⟨calledFirst, callFirst, returnedFirst⟩ := bind_eq_ok.mp firstCall
  cases returnedFirst
  obtain ⟨found, scan, resultFirst⟩ := bind_eq_ok.mp callFirst
  obtain ⟨foundSecond, scanSecond, resultSecond⟩ := bind_eq_ok.mp call
  cases found with
  | none =>
      cases resultFirst
      cases returned
  | some token =>
      cases resultFirst
      cases foundSecond with
      | none =>
          cases resultSecond
          cases returned
      | some other =>
          cases resultSecond
          cases returned
          exact twoFields_of_strtok scan scanSecond

/-- In every run in which nobody starts on a message while another thread still
has a call to make, every thread reads its own message: all its tokens are
those that it gets alone, and the first two are the fields of its message. -/
theorem strtok_keeps_apart (kinds : List Caller) {state : SharedStrtok Caller}
    (reached : callers.machine.ReachesUnder callers.Undisturbed (.start kinds) state)
    (thread : Tokenizing Caller) (member : thread ∈ state.threads) :
    (∃ rest, callers.Own thread rest) ∧
      ∀ first second more, thread.tokens = some first :: some second :: more →
        TwoFields thread.original first second := by
  obtain ⟨index, there⟩ := List.getElem?_of_mem member
  obtain ⟨rest, own, -⟩ := callers.inOrder_of_reaches reached index thread there
  exact ⟨⟨rest, own⟩, fun _ _ _ tokens => twoFields_of_own own tokens⟩

/-- A data frame, then a file header. -/
theorem strtok_keeps_apart_two :
    ∃ (state : SharedStrtok Caller) (thread : Tokenizing Caller), thread ∈ state.threads ∧
      thread.tokens = [some (ascii "sock"), some (ascii "5")] ∧
      TwoFields thread.original (ascii "sock") (ascii "5") := by
  obtain ⟨state, reached, holds⟩ := Machine.exists_of_run
    (show ((callers.machine.run callers.Undisturbed (.start [.listen, .transmit])
      [.first 0 (ascii "sock,5,abc" ++ [0]), .next 0,
        .first 1 (ascii "pics/a.jpg,77" ++ [0]), .next 1]).map fun state =>
          decide (state.threads[0]?.map Tokenizing.tokens =
            some [some (ascii "sock"), some (ascii "5")])) = some true by decide +kernel)
  obtain ⟨thread, there, tokens⟩ := Option.map_eq_some_iff.mp (of_decide_eq_true holds)
  have member := List.mem_of_getElem? there
  exact ⟨state, thread, member, tokens,
    (strtok_keeps_apart [.listen, .transmit] reached thread member).2 _ _ [] tokens⟩

/-- The listener reads the size of a file for its socket id. -/
theorem strtok_mixes_messages :
    ¬ ∀ (kinds : List Caller) (state : SharedStrtok Caller) (thread : Tokenizing Caller),
      callers.machine.Reaches (.start kinds) state → thread ∈ state.threads →
      ∃ rest, callers.Own thread rest := by
  intro apart
  obtain ⟨state, reached, holds⟩ := Machine.exists_of_run
    (show ((callers.machine.run (fun _ _ => True) (.start [.listen, .transmit])
      [.first 0 (ascii "sock,5,abc" ++ [0]), .first 1 (ascii "pics/a.jpg,77" ++ [0]),
        .next 0]).map fun state =>
          decide (state.threads[0]?.map (fun thread =>
            (thread.kind, thread.original, thread.tokens)) =
              some (.listen, ascii "sock,5,abc" ++ [0],
                [some (ascii "sock"), some (ascii "77")]))) = some true by decide +kernel)
  obtain ⟨thread, there, fields⟩ := Option.map_eq_some_iff.mp (of_decide_eq_true holds)
  obtain ⟨kind, original, buffer, tokens⟩ := thread
  cases fields
  obtain ⟨rest, own⟩ := apart [.listen, .transmit] state _ reached (List.mem_of_getElem? there)
  have alone : (callsAlone isComma (ascii "sock,5,abc" ++ [0]) 2).toOption.map Prod.fst =
      some [some (ascii "sock"), some (ascii "5")] := by decide +kernel
  have mixed : callsAlone isComma (ascii "sock,5,abc" ++ [0]) 2 =
      .ok ([some (ascii "sock"), some (ascii "77")], rest) := own
  rw [mixed] at alone
  have same : [some (ascii "sock"), some (ascii "77")] =
      [some (ascii "sock"), some (ascii "5")] := Option.some.inj alone
  exact absurd same (by decide)

end PaintingCPS
