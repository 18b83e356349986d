import PaintingCPS.Foundation.CString
import PaintingCPS.Foundation.Machine

/-!
Contract: `strtok` of many threads, with one saved position for all of them.

A thread starts with its own buffer and may ask for further tokens; which ones
is left to its kind. The saved position is a place in the buffer of whoever
called last, so a thread that asks again may get a piece of another buffer.

Owns: the calls, what a thread gets when it is alone, and that it gets this as
long as nobody starts while another thread is not done.

Does not own: any program, and buffers that are gone.
-/

set_option autoImplicit false

namespace PaintingCPS.Foundation

/-- What one call leaves behind: the token or a null pointer, the memory from
the saved position on, and the memory from the start of the call on. -/
structure StrtokResult where
  text : Option (List Byte)
  saved : List Byte
  memory : List Byte
deriving DecidableEq, Repr

/-- One call from a position on. Without a token the position is the
terminator. -/
def callStrtok (isDelimiter : Byte → Bool) (memory : List Byte) : Except Fault StrtokResult := do
  match ← strtok isDelimiter memory with
  | none => return ⟨none, memory.dropWhile isDelimiter, memory⟩
  | some token => return ⟨some token.text, token.saved, token.overwritten memory⟩

/-- So many calls by a thread that is alone: the results, and the memory from
the saved position on. -/
def callsAlone (isDelimiter : Byte → Bool) (memory : List Byte) :
    Nat → Except Fault (List (Option (List Byte)) × List Byte)
  | 0 => .ok ([], memory)
  | count + 1 => do
      let (results, rest) ← callsAlone isDelimiter memory count
      let called ← callStrtok isDelimiter rest
      return (results ++ [called.text], called.saved)

/-- The saved position is in the memory. -/
theorem callStrtok_saved {isDelimiter : Byte → Bool} {memory : List Byte} {called : StrtokResult}
    (call : callStrtok isDelimiter memory = .ok called) :
    called.saved <:+ called.memory ∧ called.memory.length = memory.length := by
  obtain ⟨found, scan, rest⟩ := bind_eq_ok.mp call
  cases found with
  | none =>
      cases rest
      exact ⟨List.dropWhile_suffix _, rfl⟩
  | some token =>
      cases rest
      obtain ⟨before, stop, scanned, saved⟩ := exists_scanned scan
      have overwritten : token.overwritten memory =
          before ++ (token.text ++ nul :: token.tail) := scanned.overwritten token.saved
      rw [overwritten, saved]
      constructor
      · split
        next isNul =>
          rw [isNul]
          exact ⟨before ++ token.text, by rw [List.append_assoc]⟩
        next => exact ⟨before ++ (token.text ++ [nul]), by simp⟩
      · rw [scanned.split]
        simp only [List.length_append, List.length_cons]

/-- The first results do not depend on how often the thread calls. -/
theorem callsAlone_prefix {isDelimiter : Byte → Bool} {memory : List Byte} {count : Nat}
    (more : Nat) {results : List (Option (List Byte))} {rest : List Byte}
    (calls : callsAlone isDelimiter memory (count + more) = .ok (results, rest)) :
    results.length = count + more ∧
      ∃ middle, callsAlone isDelimiter memory count = .ok (results.take count, middle) := by
  induction more generalizing results rest with
  | zero =>
      have counted : ∀ (count : Nat) (results : List (Option (List Byte))) (rest : List Byte),
          callsAlone isDelimiter memory count = .ok (results, rest) → results.length = count := by
        intro count
        induction count with
        | zero =>
            intro results rest calls
            cases calls
            rfl
        | succ count inductionHypothesis =>
            intro results rest calls
            obtain ⟨⟨earlier, middle⟩, before, last⟩ := bind_eq_ok.mp calls
            obtain ⟨called, -, returned⟩ := bind_eq_ok.mp last
            cases returned
            rw [List.length_append, inductionHypothesis earlier middle before]
            rfl
      have length := counted count results rest calls
      exact ⟨length, rest, by rw [List.take_of_length_le (Nat.le_of_eq length)]; exact calls⟩
  | succ more inductionHypothesis =>
      obtain ⟨⟨earlier, middle⟩, before, last⟩ := bind_eq_ok.mp calls
      obtain ⟨called, -, returned⟩ := bind_eq_ok.mp last
      cases returned
      obtain ⟨length, middle, first⟩ := inductionHypothesis before
      refine ⟨by rw [List.length_append, length]; rfl, middle, ?_⟩
      rw [List.take_append_of_le_length (by omega)]
      exact first

/-! ## Threads -/

/-- A thread between two messages or in the middle of one. -/
structure Tokenizing (Kind : Type) where
  kind : Kind
  /-- The message that it started with, as it was. -/
  original : List Byte
  buffer : List Byte
  /-- What its calls returned since then. -/
  tokens : List (Option (List Byte))

/-- All threads and the position that they share: a thread and an offset in
its buffer. -/
structure SharedStrtok (Kind : Type) where
  threads : List (Tokenizing Kind)
  saved : Option (Nat × Nat)

inductive StrtokCall where
  /-- `strtok(buffer, ..)` on a new message -/
  | first (index : Nat) (message : List Byte)
  /-- `strtok(NULL, ..)` -/
  | next (index : Nat)
deriving DecidableEq, Repr

/-- Threads that have not called yet. -/
def SharedStrtok.start {Kind : Type} (kinds : List Kind) : SharedStrtok Kind where
  threads := kinds.map fun kind => ⟨kind, [], [], []⟩
  saved := none

/-- What the threads of each kind do with `strtok`. -/
structure StrtokProgram (Kind : Type) where
  delimiter : Kind → Byte → Bool
  /-- After these tokens the thread asks for another one. -/
  again : Kind → List (Option (List Byte)) → Bool
  fresh : ∀ kind, again kind [] = false

namespace StrtokProgram

variable {Kind : Type} (program : StrtokProgram Kind)

/-- The thread still has a call to make for its message. -/
def asks (thread : Tokenizing Kind) : Bool := program.again thread.kind thread.tokens

/-- One call; `none` for a thread that does not make it, and for a call that
ends the process. -/
def next (state : SharedStrtok Kind) : StrtokCall → Option (SharedStrtok Kind)
  | .first index message =>
      match state.threads[index]? with
      | none => none
      | some thread =>
          if program.asks thread then none
          else
            match callStrtok (program.delimiter thread.kind) message with
            | .error _ => none
            | .ok called =>
                some
                  { threads := state.threads.set index
                      ⟨thread.kind, message, called.memory, [called.text]⟩
                    saved := some (index, called.memory.length - called.saved.length) }
  | .next index =>
      match state.threads[index]?, state.saved with
      | some thread, some (owner, offset) =>
          match program.asks thread, state.threads[owner]? with
          | true, some other =>
              match callStrtok (program.delimiter thread.kind) (other.buffer.drop offset) with
              | .error _ => none
              | .ok called =>
                  some
                    { threads := (state.threads.modify owner fun holder =>
                          { holder with
                            buffer := holder.buffer.take offset ++ called.memory }).modify
                        index fun caller => { caller with tokens := caller.tokens ++ [called.text] }
                      saved := some (owner,
                        (other.buffer.take offset ++ called.memory).length -
                          called.saved.length) }
          | _, _ => none
      | _, _ => none

def machine : Machine (SharedStrtok Kind) StrtokCall where
  next := program.next

/-- Nobody starts while a thread still has a call to make. -/
def Undisturbed (state : SharedStrtok Kind) : StrtokCall → Prop
  | .first _ _ => ∀ thread ∈ state.threads, program.asks thread = false
  | .next _ => True

instance (state : SharedStrtok Kind) : ∀ call, Decidable (program.Undisturbed state call)
  | .first _ _ => List.decidableBAll _ _
  | .next _ => inferInstanceAs (Decidable True)

/-- The thread has what it gets alone. -/
def Own (thread : Tokenizing Kind) (rest : List Byte) : Prop :=
  callsAlone (program.delimiter thread.kind) thread.original thread.tokens.length =
    .ok (thread.tokens, rest)

/-- Every thread has its own tokens, and whoever asks has the saved position. -/
def InOrder (state : SharedStrtok Kind) : Prop :=
  ∀ (index : Nat) (thread : Tokenizing Kind), state.threads[index]? = some thread →
    ∃ rest, program.Own thread rest ∧ (program.asks thread = true →
      ∃ offset, state.saved = some (index, offset) ∧ thread.buffer.drop offset = rest)

section Preservation

variable {program} {state after : SharedStrtok Kind} {index : Nat}

private theorem drop_saved (before : List Byte) {isDelimiter : Byte → Bool}
    {memory : List Byte} {called : StrtokResult}
    (call : callStrtok isDelimiter memory = .ok called) :
    (before ++ called.memory).drop ((before ++ called.memory).length - called.saved.length) =
      called.saved :=
  (List.suffix_iff_eq_drop.mp
    ((callStrtok_saved call).1.trans (List.suffix_append before called.memory))).symm

private theorem first_inOrder {message : List Byte} (inOrder : program.InOrder state)
    (quiet : ∀ thread ∈ state.threads, program.asks thread = false)
    (step : program.next state (.first index message) = some after) : program.InOrder after := by
  simp only [next] at step
  split at step
  next => cases step
  next thread there =>
    split at step
    next => cases step
    next =>
      split at step
      next => cases step
      next called call =>
        cases step
        intro other moved found
        by_cases same : other = index
        · subst same
          rw [List.getElem?_set_self (List.getElem?_eq_some_iff.mp there).1,
            Option.some.injEq] at found
          subst found
          refine ⟨called.saved, ?_, fun _ => ⟨_, rfl, ?_⟩⟩
          · simp only [Own, List.length_singleton, callsAlone, call, bind, Except.bind]
            rfl
          · have position := drop_saved [] call
            rwa [List.nil_append] at position
        · rw [List.getElem?_set_ne (Ne.symm same)] at found
          obtain ⟨rest, own, -⟩ := inOrder other moved found
          refine ⟨rest, own, fun asks => ?_⟩
          rw [quiet moved (List.mem_of_getElem? found)] at asks
          cases asks

private theorem next_inOrder (inOrder : program.InOrder state)
    (step : program.next state (.next index) = some after) : program.InOrder after := by
  simp only [next] at step
  split at step
  next thread owner offset there position =>
    split at step
    next other asks holder =>
      split at step
      next => cases step
      next called call =>
        cases step
        obtain ⟨rest, own, held⟩ := inOrder index thread there
        obtain ⟨place, mine, remaining⟩ := held asks
        -- whoever asks is the one who called last
        rw [position, Option.some.injEq, Prod.mk.injEq] at mine
        obtain ⟨rfl, rfl⟩ := mine
        rw [there, Option.some.injEq] at holder
        subst holder
        intro other moved found
        by_cases same : other = owner
        · subst same
          rw [List.getElem?_modify_eq, List.getElem?_modify_eq, there] at found
          cases found
          refine ⟨called.saved, ?_, fun _ => ⟨_, rfl, drop_saved _ call⟩⟩
          rw [remaining] at call
          simp only [Own, List.length_append, List.length_singleton, callsAlone]
          rw [show callsAlone (program.delimiter thread.kind) thread.original
            thread.tokens.length = .ok (thread.tokens, rest) from own]
          simp only [bind, Except.bind, call]
          rfl
        · rw [List.getElem?_modify_ne _ _ (Ne.symm same),
            List.getElem?_modify_ne _ _ (Ne.symm same)] at found
          obtain ⟨rest', own', held'⟩ := inOrder other moved found
          refine ⟨rest', own', fun asks' => ?_⟩
          obtain ⟨place, theirs, -⟩ := held' asks'
          rw [position, Option.some.injEq, Prod.mk.injEq] at theirs
          exact absurd theirs.1.symm same
    next => cases step
  next => cases step

end Preservation

/-- As long as nobody starts in the middle of another message, every thread
gets the tokens that it would get alone. -/
theorem inOrder_of_reaches {kinds : List Kind} {state : SharedStrtok Kind}
    (reached : program.machine.ReachesUnder program.Undisturbed (.start kinds) state) :
    program.InOrder state := by
  refine reached.invariant ?_ ?_
  · intro index thread there
    rw [SharedStrtok.start, List.getElem?_map] at there
    obtain ⟨kind, -, rfl⟩ := Option.map_eq_some_iff.mp there
    refine ⟨[], rfl, fun asks => ?_⟩
    rw [StrtokProgram.asks, program.fresh] at asks
    cases asks
  · intro state after call kept allowed step
    cases call with
    | first index message => exact first_inOrder kept allowed step
    | next index => exact next_inOrder kept step

end StrtokProgram

end PaintingCPS.Foundation
