import PaintingCPS.Server.Visit

/-!
Contract: `server_transmit` keeps its visit tidy.

It registers its queue, pushes names and signals for each of them. As long as it
is there the receiver is not on its way out, so only the ledger has to be
balanced again.

Owns: one lemma for each kind of step of the sender.

Does not own: what it receives from its client.
-/

set_option autoImplicit false

namespace PaintingCPS

open Foundation

namespace Visit

section Preservation

variable {visit : Visit}

/-- The sender moves. What the receiver relies on stays, and the ledger is
balanced again. -/
private theorem Tidy.senderMoves {after : Visit} {sender : TransmitThread} (tidy : visit.Tidy)
    (here : visit.sender = some sender)
    (users : after.count = visit.count ∧ after.opener = visit.opener)
    (receivers : after.receiver = visit.receiver ∧ after.semEntry = visit.semEntry)
    (senders : ∀ moved, after.sender = some moved → after.SenderTidy moved)
    (staying : after.sender ≠ none ∨ (after.queueEntry ≠ none ∧
      ∃ receiver, visit.receiver = some receiver ∧ receiver.pc ≠ .starting))
    (entry : visit.queueEntry ≠ none → after.queueEntry = visit.queueEntry)
    (alive : ∀ queue, after.queueEntry = some queue → after.Alive queue)
    (grows : ∀ queue, visit.queueEntry = some queue →
      lengthAt visit.queues (some queue) ≤ lengthAt after.queues (some queue))
    (sems : ∀ sem : Nat, (∃ value, visit.sems[sem]? = some (some value)) →
      ∃ value, after.sems[sem]? = some (some value))
    (ledger : ∀ receiver, visit.receiver = some receiver → receiver.pc ≠ .starting →
      after.Ledger receiver) : after.Tidy := by
  obtain ⟨counts, openers⟩ := users
  obtain ⟨sameReceiver, sameSem⟩ := receivers
  have occupied : visit.sender ≠ none := by simp [here]
  constructor
  · exact senders
  · intro receiver there
    rw [sameReceiver] at there
    have old := tidy.receiver receiver there
    have stays := tidy.open here there
    have kept : ∀ queue, receiver.queue = some queue → after.queueEntry = some queue := by
      intro queue held
      have before := tidy.entry here there held
      rw [entry (by simp [before]), before]
    refine ⟨old.runs, old.fresh, old.fetched, ?_, ?_, ?_, ?_, ?_, ?_, ?_, ledger receiver there,
      ?_⟩
    · intro hungry
      obtain ⟨queue, held⟩ := Option.ne_none_iff_exists'.mp
        (old.fetched (by cases stands : receiver.pc <;> simp_all [ResultAt.hungry,
          ResultAt.hasQueue]))
      have before := old.hungry hungry
      rw [held] at before ⊢
      exact before.trans_le (grows queue (tidy.entry here there held))
    · rw [sameSem]
      exact old.semEntry
    · exact fun queue held _ => kept queue held
    · exact fun started => sems _ (old.semAlive started)
    · exact fun queue held => alive queue (kept queue held)
    · exact fun closes => absurd closes (by simp [stays])
    · exact fun late => absurd (afterQueue_closing late) (by simp [stays])
    · rw [counts]
      exact old.counted
  · rw [sameReceiver, sameSem]
    exact tidy.semHeld
  · exact alive
  · rw [sameReceiver]
    exact fun _ => staying.imp_right And.right
  · intro new
    rw [counts] at new
    exact absurd (tidy.absent new).1 occupied
  · intro one
    rw [counts] at one
    rw [openers, sameReceiver]
    exact ⟨fun other => absurd ((tidy.first one).1 other).1 occupied, (tidy.first one).2⟩
  · intro _
    rcases staying with stays | ⟨-, receiver, there, -⟩
    · exact .inl stays
    · exact .inr (by rw [sameReceiver, there]; exact nofun)
  · exact fun _ _ => staying.imp_right fun held => .inl held.1

theorem Tidy.sends {sender moved : TransmitThread} (tidy : visit.Tidy)
    (here : visit.sender = some sender) (sound : moved.Sound) (runs : moved.ended = false)
    (same : moved.queue = sender.queue ∧ moved.semMatch = sender.semMatch)
    (balance : moved.posts + sender.pushes + sender.left =
      sender.posts + moved.pushes + moved.left) :
    Tidy { visit with sender := some moved } := by
  have old := tidy.sender sender here
  refine tidy.senderMoves here ⟨rfl, rfl⟩ ⟨rfl, rfl⟩ ?_ (.inl nofun) (fun _ => rfl)
    tidy.queueAlive (fun _ _ => Nat.le_refl _) (fun _ live => live) ?_
  · intro other there
    cases there
    refine ⟨sound, runs, old.entry.trans same.1.symm, ?_, ?_⟩
    · rw [same.2]
      exact old.asked
    · intro unknown
      have left := left_of_unasked sound unknown
      rw [same.2] at unknown
      have leftBefore := left_of_unasked old.sound unknown
      have due := old.unasked unknown
      rw [same.1]
      dsimp only
      omega
  · intro receiver there started
    have ledger := ((tidy.receiver receiver there).ledger started).present sender here
    refine ⟨?_, nofun, nofun⟩
    intro other same'
    cases same'
    rw [same.1]
    dsimp only
    omega

theorem Tidy.registers {sender moved : TransmitThread} (tidy : visit.Tidy)
    (here : visit.sender = some sender) (sound : moved.Sound) (runs : moved.ended = false)
    (before : sender.queue = none) (queue : moved.queue = some visit.queues.length)
    (sem : moved.semMatch = sender.semMatch)
    (same : moved.posts = sender.posts ∧ moved.pushes = sender.pushes ∧
      moved.left = sender.left) :
    Tidy { visit with
      queueEntry := some visit.queues.length
      queues := visit.queues ++ [some []]
      sender := some moved } := by
  have old := tidy.sender sender here
  have free : visit.queueEntry = none := old.entry.trans before
  have created : (visit.queues ++ [some []])[visit.queues.length]? = some (some []) :=
    List.getElem?_concat_length
  have empty := lengthAt_of_live created
  refine tidy.senderMoves here ⟨rfl, rfl⟩ ⟨rfl, rfl⟩ ?_ (.inl (Option.some_ne_none _))
    (fun held => absurd free held) ?_ ?_ (fun _ live => live) ?_
  · intro other there
    cases there
    refine ⟨sound, runs, queue.symm, ?_, ?_⟩
    · rw [sem]
      exact old.asked
    · intro unknown
      rw [sem] at unknown
      have due := old.unasked unknown
      rw [before] at due
      rw [queue, empty]
      simp only [lengthAt, Option.bind_none, Option.getD_none, List.length_nil] at due ⊢
      omega
  · intro other held
    cases held
    exact ⟨[], created⟩
  · intro other held
    rw [free] at held
    cases held
  · intro receiver there started
    have ledger := ((tidy.receiver receiver there).ledger started).present sender here
    refine ⟨?_, fun gone => (by cases gone), fun gone => (by cases gone)⟩
    intro other same'
    cases same'
    rw [before] at ledger
    rw [queue, empty]
    simp only [lengthAt, Option.bind_none, Option.getD_none, List.length_nil] at ledger ⊢
    omega

theorem Tidy.pushes {sender moved : TransmitThread} {queue : Nat}
    {names : List (List Byte)} {fileName : List Byte} (tidy : visit.Tidy)
    (here : visit.sender = some sender) (sound : moved.Sound) (runs : moved.ended = false)
    (same : moved.queue = sender.queue ∧ moved.semMatch = sender.semMatch)
    (held : sender.queue = some queue) (live : visit.queues[queue]? = some (some names))
    (balance : moved.posts = sender.posts ∧ sender.pushes = moved.pushes + 1 ∧
      moved.left = sender.left) :
    Tidy { visit with
      queues := visit.queues.set queue (some (names ++ [fileName]))
      sender := some moved } := by
  have old := tidy.sender sender here
  have pushed : (visit.queues.set queue (some (names ++ [fileName])))[queue]? =
      some (some (names ++ [fileName])) := by
    rw [getElem?_set_there _ live, if_pos rfl]
  have length := lengthAt_of_live live
  have longer := lengthAt_of_live pushed
  rw [List.length_append, List.length_singleton] at longer
  refine tidy.senderMoves here ⟨rfl, rfl⟩ ⟨rfl, rfl⟩ ?_ (.inl nofun) (fun _ => rfl) ?_ ?_
    (fun _ live => live) ?_
  · intro other there
    cases there
    refine ⟨sound, runs, old.entry.trans same.1.symm, ?_, ?_⟩
    · rw [same.2]
      exact old.asked
    · intro unknown
      rw [same.2] at unknown
      have due := old.unasked unknown
      rw [held] at due
      rw [same.1, held]
      dsimp only
      omega
  · intro other entry
    have own : other = queue := by
      rw [old.entry, held] at entry
      exact (Option.some.inj entry).symm
    subst own
    exact ⟨_, pushed⟩
  · intro other entry
    have own : other = queue := by
      rw [old.entry, held] at entry
      exact (Option.some.inj entry).symm
    subst own
    dsimp only
    omega
  · intro receiver there started
    have ledger := ((tidy.receiver receiver there).ledger started).present sender here
    refine ⟨?_, nofun, nofun⟩
    intro other same'
    cases same'
    rw [held] at ledger
    rw [same.1, held]
    dsimp only
    omega

theorem Tidy.looksUp {sender moved : TransmitThread} {sem : Nat} (tidy : visit.Tidy)
    (here : visit.sender = some sender) (sound : moved.Sound) (runs : moved.ended = false)
    (found : visit.semEntry = some sem) (asked : moved.semMatch = some sem)
    (queue : moved.queue = sender.queue)
    (same : moved.posts = sender.posts ∧ moved.pushes = sender.pushes ∧
      moved.left = sender.left) :
    Tidy { visit with sender := some moved } := by
  have old := tidy.sender sender here
  refine tidy.senderMoves here ⟨rfl, rfl⟩ ⟨rfl, rfl⟩ ?_ (.inl nofun) (fun _ => rfl)
    tidy.queueAlive (fun _ _ => Nat.le_refl _) (fun _ live => live) ?_
  · intro other there
    cases there
    refine ⟨sound, runs, old.entry.trans queue.symm, ?_, ?_⟩
    · intro other held
      rw [asked] at held
      cases held
      exact found
    · intro unknown
      rw [asked] at unknown
      cases unknown
  · intro receiver there started
    have ledger := ((tidy.receiver receiver there).ledger started).present sender here
    refine ⟨?_, nofun, nofun⟩
    intro other same'
    cases same'
    rw [queue]
    dsimp only
    omega

/-- The semaphore that the sender knows is the one of the receiver. -/
theorem Tidy.known {sender : TransmitThread} {sem : Nat} (tidy : visit.Tidy)
    (here : visit.sender = some sender) (held : sender.semMatch = some sem) :
    ∃ receiver, visit.receiver = some receiver ∧ receiver.pc ≠ .starting ∧
      receiver.sem = sem := by
  have entry := (tidy.sender sender here).asked sem held
  obtain ⟨receiver, there, started, early⟩ := tidy.semHeld sem entry
  have own := (tidy.receiver receiver there).semEntry started early
  rw [entry] at own
  exact ⟨receiver, there, started, (Option.some.inj own).symm⟩

theorem Tidy.signals {sender moved : TransmitThread} {sem value : Nat} (tidy : visit.Tidy)
    (here : visit.sender = some sender) (sound : moved.Sound)
    (same : moved.queue = sender.queue ∧ moved.semMatch = sender.semMatch)
    (held : sender.semMatch = some sem) (live : visit.sems[sem]? = some (some value))
    (balance : sender.posts = moved.posts + 1 ∧ moved.pushes = sender.pushes ∧
      moved.left = sender.left) :
    Tidy { visit with
      sems := visit.sems.set sem (some (value + 1))
      sender := if moved.ended then none else some moved } := by
  have old := tidy.sender sender here
  have registered : sender.queue ≠ none := old.sound.queue_of_posts (by omega)
  have raised : (visit.sems.set sem (some (value + 1)))[sem]? = some (some (value + 1)) := by
    rw [getElem?_set_there _ live, if_pos rfl]
  have before := valueAt_of_live live
  have now := valueAt_of_live raised
  obtain ⟨receiver, there, started, own⟩ := tidy.known here held
  refine tidy.senderMoves here ⟨rfl, rfl⟩ ⟨rfl, rfl⟩ ?_ ?_ (fun _ => rfl) tidy.queueAlive
    (fun _ _ => Nat.le_refl _) ?_ ?_
  · intro other there
    dsimp only at there
    split at there
    next => cases there
    next running =>
      cases there
      refine ⟨sound, eq_false_of_ne_true running, old.entry.trans same.1.symm, ?_, ?_⟩
      · rw [same.2]
        exact old.asked
      · intro unknown
        rw [same.2, held] at unknown
        cases unknown
  · dsimp only
    split
    · exact .inr ⟨by rw [old.entry]; exact registered, receiver, there, started⟩
    · exact .inl nofun
  · intro other kept
    obtain ⟨old, alive⟩ := kept
    rw [getElem?_set_there _ live]
    by_cases same : other = sem
    · rw [if_pos same]
      exact ⟨_, rfl⟩
    · rw [if_neg same]
      exact ⟨old, alive⟩
  · intro other there' _
    rw [there] at there'
    cases there'
    have ledger := ((tidy.receiver receiver there).ledger started).present sender here
    rw [own, before] at ledger
    constructor
    · intro current present
      dsimp only at present
      split at present
      next => cases present
      next =>
        cases present
        rw [own, same.1]
        dsimp only
        omega
    · intro none' queue used
      dsimp only at none' used
      split at none'
      next gone =>
        obtain ⟨posts, pushes, left⟩ := TransmitThread.counts_of_ended gone
        have entry : sender.queue = some queue := by
          rw [← old.entry]
          exact used.elim (tidy.entry here there) id
        rw [entry] at ledger
        rw [own]
        dsimp only
        omega
      next => cases none'
    · intro _ _ noEntry
      exact absurd (old.entry.symm.trans noEntry) registered

end Preservation

end Visit

end PaintingCPS
