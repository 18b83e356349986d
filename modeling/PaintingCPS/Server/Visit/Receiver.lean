import PaintingCPS.Server.Visit

/-!
Contract: `server_result` keeps its visit tidy while it serves.

It takes wake-ups and names from what the sender has left for it. A wake-up that
it has consumed stays in the ledger until the name behind it is taken.

Owns: one lemma for each kind of step of the receiver in its loop.

Does not own: the step out of the loop.
-/

set_option autoImplicit false

namespace PaintingCPS

open Foundation

namespace Visit

section Preservation

variable {visit : Visit}

/-- The receiver moves in its loop or towards its clean-up; the entries stay. -/
theorem Tidy.receiverMoves {after : Visit} {receiver moved : ResultThread}
    (tidy : visit.Tidy) (here : visit.receiver = some receiver)
    (there : after.receiver = some moved)
    (users : after.count = visit.count ∧ after.opener = visit.opener)
    (entries : after.semEntry = visit.semEntry ∧ after.queueEntry = visit.queueEntry)
    (sender : after.sender = visit.sender)
    (early : receiver.pc.afterSem = false ∧ moved.pc ≠ .starting ∧ moved.pc.afterSem = false)
    (lengths : ∀ sender, visit.sender = some sender → sender.semMatch = none →
      lengthAt after.queues sender.queue = lengthAt visit.queues sender.queue)
    (alive : ∀ queue, visit.Alive queue → after.Alive queue)
    (moves : after.ReceiverTidy moved) : after.Tidy := by
  obtain ⟨counts, openers⟩ := users
  obtain ⟨sems, queues⟩ := entries
  obtain ⟨notErased, started, notErasing⟩ := early
  have counted : visit.count ≠ none := by
    intro new
    have nobody := (tidy.absent new).2.2
    rw [here] at nobody
    cases nobody
  constructor
  · intro other present
    rw [sender] at present
    have old := tidy.sender other present
    refine ⟨old.sound, old.runs, queues.trans old.entry, sems ▸ old.asked, ?_⟩
    intro unknown
    rw [lengths other present unknown]
    exact old.unasked unknown
  · intro other present
    rw [there] at present
    cases present
    exact moves
  · intro sem held
    exact ⟨moved, there, started, notErasing⟩
  · rw [queues]
    exact fun queue held => alive queue (tidy.queueAlive queue held)
  · exact fun _ => .inr ⟨moved, there, started⟩
  · rw [counts]
    exact fun new => absurd new counted
  · rw [counts, openers, sender, queues]
    intro one
    refine ⟨(tidy.first one).1, fun other => ?_⟩
    have nobody := (tidy.first one).2 other
    rw [here] at nobody
    cases nobody
  · exact fun _ => .inr (by rw [there]; exact nofun)
  · rw [counts, sender, queues]
    intro some' two
    rcases tidy.joined some' two with present | held | ⟨other, present, stands⟩
    · exact .inl present
    · exact .inr (.inl held)
    · rw [here] at present
      cases present
      rw [stands] at notErased
      cases notErased

/-- Places in the loop. -/
private theorem serving_cases {pc : ResultAt} (within : pc.serving = true) :
    pc ≠ .starting ∧ pc ≠ .stopping ∧ pc.closing = false ∧ pc.afterSem = false ∧
      pc.afterQueue = false := by
  cases pc <;> simp_all [ResultAt.serving, ResultAt.closing, ResultAt.afterSem,
    ResultAt.afterQueue]

theorem Tidy.serves {receiver moved : ResultThread} (tidy : visit.Tidy)
    (here : visit.receiver = some receiver)
    (within : receiver.pc.serving = true ∧ moved.pc.serving = true)
    (same : moved.sem = receiver.sem ∧ moved.queue = receiver.queue)
    (awake : moved.pc.awake = receiver.pc.awake)
    (hungry : moved.pc.hungry = true →
      receiver.pc.hungry = true ∨ 0 < lengthAt visit.queues receiver.queue)
    (fetched : moved.pc.hasQueue = true → receiver.queue ≠ none) :
    Tidy { visit with receiver := some moved } := by
  have old := tidy.receiver receiver here
  obtain ⟨started, -, -, early, early'⟩ := serving_cases within.1
  obtain ⟨started', stays, notClosing, notErased, notErased'⟩ := serving_cases within.2
  obtain ⟨sems, queues⟩ := same
  have ledger := old.ledger started
  refine tidy.receiverMoves here rfl ⟨rfl, rfl⟩ ⟨rfl, rfl⟩ rfl ⟨early, started', notErased⟩
    (fun _ _ _ => rfl) (fun _ alive => alive) ?_
  constructor
  · exact stays
  · exact fun starts => absurd starts started'
  · rw [queues]
    exact fetched
  · rw [queues]
    exact fun wants => (hungry wants).elim old.hungry id
  · rw [sems]
    exact fun _ _ => old.semEntry started early
  · rw [queues]
    exact fun queue held _ => old.queueEntry queue held early'
  · rw [sems]
    exact fun _ => old.semAlive started
  · rw [queues]
    exact old.queueAlive
  · exact fun closes => absurd closes (by simp [notClosing])
  · exact fun late => absurd late (by simp [notErased'])
  · intro _
    constructor
    · rw [sems, awake]
      exact ledger.present
    · rw [sems, awake, queues]
      exact ledger.gone
    · rw [sems, awake, queues]
      exact ledger.missing
  · rw [queues]
    exact old.counted

theorem Tidy.wakes {receiver : ResultThread} {value : Nat} (tidy : visit.Tidy)
    (here : visit.receiver = some receiver) (stands : receiver.pc = .waiting)
    (live : visit.sems[receiver.sem]? = some (some (value + 1))) :
    Tidy { visit with
      sems := visit.sems.set receiver.sem (some value)
      receiver := some { receiver with pc := .woken } } := by
  have old := tidy.receiver receiver here
  have started : receiver.pc ≠ .starting := by rw [stands]; exact nofun
  have ledger := old.ledger started
  have lowered : (visit.sems.set receiver.sem (some value))[receiver.sem]? =
      some (some value) := by
    rw [getElem?_set_there _ live, if_pos rfl]
  have balance : valueAt (visit.sems.set receiver.sem (some value)) receiver.sem + 1 =
      valueAt visit.sems receiver.sem + receiver.pc.awake := by
    rw [valueAt_of_live lowered, valueAt_of_live live, stands]
    rfl
  refine tidy.receiverMoves here rfl ⟨rfl, rfl⟩ ⟨rfl, rfl⟩ rfl
    ⟨by rw [stands]; rfl, nofun, rfl⟩ (fun _ _ _ => rfl) (fun _ alive => alive) ?_
  exact
    { runs := nofun
      fresh := nofun
      fetched := nofun
      hungry := nofun
      semEntry := fun _ _ => old.semEntry started (by rw [stands]; rfl)
      queueEntry := fun queue held _ => old.queueEntry queue held (by rw [stands]; rfl)
      semAlive := fun _ => ⟨_, lowered⟩
      queueAlive := old.queueAlive
      closing := nofun
      noEntry := nofun
      ledger := fun _ =>
        ⟨balance ▸ ledger.present, balance ▸ ledger.gone, balance ▸ ledger.missing⟩
      counted := old.counted }

theorem Tidy.fetches {receiver : ResultThread} {queue : Nat} (tidy : visit.Tidy)
    (here : visit.receiver = some receiver) (stands : receiver.pc = .woken)
    (found : visit.queueEntry = some queue) :
    Tidy { visit with
      receiver := some { receiver with queue := some queue, pc := .testing } } := by
  have old := tidy.receiver receiver here
  have started : receiver.pc ≠ .starting := by rw [stands]; exact nofun
  have ledger := old.ledger started
  have awake : receiver.pc.awake = 1 := by rw [stands]; rfl
  have entered : visit.queueEntry ≠ none := by rw [found]; exact nofun
  have several : visit.count ≠ some 1 := by
    intro one
    by_cases transmit : visit.opener = .transmit
    · have nobody := (tidy.first one).2 (by rw [transmit]; exact nofun)
      rw [here] at nobody
      cases nobody
    · exact entered ((tidy.first one).1 transmit).2
  have ledger' : Ledger { visit with
      receiver := some { receiver with queue := some queue, pc := .testing } }
      { receiver with queue := some queue, pc := .testing } := by
    constructor
    · intro sender there
      have balance := ledger.present sender there
      rw [awake] at balance
      exact balance
    · intro gone other used
      have own : visit.queueEntry = some other := by
        rcases used with held | entry
        · cases held
          exact found
        · exact entry
      have balance := ledger.gone gone other (.inr own)
      rw [awake] at balance
      exact balance
    · exact nofun
  refine tidy.receiverMoves here rfl ⟨rfl, rfl⟩ ⟨rfl, rfl⟩ rfl
    ⟨by rw [stands]; rfl, nofun, rfl⟩ (fun _ _ _ => rfl) (fun _ alive => alive) ?_
  exact
    { runs := nofun
      fresh := nofun
      fetched := nofun
      hungry := nofun
      semEntry := fun _ _ => old.semEntry started (by rw [stands]; rfl)
      queueEntry := fun other held _ => by
        cases held
        exact found
      semAlive := fun _ => old.semAlive started
      queueAlive := fun other held => by
        cases held
        exact tidy.queueAlive queue found
      closing := nofun
      noEntry := nofun
      ledger := fun _ => ledger'
      counted := fun _ => several }

/-- A semaphore is registered before anybody knows it, and whoever came first
has as many signals to give as there are names. -/
theorem Tidy.starts {receiver : ResultThread} (tidy : visit.Tidy)
    (here : visit.receiver = some receiver) (stands : receiver.pc = .starting) :
    Tidy { visit with
      semEntry := some visit.sems.length
      sems := visit.sems ++ [some 0]
      receiver := some { receiver with sem := visit.sems.length, pc := .replying } } := by
  have old := tidy.receiver receiver here
  have noQueue := old.fresh stands
  have created : (visit.sems ++ [some 0])[visit.sems.length]? = some (some 0) :=
    List.getElem?_concat_length
  have zero := valueAt_of_live created
  have unheld : ∀ sem, visit.semEntry ≠ some sem := by
    intro sem held
    obtain ⟨other, there, started, -⟩ := tidy.semHeld sem held
    rw [here] at there
    cases there
    exact started stands
  have unasked : ∀ sender, visit.sender = some sender → sender.semMatch = none := by
    intro sender there
    cases asked : sender.semMatch with
    | none => rfl
    | some sem => exact absurd ((tidy.sender sender there).asked sem asked) (unheld sem)
  have ledger : Ledger { visit with
      semEntry := some visit.sems.length
      sems := visit.sems ++ [some 0]
      receiver := some { receiver with sem := visit.sems.length, pc := .replying } }
      { receiver with sem := visit.sems.length, pc := .replying } := by
    constructor
    · intro sender there
      have known := tidy.sender sender there
      have due := known.unasked (unasked sender there)
      have left := left_of_unasked known.sound (unasked sender there)
      simp only [zero, ResultAt.awake]
      omega
    · intro gone queue used
      have entered : visit.queueEntry ≠ none := by
        rw [used.resolve_left (by rw [noQueue]; exact nofun)]
        exact nofun
      rcases tidy.entered entered with present | ⟨other, there, started⟩
      · exact absurd gone present
      · rw [here] at there
        cases there
        exact absurd stands started
    · intro _ _ _
      simp only [zero, ResultAt.awake]
  constructor
  · intro sender there
    have known := tidy.sender sender there
    refine { known with asked := ?_ }
    intro sem asked
    rw [unasked sender there] at asked
    cases asked
  · intro other there
    cases there
    exact
      { runs := nofun
        fresh := nofun
        fetched := nofun
        hungry := nofun
        semEntry := fun _ _ => rfl
        queueEntry := by
          rw [noQueue]
          exact nofun
        semAlive := fun _ => ⟨0, created⟩
        queueAlive := by
          rw [noQueue]
          exact nofun
        closing := nofun
        noEntry := nofun
        ledger := fun _ => ledger
        counted := fun held => absurd noQueue held }
  · exact fun _ _ => ⟨_, rfl, nofun, rfl⟩
  · exact tidy.queueAlive
  · exact fun _ => .inr ⟨_, rfl, nofun⟩
  · intro new
    have nobody := (tidy.absent new).2.2
    rw [here] at nobody
    cases nobody
  · intro one
    refine ⟨(tidy.first one).1, fun other => ?_⟩
    have nobody := (tidy.first one).2 other
    rw [here] at nobody
    cases nobody
  · exact fun _ => .inr nofun
  · intro present two
    rcases tidy.joined present two with sender | entry | ⟨other, there, erases⟩
    · exact .inl sender
    · exact .inr (.inl entry)
    · rw [here] at there
      cases there
      rw [stands] at erases
      cases erases

/-- A sender that does not know its semaphore leaves no wake-up to take. -/
private theorem Tidy.asked_of_awake {sender : TransmitThread} {receiver : ResultThread}
    (tidy : visit.Tidy) (here : visit.sender = some sender)
    (there : visit.receiver = some receiver) (started : receiver.pc ≠ .starting)
    (awake : receiver.pc.awake = 1) : sender.semMatch ≠ none := by
  intro unknown
  have known := tidy.sender sender here
  have due := known.unasked unknown
  have left := left_of_unasked known.sound unknown
  have balance := ((tidy.receiver receiver there).ledger started).present sender here
  omega

theorem Tidy.takes {receiver : ResultThread} {queue : Nat} {fileName : List Byte}
    {rest : List (List Byte)} {pc : ResultAt} (tidy : visit.Tidy)
    (here : visit.receiver = some receiver)
    (stands : receiver.pc = .permitted ∨ receiver.pc = .taking)
    (held : receiver.queue = some queue)
    (live : visit.queues[queue]? = some (some (fileName :: rest)))
    (next : pc = .popped fileName ∨ pc = .receiving) :
    Tidy { visit with
      queues := visit.queues.set queue (some rest)
      receiver := some { receiver with pc := pc } } := by
  have old := tidy.receiver receiver here
  obtain ⟨started, awake, early, early'⟩ : receiver.pc ≠ .starting ∧
      receiver.pc.awake = 1 ∧ receiver.pc.afterSem = false ∧ receiver.pc.afterQueue = false := by
    rcases stands with stands | stands <;> rw [stands] <;> exact ⟨nofun, rfl, rfl, rfl⟩
  obtain ⟨started', asleep, stays, notHungry, notClosing, late, late'⟩ :
      pc ≠ .starting ∧ pc.awake = 0 ∧ pc ≠ .stopping ∧ pc.hungry = false ∧
      pc.closing = false ∧ pc.afterSem = false ∧ pc.afterQueue = false := by
    rcases next with rfl | rfl <;> exact ⟨nofun, rfl, nofun, rfl, rfl, rfl, rfl⟩
  have ledger := old.ledger started
  have taken : (visit.queues.set queue (some rest))[queue]? = some (some rest) := by
    rw [getElem?_set_there _ live, if_pos rfl]
  have longer := lengthAt_of_live live
  have shorter := lengthAt_of_live taken
  rw [List.length_cons] at longer
  have alive : ∀ other, visit.Alive other →
      Alive { visit with
        queues := visit.queues.set queue (some rest)
        receiver := some { receiver with pc := pc } } other := by
    intro other ⟨names, there⟩
    by_cases same : other = queue
    · subst same
      exact ⟨rest, taken⟩
    · exact ⟨names, by rw [getElem?_set_there _ live, if_neg same, there]⟩
  have ledger' : Ledger { visit with
      queues := visit.queues.set queue (some rest)
      receiver := some { receiver with pc := pc } } { receiver with pc := pc } := by
    constructor
    · intro sender there
      have balance := ledger.present sender there
      have entry := (tidy.sender sender there).entry
      rw [old.queueEntry queue held early'] at entry
      rw [← entry] at balance ⊢
      simp only [asleep]
      omega
    · intro gone other used
      have own : other = queue := by
        have entry := old.queueEntry queue held early'
        rcases used with mine | found
        · exact Option.some.inj (mine.symm.trans held)
        · exact Option.some.inj (found.symm.trans entry)
      subst own
      have balance := ledger.gone gone other (.inl held)
      simp only [asleep]
      omega
    · intro _ none'
      rw [held] at none'
      cases none'
  refine tidy.receiverMoves here rfl ⟨rfl, rfl⟩ ⟨rfl, rfl⟩ rfl ⟨early, started', late⟩ ?_ alive ?_
  · intro sender there unknown
    exact absurd unknown (tidy.asked_of_awake there here started awake)
  exact
    { runs := stays
      fresh := fun starts => absurd starts started'
      fetched := fun _ none' => by
        rw [held] at none'
        cases none'
      hungry := fun hungry => absurd hungry (by simp [notHungry])
      semEntry := fun _ _ => old.semEntry started early
      queueEntry := fun other own _ => old.queueEntry other own early'
      semAlive := fun _ => old.semAlive started
      queueAlive := fun other own => alive other (old.queueAlive other own)
      closing := fun closes => absurd closes (by simp [notClosing])
      noEntry := fun after => absurd after (by simp [late'])
      ledger := fun _ => ledger'
      counted := old.counted }

end Preservation

end Visit

end PaintingCPS
