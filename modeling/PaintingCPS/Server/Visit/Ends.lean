import PaintingCPS.Server.Visit.Receiver
import PaintingCPS.Server.Visit.Sender

/-!
Contract: how a visit begins and ends.

The receiver finds its queue empty only after the last signal of the sender, and
then erases the three entries one after the other. Whoever logs in next finds
nothing.

Owns: logins and the clean-up, that every step of a visit keeps it tidy, and
what is left of a visit that is over.

Does not own: the steps in between.
-/

set_option autoImplicit false

namespace PaintingCPS

open Foundation

namespace Visit

section Preservation

variable {visit : Visit}

/-! ### The clean-up -/

/-- An empty queue after a wake-up says that the sender has left. -/
private theorem Tidy.alone_of_empty {receiver : ResultThread} {queue : Nat} (tidy : visit.Tidy)
    (here : visit.receiver = some receiver) (stands : receiver.pc = .testing)
    (held : receiver.queue = some queue) (live : visit.queues[queue]? = some (some [])) :
    visit.sender = none := by
  cases there : visit.sender with
  | none => rfl
  | some sender =>
      exfalso
      have known := tidy.sender sender there
      have started : receiver.pc ≠ .starting := by rw [stands]; exact nofun
      have balance := ((tidy.receiver receiver here).ledger started).present sender there
      rw [← known.entry, tidy.entry there here held, lengthAt_of_live live, stands] at balance
      have due := known.sound.due_le known.runs
      simp only [ResultAt.awake, List.length_nil] at balance
      omega

/-- A wake-up comes after the registration of the queue. -/
theorem Tidy.entered_of_woken {receiver : ResultThread} (tidy : visit.Tidy)
    (here : visit.receiver = some receiver) (stands : receiver.pc = .woken) :
    receiver.queue ≠ none ∨ visit.queueEntry ≠ none := by
  by_contra unknown
  rw [not_or, not_not, not_not] at unknown
  obtain ⟨noQueue, noEntry⟩ := unknown
  have started : receiver.pc ≠ .starting := by rw [stands]; exact nofun
  have ledger := (tidy.receiver receiver here).ledger started
  cases there : visit.sender with
  | none =>
      have balance := ledger.missing there noQueue noEntry
      rw [stands] at balance
      simp only [ResultAt.awake] at balance
      omega
  | some sender =>
      have known := tidy.sender sender there
      have due := known.sound.due_le known.runs
      have balance := ledger.present sender there
      rw [← known.entry, noEntry, stands] at balance
      simp only [ResultAt.awake, lengthAt, Option.bind_none, Option.getD_none,
        List.length_nil] at balance
      omega

private theorem Tidy.closes {receiver : ResultThread} {queue : Nat} (tidy : visit.Tidy)
    (here : visit.receiver = some receiver) (stands : receiver.pc = .testing)
    (held : receiver.queue = some queue) (live : visit.queues[queue]? = some (some [])) :
    Tidy { visit with receiver := some { receiver with pc := .erasingSem } } := by
  have old := tidy.receiver receiver here
  have started : receiver.pc ≠ .starting := by rw [stands]; exact nofun
  have ledger := old.ledger started
  have alone := tidy.alone_of_empty here stands held live
  have awake : receiver.pc.awake = ResultAt.erasingSem.awake := by rw [stands]; rfl
  refine tidy.receiverMoves here rfl ⟨rfl, rfl⟩ ⟨rfl, rfl⟩ rfl
    ⟨by rw [stands]; rfl, nofun, rfl⟩ (fun _ _ _ => rfl) (fun _ alive => alive) ?_
  exact
    { runs := nofun
      fresh := nofun
      fetched := fun _ => old.fetched (by rw [stands]; rfl)
      hungry := nofun
      semEntry := fun _ _ => old.semEntry started (by rw [stands]; rfl)
      queueEntry := fun other own _ => old.queueEntry other own (by rw [stands]; rfl)
      semAlive := fun _ => old.semAlive started
      queueAlive := old.queueAlive
      closing := fun _ => ⟨alone, by rw [held]; exact lengthAt_of_live live⟩
      noEntry := nofun
      ledger := fun _ => ⟨awake ▸ ledger.present, awake ▸ ledger.gone, awake ▸ ledger.missing⟩
      counted := old.counted }

/-- Behind `sem_map.erase` no semaphore is registered. -/
private theorem Tidy.semErased {receiver : ResultThread} (tidy : visit.Tidy)
    (here : visit.receiver = some receiver) (late : receiver.pc.afterSem = true) :
    visit.semEntry = none := by
  cases entry : visit.semEntry with
  | none => rfl
  | some sem =>
      obtain ⟨other, there, -, early⟩ := tidy.semHeld sem entry
      rw [here] at there
      cases there
      rw [late] at early
      cases early

/-- The receiver erases its entries. -/
private theorem Tidy.unwinds {after : Visit} {receiver : ResultThread} {pc : ResultAt}
    (tidy : visit.Tidy) (here : visit.receiver = some receiver)
    (closes : receiver.pc = .erasingSem ∨ receiver.pc = .erasingQueue)
    (there : after.receiver = some { receiver with pc := pc })
    (same : after.count = visit.count ∧ after.sender = visit.sender ∧
      after.sems = visit.sems ∧ after.queues = visit.queues)
    (semEntry : after.semEntry = none)
    (next : (pc = .erasingQueue ∧ after.queueEntry = visit.queueEntry) ∨
      (pc = .erasingUser ∧ after.queueEntry = none)) : after.Tidy := by
  obtain ⟨counts, senders, sems, queues⟩ := same
  have old := tidy.receiver receiver here
  obtain ⟨started, closing, early, hasQueue, awake⟩ : receiver.pc ≠ .starting ∧
      receiver.pc.closing = true ∧ receiver.pc.afterQueue = false ∧
      receiver.pc.hasQueue = true ∧ receiver.pc.awake = 1 := by
    rcases closes with stands | stands <;> rw [stands] <;> exact ⟨nofun, rfl, rfl, rfl, rfl⟩
  obtain ⟨started', stays, late, notHungry, awake'⟩ : pc ≠ .starting ∧ pc ≠ .stopping ∧
      pc.afterSem = true ∧ pc.hungry = false ∧ pc.awake = 1 := by
    rcases next with ⟨rfl, -⟩ | ⟨rfl, -⟩ <;> exact ⟨nofun, nofun, rfl, rfl, rfl⟩
  have alone := (old.closing closing).1
  have fetched := old.fetched hasQueue
  have several := old.counted fetched
  have present : visit.count ≠ none := by
    intro new
    have nobody := (tidy.absent new).2.2
    rw [here] at nobody
    cases nobody
  have entry : ∀ queue, after.queueEntry = some queue → visit.queueEntry = some queue := by
    intro queue held
    rcases next with ⟨-, kept⟩ | ⟨-, erased⟩
    · exact kept.symm.trans held
    · rw [erased] at held
      cases held
  have alive : ∀ queue, visit.Alive queue → after.Alive queue := by
    intro queue live
    rw [Alive, queues]
    exact live
  have ledger := old.ledger started
  constructor
  · intro sender here'
    rw [senders, alone] at here'
    cases here'
  · intro moved there'
    rw [there] at there'
    cases there'
    exact
      { runs := stays
        fresh := fun starts => absurd starts started'
        fetched := fun _ => fetched
        hungry := fun hungry => absurd hungry (by simp [notHungry])
        semEntry := fun _ before => absurd before (by simp [late])
        queueEntry := fun queue held before => by
          rcases next with ⟨-, kept⟩ | ⟨rfl, -⟩
          · rw [kept]
            exact old.queueEntry queue held early
          · cases before
        semAlive := fun _ => by
          rw [sems]
          exact old.semAlive started
        queueAlive := fun queue held => alive queue (old.queueAlive queue held)
        closing := fun _ => by
          rw [senders, queues]
          exact old.closing closing
        noEntry := fun after' => by
          rcases next with ⟨rfl, -⟩ | ⟨-, erased⟩
          · cases after'
          · exact erased
        ledger := fun _ => by
          constructor
          · intro sender here'
            rw [senders, alone] at here'
            cases here'
          · intro _ queue used
            have balance := ledger.gone alone queue (used.imp_right (entry queue))
            rw [awake] at balance
            simp only [sems, queues, awake']
            exact balance
          · exact fun _ none' => absurd none' fetched
        counted := fun _ => counts ▸ several }
  · intro sem held
    rw [semEntry] at held
    cases held
  · exact fun queue held => alive queue (tidy.queueAlive queue (entry queue held))
  · exact fun _ => .inr ⟨_, there, started'⟩
  · exact fun new => absurd (counts.symm.trans new) present
  · exact fun one => absurd (counts.symm.trans one) several
  · exact fun _ => .inr (by rw [there]; exact nofun)
  · intro _ _
    rcases next with ⟨-, kept⟩ | ⟨rfl, -⟩
    · rw [kept, old.queueEntry _ (Option.ne_none_iff_exists'.mp fetched).choose_spec early]
      exact .inr (.inl nofun)
    · exact .inr (.inr ⟨_, there, rfl⟩)

private theorem Tidy.erasesUser {receiver : ResultThread} (tidy : visit.Tidy)
    (here : visit.receiver = some receiver) (stands : receiver.pc = .erasingUser) :
    Tidy { visit with
      count := none
      receiver := none } := by
  have old := tidy.receiver receiver here
  have alone := (old.closing (by rw [stands]; rfl)).1
  have noQueue := old.noEntry (by rw [stands]; rfl)
  have noSem := tidy.semErased here (by rw [stands]; rfl)
  constructor
  · intro sender there
    rw [alone] at there
    cases there
  · exact nofun
  · intro sem held
    rw [noSem] at held
    cases held
  · intro queue held
    rw [noQueue] at held
    cases held
  · exact fun entered => absurd noQueue entered
  · exact fun _ => ⟨alone, noQueue, rfl⟩
  · exact nofun
  · exact fun present => absurd rfl present
  · exact fun present => absurd rfl present

/-! ### Logins -/

/-- Without a receiver no semaphore is registered. -/
private theorem Tidy.semEntry_none (tidy : visit.Tidy) (nobody : visit.receiver = none) :
    visit.semEntry = none := by
  cases entry : visit.semEntry with
  | none => rfl
  | some sem =>
      obtain ⟨receiver, there, -⟩ := tidy.semHeld sem entry
      rw [nobody] at there
      cases there

private theorem senderTidy_init (user : User) (noQueue : visit.queueEntry = none) :
    visit.SenderTidy (.init user) where
  sound := TransmitThread.sound_init user
  runs := rfl
  entry := noQueue
  asked := nofun
  unasked := fun _ => rfl

private theorem receiverTidy_init (user : User) (sock : Int) :
    visit.ReceiverTidy (.init user sock) where
  runs := nofun
  fresh := fun _ => rfl
  fetched := nofun
  hungry := nofun
  semEntry := fun started => absurd rfl started
  queueEntry := nofun
  semAlive := fun started => absurd rfl started
  queueAlive := nofun
  closing := nofun
  noEntry := nofun
  ledger := fun started => absurd rfl started
  counted := fun held => absurd rfl held

private theorem Tidy.openedTransmit (user : User) (tidy : visit.Tidy) (new : visit.count = none) :
    Tidy { visit with
      count := some 1
      opener := .transmit
      sender := some (.init user) } := by
  obtain ⟨-, noQueue, nobody⟩ := tidy.absent new
  have noSem := tidy.semEntry_none nobody
  constructor
  · intro sender there
    cases there
    exact senderTidy_init user noQueue
  · intro receiver there
    rw [nobody] at there
    cases there
  · intro sem held
    rw [noSem] at held
    cases held
  · intro queue held
    rw [noQueue] at held
    cases held
  · exact fun _ => .inl nofun
  · exact nofun
  · exact fun _ => ⟨fun other => absurd rfl other, fun _ => nobody⟩
  · exact fun _ => .inl nofun
  · exact fun _ _ => .inl nofun

private theorem Tidy.openedResult (user : User) (sock : Int) (tidy : visit.Tidy)
    (new : visit.count = none) :
    Tidy { visit with
      count := some 1
      opener := .result
      receiver := some (.init user sock) } := by
  obtain ⟨alone, noQueue, nobody⟩ := tidy.absent new
  have noSem := tidy.semEntry_none nobody
  constructor
  · intro sender there
    rw [alone] at there
    cases there
  · intro receiver there
    cases there
    exact receiverTidy_init user sock
  · intro sem held
    rw [noSem] at held
    cases held
  · intro queue held
    rw [noQueue] at held
    cases held
  · exact fun entered => absurd noQueue entered
  · exact nofun
  · exact fun _ => ⟨fun _ => ⟨alone, noQueue⟩, fun other => absurd rfl other⟩
  · exact fun _ => .inr nofun
  · exact fun _ several => absurd rfl several

/-- The receiver has waited for nothing so far. -/
private theorem Tidy.joinedTransmit (user : User) (tidy : visit.Tidy)
    (second : visit.count = some 1) (other : visit.opener ≠ .transmit) :
    Tidy { visit with
      count := some 2
      sender := some (.init user) } := by
  obtain ⟨alone, noQueue⟩ := (tidy.first second).1 other
  have unfetched : ∀ receiver, visit.receiver = some receiver → receiver.queue = none := by
    intro receiver there
    by_contra fetched
    exact (tidy.receiver receiver there).counted fetched second
  constructor
  · intro sender there
    cases there
    exact senderTidy_init user noQueue
  · intro receiver there
    have old := tidy.receiver receiver there
    have idle := unfetched receiver there
    have early : receiver.pc.closing = false := by
      by_contra closes
      refine old.fetched ?_ idle
      cases stands : receiver.pc <;> simp_all [ResultAt.closing, ResultAt.hasQueue]
    refine { old with closing := ?_, ledger := ?_, counted := ?_ }
    · exact fun closes => absurd closes (by simp [early])
    · intro started
      refine ⟨?_, fun gone => (by cases gone), fun gone => (by cases gone)⟩
      intro sender here
      cases here
      exact (old.ledger started).missing alone idle noQueue
    · exact fun held => absurd idle held
  · exact tidy.semHeld
  · intro queue held
    rw [noQueue] at held
    cases held
  · exact fun _ => .inl (Option.some_ne_none _)
  · exact fun one => by cases one
  · exact fun one => by cases one
  · exact fun _ => .inl (Option.some_ne_none _)
  · exact fun _ _ => .inl (Option.some_ne_none _)

private theorem Tidy.joinedResult (user : User) (sock : Int) (tidy : visit.Tidy)
    (second : visit.count = some 1) (other : visit.opener ≠ .result) :
    Tidy { visit with
      count := some 2
      receiver := some (.init user sock) } := by
  have nobody := (tidy.first second).2 other
  have noSem := tidy.semEntry_none nobody
  have present : visit.sender ≠ none :=
    (tidy.occupied (by rw [second]; exact nofun)).resolve_right fun there => there nobody
  constructor
  · intro sender there
    exact { tidy.sender sender there with }
  · intro receiver there
    cases there
    exact receiverTidy_init user sock
  · intro sem held
    rw [noSem] at held
    cases held
  · exact tidy.queueAlive
  · exact fun _ => .inl present
  · exact nofun
  · exact nofun
  · exact fun _ => .inl present
  · exact fun _ _ => .inl present

/-- Every step of a visit keeps it tidy. -/
theorem Tidy.step {after : Visit} (tidy : visit.Tidy) (step : visit.Step after) :
    after.Tidy := by
  cases step with
  | elsewhere semSame queueSame => exact tidy.elsewhere semSame queueSame
  | openedTransmit user new => exact tidy.openedTransmit user new
  | openedResult user sock new => exact tidy.openedResult user sock new
  | joinedTransmit user second other => exact tidy.joinedTransmit user second other
  | joinedResult user sock second other => exact tidy.joinedResult user sock second other
  | sends here sound runs same balance => exact tidy.sends here sound runs same balance
  | registers here sound runs before queue sem same =>
      exact tidy.registers here sound runs before queue sem same
  | pushes here sound runs same held live balance =>
      exact tidy.pushes here sound runs same held live balance
  | looksUp here sound runs _ found asked queue same =>
      exact tidy.looksUp here sound runs found asked queue same
  | signals here sound same held live balance =>
      exact tidy.signals here sound same held live balance
  | serves here within same awake hungry fetched =>
      exact tidy.serves here within same awake hungry fetched
  | starts here stands => exact tidy.starts here stands
  | wakes here stands live => exact tidy.wakes here stands live
  | fetches here stands _ found => exact tidy.fetches here stands found
  | takes here stands held live next => exact tidy.takes here stands held live next
  | closes here stands held live => exact tidy.closes here stands held live
  | erasesSem here stands =>
      exact tidy.unwinds here (.inl stands) rfl ⟨rfl, rfl, rfl, rfl⟩ rfl (.inl ⟨rfl, rfl⟩)
  | erasesQueue here stands =>
      have noSem := tidy.semErased here (by rw [stands]; rfl)
      exact tidy.unwinds here (.inr stands) rfl ⟨rfl, rfl, rfl, rfl⟩ noSem (.inr ⟨rfl, rfl⟩)
  | erasesUser here stands => exact tidy.erasesUser here stands

/-- What a visit uses is there. -/
theorem Tidy.sem_alive {sem : Nat} (tidy : visit.Tidy) (uses : visit.UsesSem sem) :
    ∃ value, visit.sems[sem]? = some (some value) := by
  obtain ⟨receiver, here, started, rfl⟩ := uses
  exact (tidy.receiver receiver here).semAlive started

theorem Tidy.queue_alive {queue : Nat} (tidy : visit.Tidy) (uses : visit.UsesQueue queue) :
    ∃ names, visit.queues[queue]? = some (some names) := by
  rcases uses with entry | ⟨receiver, here, held⟩
  · exact tidy.queueAlive queue entry
  · exact (tidy.receiver receiver here).queueAlive queue held

/-! ### The end of a visit -/

/-- A visit whose sender has left and whose receiver has nothing to wake up for
is over. -/
theorem Tidy.vanished (tidy : visit.Tidy) (alone : visit.sender = none)
    (idle : ∀ receiver, visit.receiver = some receiver →
      receiver.pc = .waiting ∧ valueAt visit.sems receiver.sem = 0)
    (met : visit.count ≠ some 1) :
    visit.count = none ∧ visit.semEntry = none ∧ visit.queueEntry = none ∧
      visit.receiver = none := by
  have absent : visit.count = none := by
    by_contra present
    rcases tidy.joined present met with sender | entered | ⟨receiver, there, stands⟩
    · exact sender alone
    · obtain ⟨receiver, there, started⟩ := (tidy.entered entered).resolve_left (absurd alone)
      obtain ⟨queue, entry⟩ := Option.ne_none_iff_exists'.mp entered
      obtain ⟨stands, zero⟩ := idle receiver there
      have balance := ((tidy.receiver receiver there).ledger started).gone alone queue (.inr entry)
      rw [zero, stands] at balance
      simp only [ResultAt.awake] at balance
      omega
    · rw [(idle receiver there).1] at stands
      cases stands
  obtain ⟨-, noQueue, nobody⟩ := tidy.absent absent
  exact ⟨absent, tidy.semEntry_none nobody, noQueue, nobody⟩

end Preservation

end Visit

end PaintingCPS
