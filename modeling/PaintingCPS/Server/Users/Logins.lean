import PaintingCPS.Server.Users.Places

/-!
Contract: logins and sessions.

A login opens a session of its own, or completes the one of its user. All other
sessions go on as they were.

Owns: what a login does to every session.

Does not own: which sessions there are.
-/

set_option autoImplicit false

namespace PaintingCPS

open Foundation

namespace Cast

section Moves

variable {config : Config} {process after : Process} {cast : Cast} {index : Nat}
variable {label : ProcessStep}

/-- A connection becomes something that plays no part in the session. -/
private theorem On.spared_connection (on : cast.On process) {sock : Int} {new : Thread}
    (there : process.threads[index]? = some (.connection sock))
    (threads : after.threads = process.threads.set index new)
    (same : after.queueMap = process.queueMap ∧ after.sems = process.sems ∧
      after.queues = process.queues)
    (unseen : cast.index = none → new.receiverOf cast.receiver.user = none)
    (noSender : cast.receiver.pc.afterUser = false → ∀ sender, new = .transmit sender →
      sender.user ≠ cast.receiver.user)
    (joined : cast.receiver.pc.afterUser = false →
      after.userMap cast.receiver.user = some 1 → process.userMap cast.receiver.user = some 1)
    (notChild : ∀ owner, new.childOf owner = none) (permits : after.permits ≤ process.permits) :
    cast.Spared process after := by
  obtain ⟨entries, sems, queues⟩ := same
  refine (untouched_of_set there threads ?_ ?_ (fun isNone _ => unseen isNone) ?_
    (fun _ => joined) (fun _ => by rw [entries]) (fun _ => by rw [sems])
    (fun _ _ _ => by rw [queues])).spared there threads (fun owner _ => notChild owner) permits
  · intro isIndex
    have found := on.receiver index isIndex
    rw [there] at found
    cases found
  · intro isPlace
    obtain ⟨sender, -, found⟩ := on.sender index isPlace
    rw [there] at found
    cases found
  · exact fun early sender isNew owner _ => absurd owner (noSender early sender isNew)

/-- A login only changes `user_map`. -/
theorem login_keeps {owner : User} {command : Command} {granted : Process}
    (login : process.login owner command = some granted) :
    granted.threads = process.threads ∧ granted.queueMap = process.queueMap ∧
      granted.sems = process.sems ∧ granted.queues = process.queues ∧
      ∀ other, other ≠ owner → granted.userMap other = process.userMap other := by
  rcases Process.login_cases login with ⟨-, rfl⟩ | ⟨-, rfl⟩ <;>
    exact ⟨rfl, rfl, rfl, rfl, fun other differs => Function.update_of_ne differs _ _⟩

/-- Somebody is turned away. -/
theorem On.spared_closed (on : cast.On process) {sock : Int}
    (there : process.threads[index]? = some (.connection sock))
    (permits : (process.setThread index .closed).permits ≤ process.permits) :
    cast.Spared process (process.setThread index .closed) :=
  on.spared_connection there rfl ⟨rfl, rfl, rfl⟩ (fun _ => rfl) (fun _ => nofun) (fun _ => id)
    (fun _ => rfl) permits

/-- Another user logs in. -/
theorem On.spared_login (on : cast.On process) {sock : Int} {command : Command}
    {owner : User} {granted : Process}
    (there : process.threads[index]? = some (.connection sock))
    (login : process.login owner command = some granted)
    (permits : (granted.setThread index (Process.entry owner sock command)).permits ≤
      process.permits)
    (other : cast.receiver.pc.afterUser = false → cast.receiver.user ≠ owner) :
    cast.Spared process (granted.setThread index (Process.entry owner sock command)) := by
  obtain ⟨threads, entries, sems, queues, counts⟩ := login_keeps login
  have set : (granted.setThread index (Process.entry owner sock command)).threads =
      process.threads.set index (Process.entry owner sock command) := by
    rw [Process.setThread, threads]
  refine on.spared_connection there set ⟨entries, sems, queues⟩ ?_ ?_ ?_ ?_ permits
  · intro isNone
    have early : cast.receiver.pc.afterUser = false := by
      rw [(on.absent isNone).1]
      rfl
    cases command with
    | result => exact if_neg fun same => other early same.1.symm
    | transmit | unknown => rfl
  · intro early sender isNew same
    cases command with
    | transmit =>
        cases isNew
        exact other early same.symm
    | result | unknown => cases isNew
  · intro early one
    rw [← counts _ (other early)]
    exact one
  · intro owner
    cases command <;> rfl

/-- A session with its first login. -/
def opened (index : Option Nat) (user : User) (sock : Int) (place : Option Nat) : Cast where
  index := index
  receiver := .init user sock
  place := place
  sender := place.map fun _ => .init user
  queue := none

theorem opened_tracked {user : User} {sock : Int} {place seat : Option Nat}
    (on : (opened seat user sock place).On process)
    (childless : (opened seat user sock place).children process.threads = [])
    (permits : process.permits ≤ config.parallelism) :
    (opened seat user sock place).Tracked config process := by
  refine ⟨on, fun future => ⟨_, .refl, ?_⟩⟩
  exact
    { sound := rfl
      stands := rfl
      sock := rfl
      transInfo := fun _ => rfl
      children := childless.symm
      permits := permits
      semMap := fun started => absurd rfl started
      semMatch := nofun
      resultQueue := rfl
      queueMap := fun _ => rfl
      imgQueue := fun _ => rfl
      departing := nofun
      program := by cases place <;> rfl
      transmitSem := by cases place <;> rfl }

/-- A `server_transmit` after a login was there before, or it is the new thread. -/
theorem sender_of_set {sock : Int} {new : Thread} {place : Nat} {sender : TransmitThread}
    (there : process.threads[index]? = some (.connection sock))
    (found : (process.threads.set index new)[place]? = some (.transmit sender)) :
    (place = index ∧ new = .transmit sender) ∨
      process.threads[place]? = some (.transmit sender) := by
  rw [getElem?_set_there new there] at found
  split at found
  next here => exact .inl ⟨here, Option.some.inj found⟩
  next => exact .inr found

/-- Nobody has created a child at the place of a connection. -/
theorem childless {sock : Int} {new : Thread} (owned : process.Owned)
    (there : process.threads[index]? = some (.connection sock))
    (notChild : new.childOf index = none) :
    (process.threads.set index new).filterMap (Thread.childOf index) = [] := by
  have same : new.childOf index = (Thread.connection sock).childOf index := notChild
  rw [filterMap_set_same there same, List.filterMap_eq_nil_iff]
  intro thread member
  obtain ⟨place, found⟩ := List.mem_iff_getElem?.mp member
  cases thread with
  | worker child =>
      apply if_neg
      intro mine
      obtain ⟨owner, isOwner⟩ := owned place child found
      rw [mine, there] at isOwner
      cases isOwner
  | connection _ | closed | transmit _ | result _ => rfl

/-- `server_result` logs in first. -/
theorem opens_result {user : User} {sock : Int} (apart : process.Apart)
    (there : process.threads[index]? = some (.connection sock))
    (threads : after.threads = process.threads.set index (.result (.init user sock)))
    (alone : (process.visit user).sender = none) (entry : after.queueMap user = none) :
    (opened (some index) user sock none).On after where
  receiver := by
    rintro place ⟨⟩
    rw [threads, getElem?_set_there _ there, if_pos rfl]
    rfl
  absent := nofun
  sender := nofun
  nobody := fun _ => ⟨rfl, rfl⟩
  user := nofun
  paired := fun _ place sender found same live => by
    rw [threads] at found
    rcases sender_of_set there found with ⟨-, impossible⟩ | before
    · cases impossible
    · have shown := apart.sender before live
      rw [same] at shown
      exact absurd (shown.symm.trans alone) nofun
  joined := fun _ present => absurd rfl present
  fetched := nofun
  entry := fun _ => entry
  held := nofun
  asked := nofun
  gone := fun _ => nofun

/-- `server_transmit` logs in first. -/
theorem opens_transmit {user : User} {sock : Int} (apart : process.Apart)
    (there : process.threads[index]? = some (.connection sock))
    (threads : after.threads = process.threads.set index (.transmit (.init user)))
    (alone : (process.visit user).sender = none) (nobody : (process.visit user).receiver = none)
    (entry : after.queueMap user = none) (future : Int) :
    (opened none user future (some index)).On after where
  receiver := by simp [opened]
  absent := fun _ => by
    refine ⟨rfl, ?_⟩
    have unseen : (Thread.transmit (.init user)).receiverOf user =
        (Thread.connection sock).receiverOf user := rfl
    simp only [Process.visit] at nobody
    simp only [Process.visit, threads]
    exact (findSome?_set_same there unseen).trans nobody
  sender := by
    rintro place ⟨⟩
    refine ⟨.init user, rfl, ?_⟩
    rw [threads, getElem?_set_there _ there, if_pos rfl]
  nobody := by simp [opened]
  user := by
    rintro sender ⟨⟩
    rfl
  paired := fun _ place sender found same live => by
    rw [threads] at found
    rcases sender_of_set there found with ⟨rfl, -⟩ | before
    · rfl
    · have shown := apart.sender before live
      rw [same] at shown
      exact absurd (shown.symm.trans alone) (by simp)
  joined := fun absent => absurd rfl absent
  fetched := by simp [opened, ResultThread.init]
  entry := fun _ => entry
  held := by
    rintro sender ⟨⟩
    rfl
  asked := by
    rintro sender sem ⟨⟩ impossible
    cases impossible
  gone := by
    rintro (departs | late)
    · cases departs
    · cases late

/-- `server_result` joins a session that `server_transmit` has opened. -/
theorem Tracked.joins_result (tracked : cast.Tracked config process)
    (owned : process.Owned) (isNone : cast.index = none)
    (there : process.threads[index]? = some (.connection cast.receiver.sock))
    (threads : after.threads = process.threads.set index (.result cast.receiver))
    (same : after.queueMap = process.queueMap ∧ after.sems = process.sems ∧
      after.queues = process.queues)
    (met : after.userMap cast.receiver.user ≠ some 1) (permits : after.permits ≤ process.permits) :
    ({ cast with index := some index } : Cast).Tracked config after := by
  have on := tracked.on
  obtain ⟨entries, sems, queues⟩ := same
  refine tracked.next ?_ rfl rfl ?_
  · exact
      { on with
        receiver := by
          rintro place ⟨⟩
          rw [threads, getElem?_set_there _ there, if_pos rfl]
        absent := nofun
        sender := fun place isPlace => by
          obtain ⟨sender, isSender, found⟩ := on.sender place isPlace
          refine ⟨sender, isSender, ?_⟩
          rw [threads, getElem?_set_there _ there, if_neg]
          · exact found
          · rintro rfl
            rw [there] at found
            cases found
        paired := fun early place sender found same live => by
          rw [threads] at found
          rcases sender_of_set there found with ⟨-, impossible⟩ | before
          · cases impossible
          · exact on.paired early place sender before same live
        joined := fun _ _ _ => met
        entry := fun registered => by
          rw [entries]
          exact on.entry registered }
  · intro future session presents
    refine .inl { presents with
      children := ?_
      permits := Nat.le_trans permits presents.permits
      semMatch := ?_
      imgQueue := ?_ }
    · rw [presents.children, Cast.children, Cast.children, isNone, Option.elim_none,
        Option.elim_some, threads, childless owned there rfl]
    · rw [sems]
      exact presents.semMatch
    · rw [queues]
      exact presents.imgQueue

/-- `server_transmit` joins a session that `server_result` has opened. -/
theorem Tracked.joins_transmit (tracked : cast.Tracked config process)
    (intact : process.Intact) {seat : Nat} (isIndex : cast.index = some seat) {sock : Int}
    (early : cast.receiver.pc.afterUser = false)
    (one : process.userMap cast.receiver.user = some 1)
    (alone : (process.visit cast.receiver.user).sender = none)
    (there : process.threads[index]? = some (.connection sock))
    (threads : after.threads = process.threads.set index (.transmit (.init cast.receiver.user)))
    (same : after.queueMap = process.queueMap ∧ after.sems = process.sems ∧
      after.queues = process.queues)
    (met : after.userMap cast.receiver.user ≠ some 1) (permits : after.permits ≤ process.permits) :
    ({ cast with
      place := some index
      sender := some (.init cast.receiver.user) } : Cast).Tracked config after := by
  have on := tracked.on
  obtain ⟨entries, sems, queues⟩ := same
  have isNone : cast.place = none := by
    by_contra present
    exact on.joined (by simp [isIndex]) present early one
  obtain ⟨noSender, noQueue⟩ := on.nobody isNone
  have tidy := (intact.tidy cast.receiver.user).receiver _
    (intact.apart.receiver (on.receiver seat isIndex) early)
  refine ⟨?_, fun future => ?_⟩
  · exact
      { on with
        receiver := fun place isPlace => by
          have found := on.receiver place isPlace
          rw [threads, getElem?_set_there _ there, if_neg]
          · exact found
          · rintro rfl
            rw [there] at found
            cases found
        absent := fun absent => by
          rw [isIndex] at absent
          cases absent
        sender := by
          rintro place ⟨⟩
          exact ⟨_, rfl, by rw [threads, getElem?_set_there _ there, if_pos rfl]⟩
        nobody := nofun
        user := by
          rintro sender ⟨⟩
          rfl
        paired := fun _ place sender found same live => by
          rw [threads] at found
          rcases sender_of_set there found with ⟨rfl, -⟩ | before
          · rfl
          · have shown := intact.apart.sender before live
            rw [same] at shown
            exact absurd (shown.symm.trans alone) nofun
        joined := fun _ _ _ => met
        entry := fun registered => by
          rw [entries]
          exact on.entry registered
        held := by
          rintro sender ⟨⟩
          exact noQueue.symm
        asked := by
          rintro sender sem ⟨⟩ impossible
          cases impossible
        gone := fun leaves => by
          -- who leaves has been joined
          have departs := leaves.resolve_right (by simp [early])
          have fetched := tidy.fetched (by
            cases stands : cast.receiver.pc <;>
              simp_all [ResultAt.departing, ResultAt.hasQueue])
          exact absurd one (tidy.counted fetched) }
  · obtain ⟨session, reached, presents⟩ := tracked.session (Transmit.init.actions ++ future)
    have nothing : cast.program = [] := by rw [Cast.program, noSender]; rfl
    have idle : cast.pending = [] := by rw [Cast.pending, noSender]; rfl
    rw [nothing, List.nil_append] at reached
    refine ⟨session, reached, { presents with
      children := ?_
      permits := Nat.le_trans permits presents.permits
      semMatch := ?_
      imgQueue := ?_
      program := ?_
      transmitSem := ?_ }⟩
    · have unseen : (Thread.transmit (.init cast.receiver.user)).childOf seat =
          (Thread.connection sock).childOf seat := rfl
      rw [presents.children, Cast.children, Cast.children, isIndex, threads]
      exact (filterMap_set_same there unseen).symm
    · rw [sems]
      exact presents.semMatch
    · rw [queues]
      exact presents.imgQueue
    · rw [presents.program, idle]
      rfl
    · rw [presents.transmitSem, noSender]
      rfl

end Moves

end Cast

end PaintingCPS
