import PaintingCPS.Server.Users.Logins

/-!
Contract: the users of one server process do not disturb each other.

A login opens a session, or completes one. Whatever the threads of all users do
then, each session goes on like a session of the session model. So what holds
of every session there holds of every user here.

Owns: the sessions of all users, and the refinement.

Does not own: Storm mode.
-/

set_option autoImplicit false

namespace PaintingCPS

open Foundation

/-- While `server_transmit` is there, `server_result` does not leave. -/
private theorem Visit.receiver_before {visit after : Visit} (tidy : visit.Tidy)
    (step : visit.Step after) (nobody : after.receiver = none) (sends : after.sender ≠ none) :
    visit.receiver = none := by
  cases step with
  | erasesUser here stands =>
      have gone := ((tidy.receiver _ here).closing (by rw [stands]; rfl)).1
      exact absurd gone sends
  | elsewhere | openedTransmit | joinedTransmit | sends | registers | pushes | looksUp
  | signals => exact nobody
  | openedResult | joinedResult | serves | starts | wakes | fetches | takes | closes | erasesSem
  | erasesQueue => cases nobody

namespace Process

/-- Every `server_result` is in a session, and every `server_transmit` that has
none yet is in one with whoever comes. -/
structure Separate (config : Config) (process : Process) : Prop where
  owned : process.Owned
  permits : process.permits ≤ config.parallelism
  results : ∀ (index : Nat) (thread : ResultThread),
    process.threads[index]? = some (.result thread) →
      ∃ cast : Cast, cast.index = some index ∧ cast.Tracked config process
  senders : ∀ (place : Nat) (sender : TransmitThread),
    process.threads[place]? = some (.transmit sender) → sender.ended = false →
      (process.visit sender.user).receiver = none → ∀ sock, ∃ cast : Cast,
        cast.index = none ∧ cast.place = some place ∧ cast.receiver = .init sender.user sock ∧
          cast.Tracked config process

section Separate

variable {config : Config} {process after : Process} {label : ProcessStep} {index : Nat}

/-- A step without a login. -/
private theorem Separate.goesOn (separate : process.Separate config) (intact : process.Intact)
    (still : after.Intact) (served : config.mode ≠ .mf) (disk : config.storm = false)
    (cooperates : process.Cooperates config label)
    (noLogin : ∀ index bytes, label ≠ .header index bytes)
    (moves : Moves config process label after) : after.Separate config where
  owned := separate.owned.moves moves
  permits := Nat.le_trans moves.permits_le separate.permits
  results := fun place thread found => by
    obtain ⟨before, there⟩ : ∃ before, process.threads[place]? = some (.result before) := by
      cases moves.origin noLogin found with
      | stays there => exact ⟨_, there⟩
      | result there => exact ⟨_, there⟩
    obtain ⟨cast, isIndex, tracked⟩ := separate.results place before there
    obtain ⟨moved, same, -, -, goesOn⟩ :=
      tracked.moves intact still disk cooperates noLogin moves
    exact ⟨moved, same.trans isIndex, goesOn⟩
  senders := fun place sender found live nobody sock => by
    obtain ⟨before, there, owner, lived⟩ : ∃ before,
        process.threads[place]? = some (.transmit before) ∧ sender.user = before.user ∧
          before.ended = false := by
      cases moves.origin noLogin found with
      | stays there => exact ⟨_, there, rfl, live⟩
      | transmit there same lived => exact ⟨_, there, same, lived⟩
    have sends : (after.visit sender.user).sender ≠ none := by
      rw [still.apart.sender found live]
      exact nofun
    have alone := Visit.receiver_before (intact.tidy sender.user)
      (moves.visit intact.apart intact.tidy served cooperates) nobody sends
    rw [owner] at alone
    obtain ⟨cast, isNone, isPlace, isInit, tracked⟩ :=
      separate.senders place before there lived alone sock
    obtain ⟨moved, sameIndex, samePlace, sameReceiver, goesOn⟩ :=
      tracked.moves intact still disk cooperates noLogin moves
    exact ⟨moved, sameIndex.trans isNone, samePlace.trans isPlace,
      (sameReceiver isNone).trans (isInit.trans (by rw [owner])), goesOn⟩

/-! ### Steps with a login -/

/-- Somebody is turned away. -/
private theorem Separate.turnsAway (separate : process.Separate config) {sock : Int}
    {bytes : Option (List Byte)} (there : process.threads[index]? = some (.connection sock))
    (moves : Moves config process (.header index bytes) (process.setThread index .closed)) :
    (process.setThread index .closed).Separate config where
  owned := separate.owned.moves moves
  permits := Nat.le_trans moves.permits_le separate.permits
  results := fun place thread found => by
    have before : process.threads[place]? = some (.result thread) := by
      rw [setThread, getElem?_set_there _ there] at found
      split at found
      next => cases found
      next => exact found
    obtain ⟨cast, isIndex, tracked⟩ := separate.results place thread before
    exact ⟨cast, isIndex, tracked.spared (tracked.on.spared_closed there moves.permits_le)⟩
  senders := fun place sender found live nobody future => by
    have before := (Cast.sender_of_set there found).resolve_left (by simp)
    have alone : (process.visit sender.user).receiver = none := by
      have unseen : Thread.closed.receiverOf sender.user =
          (Thread.connection sock).receiverOf sender.user := rfl
      exact (findSome?_set_same there unseen).symm.trans nobody
    obtain ⟨cast, isNone, isPlace, isInit, tracked⟩ :=
      separate.senders place sender before live alone future
    exact ⟨cast, isNone, isPlace, isInit,
      tracked.spared (tracked.on.spared_closed there moves.permits_le)⟩

section Admitted

variable {sock : Int} {owner : User} {granted : Process}

/-- `server_result` logs in. -/
private theorem Separate.admits_result (separate : process.Separate config)
    (intact : process.Intact) (there : process.threads[index]? = some (.connection sock))
    (login : process.login owner .result = some granted)
    (fits : process.userMap owner = none ∨ Command.result ≠ process.opener owner)
    (permits : (granted.setThread index (entry owner sock .result)).permits ≤ process.permits) :
    ∃ cast : Cast, cast.index = some index ∧
      cast.Tracked config (granted.setThread index (entry owner sock .result)) := by
  have tidy := intact.tidy owner
  obtain ⟨threads, entries, sems, queues, -⟩ := Cast.login_keeps login
  have set : (granted.setThread index (entry owner sock .result)).threads =
      process.threads.set index (.result (.init owner sock)) := by
    rw [setThread, threads]
    rfl
  rcases login_cases login with ⟨new, -⟩ | ⟨second, isGranted⟩
  · obtain ⟨alone, noQueue, -⟩ := tidy.absent new
    refine ⟨_, rfl, Cast.opened_tracked (Cast.opens_result intact.apart there set alone ?_) ?_
      (Nat.le_trans permits separate.permits)⟩
    · exact (congrFun entries owner).trans noQueue
    · rw [set]
      exact Cast.childless separate.owned there rfl
  · have other := (fits.resolve_left (by simp [second])).symm
    have nobody := (tidy.first second).2 other
    obtain ⟨sender, shown⟩ := Option.ne_none_iff_exists'.mp
      ((tidy.occupied (by simp [visit, second])).resolve_right (absurd nobody))
    obtain ⟨member, rfl, live⟩ := sender_of_visit shown
    obtain ⟨place, found⟩ := List.mem_iff_getElem?.mp member
    obtain ⟨cast, isNone, isPlace, isInit, tracked⟩ :=
      separate.senders place sender found live nobody sock
    have isUser : cast.receiver.user = sender.user := by rw [isInit]; rfl
    have isSock : cast.receiver.sock = sock := by rw [isInit]; rfl
    refine ⟨_, rfl, tracked.joins_result separate.owned isNone (by rw [isSock]; exact there)
      (by rw [isInit]; exact set) ⟨entries, sems, queues⟩ ?_ permits⟩
    rw [isUser, isGranted]
    simp [setThread]

/-- `server_transmit` logs in. -/
private theorem Separate.admits_transmit (separate : process.Separate config)
    (intact : process.Intact) (there : process.threads[index]? = some (.connection sock))
    (login : process.login owner .transmit = some granted)
    (fits : process.userMap owner = none ∨ Command.transmit ≠ process.opener owner)
    (permits : (granted.setThread index (entry owner sock .transmit)).permits ≤ process.permits)
    (nobody : (process.visit owner).receiver = none) (future : Int) :
    ∃ cast : Cast, cast.index = none ∧ cast.place = some index ∧
      cast.receiver = .init owner future ∧
        cast.Tracked config (granted.setThread index (entry owner sock .transmit)) := by
  have tidy := intact.tidy owner
  obtain ⟨threads, entries, sems, queues, -⟩ := Cast.login_keeps login
  have set : (granted.setThread index (entry owner sock .transmit)).threads =
      process.threads.set index (.transmit (.init owner)) := by
    rw [setThread, threads]
    rfl
  rcases login_cases login with ⟨new, -⟩ | ⟨second, -⟩
  · obtain ⟨alone, noQueue, -⟩ := tidy.absent new
    refine ⟨_, rfl, rfl, rfl, Cast.opened_tracked (Cast.opens_transmit intact.apart there set alone
      nobody ?_ future) rfl (Nat.le_trans permits separate.permits)⟩
    exact (congrFun entries owner).trans noQueue
  · have other := (fits.resolve_left (by simp [second])).symm
    have alone := ((tidy.first second).1 other).1
    have somebody := tidy.occupied (by simp [visit, second])
    exact absurd nobody (somebody.resolve_left (absurd alone))

/-- A session of which the new thread may be the `server_transmit`. -/
private theorem Separate.meets {cast : Cast} (tracked : cast.Tracked config process)
    (intact : process.Intact) {command : Command} {seat : Nat} (isIndex : cast.index = some seat)
    (there : process.threads[index]? = some (.connection sock))
    (login : process.login owner command = some granted) (known : command ≠ .unknown)
    (fits : process.userMap owner = none ∨ command ≠ process.opener owner)
    (permits : (granted.setThread index (entry owner sock command)).permits ≤ process.permits) :
    ∃ moved : Cast, moved.index = some seat ∧
      moved.Tracked config (granted.setThread index (entry owner sock command)) := by
  have on := tracked.on
  by_cases own : cast.receiver.pc.afterUser = false ∧ cast.receiver.user = owner
  · obtain ⟨early, rfl⟩ := own
    have shown := intact.apart.receiver (on.receiver seat isIndex) early
    obtain ⟨noSender, noReceiver⟩ := newcomer_alone intact.tidy fits login
    cases command with
    | unknown => exact absurd rfl known
    | result =>
        rw [noReceiver rfl] at shown
        cases shown
    | transmit =>
        obtain ⟨threads, entries, sems, queues, -⟩ := Cast.login_keeps login
        rcases login_cases login with ⟨new, -⟩ | ⟨second, isGranted⟩
        · rw [((intact.tidy _).absent new).2.2] at shown
          cases shown
        · have set : (granted.setThread index
              (entry cast.receiver.user sock .transmit)).threads =
                process.threads.set index (.transmit (.init cast.receiver.user)) := by
            rw [setThread, threads]
            rfl
          refine ⟨{ cast with
            place := some index
            sender := some (.init cast.receiver.user) }, isIndex,
            tracked.joins_transmit intact isIndex early second (noSender rfl) there set
              ⟨entries, sems, queues⟩ ?_ permits⟩
          rw [isGranted]
          simp [setThread]
  · exact ⟨cast, isIndex, tracked.spared (on.spared_login there login permits fun early same =>
      own ⟨early, same⟩)⟩

/-- Somebody is admitted. -/
private theorem Separate.admits (separate : process.Separate config) (intact : process.Intact)
    {bytes : Option (List Byte)} {command : Command}
    (still : (granted.setThread index (entry owner sock command)).Intact)
    (there : process.threads[index]? = some (.connection sock))
    (login : process.login owner command = some granted) (known : command ≠ .unknown)
    (fits : process.userMap owner = none ∨ command ≠ process.opener owner)
    (moves : Moves config process (.header index bytes)
      (granted.setThread index (entry owner sock command))) :
    (granted.setThread index (entry owner sock command)).Separate config := by
  have permits := moves.permits_le
  have threads : (granted.setThread index (entry owner sock command)).threads =
      process.threads.set index (entry owner sock command) := by
    rw [setThread, (Cast.login_keeps login).1]
  have here : (process.threads.set index (entry owner sock command))[index]? =
      some (entry owner sock command) := by
    rw [getElem?_set_there _ there, if_pos rfl]
  refine ⟨separate.owned.moves moves, Nat.le_trans permits separate.permits, ?_, ?_⟩
  · intro place thread found
    rw [threads, getElem?_set_there _ there] at found
    split at found
    next own =>
      subst own
      cases command with
      | unknown => exact absurd rfl known
      | transmit => cases found
      | result => exact separate.admits_result intact there login fits permits
    next =>
      obtain ⟨cast, isIndex, tracked⟩ := separate.results place thread found
      exact Separate.meets tracked intact isIndex there login known fits permits
  · intro place sender found live nobody future
    rw [threads] at found
    rcases Cast.sender_of_set there found with ⟨rfl, isNew⟩ | before
    · cases command with
      | unknown => exact absurd rfl known
      | result => cases isNew
      | transmit =>
          cases isNew
          have unseen : (Thread.transmit (.init owner)).receiverOf owner =
              (Thread.connection sock).receiverOf owner := rfl
          have alone : (process.visit owner).receiver = none := by
            simp only [visit, threads] at nobody
            exact (findSome?_set_same there unseen).symm.trans nobody
          exact separate.admits_transmit intact there login fits permits alone future
    · have other : sender.user ≠ owner := by
        rintro rfl
        obtain ⟨noSender, -⟩ := newcomer_alone intact.tidy fits login
        cases command with
        | unknown => exact absurd rfl known
        | transmit =>
            have shown := intact.apart.sender before live
            rw [noSender rfl] at shown
            cases shown
        | result =>
            have shown := still.apart.receiver (by rw [threads]; exact here) rfl
            exact absurd (shown.symm.trans nobody) (by simp)
      have unseen : (entry owner sock command).receiverOf sender.user =
          (Thread.connection sock).receiverOf sender.user := by
        cases command with
        | result => exact if_neg fun same => other same.1.symm
        | transmit | unknown => rfl
      have alone : (process.visit sender.user).receiver = none := by
        simp only [visit, threads] at nobody
        exact (findSome?_set_same there unseen).symm.trans nobody
      obtain ⟨cast, isNone, isPlace, isInit, tracked⟩ :=
        separate.senders place sender before live alone future
      refine ⟨cast, isNone, isPlace, isInit, tracked.spared
        (tracked.on.spared_login there login permits fun _ => ?_)⟩
      rw [isInit]
      exact other

end Admitted

/-- Every step keeps the sessions apart. -/
theorem Separate.moves (separate : process.Separate config) (intact : process.Intact)
    (served : config.mode ≠ .mf) (disk : config.storm = false)
    (cooperates : process.Cooperates config label) (moves : Moves config process label after) :
    after.Separate config := by
  have still := intact.moves served cooperates moves
  by_cases login : ∃ index bytes, label = .header index bytes
  · obtain ⟨index, bytes, rfl⟩ := login
    have step := moves
    cases moves with
    | turnedAway there => exact separate.turnsAway there step
    | admitted there parsed login =>
        obtain ⟨known, fits⟩ := welcome_cases cooperates parsed login
        exact separate.admits intact still there login known fits step
  · exact separate.goesOn intact still served disk cooperates
      (fun index bytes same => login ⟨index, bytes, same⟩) moves

private theorem separate_init (served : config.mode ≠ .mf) : (init config).Separate config := by
  have threads : (init config).threads = [] := if_neg served
  refine ⟨?_, Nat.le_of_eq (permits_init config), ?_, ?_⟩
  · intro index child found
    rw [threads] at found
    cases found
  · intro index thread found
    rw [threads] at found
    cases found
  · intro place sender found
    rw [threads] at found
    cases found

theorem separate_of_reaches (served : config.mode ≠ .mf) (disk : config.storm = false)
    (reached : (processMachine config).ReachesUnder (Cooperates config) (init config) after) :
    after.Separate config := by
  induction reached with
  | refl => exact separate_init served
  | tail before cooperates step separate =>
      obtain ⟨intact, -⟩ := intact_of_reaches served before
      obtain ⟨-, moves | ⟨fault, faulted, -⟩⟩ := moves_of_next step
      · exact separate.moves intact served disk cooperates moves
      · exact absurd faulted (intact.faultless served cooperates)

end Separate

end Process

/-- One image, up to its child: `server_transmit` and `server_result` are at these
places. -/
def imageOf (transmit result : Nat) (name : String) : List ProcessStep :=
  List.flatten [
    List.replicate 2 (.result result .success),
    [.act transmit, .event transmit (fun _ => 0) (.wrote true), .act transmit,
      .event transmit (fun _ => 0) (.received (ascii (name ++ ",1"))),
      .event transmit (fun _ => 0) (.wrote true), .act transmit,
      .event transmit (fun _ => 0) (.received [7]), .act transmit, .act transmit,
      .event transmit (fun _ => 0) (.opened true), .act transmit, .act transmit, .act transmit,
      .act transmit],
    List.replicate 7 (.result result .success)]

/-- Two users have an image each, and their children are about to send. -/
def twoUsersSchedule : List ProcessStep :=
  List.flatten [
    [.accept 4, .header 0 (some (ascii "transmit,a")), .accept 5,
      .header 1 (some (ascii "transmit,b")), .accept 6, .header 2 (some (ascii "result,b")),
      .accept 7, .header 3 (some (ascii "result,a"))],
    imageOf 0 3 "x", imageOf 1 2 "y",
    List.replicate 2 (.worker 5 .success), List.replicate 2 (.worker 4 .success)]

theorem twoUsers_reached : ∃ state : Process,
    (processMachine ⟨.tcp, .disk, 2⟩).ReachesUnder (Process.Cooperates ⟨.tcp, .disk, 2⟩)
      (.init ⟨.tcp, .disk, 2⟩) state ∧
    state.threads[2]? = some (.result
      ⟨ascii "b", 6, .waiting, 1, some 1, some ⟨6, ascii "y"⟩⟩) ∧
    state.threads[5]? = some (.worker ⟨2, .matching 6 (ascii "y")⟩) := by
  obtain ⟨state, reached, shown⟩ := Machine.exists_of_run
    (show (((processMachine ⟨.tcp, .disk, 2⟩).run
        (Process.Cooperates ⟨.tcp, .disk, 2⟩) (.init ⟨.tcp, .disk, 2⟩) twoUsersSchedule).map fun state => decide (
          state.threads[2]? = some (.result
            ⟨ascii "b", 6, .waiting, 1, some 1, some ⟨6, ascii "y"⟩⟩) ∧
          state.threads[5]? = some (.worker ⟨2, .matching 6 (ascii "y")⟩))) = some true by
      decide +kernel)
  exact ⟨state, reached, of_decide_eq_true shown⟩

end PaintingCPS
