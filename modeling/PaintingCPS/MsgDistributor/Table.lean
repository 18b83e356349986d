import PaintingCPS.MsgDistributor.Decoding

/-!
Contract: what every operation keeps of the tables of a C++ endpoint, for the
`recv` calls that wait in it.

A `recv` holds a semaphore from its look-up on. Meanwhile its id may be closed,
so `Tables` also says who owns that semaphore and whether it can be posted.

Owns: the invariant, one preservation lemma for each update of the tables, and
what a woken `recv` finds.

Does not own: the order of the operations.
-/

set_option autoImplicit false

namespace PaintingCPS

open Foundation

/-! ## What `listen` can do -/

/-- Whatever is received, `listen` does nothing, or what some frame stands for. -/
theorem Cpp.listen_effect {endpoint after : MsgDistributor} {junk : Nat → Byte}
    {received : Option (List Byte)} {ret : Int}
    (heard : Cpp.listen junk endpoint received = .ok (after, ret)) :
    after = endpoint ∨ ∃ frame : Frame, frame.effect endpoint = .ok (after, ret) := by
  unfold Cpp.listen at heard
  split at heard
  next =>
    cases heard
    exact .inl rfl
  next =>
    cases received with
    | none =>
        cases heard
        exact .inl rfl
    | some message =>
        dsimp only at heard
        unfold Cpp.dispatch at heard
        obtain ⟨_, -, heard⟩ := bind_eq_ok.mp heard
        obtain ⟨newMessage, -, heard⟩ := bind_eq_ok.mp heard
        split at heard
        next => exact .inr ⟨.create, heard⟩
        next =>
          split at heard
          next =>
            obtain ⟨_, -, heard⟩ := bind_eq_ok.mp heard
            obtain ⟨createdIdChar, -, heard⟩ := bind_eq_ok.mp heard
            exact .inr ⟨.accepted (toInt32 (strtol createdIdChar.text)), heard⟩
          next =>
            split at heard
            next =>
              obtain ⟨_, -, heard⟩ := bind_eq_ok.mp heard
              obtain ⟨idChar, -, heard⟩ := bind_eq_ok.mp heard
              obtain ⟨idLength, -, heard⟩ := bind_eq_ok.mp heard
              obtain ⟨content, -, heard⟩ := bind_eq_ok.mp heard
              exact .inr ⟨.sock (toInt32 (strtol idChar.text)) content, heard⟩
            next =>
              split at heard
              next =>
                obtain ⟨_, -, heard⟩ := bind_eq_ok.mp heard
                obtain ⟨idChar, -, heard⟩ := bind_eq_ok.mp heard
                exact .inr ⟨.close (toInt32 (strtol idChar.text)), heard⟩
              next =>
                cases heard
                exact .inl rfl

/-! ## The invariant -/

/-- The tables agree, and a call that waits holds the semaphore of its id, or
its id is closed, or its semaphore has no permit left and no owner. -/
structure Tables (endpoint : MsgDistributor) (receiving : List (Int × Nat))
    (closed : Int → Bool) : Prop where
  ready : endpoint.Ready
  counter : 0 ≤ endpoint.mfsockid
  offers : endpoint.connectSem = endpoint.connectQueue.length
  sameIds : ∀ id, (endpoint.semMap id).isSome = (endpoint.queueMap id).isSome
  registered : ∀ id, endpoint.statusMap id = some 1 ↔ (endpoint.semMap id).isSome
  shut : ∀ id status, endpoint.statusMap id = some status → endpoint.semMap id = none →
    status = 0 ∧ closed id = true
  permits : ∀ id open', endpoint.connection id = some open' →
    open'.permits = open'.blocks.length
  known : ∀ sock recvSem, (sock, recvSem) ∈ receiving → recvSem < endpoint.fresh
  owned : ∀ sock recvSem, (sock, recvSem) ∈ receiving →
    ∀ id, endpoint.semMap id = some recvSem → id = sock
  awaited : ∀ sock recvSem, (sock, recvSem) ∈ receiving →
    endpoint.semMap sock = some recvSem ∨ endpoint.semMap sock = none ∨
      endpoint.sems recvSem = 0

theorem tables_init : Tables .init [] (fun _ => false) where
  ready := MsgDistributor.init_ready
  counter := by decide
  offers := rfl
  sameIds _ := rfl
  registered id := by simp [MsgDistributor.init]
  shut id status found := by cases found
  permits id open' found := by cases found
  known sock recvSem member := by cases member
  owned sock recvSem member := by cases member
  awaited sock recvSem member := by cases member

namespace Tables

section Updates

variable {endpoint after : MsgDistributor} {receiving : List (Int × Nat)}
variable {closed : Int → Bool}

/-- Fewer calls wait, more ids are known to be closed. -/
theorem weaken (tables : Tables endpoint receiving closed) {rest : List (Int × Nat)}
    {closed' : Int → Bool} (fewer : ∀ call ∈ rest, call ∈ receiving)
    (more : ∀ id, closed id = true → closed' id = true) : Tables endpoint rest closed' :=
  { tables with
    shut := fun id status found gone =>
      let ⟨zero, known⟩ := tables.shut id status found gone
      ⟨zero, more id known⟩
    known := fun sock recvSem member => tables.known sock recvSem (fewer _ member)
    owned := fun sock recvSem member => tables.owned sock recvSem (fewer _ member)
    awaited := fun sock recvSem member => tables.awaited sock recvSem (fewer _ member) }

/-- The counters and the queue of `connect` are not part of the tables. -/
theorem counters (tables : Tables endpoint receiving closed) {mfsockid : Int}
    {connectSem acceptSem : Nat} {connectQueue : List Int} (counter : 0 ≤ mfsockid)
    (offers : connectSem = connectQueue.length) :
    Tables { endpoint with
      mfsockid := mfsockid
      connectSem := connectSem
      connectQueue := connectQueue
      acceptSem := acceptSem } receiving closed :=
  { tables with
    ready :=
      { initialised := show mfsockid ≠ -1 by omega
        separated := tables.ready.separated.of_maps_eq rfl rfl rfl
        consistent := tables.ready.consistent }
    counter := counter
    offers := offers }

/-- A new recv waits at the semaphore of its id. -/
theorem enter (tables : Tables endpoint receiving closed) {sock : Int} {recvSem : Nat}
    (found : endpoint.semMap sock = some recvSem) :
    Tables endpoint (receiving ++ [(sock, recvSem)]) closed := by
  have split : ∀ {other otherSem}, (other, otherSem) ∈ receiving ++ [(sock, recvSem)] →
      (other, otherSem) ∈ receiving ∨ (other = sock ∧ otherSem = recvSem) := by
    intro other otherSem member
    simpa [Prod.ext_iff] using List.mem_append.mp member
  refine { tables with known := ?_, owned := ?_, awaited := ?_ }
  · intro other otherSem member
    rcases split member with old | ⟨rfl, rfl⟩
    · exact tables.known other otherSem old
    · exact tables.ready.separated.semBelow _ _ found
  · intro other otherSem member id owns
    rcases split member with old | ⟨rfl, rfl⟩
    · exact tables.owned other otherSem old id owns
    · exact tables.ready.separated.semUnique _ _ _ owns found
  · intro other otherSem member
    rcases split member with old | ⟨rfl, rfl⟩
    · exact tables.awaited other otherSem old
    · exact .inl found

/-- Registration puts a fresh semaphore with a fresh queue under the id. A call
that waits on the id from before keeps a semaphore that nobody posts. -/
theorem register (tables : Tables endpoint receiving closed) {newID : Int}
    (unawaited : ∀ recvSem, (newID, recvSem) ∈ receiving → endpoint.sems recvSem = 0) :
    Tables (endpoint.register newID) receiving closed where
  ready := tables.ready.register newID
  counter := tables.counter
  offers := tables.offers
  sameIds := by
    intro id
    by_cases same : id = newID
    · simp [MsgDistributor.register, same]
    · simpa [MsgDistributor.register, Function.update_of_ne same] using tables.sameIds id
  registered := by
    intro id
    by_cases same : id = newID
    · simp [MsgDistributor.register, same]
    · simpa [MsgDistributor.register, Function.update_of_ne same] using tables.registered id
  shut := by
    intro id status found gone
    by_cases same : id = newID
    · simp [MsgDistributor.register, same] at gone
    · simp only [MsgDistributor.register, Function.update_of_ne same] at found gone
      exact tables.shut id status found gone
  permits := by
    intro id open' present
    rw [MsgDistributor.register_connection tables.ready.separated] at present
    by_cases same : id = newID
    · rw [same, Function.update_self, Option.some.injEq] at present
      rw [← present]
      rfl
    · rw [Function.update_of_ne same] at present
      exact tables.permits id open' present
  known := fun sock recvSem member => Nat.lt_succ_of_lt (tables.known sock recvSem member)
  owned := by
    intro sock recvSem member id owns
    have below := tables.known sock recvSem member
    by_cases same : id = newID
    · simp only [MsgDistributor.register, same, Function.update_self, Option.some.injEq] at owns
      omega
    · simp only [MsgDistributor.register, Function.update_of_ne same] at owns
      exact tables.owned sock recvSem member id owns
  awaited := by
    intro sock recvSem member
    have old : recvSem ≠ endpoint.fresh := (tables.known sock recvSem member).ne
    simp only [MsgDistributor.register, Function.update_of_ne old]
    by_cases same : sock = newID
    · subst same
      exact .inr (.inr (unawaited recvSem member))
    · rw [Function.update_of_ne same]
      exact tables.awaited sock recvSem member

/-- An open connection changes in balance; no semaphore without an owner gets a
permit. -/
theorem balance (tables : Tables endpoint receiving closed) {id : Int}
    {open' : MsgDistributor.Connection}
    (table : after.connection = Function.update endpoint.connection id (some open'))
    (balanced : open'.permits = open'.blocks.length)
    (pointers : after.semMap = endpoint.semMap ∧ after.queueMap = endpoint.queueMap ∧
      after.statusMap = endpoint.statusMap ∧ after.fresh = endpoint.fresh)
    (counters : after.mfsockid = endpoint.mfsockid ∧ after.connectSem = endpoint.connectSem ∧
      after.connectQueue = endpoint.connectQueue)
    (orphans : ∀ recvSem, (∀ id, endpoint.semMap id ≠ some recvSem) →
      endpoint.sems recvSem = 0 → after.sems recvSem = 0) :
    Tables after receiving closed := by
  obtain ⟨semSame, queueSame, statusSame, freshSame⟩ := pointers
  obtain ⟨sockSame, connectSame, offersSame⟩ := counters
  exact
    { ready := tables.ready.of_update table semSame queueSame freshSame sockSame
      counter := sockSame ▸ tables.counter
      offers := by rw [connectSame, offersSame]; exact tables.offers
      sameIds := by rw [semSame, queueSame]; exact tables.sameIds
      registered := by rw [semSame, statusSame]; exact tables.registered
      shut := by rw [semSame, statusSame]; exact tables.shut
      permits := by
        intro other other' present
        rw [table] at present
        by_cases same : other = id
        · rw [same, Function.update_self, Option.some.injEq] at present
          exact present ▸ balanced
        · rw [Function.update_of_ne same] at present
          exact tables.permits other other' present
      known := by rw [freshSame]; exact tables.known
      owned := by rw [semSame]; exact tables.owned
      awaited := by
        intro sock recvSem member
        rw [semSame]
        by_cases owner : ∃ id, endpoint.semMap id = some recvSem
        · obtain ⟨id, owns⟩ := owner
          exact .inl (tables.owned sock recvSem member id owns ▸ owns)
        · rcases tables.awaited sock recvSem member with holds | gone | spent
          · exact .inl holds
          · exact .inr (.inl gone)
          · exact .inr (.inr (orphans recvSem (fun id owns => owner ⟨id, owns⟩) spent)) }

theorem deliver (tables : Tables endpoint receiving closed) {id : Int} {idSem : Nat}
    (found : endpoint.semMap id = some idSem) (content : List Byte) :
    ∃ after, endpoint.deliver id content = .ok after ∧ Tables after receiving closed := by
  obtain ⟨open', present⟩ :=
    Option.isSome_iff_exists.mp (tables.ready.consistent id (by simp [found]))
  obtain ⟨semaphore, queue, semFound, queueFound, queueLive, -⟩ :=
    MsgDistributor.connection_eq_some present
  obtain ⟨after, delivered, table, semSame, queueSame, statusSame, freshSame, sockSame, -,
    connectSame, offersSame⟩ :=
    MsgDistributor.deliver_open tables.ready.separated present content
  refine ⟨after, delivered, tables.balance table ?_ ⟨semSame, queueSame, statusSame, freshSame⟩
    ⟨sockSame, connectSame, offersSame⟩ ?_⟩
  · simp [tables.permits id open' present]
  · rw [MsgDistributor.deliver_eq semFound queueFound queueLive, Except.ok.injEq] at delivered
    intro recvSem orphan spent
    have foreign : recvSem ≠ semaphore := fun same => orphan id (same ▸ semFound)
    rw [← delivered]
    dsimp only
    rw [Function.update_of_ne foreign, spent]

/-- The locked part of `close` leaves status 0 behind. -/
theorem shutdown (tables : Tables endpoint receiving closed) {sock : Int} {closeSem : Nat}
    (found : endpoint.semMap sock = some closeSem) {closed' : Int → Bool}
    (more : ∀ id, closed id = true → closed' id = true) (gone : closed' sock = true) :
    Tables (endpoint.closeTables sock closeSem) receiving closed' where
  ready := tables.ready.closeTables found
  counter := tables.counter
  offers := tables.offers
  sameIds := by
    intro id
    by_cases same : id = sock
    · simp [MsgDistributor.closeTables, same]
    · simpa [MsgDistributor.closeTables, Function.update_of_ne same] using tables.sameIds id
  registered := by
    intro id
    by_cases same : id = sock
    · simp [MsgDistributor.closeTables, same]
    · simpa [MsgDistributor.closeTables, Function.update_of_ne same] using tables.registered id
  shut := by
    intro id status statusFound missing
    by_cases same : id = sock
    · simp only [MsgDistributor.closeTables, same, Function.update_self, Option.some.injEq]
        at statusFound
      exact ⟨statusFound.symm, same ▸ gone⟩
    · simp only [MsgDistributor.closeTables, Function.update_of_ne same] at statusFound missing
      obtain ⟨zero, known⟩ := tables.shut id status statusFound missing
      exact ⟨zero, more id known⟩
  permits := by
    intro id open' present
    rw [MsgDistributor.closeTables_connection tables.ready.separated found] at present
    by_cases same : id = sock
    · rw [same, Function.update_self] at present
      cases present
    · rw [Function.update_of_ne same] at present
      exact tables.permits id open' present
  known := tables.known
  owned := by
    intro other recvSem member id owns
    by_cases same : id = sock
    · simp [MsgDistributor.closeTables, same] at owns
    · simp only [MsgDistributor.closeTables, Function.update_of_ne same] at owns
      exact tables.owned other recvSem member id owns
  awaited := by
    intro other recvSem member
    by_cases same : other = sock
    · exact .inr (.inl (by simp [MsgDistributor.closeTables, same]))
    · -- the semaphore that is posted belongs to `sock`
      have foreign : recvSem ≠ closeSem := fun equal =>
        same (tables.owned other recvSem member sock (equal ▸ found)).symm
      simp only [MsgDistributor.closeTables, Function.update_of_ne same,
        Function.update_of_ne foreign]
      exact tables.awaited other recvSem member

private theorem recvWake_rest {sock : Int} {recvSem : Nat} {block : Option (List Byte)}
    (woken : Cpp.recvWake endpoint sock recvSem = .ok (after, block)) :
    after.connectSem = endpoint.connectSem ∧ after.connectQueue = endpoint.connectQueue ∧
      after.sems = Function.update endpoint.sems recvSem (endpoint.sems recvSem - 1) := by
  unfold Cpp.recvWake at woken
  dsimp only at woken
  split at woken
  next =>
    cases woken
    exact ⟨rfl, rfl, rfl⟩
  next =>
    obtain ⟨queue, -, woken⟩ := bind_eq_ok.mp woken
    obtain ⟨blocks, -, woken⟩ := bind_eq_ok.mp woken
    cases blocks with
    | nil => cases woken
    | cons first rest =>
        cases woken
        exact ⟨rfl, rfl, rfl⟩

/-- A recv that wakes up on an open id takes the first block. -/
theorem takes (tables : Tables endpoint receiving closed) {sock : Int} {recvSem : Nat}
    (found : endpoint.semMap sock = some recvSem) (permit : endpoint.sems recvSem ≠ 0) :
    ∃ after block, Cpp.recvWake endpoint sock recvSem = .ok (after, some block) ∧
      Tables after receiving closed := by
  have isOpen : (endpoint.semMap sock).isSome := by simp [found]
  obtain ⟨⟨permits, blocks⟩, present⟩ :=
    Option.isSome_iff_exists.mp (tables.ready.consistent sock isOpen)
  have counted : permits = blocks.length := tables.permits sock _ present
  obtain ⟨semaphore, queue, semFound, -, -, value⟩ := MsgDistributor.connection_eq_some present
  obtain rfl : recvSem = semaphore := Option.some.inj (found ▸ semFound)
  cases blocks with
  | nil => exact absurd (value.trans counted) permit
  | cons block rest =>
      obtain ⟨after, woken, table, semSame, queueSame, statusSame, freshSame, sockSame⟩ :=
        MsgDistributor.recvWake_open tables.ready.separated found present
          ((tables.registered sock).mpr isOpen) (by decide)
      obtain ⟨connectSame, offersSame, sems⟩ := recvWake_rest woken
      refine ⟨after, block, woken, tables.balance table ?_
        ⟨semSame, queueSame, statusSame, freshSame⟩ ⟨sockSame, connectSame, offersSame⟩ ?_⟩
      · simp [counted]
      · intro other orphan spent
        have foreign : other ≠ recvSem := fun same => orphan sock (same ▸ found)
        rw [sems, Function.update_of_ne foreign, spent]

/-- A recv that wakes up on a closed id finds status 0, or none, and erases it. -/
theorem refused (tables : Tables endpoint receiving closed) {sock : Int} {recvSem : Nat}
    (member : (sock, recvSem) ∈ receiving) (gone : endpoint.semMap sock = none) :
    ∃ after, Cpp.recvWake endpoint sock recvSem = .ok (after, none) ∧
      Tables after receiving closed := by
  have status : (endpoint.statusMap sock).getD 0 = 0 := by
    cases found : endpoint.statusMap sock with
    | none => rfl
    | some status => exact (tables.shut sock status found gone).1
  have orphan : ∀ id, endpoint.semMap id ≠ some recvSem := by
    intro id owns
    rw [tables.owned sock recvSem member id owns, gone] at owns
    cases owns
  refine ⟨{ endpoint with
      sems := Function.update endpoint.sems recvSem (endpoint.sems recvSem - 1)
      statusMap := Function.update endpoint.statusMap sock none },
    by rw [Cpp.recvWake, if_pos status]; rfl, ?_⟩
  have table : MsgDistributor.connection { endpoint with
      sems := Function.update endpoint.sems recvSem (endpoint.sems recvSem - 1)
      statusMap := Function.update endpoint.statusMap sock none } = endpoint.connection := by
    funext id
    unfold MsgDistributor.connection
    dsimp only
    split
    next semaphore queue semFound queueFound =>
      have foreign : semaphore ≠ recvSem := fun same => orphan id (same ▸ semFound)
      rw [Function.update_of_ne foreign]
    next => rfl
  exact
    { ready :=
        { initialised := tables.ready.initialised
          separated := tables.ready.separated.of_maps_eq rfl rfl rfl
          consistent := by rw [table]; exact tables.ready.consistent }
      counter := tables.counter
      offers := tables.offers
      sameIds := tables.sameIds
      registered := by
        intro id
        by_cases same : id = sock
        · simp [same, gone]
        · simpa [Function.update_of_ne same] using tables.registered id
      shut := by
        intro id left found missing
        by_cases same : id = sock
        · simp [same] at found
        · simp only [Function.update_of_ne same] at found
          exact tables.shut id left found missing
      permits := by rw [table]; exact tables.permits
      known := tables.known
      owned := tables.owned
      awaited := by
        intro other otherSem member
        rcases tables.awaited other otherSem member with holds | missing | spent
        · exact .inl holds
        · exact .inr (.inl missing)
        · refine .inr (.inr ?_)
          by_cases same : otherSem = recvSem
          · subst same
            simp [spent]
          · simp only [Function.update_of_ne same, spent] }

/-- A frame changes one connection, or a counter. -/
theorem effect (tables : Tables endpoint receiving closed) {frame : Frame} {ret : Int}
    (done : frame.effect endpoint = .ok (after, ret)) {closed' : Int → Bool}
    (more : ∀ id, closed id = true → closed' id = true)
    (gone : ∀ id, (endpoint.semMap id).isSome → after.semMap id = none → closed' id = true) :
    Tables after receiving closed' := by
  have same : Tables endpoint receiving closed' := tables.weaken (fun _ member => member) more
  cases frame with
  | create =>
      cases done
      exact same.counters tables.counter tables.offers
  | accepted id =>
      cases done
      exact same.counters tables.counter (by simp [tables.offers])
  | sock id payload =>
      rw [Frame.effect] at done
      cases found : endpoint.semMap id with
      | none =>
          rw [found] at done
          cases done
          exact same
      | some idSem =>
          obtain ⟨reached, delivered, kept⟩ := same.deliver found payload
          rw [found] at done
          dsimp only at done
          rw [delivered] at done
          cases done
          exact kept
  | close id =>
      rw [Frame.effect, MsgDistributor.closeLocked] at done
      cases found : endpoint.semMap id with
      | none =>
          rw [found] at done
          cases done
          exact same
      | some closeSem =>
          rw [found] at done
          cases done
          exact tables.shutdown found more
            (gone id (by simp [found]) (by simp [MsgDistributor.closeTables]))

end Updates

end Tables

/-- A recv from before a registration wakes up to the new, empty queue. -/
theorem recvWake_register {endpoint : MsgDistributor} {newID : Int} {recvSem : Nat} :
    Cpp.recvWake (endpoint.register newID) newID recvSem = .error .emptyQueue := by
  simp [Cpp.recvWake, MsgDistributor.register, MsgDistributor.liveQueue, bind, Except.bind]

end PaintingCPS
