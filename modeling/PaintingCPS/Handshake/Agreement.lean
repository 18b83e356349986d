import PaintingCPS.Handshake.Rendezvous

/-!
Contract: agreement on ids between one connecting and one accepting end.

Three invariants. `Connector` and `Acceptor` are local: they account for every
id by the history and by the program counter of the lock holder. `Agreement`
adds the two conservation laws of the network.

Owns: the invariants and their preservation by every step in which only the
client connects and only the server accepts.

Does not own: what happens to data and `close` frames.
-/

set_option autoImplicit false

namespace PaintingCPS

/-- The accounts of the connecting end. -/
structure Peer.Connector (peer : Peer) : Prop where
  role : ∀ thread, (peer.pc thread).accepts = false
  locked : Locked peer.idLock peer.pc
  taken : peer.history.taken =
    peer.history.registered ++ onLock peer.idLock peer.pc Pc.popped
  connected : peer.history.registered =
    peer.history.connected ++ onLock peer.idLock peer.pc Pc.unreturned
  recorded : ∀ id, peer.recorded id = true → id ∈ peer.history.registered
  known : ∀ id, peer.known id = true → peer.recorded id = true

/-- The accounts of the accepting end. Its ids are 1, 2, 3, … -/
structure Peer.Acceptor (peer : Peer) : Prop where
  role : ∀ thread, (peer.pc thread).connects = false
  locked : Locked peer.idLock peer.pc
  allocated : peer.history.allocated =
    peer.history.announced ++ onLock peer.idLock peer.pc Pc.chosen
  announced : peer.history.announced =
    peer.history.registered ++ onLock peer.idLock peer.pc Pc.promised
  accepted : peer.history.registered =
    peer.history.accepted ++ onLock peer.idLock peer.pc Pc.unreturned
  counter : peer.counter = peer.history.allocated.length
  bounds : ∀ id ∈ peer.history.allocated, 1 ≤ id ∧ id ≤ peer.counter
  fresh : peer.history.allocated.Nodup
  recorded : ∀ id, peer.recorded id = true → id ∈ peer.history.registered
  known : ∀ id, peer.known id = true → peer.recorded id = true

namespace Notice

/-- The number of `create` notices. -/
def creates (arriving : List Notice) : Nat := arriving.count .create

/-- The id that an `accepted` notice offers. -/
def offer : Notice → Option Int
  | .accepted id => some id
  | _ => none

/-- The ids on offer, oldest first. -/
def offers (arriving : List Notice) : List Int := arriving.filterMap offer

@[simp] theorem offers_nil : offers [] = [] := rfl

@[simp] theorem offers_cons (heard : Notice) (rest : List Notice) :
    offers (heard :: rest) = heard.offer.toList ++ offers rest := by
  cases heard <;> rfl

@[simp] theorem offers_append (first second : List Notice) :
    offers (first ++ second) = offers first ++ offers second :=
  List.filterMap_append

end Notice

/-! ## Local accounts -/

section Local

variable {move : Move} {peer after : Peer} {message : Option Notice}

/-- What holds of every thread and of the next program counter of one. -/
private theorem forall_goto (property : Pc → Prop) {pc : Nat → Pc} {thread : Nat} {next : Pc}
    (all : ∀ other, property (pc other)) (new : property next) :
    ∀ other, property (Function.update pc thread next other) :=
  (Function.forall_update_iff pc fun _ value => property value).mpr
    ⟨new, fun other _ => all other⟩

/-- Registration records one more id. -/
private theorem recorded_enter {recorded : Int → Bool} {registered : List Int}
    (before : ∀ id, recorded id = true → id ∈ registered) (new : Int) :
    ∀ id, Function.update recorded new true id = true → id ∈ registered ++ [new] := by
  intro id found
  by_cases same : id = new
  · simp [same]
  · rw [Function.update_of_ne same] at found
    exact List.mem_append_left _ (before id found)

private theorem known_enter {known recorded : Int → Bool}
    (before : ∀ id, known id = true → recorded id = true) (new : Int) :
    ∀ id, Function.update known new true id = true →
      Function.update recorded new true id = true := by
  intro id found
  by_cases same : id = new
  · simp [same]
  · rw [Function.update_of_ne same] at found ⊢
    exact before id found

private theorem known_forget {known recorded : Int → Bool}
    (before : ∀ id, known id = true → recorded id = true) (old : Int) :
    ∀ id, Function.update known old false id = true → recorded id = true := by
  intro id found
  by_cases same : id = old
  · simp [same] at found
  · rw [Function.update_of_ne same] at found
    exact before id found

/-- Hearing a notice opens no id. -/
theorem Peer.hear_known {heard : Notice} {id : Int}
    (found : (peer.hear heard).known id = true) : peer.known id = true := by
  cases heard with
  | create => exact found
  | accepted offered => exact found
  | data other => exact found
  | close other =>
      by_cases same : id = other
      · subst same
        simp [Peer.hear, Peer.forget] at found
      · simpa [Peer.hear, Peer.forget, Function.update_of_ne same] using found

/-- Hearing a notice changes neither threads nor entries. -/
theorem Peer.hear_same (heard : Notice) :
    (peer.hear heard).pc = peer.pc ∧ (peer.hear heard).idLock = peer.idLock ∧
      (peer.hear heard).recorded = peer.recorded ∧
      (peer.hear heard).counter = peer.counter := by
  cases heard <;> exact ⟨rfl, rfl, rfl, rfl⟩

/-- The histories that hearing leaves alone. -/
theorem History.observe_same (history : History) (known : Bool) (heard : Option Notice) :
    history.observe known heard =
      { history with
        hungUp := (history.observe known heard).hungUp
        lost := (history.observe known heard).lost } := by
  unfold History.observe
  split <;> (try split) <;> (try split) <;> rfl

/-- Every step but those of `accept` keeps the accounts of the connecting end. -/
theorem Peer.Connector.step (connector : peer.Connector) (role : move.accepts = false)
    (step : Peer.Step move peer message after) : after.Connector := by
  obtain ⟨threads, locked, taken, connected, recorded, known⟩ := connector
  cases step with
  | lockFirst at' free =>
      rw [free] at locked taken connected
      exact ⟨forall_goto (·.accepts = false) threads rfl, locked.acquire,
        by simpa [Peer.goto, Pc.popped] using taken,
        by simpa [Peer.goto, Pc.unreturned] using connected, recorded, known⟩
  | lockLater at' free =>
      rw [free] at locked taken connected
      exact ⟨forall_goto (·.accepts = false) threads rfl, locked.acquire,
        by simpa [Peer.goto, Pc.popped] using taken,
        by simpa [Peer.goto, Pc.unreturned] using connected, recorded, known⟩
  | requestLocked at' =>
      refine ⟨forall_goto (·.accepts = false) threads rfl,
        locked.keep (by rw [at']; simp [Pc.holds]), ?_, ?_,
        recorded, known⟩
      · exact taken.trans (congrArg _ (onLock_update (by rw [at']; rfl)).symm)
      · exact connected.trans (congrArg _ (onLock_update (by rw [at']; rfl)).symm)
  | requestFirst at' =>
      refine ⟨forall_goto (·.accepts = false) threads rfl, locked.keep (by simp [Pc.holds]), ?_, ?_,
        recorded, known⟩
      · exact taken.trans (congrArg _ (onLock_update (by rw [at']; rfl)).symm)
      · exact connected.trans (congrArg _ (onLock_update (by rw [at']; rfl)).symm)
  | take at' offered =>
      have holder := locked _ (by rw [at']; rfl)
      refine ⟨forall_goto (·.accepts = false) threads rfl,
        locked.keep (by rw [at']; simp [Pc.holds]), ?_, ?_,
        recorded, known⟩
      · rw [holder, onLock_some, at'] at taken
        simp [taken, Peer.goto, holder, Pc.popped]
      · exact connected.trans (congrArg _ (onLock_update (by rw [at']; rfl)).symm)
  | enterTaken at' =>
      have holder := locked _ (by rw [at']; rfl)
      refine ⟨forall_goto (·.accepts = false) threads rfl,
        locked.keep (by rw [at']; simp [Pc.holds]), ?_, ?_,
        recorded_enter recorded _, known_enter known _⟩
      · rw [holder, onLock_some, at'] at taken
        simp [taken, Peer.goto, Peer.enter, holder, Pc.popped]
      · rw [holder, onLock_some, at'] at connected
        simp [connected, Peer.goto, Peer.enter, holder, Pc.unreturned]
  | connected at' =>
      have holder := locked _ (by rw [at']; rfl)
      refine ⟨forall_goto (·.accepts = false) threads rfl,
        locked.release (by rw [at']; rfl) rfl, ?_, ?_,
        recorded, known⟩
      · rw [holder, onLock_some, at'] at taken
        simpa [Peer.goto, Pc.popped] using taken
      · rw [holder, onLock_some, at'] at connected
        simpa [Peer.goto, Pc.unreturned] using connected
  | wake => cases role
  | allocate => cases role
  | announce => cases role
  | enterAnnounced => cases role
  | accepted => cases role
  | close at' open' =>
      refine ⟨forall_goto (·.accepts = false) threads rfl, locked.keep (by simp [Pc.holds]), ?_, ?_,
        recorded, known_forget known _⟩
      · exact taken.trans (congrArg _ (onLock_update (by rw [at']; rfl)).symm)
      · exact connected.trans (congrArg _ (onLock_update (by rw [at']; rfl)).symm)
  | notify at' =>
      refine ⟨forall_goto (·.accepts = false) threads rfl, locked.keep (by simp [Pc.holds]), ?_, ?_,
        recorded, known⟩
      · exact taken.trans (congrArg _ (onLock_update (by rw [at']; rfl)).symm)
      · exact connected.trans (congrArg _ (onLock_update (by rw [at']; rfl)).symm)
  | send open' => exact ⟨threads, locked, taken, connected, recorded, known⟩
  | refuse waiting => exact ⟨threads, locked, taken, connected, recorded, known⟩
  | @hear _ heard rest waiting =>
      obtain ⟨pcSame, lockSame, recordedSame, -⟩ := peer.hear_same heard
      rw [History.observe_same]
      refine ⟨?_, ?_, ?_, ?_, ?_, fun id found => ?_⟩
      · exact pcSame ▸ threads
      · exact lockSame ▸ pcSame ▸ locked
      · exact lockSame ▸ pcSame ▸ taken
      · exact lockSame ▸ pcSame ▸ connected
      · exact recordedSame ▸ recorded
      · exact recordedSame ▸ known id (peer.hear_known found)

/-- No number above the counter is in use. -/
theorem Peer.Acceptor.known_next (acceptor : peer.Acceptor) :
    peer.known (peer.counter + 1) = false := by
  cases used : peer.known (peer.counter + 1) with
  | false => rfl
  | true =>
      have registered := acceptor.recorded _ (acceptor.known _ used)
      have member : peer.counter + 1 ∈ peer.history.allocated := by
        rw [acceptor.allocated, acceptor.announced]
        simp [registered]
      have := (acceptor.bounds _ member).2
      omega

/-- Every step but those of `connect` keeps the accounts of the accepting end. -/
theorem Peer.Acceptor.step (acceptor : peer.Acceptor) (role : move.connects = false)
    (step : Peer.Step move peer message after) : after.Acceptor := by
  have nextFree := acceptor.known_next
  obtain ⟨threads, locked, allocated, announced, accepted, counter, bounds, fresh, recorded,
    known⟩ := acceptor
  cases step with
  | lockFirst => cases role
  | lockLater => cases role
  | requestLocked => cases role
  | requestFirst => cases role
  | take => cases role
  | enterTaken => cases role
  | connected => cases role
  | wake at' waiting =>
      refine ⟨forall_goto (·.connects = false) threads rfl,

        locked.keep (by rw [at']; simp [Pc.holds]), ?_, ?_, ?_, counter, bounds, fresh, recorded,
        known⟩
      · exact allocated.trans (congrArg _ (onLock_update (by rw [at']; rfl)).symm)
      · exact announced.trans (congrArg _ (onLock_update (by rw [at']; rfl)).symm)
      · exact accepted.trans (congrArg _ (onLock_update (by rw [at']; rfl)).symm)
  | @allocate _ thread id at' free above small unknown skipped =>
      rw [free] at locked allocated announced accepted
      -- the loop never skips: no number above the counter is in use
      have next : id = peer.counter + 1 := by
        by_contra later
        have used := skipped (peer.counter + 1) (by omega) (by omega)
        rw [nextFree] at used
        cases used
      refine ⟨forall_goto (·.connects = false) threads rfl, locked.acquire, ?_, ?_, ?_, ?_, ?_,
        ?_, recorded, known⟩
      · simpa [Peer.goto, Pc.chosen] using allocated
      · simpa [Peer.goto, Pc.promised] using announced
      · simpa [Peer.goto, Pc.unreturned] using accepted
      · simp [next, counter]
      · intro other member
        change other ∈ peer.history.allocated ++ [id] at member
        change 1 ≤ other ∧ other ≤ id
        rcases List.mem_append.mp member with before | new
        · have := bounds other before
          omega
        · rw [List.mem_singleton] at new
          omega
      · refine fresh.append (List.nodup_singleton id) ?_
        intro other before new
        rw [List.mem_singleton] at new
        have := (bounds other before).2
        omega
  | announce at' =>
      have holder := locked _ (by rw [at']; rfl)
      refine ⟨forall_goto (·.connects = false) threads rfl,

        locked.keep (by rw [at']; simp [Pc.holds]), ?_, ?_, ?_, counter, bounds, fresh, recorded,
        known⟩
      · rw [holder, onLock_some, at'] at allocated
        simp [allocated, Peer.goto, holder, Pc.chosen]
      · rw [holder, onLock_some, at'] at announced
        simp [announced, Peer.goto, holder, Pc.promised]
      · exact accepted.trans (congrArg _ (onLock_update (by rw [at']; rfl)).symm)
  | enterAnnounced at' =>
      have holder := locked _ (by rw [at']; rfl)
      refine ⟨forall_goto (·.connects = false) threads rfl,

        locked.keep (by rw [at']; simp [Pc.holds]), ?_, ?_, ?_, counter, bounds, fresh,
        recorded_enter recorded _, known_enter known _⟩
      · exact allocated.trans (congrArg _ (onLock_update (by rw [at']; rfl)).symm)
      · rw [holder, onLock_some, at'] at announced
        simp [announced, Peer.goto, Peer.enter, holder, Pc.promised]
      · rw [holder, onLock_some, at'] at accepted
        simp [accepted, Peer.goto, Peer.enter, holder, Pc.unreturned]
  | accepted at' =>
      have holder := locked _ (by rw [at']; rfl)
      refine ⟨forall_goto (·.connects = false) threads rfl,

        locked.release (by rw [at']; rfl) rfl, ?_, ?_, ?_, counter, bounds, fresh, recorded,
        known⟩
      · rw [holder, onLock_some, at'] at allocated
        simpa [Peer.goto, Pc.chosen] using allocated
      · rw [holder, onLock_some, at'] at announced
        simpa [Peer.goto, Pc.promised] using announced
      · rw [holder, onLock_some, at'] at accepted
        simpa [Peer.goto, Pc.unreturned] using accepted
  | close at' open' =>
      refine ⟨forall_goto (·.connects = false) threads rfl,

        locked.keep (by rw [at']; simp [Pc.holds]), ?_, ?_, ?_, counter, bounds, fresh, recorded,
        known_forget known _⟩
      · exact allocated.trans (congrArg _ (onLock_update (by rw [at']; rfl)).symm)
      · exact announced.trans (congrArg _ (onLock_update (by rw [at']; rfl)).symm)
      · exact accepted.trans (congrArg _ (onLock_update (by rw [at']; rfl)).symm)
  | notify at' =>
      refine ⟨forall_goto (·.connects = false) threads rfl,

        locked.keep (by rw [at']; simp [Pc.holds]), ?_, ?_, ?_, counter, bounds, fresh, recorded,
        known⟩
      · exact allocated.trans (congrArg _ (onLock_update (by rw [at']; rfl)).symm)
      · exact announced.trans (congrArg _ (onLock_update (by rw [at']; rfl)).symm)
      · exact accepted.trans (congrArg _ (onLock_update (by rw [at']; rfl)).symm)
  | send open' =>
      exact ⟨threads, locked, allocated, announced, accepted, counter, bounds, fresh, recorded,
        known⟩
  | refuse waiting =>
      exact ⟨threads, locked, allocated, announced, accepted, counter, bounds, fresh, recorded,
        known⟩
  | @hear _ heard rest waiting =>
      obtain ⟨pcSame, lockSame, recordedSame, counterSame⟩ := peer.hear_same heard
      rw [History.observe_same]
      refine ⟨?_, ?_, ?_, ?_, ?_, ?_, ?_, fresh, ?_, fun id found => ?_⟩
      · exact pcSame ▸ threads
      · exact lockSame ▸ pcSame ▸ locked
      · exact lockSame ▸ pcSame ▸ allocated
      · exact lockSame ▸ pcSame ▸ announced
      · exact lockSame ▸ pcSame ▸ accepted
      · exact counterSame ▸ counter
      · exact counterSame ▸ bounds
      · exact recordedSame ▸ recorded
      · exact recordedSame ▸ known id (peer.hear_known found)

/-! ## Conservation laws -/

/-- An end neither invents nor drops an offer. -/
theorem Peer.Step.offers (step : Peer.Step move peer message after) :
    after.history.taken ++ after.offers ++ Notice.offers after.arriving =
      peer.history.taken ++ peer.offers ++ Notice.offers peer.arriving := by
  cases step with
  | take at' offered => simp [Peer.goto, offered]
  | refuse waiting => simp [waiting, Notice.offer]
  | @hear _ heard rest waiting =>
      rw [History.observe_same]
      cases heard <;> simp [waiting, Peer.hear, Peer.forget, Notice.offer]
  | _ => rfl

/-- An end neither invents nor drops a request. -/
theorem Peer.Step.requests (step : Peer.Step move peer message after) :
    Notice.creates after.arriving + after.requests + after.history.acceptsStarted =
      Notice.creates peer.arriving + peer.requests + peer.history.acceptsStarted := by
  cases step with
  | wake at' waiting =>
      simp only [Peer.goto]
      omega
  | refuse waiting => simp [waiting, Notice.creates]
  | @hear _ heard rest waiting =>
      rw [History.observe_same]
      cases heard <;> simp [waiting, Peer.hear, Peer.forget, Notice.creates]
      omega
  | _ => rfl

/-- What an end counts as sent is what it sends. -/
theorem Peer.Step.sends (step : Peer.Step move peer message after) :
    after.history.announced = peer.history.announced ++ Notice.offers message.toList ∧
      after.history.createsSent =
        peer.history.createsSent + Notice.creates message.toList := by
  cases step with
  | hear waiting =>
      rw [History.observe_same]
      simp [Notice.creates]
  | _ => simp [Notice.offer, Notice.creates, Peer.goto, Peer.enter]

end Local

/-- The network neither invents nor drops a notice. -/
structure Rendezvous.Conserves (both : Rendezvous) : Prop where
  offers : ∀ side : Side, (both side).history.taken ++ (both side).offers ++
    Notice.offers (both side).arriving = (both side.peer).history.announced
  requests : ∀ side : Side, Notice.creates (both side).arriving + (both side).requests +
    (both side).history.acceptsStarted = (both side.peer).history.createsSent

theorem Rendezvous.Conserves.step {both after : Rendezvous} {label : Side × Move}
    (conserves : both.Conserves) (step : Rendezvous.Step both label after) :
    after.Conserves := by
  obtain ⟨side, move⟩ := label
  obtain ⟨message, peer, moved, rfl⟩ := step
  obtain ⟨offers, requests⟩ := conserves
  have laws : ∀ who : Side, who = side ∨ who.peer = side := by
    intro who
    cases who <;> cases side <;> simp [Side.peer]
  refine ⟨fun who => ?_, fun who => ?_⟩
  · dsimp only
    rcases laws who with rfl | rfl
    · rw [if_pos rfl, if_neg who.peer_ne, moved.offers]
      exact offers who
    · rw [if_pos rfl, if_neg who.peer_ne.symm, moved.sends.1, ← offers who]
      simp [Peer.post]
  · dsimp only
    rcases laws who with rfl | rfl
    · rw [if_pos rfl, if_neg who.peer_ne, moved.requests]
      exact requests who
    · rw [if_pos rfl, if_neg who.peer_ne.symm, moved.sends.2, ← requests who]
      simp only [Peer.post, Notice.creates, List.count_append]
      omega

/-! ## Agreement -/

/-- The client connects, the server accepts. -/
def Side.Plays (move : Move) : Side → Prop
  | client => move.accepts = false
  | server => move.connects = false

instance (move : Move) (side : Side) : Decidable (side.Plays move) := by
  cases side <;> exact inferInstanceAs (Decidable (_ = _))

/-- The accounts of both ends, and what the network carries between them. -/
structure Rendezvous.Agreement (both : Rendezvous) : Prop where
  connector : (both .client).Connector
  acceptor : (both .server).Acceptor
  offers : ∀ side : Side, (both side).history.taken ++ (both side).offers ++
    Notice.offers (both side).arriving = (both side.peer).history.announced
  requests : ∀ side : Side, Notice.creates (both side).arriving + (both side).requests +
    (both side).history.acceptsStarted = (both side.peer).history.createsSent

theorem Rendezvous.Agreement.step {both after : Rendezvous} {label : Side × Move}
    (agreement : both.Agreement) (role : label.1.Plays label.2)
    (step : Rendezvous.Step both label after) : after.Agreement := by
  obtain ⟨connector, acceptor, offers, requests⟩ := agreement
  obtain ⟨offersAfter, requestsAfter⟩ :=
    Rendezvous.Conserves.step ⟨offers, requests⟩ step
  obtain ⟨side, move⟩ := label
  obtain ⟨message, peer, moved, rfl⟩ := step
  refine ⟨?_, ?_, offersAfter, requestsAfter⟩
  · cases side with
    | client => exact connector.step role moved
    | server => exact ⟨connector.role, connector.locked, connector.taken, connector.connected,
        connector.recorded, connector.known⟩
  · cases side with
    | client => exact ⟨acceptor.role, acceptor.locked, acceptor.allocated, acceptor.announced,
        acceptor.accepted, acceptor.counter, acceptor.bounds, acceptor.fresh, acceptor.recorded,
        acceptor.known⟩
    | server => exact acceptor.step role moved

/-! ## Consequences -/

/-- The last of distinct ids is none of those before it. -/
private theorem notMem_of_nodup {ids : List Int} {last : Int} (fresh : (ids ++ [last]).Nodup) :
    last ∉ ids := by
  intro member
  exact (List.nodup_append.mp fresh).2.2 last member last (by simp) rfl

/-- An id without a place in the history has no entry. -/
private theorem recorded_eq_false {recorded : Int → Bool} {registered : List Int} {id : Int}
    (before : ∀ other, recorded other = true → other ∈ registered) (fresh : id ∉ registered) :
    recorded id = false := by
  cases found : recorded id with
  | false => rfl
  | true => exact absurd (before id found) fresh

/-- An id that is chosen and not announced has no entry and was not returned. -/
theorem Peer.Acceptor.allocated_fresh {peer : Peer} (acceptor : peer.Acceptor) {thread : Nat}
    {id : Int} (atAllocated : peer.pc thread = .allocated id) :
    peer.recorded id = false ∧ id ∉ peer.history.accepted := by
  have holder := acceptor.locked thread (by rw [atAllocated]; rfl)
  have fresh := acceptor.fresh
  rw [acceptor.allocated, acceptor.announced, holder, onLock_some, onLock_some,
    atAllocated] at fresh
  simp only [Pc.promised, Pc.chosen, List.append_nil] at fresh
  have unregistered := notMem_of_nodup fresh
  refine ⟨recorded_eq_false acceptor.recorded unregistered, fun returned => unregistered ?_⟩
  rw [acceptor.accepted]
  exact List.mem_append_left _ returned

/-- An id that is announced and not registered has no entry. -/
theorem Peer.Acceptor.announced_fresh {peer : Peer} (acceptor : peer.Acceptor) {thread : Nat}
    {id : Int} (atAnnounced : peer.pc thread = .announced id) : peer.recorded id = false := by
  have holder := acceptor.locked thread (by rw [atAnnounced]; rfl)
  have fresh := acceptor.fresh
  rw [acceptor.allocated, acceptor.announced, holder, onLock_some, onLock_some,
    atAnnounced] at fresh
  exact recorded_eq_false acceptor.recorded (notMem_of_nodup fresh.of_append_left)

/-- An id that is popped and not registered has no entry. -/
theorem Peer.Connector.took_fresh {peer : Peer} (connector : peer.Connector)
    (fresh : peer.history.taken.Nodup) {thread : Nat} {id : Int}
    (atTook : peer.pc thread = .took id) : peer.recorded id = false := by
  have holder := connector.locked thread (by rw [atTook]; rfl)
  rw [connector.taken, holder, onLock_some, atTook] at fresh
  exact recorded_eq_false connector.recorded (notMem_of_nodup fresh)

section Consequences

variable {both : Rendezvous}

/-- The ids announced are distinct. -/
theorem Rendezvous.Agreement.announced_nodup (agreement : both.Agreement) :
    (both .server).history.announced.Nodup := by
  have fresh := agreement.acceptor.fresh
  rw [agreement.acceptor.allocated] at fresh
  exact fresh.of_append_left

/-- The ids taken are distinct. -/
theorem Rendezvous.Agreement.taken_nodup (agreement : both.Agreement) :
    (both .client).history.taken.Nodup := by
  have fresh := agreement.announced_nodup
  rw [show (both .server).history.announced = _ from (agreement.offers .client).symm] at fresh
  exact fresh.of_append_left.of_append_left

/-- The ids returned by `connect` are distinct. -/
theorem Rendezvous.Agreement.connected_nodup (agreement : both.Agreement) :
    (both .client).history.connected.Nodup := by
  have fresh := agreement.taken_nodup
  rw [agreement.connector.taken, agreement.connector.connected] at fresh
  exact fresh.of_append_left.of_append_left

/-- An id that was taken was announced. -/
theorem Rendezvous.Agreement.announced_of_taken (agreement : both.Agreement) {id : Int}
    (taken : id ∈ (both .client).history.taken) : id ∈ (both .server).history.announced := by
  rw [show (both .server).history.announced = _ from (agreement.offers .client).symm]
  simp [taken]

/-- An id returned by `connect` was chosen by one `accept`. -/
theorem Rendezvous.Agreement.allocated_once (agreement : both.Agreement) {id : Int}
    (connected : id ∈ (both .client).history.connected) :
    (both .server).history.allocated.count id = 1 := by
  refine List.count_eq_one_of_mem agreement.acceptor.fresh ?_
  have taken : id ∈ (both .client).history.taken := by
    rw [agreement.connector.taken, agreement.connector.connected]
    simp [connected]
  rw [agreement.acceptor.allocated]
  exact List.mem_append_left _ (agreement.announced_of_taken taken)

end Consequences

end PaintingCPS
