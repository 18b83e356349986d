import PaintingCPS.Handshake.View

/-!
Contract: a move of a thread is a move of the rendezvous, or none.

Only `connect` and `accept` at their ends, `close`, and the listener are seen
there. All other moves keep the peer as it is.

Owns: that lemma for every move of one end.

Does not own: the other end.
-/

set_option autoImplicit false

namespace PaintingCPS

open Foundation

/-- A step of an end: the invariant is kept, the view stays or takes a step of
the same name, and what is sent is understood by every reader it can have. -/
structure Party.Refines (language : Language) (move : Move) (party after : Party)
    (message : Option (List Byte)) : Prop where
  sound : after.Sound language
  view : (after.peer = party.peer ∧ message = none) ∨
    Peer.Step move party.peer (message.bind notice) after.peer
  understood : ∀ bytes, message = some bytes → ∀ reader : Language,
    (reader = .java → language = .cpp ∧ move.connects = false) → Understood reader bytes

section Moves

variable {language : Language} {party after : Party} {thread : Nat}
variable {message : Option (List Byte)}

/-- A step of one thread that sends nothing and touches neither maps nor
messages. -/
private theorem Party.Refines.quiet {move : Move} (sound : party.Sound language)
    (endpoint : after.endpoint = party.endpoint)
    (hand : after.hand = party.hand) (inbox : after.inbox = party.inbox)
    (threads : ∀ thread, ∀ id ∈ (after.pc thread).ids, IdRange id)
    (view : Peer.Step move party.peer none after.peer) :
    Party.Refines language move party after none where
  sound :=
    { ready := endpoint ▸ sound.ready
      permits := endpoint ▸ sound.permits
      counter := endpoint ▸ sound.counter
      opened := endpoint ▸ sound.opened
      offered := endpoint ▸ sound.offered
      threads := threads
      understood := by rw [hand, inbox]; exact sound.understood }
  view := .inr view
  understood := fun _ none => by cases none

/-- One thread moves to a counter whose ids are in range. -/
private theorem Party.Sound.goto_threads (sound : party.Sound language) {pc : Pc}
    (range : ∀ id ∈ pc.ids, IdRange id) :
    ∀ other, ∀ id ∈ (Function.update party.pc thread pc other).ids, IdRange id := by
  intro other id member
  by_cases same : other = thread
  · subst same
    rw [Function.update_self] at member
    exact range id member
  · rw [Function.update_of_ne same] at member
    exact sound.threads other id member

private theorem Party.lock_refines {move : Move} (sound : party.Sound language) {pc : Pc}
    (range : ∀ id ∈ pc.ids, IdRange id)
    (view : party.idLock = none → Peer.Step move party.peer none
      { party.peer.goto thread pc with idLock := some thread })
    (moved : party.lock thread pc = some (.ok (after, message))) :
    Party.Refines language move party after message := by
  unfold Party.lock at moved
  split at moved
  next free =>
    cases moved
    exact .quiet sound rfl rfl rfl (sound.goto_threads range) (view free)
  next => cases moved

private theorem Party.connectLock_refines (sound : party.Sound language)
    (moved : party.connectLock thread language = some (.ok (after, message))) :
    Party.Refines language (.connectLock thread) party after message := by
  unfold Party.connectLock at moved
  split at moved
  next atIdle =>
    exact Party.lock_refines sound (by simp [Pc.ids]) (fun free => .lockFirst atIdle free) moved
  next atRequested =>
    exact Party.lock_refines sound (by simp [Pc.ids]) (fun free => .lockLater atRequested free)
      moved
  next => cases moved

/-- One thread moves on and one frame is sent. -/
private theorem Party.Refines.loud {move : Move} (sound : party.Sound language)
    (frame : Frame) (stop : Byte) {bytes : List Byte} (written : Written stop frame bytes)
    (stops : stop = comma ∨ stop = nul)
    (short : bytes.length ≤ maxChunk ∨ ∃ id payload, frame = .sock id payload)
    (java : language = .cpp → move.connects = false → stop = comma ∧ frame ≠ .create)
    (endpoint : after.endpoint = party.endpoint)
    (hand : after.hand = party.hand) (inbox : after.inbox = party.inbox)
    (threads : ∀ thread, ∀ id ∈ (after.pc thread).ids, IdRange id)
    (view : Peer.Step move party.peer (some frame.notice) after.peer) :
    Party.Refines language move party after (some bytes) where
  sound :=
    { ready := endpoint ▸ sound.ready
      permits := endpoint ▸ sound.permits
      counter := endpoint ▸ sound.counter
      opened := endpoint ▸ sound.opened
      offered := endpoint ▸ sound.offered
      threads := threads
      understood := by rw [hand, inbox]; exact sound.understood }
  view := .inr (by rw [Option.bind_some, notice_written stops written]; exact view)
  understood := by
    rintro _ ⟨⟩ reader foreign
    exact ⟨frame, stop, written, stops, fun isJava => java (foreign isJava).1 (foreign isJava).2,
      short⟩

private theorem Party.connectSend_refines {junk : Nat → Byte} (sound : party.Sound language)
    (moved : party.connectSend thread language junk = some (.ok (after, message))) :
    Party.Refines language (.connectSend thread) party after message := by
  unfold Party.connectSend at moved
  split at moved
  next atConnecting =>
    obtain ⟨rest, -, formatted⟩ := Cpp.connectFrame_eq junk
    have length := sprintf_length formatted
    rw [uninitialised_length] at length
    rw [formatted, Party.sending_ok] at moved
    cases moved
    exact .loud sound .create nul ⟨rest, rfl⟩ (.inr rfl)
      (.inl (length ▸ by decide))
      (fun _ connects => by cases connects) rfl rfl rfl
      (sound.goto_threads (by simp [Pc.ids])) (.requestLocked atConnecting)
  next atIdle =>
    obtain ⟨zeros, formatted⟩ := Java.connectFrame_eq
    have length := Java.controlFrame_length formatted
    rw [formatted, Party.sending_ok] at moved
    cases moved
    exact .loud sound .create nul ⟨List.replicate zeros nul, rfl⟩ (.inr rfl)
      (.inl (length ▸ by decide))
      (fun _ connects => by cases connects) rfl rfl rfl
      (sound.goto_threads (by simp [Pc.ids])) (.requestFirst atIdle)
  next => cases moved

private theorem Party.connectTake_refines (sound : party.Sound language)
    (moved : party.connectTake thread = some (.ok (after, message))) :
    Party.Refines language (.connectTake thread) party after message := by
  unfold Party.connectTake at moved
  split at moved
  next atAwaiting =>
    split at moved
    next => cases moved
    next =>
      split at moved
      next => cases moved
      next newID rest queueEq =>
        cases moved
        have permits := sound.permits
        rw [queueEq, List.length_cons] at permits
        have offered : ∀ id ∈ newID :: rest, IdRange id := queueEq ▸ sound.offered
        exact
          { sound :=
              { ready := ⟨sound.ready.initialised, sound.ready.separated.of_maps_eq rfl rfl rfl,
                  sound.ready.consistent⟩
                permits := by
                  dsimp only
                  omega
                counter := sound.counter
                opened := sound.opened
                offered := fun id member => offered id (List.mem_cons_of_mem _ member)
                threads := sound.goto_threads
                  (by simpa [Pc.ids] using offered newID (by simp))
                understood := sound.understood }
            view := .inr (.take atAwaiting queueEq)
            understood := fun _ none => by cases none }
  next => cases moved

/-- The map update of `connect` and `accept`. -/
private theorem Party.enter_sound (sound : party.Sound language) {newID : Int} {pc : Pc}
    (ids : pc.ids = [newID]) (range : IdRange newID) :
    ((party.enter newID).goto thread pc).Sound language where
  ready := sound.ready.register newID
  permits := sound.permits
  counter := sound.counter
  opened := by
    intro id found
    by_cases same : id = newID
    · exact same ▸ range
    · refine sound.opened id ?_
      simpa [Party.enter, Party.goto, MsgDistributor.register, Function.update_of_ne same]
        using found
  offered := sound.offered
  threads := sound.goto_threads (by simpa [ids] using range)
  understood := sound.understood

private theorem Party.enter_peer (newID : Int) (pc : Pc) :
    ((party.enter newID).goto thread pc).peer = (party.peer.enter newID).goto thread pc := by
  have known : (fun id => (Function.update party.endpoint.semMap newID
      (some party.endpoint.fresh) id).isSome) =
      Function.update (fun id => (party.endpoint.semMap id).isSome) newID true := by
    funext id
    by_cases same : id = newID
    · subst same
      simp
    · simp [Function.update_of_ne same]
  have recorded : (fun id =>
      (Function.update party.endpoint.semMap newID (some party.endpoint.fresh) id).isSome ||
      (Function.update party.endpoint.queueMap newID (some party.endpoint.fresh) id).isSome ||
      (Function.update party.endpoint.statusMap newID (some 1) id).isSome) =
      Function.update (fun id => (party.endpoint.semMap id).isSome ||
        (party.endpoint.queueMap id).isSome || (party.endpoint.statusMap id).isSome)
        newID true := by
    funext id
    by_cases same : id = newID
    · subst same
      simp
    · simp [Function.update_of_ne same]
  simp only [Party.peer, Party.enter, Party.goto, Peer.enter, Peer.goto, MsgDistributor.register,
    known, recorded]

private theorem Party.connectRegister_refines (sound : party.Sound language)
    (moved : party.connectRegister thread = some (.ok (after, message))) :
    Party.Refines language (.connectRegister thread) party after message := by
  unfold Party.connectRegister at moved
  split at moved
  next newID atTook =>
    cases moved
    have range : IdRange newID := sound.threads thread newID (by rw [atTook]; simp [Pc.ids])
    exact
      { sound := Party.enter_sound sound rfl range
        view := .inr (by rw [Party.enter_peer]; exact .enterTaken atTook)
        understood := fun _ none => by cases none }
  next => cases moved

private theorem Party.connectReturn_refines (sound : party.Sound language)
    (moved : party.connectReturn thread = some (.ok (after, message))) :
    Party.Refines language (.connectReturn thread) party after message := by
  unfold Party.connectReturn at moved
  split at moved
  next newID atEntered =>
    cases moved
    exact .quiet sound rfl rfl rfl (sound.goto_threads (by simp [Pc.ids])) (.connected atEntered)
  next => cases moved

private theorem Party.acceptWait_refines (sound : party.Sound language)
    (moved : party.acceptWait thread = some (.ok (after, message))) :
    Party.Refines language (.acceptWait thread) party after message := by
  unfold Party.acceptWait at moved
  split at moved
  next atIdle =>
    split at moved
    next => cases moved
    next waiting =>
      cases moved
      exact
        { sound :=
            { ready := ⟨sound.ready.initialised, sound.ready.separated.of_maps_eq rfl rfl rfl,
                sound.ready.consistent⟩
              permits := sound.permits
              counter := sound.counter
              opened := sound.opened
              offered := sound.offered
              threads := sound.goto_threads (by simp [Pc.ids])
              understood := sound.understood }
          view := .inr (.wake atIdle (Nat.pos_of_ne_zero waiting))
          understood := fun _ none => by cases none }
  next => cases moved

private theorem Party.acceptAllocate_refines (sound : party.Sound language)
    (moved : party.acceptAllocate thread = some (.ok (after, message))) :
    Party.Refines language (.acceptAllocate thread) party after message := by
  unfold Party.acceptAllocate at moved
  split at moved
  next atAccepting =>
    split at moved
    next free =>
      split at moved
      next => cases moved
      next newID found =>
        cases moved
        obtain ⟨above, below, unknown, skips⟩ := nextId_spec found
        have counter := sound.counter
        exact
          { sound :=
              { ready := ⟨by dsimp only; omega, sound.ready.separated.of_maps_eq rfl rfl rfl,
                  sound.ready.consistent⟩
                permits := sound.permits
                counter := by
                  dsimp only
                  omega
                opened := sound.opened
                offered := sound.offered
                threads := sound.goto_threads (by
                  simpa [Pc.ids] using (⟨by omega, by omega⟩ : IdRange newID))
                understood := sound.understood }
            view := .inr (.allocate atAccepting free above below
              (by simp [Party.peer, unknown]) skips)
            understood := fun _ none => by cases none }
    next => cases moved
  next => cases moved

private theorem Party.acceptSend_refines {junk : Nat → Byte} (sound : party.Sound .cpp)
    (moved : party.acceptSend thread junk = some (.ok (after, message))) :
    Party.Refines .cpp (.acceptSend thread) party after message := by
  unfold Party.acceptSend at moved
  split at moved
  next newID atAllocated =>
    have range : IdRange newID := sound.threads thread newID (by rw [atAllocated]; simp [Pc.ids])
    obtain ⟨rest, formatted⟩ := Cpp.acceptFrame_eq junk range
    have length := sprintf_length formatted
    rw [uninitialised_length] at length
    rw [formatted, Party.sending_ok] at moved
    cases moved
    exact .loud sound (.accepted newID) comma ⟨range, nul :: rest, rfl⟩ (.inl rfl)
      (.inl (length ▸ by decide))
      (fun _ _ => ⟨rfl, by simp⟩) rfl rfl rfl
      (sound.goto_threads (by simpa [Pc.ids] using range)) (.announce atAllocated)
  next => cases moved

private theorem Party.acceptRegister_refines (sound : party.Sound language)
    (moved : party.acceptRegister thread = some (.ok (after, message))) :
    Party.Refines language (.acceptRegister thread) party after message := by
  unfold Party.acceptRegister at moved
  split at moved
  next newID atAnnounced =>
    cases moved
    have range : IdRange newID :=
      sound.threads thread newID (by rw [atAnnounced]; simp [Pc.ids])
    exact
      { sound := Party.enter_sound sound rfl range
        view := .inr (by rw [Party.enter_peer]; exact .enterAnnounced atAnnounced)
        understood := fun _ none => by cases none }
  next => cases moved

private theorem Party.acceptReturn_refines (sound : party.Sound language)
    (moved : party.acceptReturn thread = some (.ok (after, message))) :
    Party.Refines language (.acceptReturn thread) party after message := by
  unfold Party.acceptReturn at moved
  split at moved
  next newID atListed =>
    cases moved
    exact .quiet sound rfl rfl rfl (sound.goto_threads (by simp [Pc.ids])) (.accepted atListed)
  next => cases moved

/-- Closing takes the id from `sem_map`; its entry in `status_map` stays. -/
private theorem closeTables_known (endpoint : MsgDistributor) (sock : Int) (closeSem : Nat) :
    (fun id => ((endpoint.closeTables sock closeSem).semMap id).isSome) =
      Function.update (fun id => (endpoint.semMap id).isSome) sock false := by
  funext id
  by_cases same : id = sock
  · subst same
    simp [MsgDistributor.closeTables]
  · simp [MsgDistributor.closeTables, Function.update_of_ne same]

private theorem closeTables_recorded {endpoint : MsgDistributor} {sock : Int} {closeSem : Nat}
    (found : endpoint.semMap sock = some closeSem) :
    (fun id => ((endpoint.closeTables sock closeSem).semMap id).isSome ||
      ((endpoint.closeTables sock closeSem).queueMap id).isSome ||
      ((endpoint.closeTables sock closeSem).statusMap id).isSome) =
      fun id => (endpoint.semMap id).isSome || (endpoint.queueMap id).isSome ||
        (endpoint.statusMap id).isSome := by
  funext id
  by_cases same : id = sock
  · subst same
    simp [MsgDistributor.closeTables, found]
  · simp [MsgDistributor.closeTables, Function.update_of_ne same]

/-- The endpoint after `closeTables`, in an end that is otherwise arbitrary. -/
private theorem Party.Sound.close (sound : party.Sound language) {sock : Int} {closeSem : Nat}
    (found : party.endpoint.semMap sock = some closeSem)
    (endpoint : after.endpoint = party.endpoint.closeTables sock closeSem)
    (threads : ∀ thread, ∀ id ∈ (after.pc thread).ids, IdRange id)
    (understood : ∀ bytes ∈ after.hand.toList ++ after.inbox, Understood language bytes) :
    after.Sound language where
  ready := endpoint ▸ sound.ready.closeTables found
  permits := endpoint ▸ sound.permits
  counter := endpoint ▸ sound.counter
  opened := by
    intro id idFound
    have known := congrFun (closeTables_known party.endpoint sock closeSem) id
    rw [endpoint, known] at idFound
    by_cases same : id = sock
    · subst same
      simp at idFound
    · rw [Function.update_of_ne same] at idFound
      exact sound.opened id idFound
  offered := endpoint ▸ sound.offered
  threads := threads
  understood := understood

private theorem Party.closeTables_refines {sock : Int} (sound : party.Sound language)
    (moved : party.closeTables thread sock = some (.ok (after, message))) :
    Party.Refines language (.closeTables thread sock) party after message := by
  unfold Party.closeTables at moved
  split at moved
  next atIdle =>
    cases found : party.endpoint.semMap sock with
    | none =>
        rw [MsgDistributor.closeLocked, found] at moved
        cases moved
        exact ⟨sound, .inl ⟨rfl, rfl⟩, fun _ none => by cases none⟩
    | some closeSem =>
        rw [MsgDistributor.closeLocked, found] at moved
        cases moved
        have range := sound.opened sock (by rw [found]; rfl)
        refine
          { sound := sound.close found rfl (sound.goto_threads (by simpa [Pc.ids] using range))
              sound.understood
            view := .inr ?_
            understood := fun _ none => by cases none }
        have view : Party.peer { party.goto thread (.closing sock) with
              endpoint := party.endpoint.closeTables sock closeSem
              history := { party.history with closed := party.history.closed ++ [sock] } } =
            { (party.peer.forget sock).goto thread (.closing sock) with
              history := { party.history with closed := party.history.closed ++ [sock] } } := by
          simp only [Party.peer, Party.goto, Peer.goto, Peer.forget, closeTables_known,
            closeTables_recorded found]
          rfl
        refine Eq.subst view.symm (.close atIdle ?_)
        simp [Party.peer, found]
  next => cases moved

private theorem Party.closeSend_refines {junk : Nat → Byte} (sound : party.Sound language)
    (moved : party.closeSend thread language junk = some (.ok (after, message))) :
    Party.Refines language (.closeSend thread) party after message := by
  unfold Party.closeSend at moved
  split at moved
  next sock atClosing =>
    have range : IdRange sock := sound.threads thread sock (by rw [atClosing]; simp [Pc.ids])
    cases language with
    | cpp =>
        obtain ⟨rest, formatted⟩ := Cpp.closeFrame_eq junk range
        have length := sprintf_length formatted
        rw [uninitialised_length] at length
        dsimp only at moved
        rw [formatted, Party.sending_ok] at moved
        cases moved
        exact .loud sound (.close sock) comma ⟨range, nul :: rest, rfl⟩ (.inl rfl)
          (.inl (length ▸ by decide)) (fun _ _ => ⟨rfl, by simp⟩) rfl rfl rfl
          (sound.goto_threads (by simp [Pc.ids])) (.notify atClosing)
    | java =>
        obtain ⟨zeros, positive, formatted⟩ := Java.closeFrame_eq range
        have length := Java.controlFrame_length formatted
        obtain ⟨more, rfl⟩ := Nat.exists_eq_add_of_lt positive
        dsimp only at moved
        rw [formatted, Party.sending_ok] at moved
        cases moved
        exact .loud sound (.close sock) nul ⟨range, List.replicate (0 + more) nul, rfl⟩ (.inr rfl)
          (.inl (length ▸ by decide)) (fun isCpp => by cases isCpp) rfl rfl rfl
          (sound.goto_threads (by simp [Pc.ids])) (.notify atClosing)
  next => cases moved

/-- The bytes of a C++ data frame, if the call returns. -/
private theorem Cpp.sendFrame_ok {junk : Nat → Byte} {sock : Int} {payload bytes : List Byte}
    (range : IdRange sock) (formatted : Cpp.sendFrame junk sock payload = .ok bytes) :
    Written comma (.sock sock payload) bytes := by
  have low := range.low
  by_cases long : 10 ^ 9 ≤ sock.natAbs
  · simp only [Cpp.sendFrame, Cpp.idLength_overflow long, bind, Except.bind] at formatted
    cases formatted
  · have socketEq : sock = SocketId.int ⟨sock.toNat, by omega, by omega⟩ :=
      (Int.toNat_of_nonneg (by omega)).symm
    rw [socketEq] at formatted
    by_cases nonempty : payload = []
    · subst nonempty
      rw [Cpp.sendFrame_empty] at formatted
      cases formatted
    · rw [Cpp.sendFrame_eq junk _ nonempty] at formatted
      cases formatted
      exact ⟨_, socketEq, rfl⟩

private theorem Party.send_refines {junk : Nat → Byte} {sock : Int} {payload : List Byte}
    (sound : party.Sound .cpp)
    (moved : party.send .cpp junk sock payload = some (.ok (after, message))) :
    Party.Refines .cpp (.send sock payload) party after message := by
  simp only [Party.send, Cpp.send, if_neg sound.ready.initialised] at moved
  cases found : party.endpoint.semMap sock with
  | none =>
      rw [found] at moved
      cases moved
      exact ⟨sound, .inl ⟨rfl, rfl⟩, fun _ none => by cases none⟩
  | some semaphore =>
      rw [found] at moved
      cases formatted : Cpp.sendFrame junk sock payload with
      | error fault =>
          simp [formatted, bind, Except.bind, Except.map] at moved
      | ok bytes =>
          simp only [formatted, bind, Except.bind, pure, Except.pure, Except.map,
            Option.some.injEq, Except.ok.injEq, Prod.mk.injEq] at moved
          obtain ⟨rfl, rfl⟩ := moved
          have range := sound.opened sock (by rw [found]; rfl)
          exact .loud sound (.sock sock payload) comma (Cpp.sendFrame_ok range formatted)
            (.inl rfl) (.inr ⟨_, _, rfl⟩) (fun _ _ => ⟨rfl, by simp⟩) rfl rfl rfl sound.threads
            (.send (by simp [Party.peer, found]))

private theorem Party.receive_refines {mfrecv : List Byte → Option (List Byte)}
    (contract : ReceiveContract mfrecv) (sound : party.Sound language)
    (moved : party.receive mfrecv = some (.ok (after, message))) :
    Party.Refines language .receive party after message := by
  unfold Party.receive at moved
  split at moved
  next bytes rest handEq inboxEq =>
    cases moved
    have understood := sound.understood
    rw [handEq, inboxEq] at understood
    have later : ∀ other ∈ rest, Understood language other :=
      fun other member => understood other (by simp [member])
    have rebuild : ∀ hand : Option (List Byte), (∀ stored ∈ hand, Understood language stored) →
        Party.Sound language { party with hand := hand, inbox := rest } := by
      intro hand stored
      refine { sound with understood := ?_ }
      intro other member
      rcases List.mem_append.mp member with inHand | inRest
      · exact stored other (Option.mem_toList.mp inHand)
      · exact later other inRest
    rcases (understood bytes (by simp)).receive contract with
      ⟨stored, received, storedUnderstood, noticeSame⟩ | ⟨refused, id, noticed⟩
    · rw [received]
      refine ⟨rebuild _ (by simpa using storedUnderstood), .inl ⟨?_, rfl⟩,
        fun _ none => by cases none⟩
      simp [Party.peer, handEq, inboxEq, List.filterMap_cons, noticeSame]
    · rw [refused]
      have arriving : party.peer.arriving = .data id :: rest.filterMap notice := by
        simp [Party.peer, handEq, inboxEq, noticed]
      have step : Peer.Step .receive party.peer none
          { party.peer with arriving := rest.filterMap notice } := .refuse arriving
      exact ⟨rebuild _ (by simp), .inr step, fun _ none => by cases none⟩
  next => cases moved

/-- What the effect of a frame is to an end. -/
private theorem Party.Sound.effect (sound : party.Sound language) {frame : Frame}
    (range : ∀ id, frame = .accepted id ∨ frame = .close id → IdRange id)
    {inbox : List (List Byte)}
    (understood : ∀ bytes ∈ inbox, Understood language bytes) (history : History)
    {endpoint : MsgDistributor} {ret : Int}
    (effect : frame.effect party.endpoint = .ok (endpoint, ret)) :
    Party.Sound language { party with
        endpoint := endpoint, hand := none, inbox := inbox, history := history } ∧
      Party.peer { party with
          endpoint := endpoint, hand := none, inbox := inbox, history := history } =
        { party.peer.hear frame.notice with
          arriving := inbox.filterMap notice, history := history } := by
  cases frame with
  | create =>
      cases effect
      exact ⟨⟨⟨sound.ready.initialised, sound.ready.separated.of_maps_eq rfl rfl rfl,
        sound.ready.consistent⟩, sound.permits, sound.counter, sound.opened, sound.offered,
        sound.threads, understood⟩, rfl⟩
  | accepted id =>
      cases effect
      refine ⟨⟨⟨sound.ready.initialised, sound.ready.separated.of_maps_eq rfl rfl rfl,
        sound.ready.consistent⟩, ?_, sound.counter, sound.opened, ?_, sound.threads, understood⟩,
        rfl⟩
      · have permits := sound.permits
        simp only [List.length_append, List.length_singleton]
        omega
      · intro other member
        rcases List.mem_append.mp member with before | new
        · exact sound.offered other before
        · rw [List.mem_singleton] at new
          exact new ▸ range id (.inl rfl)
  | sock id payload =>
      rw [Frame.effect] at effect
      cases found : party.endpoint.semMap id with
      | none =>
          rw [found] at effect
          cases effect
          exact ⟨⟨sound.ready, sound.permits, sound.counter, sound.opened, sound.offered,
            sound.threads, understood⟩, rfl⟩
      | some semaphore =>
          obtain ⟨open', present⟩ :=
            Option.isSome_iff_exists.mp (sound.ready.consistent id (by rw [found]; rfl))
          obtain ⟨stored, delivered, table, semSame, queueSame, statusSame, freshSame, sockSame,
              acceptSame, connectSame, offersSame⟩ :=
            MsgDistributor.deliver_open sound.ready.separated present payload
          rw [found] at effect
          dsimp only at effect
          rw [delivered] at effect
          cases effect
          refine ⟨⟨sound.ready.of_update table semSame queueSame freshSame sockSame,
            ?_, ?_, ?_, ?_, sound.threads, understood⟩, ?_⟩
          · exact connectSame ▸ offersSame ▸ sound.permits
          · exact sockSame ▸ sound.counter
          · exact semSame ▸ sound.opened
          · exact offersSame ▸ sound.offered
          · simp only [Party.peer, Peer.hear, Frame.notice, semSame, queueSame, statusSame,
              sockSame, acceptSame, offersSame]
            rfl
  | close id =>
      cases found : party.endpoint.semMap id with
      | none =>
          rw [Frame.effect, MsgDistributor.closeLocked, found] at effect
          cases effect
          refine ⟨⟨sound.ready, sound.permits, sound.counter, sound.opened, sound.offered,
            sound.threads, understood⟩, ?_⟩
          have unchanged : Function.update (fun id => (party.endpoint.semMap id).isSome) id false =
              fun id => (party.endpoint.semMap id).isSome := by
            rw [Function.update_eq_self_iff, found]
            rfl
          simp only [Party.peer, Peer.hear, Peer.forget, Frame.notice, unchanged]
          rfl
      | some closeSem =>
          rw [Frame.effect, MsgDistributor.closeLocked, found, Option.map_some,
            Option.getD_some] at effect
          cases effect
          refine ⟨sound.close found rfl sound.threads understood, ?_⟩
          simp only [Party.peer, Peer.hear, Peer.forget, Frame.notice, closeTables_known,
            closeTables_recorded found]
          rfl

private theorem Party.dispatch_refines {junk : Nat → Byte} (sound : party.Sound language)
    (moved : party.dispatch language junk = some (.ok (after, message))) :
    Party.Refines language .dispatch party after message := by
  unfold Party.dispatch at moved
  split at moved
  next => cases moved
  next bytes handEq =>
    have understood := sound.understood
    rw [handEq] at understood
    obtain ⟨frame, noticed, range, listens⟩ := (understood bytes (by simp)).listen
    rw [listens party.endpoint junk sound.ready.initialised] at moved
    cases effect : frame.effect party.endpoint with
    | error fault =>
        rw [effect] at moved
        cases moved
    | ok result =>
        obtain ⟨endpoint, ret⟩ := result
        rw [effect] at moved
        cases moved
        have later : ∀ other ∈ party.inbox, Understood language other :=
          fun other member => understood other (by simp [member])
        obtain ⟨afterSound, view⟩ := sound.effect range later
          (party.history.observe (Notice.knownTo party.peer.known (some frame.notice))
            (some frame.notice)) effect
        have arriving : party.peer.arriving = frame.notice :: party.inbox.filterMap notice := by
          simp [Party.peer, handEq, noticed]
        rw [noticed]
        exact
          { sound := afterSound
            view := .inr (view.symm ▸ .hear arriving)
            understood := fun _ none => by cases none }

/-- The Java `send` prints and measures ids of more than nine digits
differently, so it is left out. -/
def Move.Modelled (language : Language) (move : Move) : Prop :=
  language = .java → move.sends = false

/-- Every step of an end refines the step of the same name. -/
theorem Party.move_refines {mfrecv : List Byte → Option (List Byte)}
    (contract : ReceiveContract mfrecv) {junk : Nat → Byte} {move : Move}
    (modelled : move.Modelled language) (accepts : move.accepts = true → language = .cpp)
    (sound : party.Sound language)
    (moved : party.move mfrecv language junk move = some (.ok (after, message))) :
    Party.Refines language move party after message := by
  cases move with
  | connectLock thread => exact connectLock_refines sound moved
  | connectSend thread => exact connectSend_refines sound moved
  | connectTake thread => exact connectTake_refines sound moved
  | connectRegister thread => exact connectRegister_refines sound moved
  | connectReturn thread => exact connectReturn_refines sound moved
  | acceptWait thread => exact acceptWait_refines sound moved
  | acceptAllocate thread => exact acceptAllocate_refines sound moved
  | acceptSend thread =>
      cases accepts rfl
      exact acceptSend_refines sound moved
  | acceptRegister thread => exact acceptRegister_refines sound moved
  | acceptReturn thread => exact acceptReturn_refines sound moved
  | closeTables thread sock => exact closeTables_refines sound moved
  | closeSend thread => exact closeSend_refines sound moved
  | send sock payload =>
      cases language with
      | cpp => exact send_refines sound moved
      | java => cases modelled rfl
  | receive => exact receive_refines contract sound moved
  | dispatch => exact dispatch_refines sound moved

end Moves

end PaintingCPS
