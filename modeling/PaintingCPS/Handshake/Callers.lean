import PaintingCPS.Handshake.Refinement
import PaintingCPS.MsgDistributor.Table
import PaintingCPS.MsgDistributor.Tolerance

/-!
Contract: the connection table of one C++ endpoint under any sequence of calls.

`listen`, `accept`, `send` and `close` are one step each. `connect` and `recv`
are two: up to the semaphore, and from the wake-up to the return. `connect`
holds `id_lock` while it waits. Whether an `mfsend` succeeds is part of the
label.

A step is a sequence of a few updates of the tables. Each keeps the invariant of
the tables; only a registration asks for more than that.

Owns: the calls and their machine, the state of the tables that is expected in
every run, and the registrations under which it holds.

Does not own: the other end, and the frames that are sent.
-/

set_option autoImplicit false

namespace PaintingCPS

open Foundation

/-! ## The calls -/

/-- One endpoint and the calls that wait in it. -/
structure Callers where
  endpoint : MsgDistributor
  /-- A `connect` waits at `connect_sem` and holds `id_lock`. -/
  connecting : Bool
  /-- The `recv` calls between their look-up and their wake-up: id and semaphore. -/
  receiving : List (Int × Nat)
  /-- Ids that were ever in `sem_map` or in `connect_queue`. -/
  used : Int → Bool
  /-- Ids that a `close` took out of `sem_map`. -/
  closed : Int → Bool
  fault : Option Fault

/-- A call, or the half of one, with what it cannot know. -/
inductive MethodCall where
  | listen (junk : Nat → Byte) (received : Option (List Byte))
  | connect (junk : Nat → Byte) (sent : Bool)
  | connected
  | accept (junk : Nat → Byte) (sent : Bool)
  | send (junk : Nat → Byte) (sock : Int) (buffer : List Byte)
  | recv (sock : Int)
  | woken (place : Nat)
  | close (junk : Nat → Byte) (sock passive : Int)

namespace Callers

def init : Callers where
  endpoint := .init
  connecting := false
  receiving := []
  used _ := false
  closed _ := false
  fault := none

/-- The endpoint changes, and with it what is known of the ids. -/
def become (callers : Callers) (endpoint : MsgDistributor) : Callers :=
  { callers with
    endpoint := endpoint
    used := fun id => callers.used id || (endpoint.semMap id).isSome ||
      decide (id ∈ endpoint.connectQueue)
    closed := fun id => callers.closed id ||
      ((callers.endpoint.semMap id).isSome && (endpoint.semMap id).isNone) }

section Calls

variable (callers : Callers)

def listen (junk : Nat → Byte) (received : Option (List Byte)) : Except Fault Callers := do
  let (endpoint, _) ← Cpp.listen junk callers.endpoint received
  return callers.become endpoint

/-- `connect` up to `sem_wait`; a failed `mfsend` unlocks and returns -1. -/
def connect (junk : Nat → Byte) (sent : Bool) : Option (Except Fault Callers) :=
  if callers.connecting then none
  else
    some do
      let _ ← Cpp.connectFrame junk
      return if sent then { callers with connecting := true } else callers

/-- `connect` from the wake-up on. -/
def connected : Option (Except Fault Callers) :=
  if callers.connecting = false ∨ callers.endpoint.connectSem = 0 then none
  else
    match callers.endpoint.connectQueue with
    | [] => some (.error .emptyQueue)
    | newID :: rest =>
        let popped := { callers.endpoint with
          connectSem := callers.endpoint.connectSem - 1
          connectQueue := rest }
        some (.ok { callers.become (popped.register newID) with connecting := false })

/-- `accept`; a failed `mfsend` calls `exit(1)`. -/
def accept (junk : Nat → Byte) (sent : Bool) : Option (Except Fault Callers) :=
  if callers.connecting ∨ callers.endpoint.acceptSem = 0 then none
  else
    some do
      let newID ← nextId callers.endpoint.semMap (2147483648 - callers.endpoint.mfsockid).toNat
        callers.endpoint.mfsockid
      let _ ← Cpp.acceptFrame junk newID
      if sent then
        let allocated := { callers.endpoint with
          acceptSem := callers.endpoint.acceptSem - 1
          mfsockid := newID }
        return callers.become (allocated.register newID)
      else .error .exited

/-- `send` changes nothing, whatever `mfsend` returns. -/
def send (junk : Nat → Byte) (sock : Int) (buffer : List Byte) : Except Fault Callers := do
  let _ ← Cpp.send junk callers.endpoint sock buffer
  return callers

/-- `recv` up to `sem_wait`. -/
def recv (sock : Int) : Callers :=
  match Cpp.recvEnter callers.endpoint sock with
  | none => callers
  | some recvSem => { callers with receiving := callers.receiving ++ [(sock, recvSem)] }

/-- `recv` from the wake-up on. -/
def woken (place : Nat) : Option (Except Fault Callers) :=
  match callers.receiving[place]? with
  | none => none
  | some (sock, recvSem) =>
      if callers.endpoint.sems recvSem = 0 then none
      else
        some do
          let (endpoint, _) ← Cpp.recvWake callers.endpoint sock recvSem
          return { callers.become endpoint with
            receiving := callers.receiving.eraseIdx place }

/-- `close`; the tables are updated before `mfsend`. -/
def close (junk : Nat → Byte) (sock passive : Int) : Except Fault Callers := do
  let (endpoint, _, _) ← Cpp.close junk callers.endpoint sock passive
  return callers.become endpoint

def step : MethodCall → Option (Except Fault Callers)
  | .listen junk received => some (callers.listen junk received)
  | .connect junk sent => callers.connect junk sent
  | .connected => callers.connected
  | .accept junk sent => callers.accept junk sent
  | .send junk sock buffer => some (callers.send junk sock buffer)
  | .recv sock => some (.ok (callers.recv sock))
  | .woken place => callers.woken place
  | .close junk sock passive => some (callers.close junk sock passive)

end Calls

end Callers

def callersMachine : Machine Callers MethodCall where
  next callers call :=
    if callers.fault.isSome then none
    else
      match callers.step call with
      | none => none
      | some (.error fault) => some { callers with fault := some fault }
      | some (.ok after) => some after

/-! ## What is expected -/

/-- The three maps agree, permits count blocks, and whoever wakes up finds a
block or learns of the close. -/
structure Callers.Consistent (callers : Callers) : Prop where
  sameIds : ∀ id,
    (callers.endpoint.semMap id).isSome = (callers.endpoint.queueMap id).isSome
  registered : ∀ id,
    callers.endpoint.statusMap id = some 1 ↔ (callers.endpoint.semMap id).isSome
  shut : ∀ id status, callers.endpoint.statusMap id = some status →
    callers.endpoint.semMap id = none → status = 0 ∧ callers.closed id = true
  permits : ∀ id, (callers.endpoint.semMap id).isSome →
    ∃ open', callers.endpoint.connection id = some open' ∧
      open'.permits = open'.blocks.length
  wakes : ∀ sock recvSem, (sock, recvSem) ∈ callers.receiving →
    0 < callers.endpoint.sems recvSem →
    if (callers.endpoint.semMap sock).isSome then
      ∃ after block, Cpp.recvWake callers.endpoint sock recvSem = .ok (after, some block)
    else
      ∃ after, Cpp.recvWake callers.endpoint sock recvSem = .ok (after, none)

/-! ## Runs -/

namespace Callers

/-- No recv that can still wake up awaits the id. -/
def Unawaited (callers : Callers) (newID : Int) : Prop :=
  ∀ recvSem, (newID, recvSem) ∈ callers.receiving → callers.endpoint.sems recvSem = 0

/-- A call registers no id that a recv awaits whose semaphore has a permit:
`connect` the first of its queue, `accept` the least number above `mfsockid`
that is not in `sem_map`. -/
def Undisturbed (callers : Callers) : MethodCall → Prop
  | .connected => ∀ newID ∈ callers.endpoint.connectQueue.head?, callers.Unawaited newID
  | .accept _ _ => ∀ newID, callers.endpoint.mfsockid < newID →
      callers.endpoint.semMap newID = none →
      (∀ skipped, callers.endpoint.mfsockid < skipped → skipped < newID →
        (callers.endpoint.semMap skipped).isSome = true) →
      callers.Unawaited newID
  | _ => True

/-- The tables of the endpoint, for the calls that wait in it. -/
def Sound (callers : Callers) : Prop :=
  Tables callers.endpoint callers.receiving callers.closed

theorem Sound.consistent {callers : Callers} (sound : callers.Sound) : callers.Consistent where
  sameIds := sound.sameIds
  registered := sound.registered
  shut := sound.shut
  permits := by
    intro id found
    obtain ⟨open', present⟩ := Option.isSome_iff_exists.mp (sound.ready.consistent id found)
    exact ⟨open', present, sound.permits id open' present⟩
  wakes := by
    intro sock recvSem member permit
    split
    next isOpen =>
      rcases sound.awaited sock recvSem member with found | gone | spent
      · obtain ⟨after, block, woken, -⟩ := sound.takes found (by omega)
        exact ⟨after, block, woken⟩
      · simp [gone] at isOpen
      · omega
    next shut =>
      obtain ⟨after, woken, -⟩ := sound.refused member (by simpa using shut)
      exact ⟨after, woken⟩

section Steps

variable {callers after : Callers}

/-- The endpoint that a call leaves behind, with what is then known of the ids. -/
private theorem Sound.become {endpoint : MsgDistributor} {receiving : List (Int × Nat)}
    (tables : Tables endpoint receiving callers.closed) :
    Tables endpoint receiving (callers.become endpoint).closed :=
  tables.weaken (fun _ member => member) fun id known => by simp [Callers.become, known]

private theorem become_gone {endpoint : MsgDistributor} (id : Int)
    (found : (callers.endpoint.semMap id).isSome) (gone : endpoint.semMap id = none) :
    (callers.become endpoint).closed id = true := by
  simp [Callers.become, found, gone]

private theorem become_known {endpoint : MsgDistributor} (id : Int)
    (known : callers.closed id = true) : (callers.become endpoint).closed id = true := by
  simp [Callers.become, known]

theorem Sound.listen (sound : callers.Sound) {junk : Nat → Byte} {received : Option (List Byte)}
    (stepped : callers.listen junk received = .ok after) : after.Sound := by
  obtain ⟨⟨endpoint, ret⟩, heard, stepped⟩ := bind_eq_ok.mp stepped
  cases stepped
  rcases Cpp.listen_effect heard with rfl | ⟨frame, done⟩
  · exact Sound.become sound
  · exact Tables.effect sound done become_known become_gone

theorem Sound.connect (sound : callers.Sound) {junk : Nat → Byte} {sent : Bool}
    (stepped : callers.connect junk sent = some (.ok after)) : after.Sound := by
  unfold Callers.connect at stepped
  split at stepped
  next => cases stepped
  next =>
    obtain ⟨_, -, stepped⟩ := bind_eq_ok.mp (Option.some.inj stepped)
    cases sent <;> cases stepped <;> exact sound

theorem Sound.connected (sound : callers.Sound) (allowed : callers.Undisturbed .connected)
    (stepped : callers.connected = some (.ok after)) : after.Sound := by
  unfold Callers.connected at stepped
  split at stepped
  next => cases stepped
  next =>
    split at stepped
    next => cases stepped
    next newID rest offered =>
      cases stepped
      have offers := sound.offers
      rw [offered, List.length_cons] at offers
      have popped : Tables { callers.endpoint with
          connectSem := callers.endpoint.connectSem - 1
          connectQueue := rest } callers.receiving callers.closed :=
        Tables.counters sound sound.counter (by omega)
      exact Sound.become (popped.register (allowed newID (by simp [offered])))

theorem Sound.accept (sound : callers.Sound) {junk : Nat → Byte} {sent : Bool}
    (allowed : callers.Undisturbed (.accept junk sent))
    (stepped : callers.accept junk sent = some (.ok after)) : after.Sound := by
  unfold Callers.accept at stepped
  split at stepped
  next => cases stepped
  next =>
    obtain ⟨newID, found, stepped⟩ := bind_eq_ok.mp (Option.some.inj stepped)
    obtain ⟨_, -, stepped⟩ := bind_eq_ok.mp stepped
    obtain ⟨above, -, free, skips⟩ := nextId_spec found
    cases sent with
    | false => cases stepped
    | true =>
        cases stepped
        have counter := sound.counter
        have allocated : Tables { callers.endpoint with
            acceptSem := callers.endpoint.acceptSem - 1
            mfsockid := newID } callers.receiving callers.closed :=
          Tables.counters sound (by omega) sound.offers
        exact Sound.become (allocated.register (allowed newID above free skips))

theorem Sound.recv (sound : callers.Sound) (sock : Int) : (callers.recv sock).Sound := by
  unfold Callers.recv Cpp.recvEnter
  rw [if_neg sound.ready.initialised]
  cases found : callers.endpoint.semMap sock with
  | none => exact sound
  | some recvSem => exact Tables.enter sound found

theorem Sound.woken (sound : callers.Sound) {place : Nat}
    (stepped : callers.woken place = some (.ok after)) : after.Sound := by
  unfold Callers.woken at stepped
  split at stepped
  next => cases stepped
  next sock recvSem found =>
    split at stepped
    next => cases stepped
    next permit =>
      obtain ⟨⟨endpoint, block⟩, woken, stepped⟩ := bind_eq_ok.mp (Option.some.inj stepped)
      cases stepped
      have member := List.mem_of_getElem? found
      have kept : Tables endpoint callers.receiving callers.closed := by
        rcases sound.awaited sock recvSem member with owns | gone | spent
        · obtain ⟨reached, first, taken, kept⟩ := sound.takes owns permit
          rw [woken] at taken
          cases taken
          exact kept
        · obtain ⟨reached, refused, kept⟩ := sound.refused member gone
          rw [woken] at refused
          cases refused
          exact kept
        · exact absurd spent permit
      exact (Sound.become kept).weaken (fun _ rest => List.mem_of_mem_eraseIdx rest)
        fun _ known => known

theorem Sound.close (sound : callers.Sound) {junk : Nat → Byte} {sock passive : Int}
    (stepped : callers.close junk sock passive = .ok after) : after.Sound := by
  obtain ⟨⟨endpoint, ret, frame⟩, done, stepped⟩ := bind_eq_ok.mp stepped
  cases stepped
  unfold Cpp.close at done
  rw [if_neg sound.ready.initialised] at done
  cases found : callers.endpoint.semMap sock with
  | none =>
      rw [MsgDistributor.closeLocked, found] at done
      cases done
      exact Sound.become sound
  | some closeSem =>
      have shut : endpoint = callers.endpoint.closeTables sock closeSem := by
        rw [MsgDistributor.closeLocked, found] at done
        dsimp only [Option.map_some] at done
        split at done
        next =>
          obtain ⟨_, -, done⟩ := bind_eq_ok.mp done
          cases done
          rfl
        next =>
          cases done
          rfl
      subst shut
      exact Tables.shutdown sound found become_known
        (become_gone sock (by simp [found]) (by simp [MsgDistributor.closeTables]))

/-- One call keeps the tables. -/
theorem Sound.step (sound : callers.Sound) {call : MethodCall} (allowed : callers.Undisturbed call)
    (stepped : callers.step call = some (.ok after)) : after.Sound := by
  cases call with
  | listen junk received => exact sound.listen (Option.some.inj stepped)
  | connect junk sent => exact sound.connect stepped
  | connected => exact sound.connected allowed stepped
  | accept junk sent => exact sound.accept allowed stepped
  | send junk sock buffer =>
      obtain ⟨_, -, stepped⟩ := bind_eq_ok.mp (Option.some.inj stepped)
      cases stepped
      exact sound
  | recv sock =>
      cases stepped
      exact sound.recv sock
  | woken place => exact sound.woken stepped
  | close junk sock passive => exact sound.close (Option.some.inj stepped)

end Steps

/-- In every run that registers no id while a recv of the id can still wake up,
the tables are consistent in every state. -/
theorem consistent_of_reaches {finish : Callers}
    (reached : callersMachine.ReachesUnder Undisturbed init finish) : finish.Consistent := by
  have sound : finish.Sound := by
    apply reached.invariant tables_init
    intro callers after call sound allowed step
    unfold Machine.transition callersMachine at step
    dsimp only at step
    split at step
    next => cases step
    next =>
      split at step
      next => cases step
      next fault =>
        cases step
        exact sound
      next stepped =>
        cases step
        exact sound.step allowed stepped
  exact sound.consistent

/-- A connection each from `connect` and from `accept`; a block is received on
the first, then a close. -/
def closingCalls : List MethodCall :=
  [.connect (fun _ => 0) true, .listen (fun _ => 0) (some (ascii "accepted,1,")), .connected,
    .listen (fun _ => 0) (some (ascii "create,")), .accept (fun _ => 0) true, .recv 1,
    .listen (fun _ => 0) (some (ascii "sock,1,A")), .woken 0, .recv 1,
    .close (fun _ => 0) 1 0, .woken 0]

/-- Ids are registered while nothing is received. -/
private def Quiet (callers : Callers) : MethodCall → Prop
  | .connected | .accept _ _ => callers.receiving = []
  | _ => True

private instance (callers : Callers) (call : MethodCall) : Decidable (callers.Quiet call) := by
  unfold Quiet
  split <;> infer_instance

private theorem Quiet.undisturbed {callers : Callers} {call : MethodCall}
    (quiet : callers.Quiet call) : callers.Undisturbed call := by
  have unawaited : callers.receiving = [] → ∀ newID, callers.Unawaited newID := by
    intro empty newID recvSem member
    rw [empty] at member
    cases member
  cases call with
  | connected => exact fun newID _ => unawaited quiet newID
  | accept junk sent => exact fun newID _ _ _ => unawaited quiet newID
  | _ => trivial

theorem consistent_of_reaches_closed : ∃ finish : Callers,
    finish.closed 1 = true ∧ finish.endpoint.semMap 2 = some 1 ∧ finish.Consistent := by
  obtain ⟨finish, reached, holds⟩ := Machine.exists_of_run
    (show ((callersMachine.run Quiet init closingCalls).map fun finish =>
      decide (finish.closed 1 = true ∧ finish.endpoint.semMap 2 = some 1)) = some true by
      decide +kernel)
  obtain ⟨gone, present⟩ := of_decide_eq_true holds
  exact ⟨finish, gone, present,
    consistent_of_reaches (reached.mono fun _ _ => Quiet.undisturbed)⟩

/-! ## Exactness -/

/-- A recv that can wake up returns. -/
theorem Consistent.returns {callers : Callers} (consistent : callers.Consistent) {sock : Int}
    {recvSem : Nat} (member : (sock, recvSem) ∈ callers.receiving)
    (permit : 0 < callers.endpoint.sems recvSem) :
    ∃ result, Cpp.recvWake callers.endpoint sock recvSem = .ok result := by
  have wakes := consistent.wakes sock recvSem member permit
  split at wakes
  next =>
    obtain ⟨after, block, woken⟩ := wakes
    exact ⟨_, woken⟩
  next =>
    obtain ⟨after, woken⟩ := wakes
    exact ⟨_, woken⟩

private theorem inconsistent_register {callers : Callers} {endpoint : MsgDistributor}
    {newID : Int} {recvSem : Nat} (consistent : callers.Consistent)
    (registered : callers.endpoint = endpoint.register newID)
    (old : recvSem < endpoint.fresh) (permit : endpoint.sems recvSem ≠ 0) :
    (newID, recvSem) ∉ callers.receiving := by
  intro member
  have kept : 0 < callers.endpoint.sems recvSem := by
    rw [registered, MsgDistributor.register]
    dsimp only
    rw [Function.update_of_ne old.ne]
    omega
  obtain ⟨result, woken⟩ := consistent.returns member kept
  rw [registered, recvWake_register] at woken
  cases woken

/-- The condition is exact: a registration that does not meet it leaves an
inconsistent state. -/
theorem Sound.consistent_iff {callers after : Callers} (sound : callers.Sound) {call : MethodCall}
    (stepped : callers.step call = some (.ok after)) :
    after.Consistent ↔ callers.Undisturbed call := by
  refine ⟨fun consistent => ?_, fun allowed => (sound.step allowed stepped).consistent⟩
  cases call with
  | connected =>
      intro newID first recvSem member
      by_contra permit
      have old := sound.known newID recvSem member
      change callers.connected = some (.ok after) at stepped
      unfold Callers.connected at stepped
      split at stepped
      next => cases stepped
      next =>
        split at stepped
        next => cases stepped
        next offeredID rest offered =>
          cases stepped
          rw [offered, List.head?_cons, Option.mem_some_iff] at first
          subst first
          exact inconsistent_register consistent rfl old permit member
  | accept junk sent =>
      intro newID above free skips recvSem member
      by_contra permit
      have old := sound.known newID recvSem member
      change callers.accept junk sent = some (.ok after) at stepped
      unfold Callers.accept at stepped
      split at stepped
      next => cases stepped
      next =>
        obtain ⟨chosen, found, stepped⟩ := bind_eq_ok.mp (Option.some.inj stepped)
        obtain ⟨_, -, stepped⟩ := bind_eq_ok.mp stepped
        obtain ⟨chosenAbove, -, chosenFree, chosenSkips⟩ := nextId_spec found
        obtain rfl : newID = chosen := by
          rcases Int.lt_trichotomy newID chosen with before | same | behind
          · simpa [free] using chosenSkips newID above before
          · exact same
          · simpa [chosenFree] using skips chosen chosenAbove behind
        cases sent with
        | false => cases stepped
        | true =>
            cases stepped
            exact inconsistent_register consistent rfl old permit member
  | listen | connect | send | recv | woken | close => trivial

/-! ## An id that is handed out twice -/

/-- The premise on what is received: a well-formed frame, and no `accepted`
frame with an id that this endpoint has used. -/
def Fresh (callers : Callers) : MethodCall → Prop
  | .listen _ (some message) =>
      ∃ frame : Frame, frame.Carried message ∧
        ∀ id, frame = .accepted id → callers.used id = false
  | _ => True

/-- The other end accepts id 1 and sends one block. A recv of id 1 has looked
up its semaphore when id 1 is closed; then `accept` hands out id 1 again. -/
def reusingCalls : List MethodCall :=
  [.connect (fun _ => 0) true, .listen (fun _ => 0) (some (ascii "accepted,1,")), .connected,
    .recv 1, .close (fun _ => 0) 1 0, .listen (fun _ => 0) (some (ascii "create,")),
    .accept (fun _ => 0) true]

/-- The frames of `reusingCalls`, decidably. -/
private def Scripted (callers : Callers) : MethodCall → Prop
  | .listen _ (some message) =>
      (message = ascii "accepted,1," ∧ callers.used 1 = false) ∨ message = ascii "create,"
  | _ => True

private instance (callers : Callers) (call : MethodCall) : Decidable (callers.Scripted call) := by
  unfold Scripted
  split <;> infer_instance

private theorem Scripted.fresh {callers : Callers} {call : MethodCall}
    (scripted : callers.Scripted call) : callers.Fresh call := by
  cases call with
  | listen junk received =>
      cases received with
      | none => trivial
      | some message =>
          rcases scripted with ⟨rfl, unused⟩ | rfl
          · refine ⟨.accepted 1, @Frame.Carried.accepted 1 (by decide) comma (.inl rfl) [], ?_⟩
            rintro id ⟨⟩
            exact unused
          · exact ⟨.create, .create (.inl rfl) [], nofun⟩
  | _ => trivial

/-- The recv wakes up on an open id whose queue is empty. -/
theorem reused_id_faults : ∃ finish : Callers,
    callersMachine.ReachesUnder Fresh init finish ∧ ¬ finish.Consistent := by
  obtain ⟨finish, reached, awaits⟩ := Machine.exists_of_run
    (show ((callersMachine.run Scripted init reusingCalls).map fun finish =>
      decide (finish.receiving = [(1, 0)] ∧ 0 < finish.endpoint.sems 0) &&
        !(Cpp.recvWake finish.endpoint 1 0).toBool) = some true by decide +kernel)
  simp only [Bool.and_eq_true, decide_eq_true_eq] at awaits
  obtain ⟨⟨waiting, permit⟩, fails⟩ := awaits
  refine ⟨finish, reached.mono fun _ _ => Scripted.fresh, fun consistent => ?_⟩
  obtain ⟨result, woken⟩ := @Consistent.returns _ consistent 1 0 (by simp [waiting]) permit
  rw [woken] at fails
  cases fails

end Callers

end PaintingCPS
