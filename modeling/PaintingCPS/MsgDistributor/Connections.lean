import PaintingCPS.MsgDistributor.Methods

/-!
Contract: the map updates, read as updates of the table of connections.

`Ready` is the invariant of one endpoint: it was initialised, no two ids share
a semaphore or a queue, and every id in `sem_map` has a live queue. Under it
each method changes the connection of at most one id, by one line of this file.

Owns: the invariant, its preservation by registration, delivery, `recv` and
`close`, and the resulting table.

Does not own: frames and the network.
-/

set_option autoImplicit false

namespace PaintingCPS

open Foundation

namespace MsgDistributor

/-- No two ids share a pointer, and every pointer was handed out by the
allocator. -/
structure Separated (endpoint : MsgDistributor) : Prop where
  semBelow : ∀ id address, endpoint.semMap id = some address → address < endpoint.fresh
  queueBelow : ∀ id address, endpoint.queueMap id = some address → address < endpoint.fresh
  semUnique : ∀ first second address, endpoint.semMap first = some address →
    endpoint.semMap second = some address → first = second
  queueUnique : ∀ first second address, endpoint.queueMap first = some address →
    endpoint.queueMap second = some address → first = second

theorem init_separated : Separated init := by
  constructor <;> simp [init]

section Laws

variable {endpoint : MsgDistributor}

theorem connection_eq_some {id : Int} {open' : Connection}
    (present : endpoint.connection id = some open') :
    ∃ semaphore queue, endpoint.semMap id = some semaphore ∧
      endpoint.queueMap id = some queue ∧
      endpoint.queues queue = some open'.blocks ∧
      endpoint.sems semaphore = open'.permits := by
  unfold connection at present
  split at present
  next semaphore queue semFound queueFound =>
    obtain ⟨blocks, queueLive, rfl⟩ := Option.map_eq_some_iff.mp present
    exact ⟨semaphore, queue, semFound, queueFound, queueLive, rfl⟩
  next => contradiction

theorem register_separated (separated : Separated endpoint) (newID : Int) :
    Separated (endpoint.register newID) := by
  have below : ∀ (map : Int → Option Nat),
      (∀ id address, map id = some address → address < endpoint.fresh) →
      ∀ id address, Function.update map newID (some endpoint.fresh) id = some address →
        address < endpoint.fresh + 1 := by
    intro map bounded id address found
    by_cases same : id = newID
    · subst same
      simp only [Function.update_self, Option.some.injEq] at found
      omega
    · rw [Function.update_of_ne same] at found
      exact Nat.lt_succ_of_lt (bounded id address found)
  have unique : ∀ (map : Int → Option Nat),
      (∀ id address, map id = some address → address < endpoint.fresh) →
      (∀ first second address, map first = some address → map second = some address →
        first = second) →
      ∀ first second address,
        Function.update map newID (some endpoint.fresh) first = some address →
        Function.update map newID (some endpoint.fresh) second = some address →
        first = second := by
    intro map bounded distinct first second address firstFound secondFound
    by_cases firstNew : first = newID <;> by_cases secondNew : second = newID
    · rw [firstNew, secondNew]
    · subst firstNew
      rw [Function.update_self] at firstFound
      rw [Function.update_of_ne secondNew] at secondFound
      have := bounded second address secondFound
      cases firstFound
      omega
    · subst secondNew
      rw [Function.update_self] at secondFound
      rw [Function.update_of_ne firstNew] at firstFound
      have := bounded first address firstFound
      cases secondFound
      omega
    · rw [Function.update_of_ne firstNew] at firstFound
      rw [Function.update_of_ne secondNew] at secondFound
      exact distinct first second address firstFound secondFound
  exact
    { semBelow := below _ separated.semBelow
      queueBelow := below _ separated.queueBelow
      semUnique := unique _ separated.semBelow separated.semUnique
      queueUnique := unique _ separated.queueBelow separated.queueUnique }

/-- Registration opens an empty connection and changes no other one. -/
theorem register_connection (separated : Separated endpoint) (newID : Int) :
    (endpoint.register newID).connection =
      Function.update endpoint.connection newID (some ⟨0, []⟩) := by
  funext id
  by_cases same : id = newID
  · subst same
    rw [Function.update_self]
    simp [connection, register]
  · rw [Function.update_of_ne same]
    unfold connection
    simp only [register, Function.update_of_ne same]
    split
    next semaphore queue semFound queueFound =>
      have semOld := separated.semBelow id semaphore semFound
      have queueOld := separated.queueBelow id queue queueFound
      rw [Function.update_of_ne (by omega), Function.update_of_ne (by omega)]
    next => rfl

theorem deliver_eq {id : Int} {semaphore queue : Nat} {blocks : List (List Byte)}
    (semFound : endpoint.semMap id = some semaphore)
    (queueFound : endpoint.queueMap id = some queue)
    (queueLive : endpoint.queues queue = some blocks) (content : List Byte) :
    endpoint.deliver id content = .ok { endpoint with
      queues := Function.update endpoint.queues queue (some (blocks ++ [content]))
      sems := Function.update endpoint.sems semaphore (endpoint.sems semaphore + 1) } := by
  rw [deliver, queueFound, semFound, deref_some]
  simp only [liveQueue, queueLive, bind, Except.bind, deref_some]
  rfl

/-- Delivery to an open id succeeds, and what it does to the table. -/
theorem deliver_open (separated : Separated endpoint) {id : Int} {open' : Connection}
    (present : endpoint.connection id = some open') (content : List Byte) :
    ∃ after, endpoint.deliver id content = .ok after ∧
      after.connection = Function.update endpoint.connection id
        (some ⟨open'.permits + 1, open'.blocks ++ [content]⟩) ∧
      after.semMap = endpoint.semMap ∧ after.queueMap = endpoint.queueMap ∧
      after.statusMap = endpoint.statusMap ∧ after.fresh = endpoint.fresh ∧
      after.mfsockid = endpoint.mfsockid ∧ after.acceptSem = endpoint.acceptSem ∧
      after.connectSem = endpoint.connectSem ∧
      after.connectQueue = endpoint.connectQueue := by
  obtain ⟨semaphore, queue, semFound, queueFound, queueLive, permits⟩ :=
    connection_eq_some present
  refine ⟨_, deliver_eq semFound queueFound queueLive content,
    ?_, rfl, rfl, rfl, rfl, rfl, rfl, rfl, rfl⟩
  funext other
  by_cases same : other = id
  · subst same
    simp [connection, semFound, queueFound, ← permits]
  · rw [Function.update_of_ne same]
    unfold connection
    dsimp only
    split
    next otherSem otherQueue otherSemFound otherQueueFound =>
      have semDiffers : otherSem ≠ semaphore := by
        rintro rfl
        exact same (separated.semUnique _ _ _ otherSemFound semFound)
      have queueDiffers : otherQueue ≠ queue := by
        rintro rfl
        exact same (separated.queueUnique _ _ _ otherQueueFound queueFound)
      rw [Function.update_of_ne semDiffers, Function.update_of_ne queueDiffers]
    next => rfl

/-- Pointers that do not move keep the endpoint separated. -/
theorem Separated.of_maps_eq {after : MsgDistributor} (separated : Separated endpoint)
    (semSame : after.semMap = endpoint.semMap) (queueSame : after.queueMap = endpoint.queueMap)
    (freshSame : after.fresh = endpoint.fresh) : Separated after := by
  constructor
  · rw [semSame, freshSame]; exact separated.semBelow
  · rw [queueSame, freshSame]; exact separated.queueBelow
  · rw [semSame]; exact separated.semUnique
  · rw [queueSame]; exact separated.queueUnique

/-- The locked part of `close` removes one connection and changes no other. -/
theorem closeTables_connection (separated : Separated endpoint) {sock : Int} {closeSem : Nat}
    (found : endpoint.semMap sock = some closeSem) :
    (endpoint.closeTables sock closeSem).connection =
      Function.update endpoint.connection sock none := by
  funext other
  by_cases same : other = sock
  · subst same
    rw [Function.update_self]
    simp [connection, closeTables]
  · rw [Function.update_of_ne same]
    unfold connection closeTables
    dsimp only
    rw [Function.update_of_ne same, Function.update_of_ne same]
    split
    next semaphore queue semFound queueFound =>
      have semDiffers : semaphore ≠ closeSem := by
        rintro rfl
        exact same (separated.semUnique _ _ _ semFound found)
      rw [Function.update_of_ne semDiffers]
      cases addressFound : endpoint.queueMap sock with
      | none => rfl
      | some address =>
          have queueDiffers : queue ≠ address := by
            rintro rfl
            exact same (separated.queueUnique _ _ _ queueFound addressFound)
          simp only [Function.update_of_ne queueDiffers]
    next => rfl

theorem closeTables_separated (separated : Separated endpoint) (sock : Int) (closeSem : Nat) :
    Separated (endpoint.closeTables sock closeSem) := by
  have kept : ∀ (map : Int → Option Nat) id address,
      Function.update map sock none id = some address → map id = some address := by
    intro map id address found
    by_cases same : id = sock
    · subst same
      simp at found
    · rwa [Function.update_of_ne same] at found
  exact
    { semBelow := fun id address found =>
        separated.semBelow id address (kept _ _ _ found)
      queueBelow := fun id address found =>
        separated.queueBelow id address (kept _ _ _ found)
      semUnique := fun first second address firstFound secondFound =>
        separated.semUnique first second address (kept _ _ _ firstFound) (kept _ _ _ secondFound)
      queueUnique := fun first second address firstFound secondFound =>
        separated.queueUnique first second address (kept _ _ _ firstFound)
          (kept _ _ _ secondFound) }

/-- A woken `recv` on an open id with a block in its queue takes that block. -/
theorem recvWake_open (separated : Separated endpoint) {sock : Int} {recvSem permits : Nat}
    {block : List Byte} {rest : List (List Byte)}
    (found : endpoint.semMap sock = some recvSem)
    (present : endpoint.connection sock = some ⟨permits, block :: rest⟩)
    {status : Int} (registered : endpoint.statusMap sock = some status) (isOpen : status ≠ 0) :
    ∃ after, Cpp.recvWake endpoint sock recvSem = .ok (after, some block) ∧
      after.connection = Function.update endpoint.connection sock
        (some ⟨permits - 1, rest⟩) ∧
      after.semMap = endpoint.semMap ∧ after.queueMap = endpoint.queueMap ∧
      after.statusMap = endpoint.statusMap ∧ after.fresh = endpoint.fresh ∧
      after.mfsockid = endpoint.mfsockid := by
  obtain ⟨semaphore, queue, semFound, queueFound, queueLive, permitsEq⟩ :=
    connection_eq_some present
  rw [found, Option.some.injEq] at semFound
  subst semFound
  refine ⟨{ endpoint with
      sems := Function.update endpoint.sems recvSem (endpoint.sems recvSem - 1)
      queues := Function.update endpoint.queues queue (some rest) }, ?_, ?_,
    rfl, rfl, rfl, rfl, rfl⟩
  · simp only [Cpp.recvWake, registered, Option.getD_some, if_neg isOpen, queueFound, deref_some,
      liveQueue, queueLive, bind, Except.bind]
    rfl
  · funext other
    by_cases same : other = sock
    · subst same
      have permitsSame : endpoint.sems recvSem = permits := permitsEq
      simp [connection, found, queueFound, permitsSame]
    · rw [Function.update_of_ne same]
      unfold connection
      dsimp only
      split
      next otherSem otherQueue otherSemFound otherQueueFound =>
        have semDiffers : otherSem ≠ recvSem := by
          rintro rfl
          exact same (separated.semUnique _ _ _ otherSemFound found)
        have queueDiffers : otherQueue ≠ queue := by
          rintro rfl
          exact same (separated.queueUnique _ _ _ otherQueueFound queueFound)
        rw [Function.update_of_ne semDiffers, Function.update_of_ne queueDiffers]
      next => rfl

end Laws

/-! ## The invariant of an endpoint -/

/-- An initialised endpoint whose tables agree. -/
structure Ready (endpoint : MsgDistributor) : Prop where
  initialised : endpoint.mfsockid ≠ -1
  separated : endpoint.Separated
  consistent : ∀ id, (endpoint.semMap id).isSome → (endpoint.connection id).isSome

theorem init_ready : Ready init where
  initialised := by decide
  separated := init_separated
  consistent := by simp [init]

section Ready

variable {endpoint : MsgDistributor}

theorem Ready.register (ready : Ready endpoint) (newID : Int) :
    Ready (endpoint.register newID) where
  initialised := ready.initialised
  separated := register_separated ready.separated newID
  consistent := by
    intro id found
    rw [register_connection ready.separated]
    by_cases same : id = newID
    · subst same
      simp
    · rw [Function.update_of_ne same]
      refine ready.consistent id ?_
      simpa [MsgDistributor.register, Function.update_of_ne same] using found

/-- An update of one open connection that moves no pointer keeps the endpoint
ready. -/
theorem Ready.of_update {after : MsgDistributor} (ready : Ready endpoint) {id : Int}
    {open' : Connection}
    (table : after.connection = Function.update endpoint.connection id (some open'))
    (semSame : after.semMap = endpoint.semMap) (queueSame : after.queueMap = endpoint.queueMap)
    (freshSame : after.fresh = endpoint.fresh) (sockSame : after.mfsockid = endpoint.mfsockid) :
    Ready after where
  initialised := sockSame ▸ ready.initialised
  separated := ready.separated.of_maps_eq semSame queueSame freshSame
  consistent := by
    intro other otherFound
    rw [semSame] at otherFound
    rw [table]
    by_cases same : other = id
    · subst same
      simp
    · rw [Function.update_of_ne same]
      exact ready.consistent other otherFound

/-- Delivery to an id in `sem_map` keeps the endpoint ready. -/
theorem Ready.deliver (ready : Ready endpoint) {id : Int}
    (found : (endpoint.semMap id).isSome) (content : List Byte) :
    ∃ after, endpoint.deliver id content = .ok after ∧ Ready after := by
  obtain ⟨open', present⟩ := Option.isSome_iff_exists.mp (ready.consistent id found)
  obtain ⟨after, delivered, table, semSame, queueSame, -, freshSame, sockSame, -⟩ :=
    deliver_open ready.separated present content
  exact ⟨after, delivered, ready.of_update table semSame queueSame freshSame sockSame⟩

theorem Ready.closeTables (ready : Ready endpoint) {sock : Int} {closeSem : Nat}
    (found : endpoint.semMap sock = some closeSem) :
    Ready (endpoint.closeTables sock closeSem) where
  initialised := ready.initialised
  separated := closeTables_separated ready.separated sock closeSem
  consistent := by
    intro id idFound
    rw [closeTables_connection ready.separated found]
    by_cases same : id = sock
    · subst same
      simp [MsgDistributor.closeTables] at idFound
    · rw [Function.update_of_ne same]
      refine ready.consistent id ?_
      simpa [MsgDistributor.closeTables, Function.update_of_ne same] using idFound

end Ready

end MsgDistributor

end PaintingCPS
