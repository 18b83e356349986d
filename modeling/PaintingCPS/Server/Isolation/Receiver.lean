import PaintingCPS.Server.Sessions

/-!
Contract: the `server_result` of one session, in its loop.

Each of its steps is a step of the session model, or none: the session waits,
takes a permit and a name, and creates a child where the process does.

Owns: what a step of one thread of the session has to show, and one lemma for
each kind of step before the session ends.

Does not own: the other threads, and the way out of the loop.
-/

set_option autoImplicit false

namespace PaintingCPS

open Foundation

/-- A step that does not fault is a step of the machine. -/
theorem Session.next_of_move {mode : Mode} {session after : Session} {label : SessionMove}
    (sound : session.fault = none) (moved : session.move mode label = some (.ok after)) :
    (sessionMachine mode).next session label = some after := by
  simp [sessionMachine, sound, moved]

namespace Cast

section Steps

variable {config : Config} {process after : Process} {cast moved : Cast} {index : Nat}
variable {call : Call}

/-- The session takes a step, or none. -/
theorem Tracked.next (tracked : cast.Tracked config process) (on : moved.On after)
    (sock : moved.receiver.sock = cast.receiver.sock) (program : moved.program = cast.program)
    (matched : ∀ future session, Presents process cast future session →
      Presents after moved future session ∨ ∃ label next,
        session.move config.mode label = some (.ok next) ∧ Presents after moved future next) :
    moved.Tracked config after := by
  refine ⟨on, fun future => ?_⟩
  obtain ⟨session, reached, presents⟩ := tracked.session future
  rw [sock, program]
  rcases matched future session presents with stays | ⟨label, next, step, shows⟩
  · exact ⟨session, reached, stays⟩
  · exact ⟨next, reached.tail trivial (Session.next_of_move presents.sound step), shows⟩

/-- The `server_result` of the session moves, and may create a child. -/
theorem On.receives (on : cast.On process) (isIndex : cast.index = some index)
    {receiver : ResultThread} {more : List Thread}
    (threads : after.threads = process.threads.set index (.result receiver) ++ more)
    (noSender : ∀ sender, .transmit sender ∉ more)
    (user : receiver.user = cast.receiver.user)
    (early : receiver.pc.afterUser = false → cast.receiver.pc.afterUser = false)
    (joined : receiver.pc.afterUser = false →
      after.userMap cast.receiver.user = process.userMap cast.receiver.user)
    (fetched : ∀ queue, receiver.queue = some queue → cast.queue = some queue)
    (entry : receiver.pc.unregistered = false → cast.receiver.pc.unregistered = false ∧
      after.queueMap cast.receiver.user = process.queueMap cast.receiver.user)
    (asked : cast.receiver.pc ≠ .starting →
      receiver.sem = cast.receiver.sem ∧ receiver.pc ≠ .starting)
    (gone : receiver.pc.departing = true ∨ receiver.pc.afterUser = true →
      ∀ sender, cast.sender = some sender → sender.ended = true) :
    ({ cast with receiver := receiver } : Cast).On after := by
  have there := on.receiver index isIndex
  have within : ∀ {place : Nat} {thread : Thread}, process.threads[place]? = some thread →
      after.threads[place]? = if place = index then some (.result receiver) else some thread := by
    intro place thread found
    obtain ⟨early, -⟩ := List.getElem?_eq_some_iff.mp found
    rw [threads, List.getElem?_append_left (by rwa [List.length_set]),
      getElem?_set_there _ there, found]
  exact
    { receiver := fun place isPlace => by
        obtain rfl : index = place := Option.some.inj (isIndex.symm.trans isPlace)
        rw [within there, if_pos rfl]
      absent := fun isNone => by
        rw [isIndex] at isNone
        cases isNone
      sender := fun place isPlace => by
        obtain ⟨sender, isSender, found⟩ := on.sender place isPlace
        refine ⟨sender, isSender, ?_⟩
        rw [within found, if_neg]
        rintro rfl
        rw [there] at found
        cases found
      nobody := on.nobody
      user := fun sender isSender => (on.user sender isSender).trans user.symm
      paired := fun still place sender found same live => by
        by_cases old : place < process.threads.length
        · rw [within (List.getElem?_eq_getElem old)] at found
          split at found
          next => cases found
          next =>
            exact on.paired (early still) place sender
              ((List.getElem?_eq_getElem old).trans found) (same.trans user) live
        · rw [threads, List.getElem?_append_right (by rw [List.length_set]; omega)] at found
          exact absurd (List.mem_of_getElem? found) (noSender sender)
      joined := fun here with' still => by
        rw [user, joined still]
        exact on.joined here with' (early still)
      fetched := fetched
      entry := fun registered => by
        rw [user, (entry registered).2]
        exact on.entry (entry registered).1
      held := on.held
      asked := fun sender sem isSender found => by
        obtain ⟨same, started⟩ := on.asked sender sem isSender found
        obtain ⟨kept, begun⟩ := asked started
        exact ⟨same.trans kept.symm, begun⟩
      gone := gone }

/-- It is not one of the children. -/
theorem On.children_receives (on : cast.On process) (isIndex : cast.index = some index)
    {receiver : ResultThread}
    (threads : after.threads = process.threads.set index (.result receiver)) :
    ({ cast with receiver := receiver } : Cast).children after.threads =
      cast.children process.threads := by
  rw [Cast.children, Cast.children, isIndex, threads]
  exact filterMap_set_same (on.receiver index isIndex) rfl

/-- Where the session stands. -/
theorem stage_eq {future : List Action} {session : Session}
    (presents : Presents process cast future session) {stage : ResultPc}
    (stands : cast.receiver.pc.stage = some stage) : session.result = stage := by
  have shown := presents.stands
  rw [stands, Option.some.injEq] at shown
  exact shown.symm

/-- On its way through the loop `server_result` keeps its place in the session. -/
private theorem On.loops (on : cast.On process) (isIndex : cast.index = some index)
    {receiver : ResultThread} {more : List Thread}
    (before : cast.receiver.pc.looping = true) (looping : receiver.pc.looping = true)
    (threads : after.threads = process.threads.set index (.result receiver) ++ more)
    (noSender : ∀ sender, .transmit sender ∉ more)
    (same : receiver.user = cast.receiver.user ∧ receiver.sem = cast.receiver.sem)
    (maps : after.userMap = process.userMap ∧ after.queueMap = process.queueMap)
    (fetched : ∀ queue, receiver.queue = some queue → cast.queue = some queue) :
    ({ cast with receiver := receiver } : Cast).On after := by
  have was := ResultAt.looping_facts before
  have stays := ResultAt.looping_facts looping
  refine on.receives isIndex threads noSender same.1 (fun _ => was.early)
    (fun _ => by rw [maps.1]) fetched (fun _ => ⟨was.registered, by rw [maps.2]⟩)
    (fun _ => ⟨same.2, stays.started⟩) ?_
  rintro (departing | late)
  · rw [stays.present] at departing
    cases departing
  · rw [stays.early] at late
    cases late

/-- So does what the process shows. -/
private theorem presents_loops {future : List Action} {session next : Session}
    (presents : Presents process cast future session) {receiver : ResultThread}
    (before : cast.receiver.pc.looping = true) (looping : receiver.pc.looping = true)
    (same : receiver.sock = cast.receiver.sock ∧ receiver.sem = cast.receiver.sem)
    (kept : next.fault = session.fault ∧ next.sock = session.sock ∧
      next.semMap = session.semMap ∧ next.queueMap = session.queueMap ∧
      next.program = session.program ∧ next.transmitSem = session.transmitSem)
    (stands : receiver.pc.stage = some next.result)
    (transInfo : next.transInfo = receiver.transInfo)
    (children : next.children.map Child.pc =
      ({ cast with receiver := receiver } : Cast).children after.threads)
    (permits : after.permits ≤ next.allPermits)
    (semMatch : ∃ value,
      after.sems[cast.receiver.sem]? = some (some value) ∧ next.semMatch = some value)
    (resultQueue : next.resultQueue = receiver.queue.isSome)
    (imgQueue : next.imgQueue = cast.queue.bind fun queue => (after.queues[queue]?).join) :
    Presents after { cast with receiver := receiver } future next := by
  have was := ResultAt.looping_facts before
  obtain ⟨fault, sock, semMap, queueMap, program, transmitSem⟩ := kept
  exact
    { sound := fault.trans presents.sound
      stands := stands
      sock := (sock.trans presents.sock).trans same.1.symm
      transInfo := fun _ => transInfo
      children := children
      permits := permits
      semMap := fun _ _ => semMap.trans (presents.semMap was.started was.running)
      semMatch := fun _ => by
        rw [same.2]
        exact semMatch
      resultQueue := resultQueue
      queueMap := fun _ => queueMap.trans (presents.queueMap was.running)
      imgQueue := fun _ => imgQueue
      departing := fun departing => by
        rw [(ResultAt.looping_facts looping).present] at departing
        cases departing
      program := program.trans presents.program
      transmitSem := transmitSem.trans presents.transmitSem }

/-- A permit of the process is one of the session. -/
private theorem permit_of_process {future : List Action} {session : Session}
    (presents : Presents process cast future session) (isIndex : cast.index = some index)
    (stands : cast.receiver.pc = .grabbing) {value : Nat}
    (permit : process.processSem = value + 1) : ∃ left, session.processSem = left + 1 := by
  have isResult := stage_eq presents (by rw [stands]; rfl)
  have balance := presents.permits
  have active : session.activeChildren ≤ process.threads.countP Thread.liveChild := by
    have same : session.activeChildren = (cast.children process.threads).countP fun pc =>
        ({ own := [], pc := pc } : Child).active := by
      rw [← presents.children, List.countP_map]
      rfl
    rw [same, Cast.children, isIndex, Option.elim_some, List.countP_filterMap]
    apply List.countP_mono_left
    intro thread _ counted
    cases thread with
    | worker child =>
        obtain ⟨owner, pc⟩ := child
        simp only [Thread.childOf] at counted
        split at counted
        next => cases pc <;> first | rfl | cases counted
        next => cases counted
    | connection _ | closed | transmit _ | result _ => cases counted
  simp only [Session.allPermits, Session.held, isResult, Process.permits, permit] at balance
  exact ⟨session.processSem - 1, by omega⟩

/-- The semaphore is created. -/
theorem Tracked.starts (tracked : cast.Tracked config process)
    (isIndex : cast.index = some index) (stands : cast.receiver.pc = .starting)
    (threads : after.threads = process.threads.set index (.result { cast.receiver with
      sem := process.sems.length
      pc := .replying }))
    (same : after.userMap = process.userMap ∧ after.queueMap = process.queueMap ∧
      after.queues = process.queues)
    (sems : after.sems = process.sems ++ [some 0]) (permits : after.permits ≤ process.permits) :
    ({ cast with receiver := { cast.receiver with
      sem := process.sems.length
      pc := .replying } } : Cast).Tracked config after := by
  have on := tracked.on
  obtain ⟨users, entries, queues⟩ := same
  refine tracked.next (on.receives isIndex (threads.trans (List.append_nil _).symm) (by simp) rfl
    (fun _ => by rw [stands]; rfl) (fun _ => by rw [users]) on.fetched
    (fun _ => ⟨by rw [stands]; rfl, by rw [entries]⟩) (fun started => absurd stands started)
    (by simp [ResultAt.departing, ResultAt.afterUser])) rfl rfl ?_
  intro future session presents
  have isResult := stage_eq presents (by rw [stands]; rfl)
  have running : cast.receiver.pc ≠ .ended := by simp [stands]
  refine .inr ⟨.resultStart, { session with
      semMatch := some 0
      semMap := true
      result := .waiting }, by simp only [Session.move, Session.resultStart, isResult], ?_⟩
  exact
    { presents with
      stands := rfl
      transInfo := fun _ => presents.transInfo running
      children := presents.children.trans (on.children_receives isIndex threads).symm
      permits := by
        have before := presents.permits
        simp only [Session.allPermits, Session.held, isResult] at before ⊢
        exact Nat.le_trans permits before
      semMap := fun _ _ => rfl
      semMatch := fun _ => ⟨0, by rw [sems, List.getElem?_concat_length], rfl⟩
      queueMap := fun _ => presents.queueMap running
      imgQueue := fun _ => by
        rw [queues]
        exact presents.imgQueue running
      departing := by simp [ResultAt.departing] }

/-- A step through the loop, of the thread alone. -/
theorem Tracked.looks (tracked : cast.Tracked config process)
    (isIndex : cast.index = some index) {receiver : ResultThread}
    (before : cast.receiver.pc.looping = true) (looping : receiver.pc.looping = true)
    (same : receiver.user = cast.receiver.user ∧ receiver.sem = cast.receiver.sem ∧
      receiver.sock = cast.receiver.sock)
    (fetched : ∀ queue, receiver.queue = some queue → cast.queue = some queue)
    (permits : (process.setThread index (.result receiver)).permits ≤ process.permits)
    (matched : ∀ future session, Presents process cast future session →
      ∃ result queue info, receiver.pc.stage = some result ∧ queue = receiver.queue.isSome ∧
        info = receiver.transInfo ∧
        ({ session with result := result } : Session).held = session.held ∧
        let next : Session := { session with
          result := result
          resultQueue := queue
          transInfo := info }
        next = session ∨ ∃ label, session.move config.mode label = some (.ok next)) :
    ({ cast with receiver := receiver } : Cast).Tracked config
      (process.setThread index (.result receiver)) := by
  have on := tracked.on
  have was := ResultAt.looping_facts before
  refine tracked.next (on.loops isIndex before looping (List.append_nil _).symm nofun
    ⟨same.1, same.2.1⟩ ⟨rfl, rfl⟩ fetched) same.2.2 rfl ?_
  intro future session presents
  obtain ⟨result, queue, info, stands, isQueue, isInfo, held, step⟩ :=
    matched future session presents
  have shows : Presents (process.setThread index (.result receiver))
      { cast with receiver := receiver } future { session with
        result := result
        resultQueue := queue
        transInfo := info } := by
    refine presents_loops presents before looping ⟨same.2.2, same.2.1⟩
      ⟨rfl, rfl, rfl, rfl, rfl, rfl⟩ stands isInfo
      (presents.children.trans (on.children_receives isIndex rfl).symm) ?_
      (presents.semMatch was.holds) isQueue (presents.imgQueue was.running)
    have balance := presents.permits
    simp only [Session.allPermits, Session.activeChildren, Session.held] at balance held ⊢
    omega
  rcases step with stays | ⟨label, moves⟩
  · rw [stays] at shows
    exact .inl shows
  · exact .inr ⟨label, _, moves, shows⟩

/-- `server_result` is woken. -/
theorem Tracked.waits (tracked : cast.Tracked config process)
    (isIndex : cast.index = some index) (stands : cast.receiver.pc = .waiting) {value : Nat}
    (live : process.sems[cast.receiver.sem]? = some (some (value + 1)))
    (threads : after.threads = process.threads.set index
      (.result { cast.receiver with pc := .woken }))
    (same : after.userMap = process.userMap ∧ after.queueMap = process.queueMap ∧
      after.queues = process.queues)
    (sems : after.sems = process.sems.set cast.receiver.sem (some value))
    (permits : after.permits ≤ process.permits) :
    ({ cast with receiver := { cast.receiver with pc := .woken } } : Cast).Tracked config
      after := by
  have on := tracked.on
  have before : cast.receiver.pc.looping = true := by rw [stands]; rfl
  have was := ResultAt.looping_facts before
  obtain ⟨users, entries, queues⟩ := same
  refine tracked.next (on.loops isIndex before rfl (threads.trans (List.append_nil _).symm) nofun
    ⟨rfl, rfl⟩ ⟨users, entries⟩ on.fetched) rfl rfl ?_
  intro future session presents
  have isResult := stage_eq presents (by rw [stands]; rfl)
  obtain ⟨found, there, isSem⟩ := presents.semMatch was.holds
  rw [live, Option.some.injEq, Option.some.injEq] at there
  subst there
  refine .inr ⟨.resultWait, { session with semMatch := some value, result := .woken },
    by simp only [Session.move, Session.resultWait, isResult, isSem], ?_⟩
  refine presents_loops presents before rfl ⟨rfl, rfl⟩ ⟨rfl, rfl, rfl, rfl, rfl, rfl⟩ rfl
    (presents.transInfo was.running)
    (presents.children.trans (on.children_receives isIndex threads).symm) ?_
    ⟨value, ?_, rfl⟩ presents.resultQueue ?_
  · have balance := presents.permits
    simp only [Session.allPermits, Session.held, Session.activeChildren, isResult] at balance ⊢
    omega
  · rw [sems, getElem?_set_there _ live, if_pos rfl]
  · rw [queues]
    exact presents.imgQueue was.running

/-- `server_result` takes a permit. -/
theorem Tracked.grabs (tracked : cast.Tracked config process)
    (isIndex : cast.index = some index) (stands : cast.receiver.pc = .grabbing) {value : Nat}
    (permit : process.processSem = value + 1)
    (permits : ({ process with
      threads := process.threads.set index (.result { cast.receiver with pc := .permitted })
      processSem := value } : Process).permits ≤ process.permits) :
    ({ cast with receiver := { cast.receiver with pc := .permitted } } : Cast).Tracked config
      { process with
        threads := process.threads.set index (.result { cast.receiver with pc := .permitted })
        processSem := value } := by
  have on := tracked.on
  have before : cast.receiver.pc.looping = true := by rw [stands]; rfl
  have was := ResultAt.looping_facts before
  refine tracked.next (on.loops isIndex before rfl (List.append_nil _).symm nofun
    ⟨rfl, rfl⟩ ⟨rfl, rfl⟩ on.fetched) rfl rfl ?_
  intro future session presents
  have isResult := stage_eq presents (by rw [stands]; rfl)
  obtain ⟨left, has⟩ := permit_of_process presents isIndex stands permit
  refine .inr ⟨.resultGrab, { session with processSem := left, result := .permitted },
    by simp only [Session.move, Session.resultGrab, isResult, has], ?_⟩
  refine presents_loops presents before rfl ⟨rfl, rfl⟩ ⟨rfl, rfl, rfl, rfl, rfl, rfl⟩ rfl
    (presents.transInfo was.running)
    (presents.children.trans (on.children_receives isIndex rfl).symm) ?_
    (presents.semMatch was.holds) presents.resultQueue (presents.imgQueue was.running)
  apply Nat.le_trans permits
  have balance := presents.permits
  simp only [Session.allPermits, Session.held, Session.activeChildren, isResult, has] at balance ⊢
  omega

/-- `server_result` takes the front of its queue. -/
theorem Tracked.takes (tracked : cast.Tracked config process)
    (isIndex : cast.index = some index) (stands : cast.receiver.pc = .permitted)
    {address : Nat} {fileName : List Byte} {rest : List (List Byte)}
    (fetched : cast.receiver.queue = some address)
    (live : process.queues[address]? = some (some (fileName :: rest)))
    (permits : ({ process with
      threads := process.threads.set index (.result { cast.receiver with pc := .popped fileName })
      queues := process.queues.set address (some rest) } : Process).permits ≤ process.permits) :
    ({ cast with receiver := { cast.receiver with pc := .popped fileName } } : Cast).Tracked config
      { process with
        threads := process.threads.set index
          (.result { cast.receiver with pc := .popped fileName })
        queues := process.queues.set address (some rest) } := by
  have on := tracked.on
  have before : cast.receiver.pc.looping = true := by rw [stands]; rfl
  have was := ResultAt.looping_facts before
  have isQueue := on.fetched address fetched
  refine tracked.next (on.loops isIndex before rfl (List.append_nil _).symm nofun
    ⟨rfl, rfl⟩ ⟨rfl, rfl⟩ on.fetched) rfl rfl ?_
  intro future session presents
  have isResult := stage_eq presents (by rw [stands]; rfl)
  have names := presents.imgQueue was.running
  rw [isQueue, Option.bind_some, live] at names
  refine .inr ⟨.resultPop, { session with
      imgQueue := some rest
      popped := session.popped ++ [fileName]
      result := .popped fileName },
    by simp only [Session.move, Session.resultPop, isResult, names, Option.join_some], ?_⟩
  refine presents_loops presents before rfl ⟨rfl, rfl⟩ ⟨rfl, rfl, rfl, rfl, rfl, rfl⟩ rfl
    (presents.transInfo was.running)
    (presents.children.trans (on.children_receives isIndex rfl).symm) ?_
    (presents.semMatch was.holds) presents.resultQueue ?_
  · apply Nat.le_trans permits
    have balance := presents.permits
    simp only [Session.allPermits, Session.held, Session.activeChildren, isResult] at balance ⊢
    omega
  · rw [isQueue, Option.bind_some, getElem?_set_there _ live, if_pos rfl]
    rfl

/-- `server_result` creates a child. -/
theorem Tracked.spawns (tracked : cast.Tracked config process)
    (isIndex : cast.index = some index) {fileName : List Byte}
    (stands : cast.receiver.pc = .filled fileName)
    (permits : ({ process with
      threads := process.threads.set index (.result { cast.receiver with pc := .waiting }) ++
        [.worker ⟨index, .created⟩] } : Process).permits ≤ process.permits) :
    ({ cast with receiver := { cast.receiver with pc := .waiting } } : Cast).Tracked config
      { process with
        threads := process.threads.set index (.result { cast.receiver with pc := .waiting }) ++
          [.worker ⟨index, .created⟩] } := by
  have on := tracked.on
  have before : cast.receiver.pc.looping = true := by rw [stands]; rfl
  have was := ResultAt.looping_facts before
  refine tracked.next (on.loops isIndex before rfl rfl (by simp) ⟨rfl, rfl⟩ ⟨rfl, rfl⟩ on.fetched)
    rfl rfl ?_
  intro future session presents
  have isResult := stage_eq presents (by rw [stands]; rfl)
  refine .inr ⟨.resultSpawn, { session with
      children := session.children ++ [⟨fileName, .created⟩]
      result := .waiting },
    by simp only [Session.move, Session.resultSpawn, isResult], ?_⟩
  refine presents_loops presents before rfl ⟨rfl, rfl⟩ ⟨rfl, rfl, rfl, rfl, rfl, rfl⟩ rfl
    (presents.transInfo was.running) ?_ ?_ (presents.semMatch was.holds) presents.resultQueue
    (presents.imgQueue was.running)
  · have old := @On.children_receives process (process.setThread index (.result
      { cast.receiver with pc := .waiting })) cast index on isIndex _ rfl
    rw [← presents.children] at old
    simp only [Cast.children, isIndex, Option.elim_some, Process.setThread] at old
    simp only [Cast.children, isIndex, Option.elim_some, List.filterMap_append, old,
      List.map_append]
    simp [Thread.childOf, WorkerAt.stage]
  · apply Nat.le_trans permits
    have balance := presents.permits
    simp only [Session.allPermits, Session.held, Session.activeChildren, isResult,
      List.countP_append] at balance ⊢
    have one : [(⟨fileName, .created⟩ : Child)].countP Child.active = 1 := rfl
    omega

end Steps

end Cast

end PaintingCPS
