import PaintingCPS.Server.Isolation.Receiver

/-!
Contract: the `server_result` of one session leaves.

The session model takes its tables apart in one step. The process erases and
deletes one object after the other, and the session takes its step with the
last of them: until then nobody else of the session is there to see the
difference.

Owns: the steps of the clean-up, and the lemma about every step of
`server_result`.

Does not own: the other threads of the session.
-/

set_option autoImplicit false

namespace PaintingCPS

open Foundation

namespace Cast

section Steps

variable {config : Config} {process after : Process} {cast moved : Cast} {index : Nat}
variable {call : Call}

/-- `server_result` takes apart what belongs to its user. -/
private theorem Tracked.departs (tracked : cast.Tracked config process)
    (isIndex : cast.index = some index) {receiver : ResultThread}
    (threads : after.threads = process.threads.set index (.result receiver))
    (before : cast.receiver.pc = .testing ∨ cast.receiver.pc.departing = true)
    (departing : receiver.pc.departing = true)
    (same : receiver.user = cast.receiver.user ∧ receiver.sem = cast.receiver.sem ∧
      receiver.sock = cast.receiver.sock ∧ receiver.queue = cast.receiver.queue ∧
        receiver.transInfo = cast.receiver.transInfo)
    (queues : after.queues = process.queues) (permits : after.permits ≤ process.permits)
    (early : receiver.pc.afterUser = false → cast.receiver.pc.afterUser = false)
    (joined : receiver.pc.afterUser = false →
      after.userMap cast.receiver.user = process.userMap cast.receiver.user)
    (entry : receiver.pc.unregistered = false → cast.receiver.pc.unregistered = false ∧
      after.queueMap cast.receiver.user = process.queueMap cast.receiver.user)
    (sems : receiver.pc.holdsSem = true → cast.receiver.pc.holdsSem = true ∧
      after.sems = process.sems)
    (empty : ∀ future session, Presents process cast future session →
      session.imgQueue = some [])
    (gone : ∀ sender, cast.sender = some sender → sender.ended = true) :
    ({ cast with receiver := receiver } : Cast).Tracked config after := by
  have on := tracked.on
  obtain ⟨user, sem, sock, queue, info⟩ := same
  have leaves : ∀ pc : ResultAt, pc = .testing ∨ pc.departing = true →
      pc ≠ .starting ∧ pc ≠ .ended ∧ pc.stage = some .testing := by
    rintro pc (rfl | departs)
    · exact ⟨by simp, by simp, rfl⟩
    · cases pc <;> simp [ResultAt.departing, ResultAt.stage] at departs ⊢
  obtain ⟨started, running, wasTesting⟩ := leaves _ before
  obtain ⟨begun, stays, isTesting⟩ := leaves _ (.inr departing)
  refine tracked.next (on.receives isIndex (threads.trans (List.append_nil _).symm) (by simp) user
    early joined (fun held isQueue => on.fetched held (queue ▸ isQueue)) entry
    (fun _ => ⟨sem, begun⟩) fun _ => gone) sock rfl ?_
  intro future session presents
  have isResult := stage_eq presents wasTesting
  exact .inl
    { sound := presents.sound
      stands := by rw [isTesting, isResult]
      sock := presents.sock.trans sock.symm
      transInfo := fun _ => (presents.transInfo running).trans info.symm
      children := presents.children.trans (on.children_receives isIndex threads).symm
      permits := Nat.le_trans permits presents.permits
      semMap := fun _ _ => presents.semMap started running
      semMatch := fun holds => by
        obtain ⟨held, kept⟩ := sems holds
        rw [kept, sem]
        exact presents.semMatch held
      resultQueue := by
        rw [queue]
        exact presents.resultQueue
      queueMap := fun _ => presents.queueMap running
      imgQueue := fun _ => by
        rw [queues]
        exact presents.imgQueue running
      departing := fun _ => empty future session presents
      program := presents.program
      transmitSem := presents.transmitSem }

/-- `server_result` returns. -/
private theorem Tracked.returns (tracked : cast.Tracked config process)
    (isIndex : cast.index = some index) (stands : cast.receiver.pc = .deletingQueue)
    (threads : after.threads = process.threads.set index
      (.result { cast.receiver with pc := .ended }))
    (permits : after.permits ≤ process.permits) :
    ({ cast with receiver := { cast.receiver with pc := .ended } } : Cast).Tracked config
      after := by
  have on := tracked.on
  refine tracked.next (on.receives isIndex (threads.trans (List.append_nil _).symm) (by simp) rfl
    (by simp [ResultAt.afterUser]) (by simp [ResultAt.afterUser]) on.fetched
    (by simp [ResultAt.unregistered]) (fun _ => ⟨rfl, by simp⟩) fun _ => on.gone (.inl (by
      rw [stands]; rfl))) rfl rfl ?_
  intro future session presents
  have isResult := stage_eq presents (by rw [stands]; rfl)
  have empty := presents.departing (by rw [stands]; rfl)
  refine .inr ⟨.resultTest, session.tearDown,
    by simp only [Session.move, Session.resultTest, isResult, empty], ?_⟩
  exact
    { sound := presents.sound
      stands := rfl
      sock := presents.sock
      transInfo := fun running => absurd rfl running
      children := presents.children.trans (on.children_receives isIndex threads).symm
      permits := by
        have balance := presents.permits
        simp only [Session.allPermits, Session.held, Session.activeChildren, Session.tearDown,
          isResult] at balance ⊢
        omega
      semMap := fun _ running => absurd rfl running
      semMatch := by simp [ResultAt.holdsSem]
      resultQueue := presents.resultQueue
      queueMap := fun running => absurd rfl running
      imgQueue := fun running => absurd rfl running
      departing := by simp [ResultAt.departing]
      program := presents.program
      transmitSem := presents.transmitSem }

/-- When `server_result` finds its queue empty, `server_transmit` has ended. -/
private theorem On.gone_of_closing (on : cast.On process) (isIndex : cast.index = some index)
    {receiver : ResultThread} (intact : (process.setThread index (.result receiver)).Intact)
    (user : receiver.user = cast.receiver.user) (closing : receiver.pc.closing = true) :
    ∀ sender, cast.sender = some sender → sender.ended = true := by
  intro sender isSender
  by_contra live
  have own := on.receiver index isIndex
  have early : receiver.pc.afterUser = false := by
    cases stands : receiver.pc <;> simp_all [ResultAt.closing, ResultAt.afterUser]
  have shown : (process.setThread index (.result receiver)).threads[index]? =
      some (.result receiver) := by
    rw [Process.setThread, getElem?_set_there _ own, if_pos rfl]
  have tidy := (intact.tidy receiver.user).receiver receiver (intact.apart.receiver shown early)
  cases isPlace : cast.place with
  | none =>
      rw [(on.nobody isPlace).1] at isSender
      cases isSender
  | some place =>
      obtain ⟨found, same, there⟩ := on.sender place isPlace
      rw [isSender, Option.some.injEq] at same
      subst same
      have stays : (process.setThread index (.result receiver)).threads[place]? =
          some (.transmit sender) := by
        rw [Process.setThread, getElem?_set_there _ own, if_neg, there]
        rintro rfl
        rw [own] at there
        cases there
      have sees := intact.apart.sender stays (eq_false_of_ne_true live)
      rw [on.user sender isSender, ← user, (tidy.closing closing).1] at sees
      cases sees

/-- A step of `server_result` alone. -/
private theorem Tracked.looks_step (tracked : cast.Tracked config process)
    (disk : config.storm = false) (isIndex : cast.index = some index) {receiver : ResultThread}
    (staged : cast.receiver.pc.stage ≠ none)
    (looks : Process.Looks config process cast.receiver call receiver)
    (permits : (process.setThread index (.result receiver)).permits ≤ process.permits)
    (gone : receiver.pc.closing = true → ∀ sender, cast.sender = some sender →
      sender.ended = true) :
    ({ cast with receiver := receiver } : Cast).Tracked config
      (process.setThread index (.result receiver)) := by
  have on := tracked.on
  cases looks with
  | replied stands written =>
      simp only [disk, Bool.false_eq_true, if_false] at permits ⊢
      refine tracked.looks isIndex (by rw [stands]; rfl) rfl ⟨rfl, rfl, rfl⟩ on.fetched permits ?_
      intro future session presents
      have isResult := stage_eq presents (by rw [stands]; rfl)
      refine ⟨session.result, _, session.transInfo, by rw [isResult]; rfl, presents.resultQueue,
        presents.transInfo (by simp [stands]), rfl, .inl rfl⟩
  | bound stands | received stands | sent stands | unsent stands =>
      rw [stands] at staged
      exact absurd rfl staged
  | @fetched stands queue held =>
      have isQueue : cast.queue = some queue := by
        rcases held with fetched | ⟨-, entry⟩
        · exact on.fetched queue fetched
        · rw [← on.entry (by rw [stands]; rfl)]
          exact entry
      refine tracked.looks isIndex (by rw [stands]; rfl) rfl ⟨rfl, rfl, rfl⟩
        (fun other same => isQueue.trans same) permits ?_
      intro future session presents
      have isResult := stage_eq presents (by rw [stands]; rfl)
      have running : cast.receiver.pc ≠ .ended := by simp [stands]
      refine ⟨.testing, true, session.transInfo, rfl, rfl, presents.transInfo running,
        by simp only [Session.held, isResult], .inr ⟨.resultFetch, ?_⟩⟩
      have mapped := presents.queueMap running
      rw [isQueue] at mapped
      simp only [Session.move, Session.resultFetch, isResult, mapped, Option.isSome_some, or_true,
        if_true]
  | @empty stands address held live =>
      refine tracked.departs isIndex rfl (.inl stands) rfl ⟨rfl, rfl, rfl, rfl, rfl⟩ rfl permits
        (fun _ => by rw [stands]; rfl) (fun _ => rfl) (fun _ => ⟨by rw [stands]; rfl, rfl⟩)
        (fun _ => ⟨by rw [stands]; rfl, rfl⟩) ?_ (gone rfl)
      intro future session presents
      rw [presents.imgQueue (by simp [stands]), on.fetched address held,
        Option.bind_some, live]
      rfl
  | @nonempty stands address held fileName rest live =>
      simp only [disk, Bool.false_eq_true, if_false] at permits ⊢
      refine tracked.looks isIndex (by rw [stands]; rfl) rfl ⟨rfl, rfl, rfl⟩ on.fetched permits ?_
      intro future session presents
      have isResult := stage_eq presents (by rw [stands]; rfl)
      have running : cast.receiver.pc ≠ .ended := by simp [stands]
      refine ⟨.grabbing, session.resultQueue, session.transInfo, rfl, presents.resultQueue,
        presents.transInfo running, by simp only [Session.held, isResult],
        .inr ⟨.resultTest, ?_⟩⟩
      have names := presents.imgQueue running
      rw [on.fetched address held, Option.bind_some, live] at names
      simp only [Session.move, Session.resultTest, isResult, names, Option.join_some]
  | @filled fileName stands =>
      refine tracked.looks isIndex (by rw [stands]; rfl) rfl ⟨rfl, rfl, rfl⟩ on.fetched permits ?_
      intro future session presents
      have isResult := stage_eq presents (by rw [stands]; rfl)
      refine ⟨.filled fileName, session.resultQueue, some ⟨session.sock, fileName⟩, rfl,
        presents.resultQueue, by rw [presents.sock], by simp only [Session.held, isResult],
        .inr ⟨.resultFill, by simp only [Session.move, Session.resultFill, isResult]⟩⟩

/-- A step of the `server_result` of the session. -/
theorem Tracked.receives (tracked : cast.Tracked config process) (intact : after.Intact)
    (disk : config.storm = false) (isIndex : cast.index = some index)
    (creates : ∀ fileName, cast.receiver.pc = .filled fileName → call = .success)
    (moves : Process.Moves config process (.result index call) after) :
    ∃ receiver, ({ cast with receiver := receiver } : Cast).Tracked config after := by
  have on := tracked.on
  have own := on.receiver index isIndex
  have permits := moves.permits_le
  have staged : cast.receiver.pc.stage ≠ none := by
    obtain ⟨session, -, presents⟩ := tracked.session []
    rw [presents.stands]
    exact nofun
  cases moves with
  | @look _ thread receiver _ there looks =>
      cases own.symm.trans there
      exact ⟨receiver, tracked.looks_step disk isIndex staged looks permits
        (on.gone_of_closing isIndex intact (looks_keeps looks).1)⟩
  | start there stands =>
      cases own.symm.trans there
      exact ⟨_, tracked.starts isIndex stands rfl ⟨rfl, rfl, rfl⟩ rfl permits⟩
  | wait there stands live =>
      cases own.symm.trans there
      exact ⟨_, tracked.waits isIndex stands live rfl ⟨rfl, rfl, rfl⟩ rfl permits⟩
  | eraseSem there stands =>
      cases own.symm.trans there
      have leaves : cast.receiver.pc.departing = true := by rw [stands]; rfl
      exact ⟨_, tracked.departs isIndex rfl (.inr leaves) rfl ⟨rfl, rfl, rfl, rfl, rfl⟩ rfl permits
        (fun _ => by rw [stands]; rfl) (fun _ => rfl) (fun _ => ⟨by rw [stands]; rfl, rfl⟩)
        (fun _ => ⟨by rw [stands]; rfl, rfl⟩) (fun _ _ presents => presents.departing leaves)
        (on.gone (.inl leaves))⟩
  | eraseQueue there stands =>
      cases own.symm.trans there
      have leaves : cast.receiver.pc.departing = true := by rw [stands]; rfl
      exact ⟨_, tracked.departs isIndex rfl (.inr leaves) rfl ⟨rfl, rfl, rfl, rfl, rfl⟩ rfl permits
        (fun _ => by rw [stands]; rfl) (fun _ => rfl) nofun
        (fun _ => ⟨by rw [stands]; rfl, rfl⟩) (fun _ _ presents => presents.departing leaves)
        (on.gone (.inl leaves))⟩
  | eraseUser there stands =>
      cases own.symm.trans there
      have leaves : cast.receiver.pc.departing = true := by rw [stands]; rfl
      exact ⟨_, tracked.departs isIndex rfl (.inr leaves) rfl ⟨rfl, rfl, rfl, rfl, rfl⟩ rfl permits
        nofun nofun nofun
        (fun _ => ⟨by rw [stands]; rfl, rfl⟩) (fun _ _ presents => presents.departing leaves)
        (on.gone (.inl leaves))⟩
  | deleteSem there stands live =>
      cases own.symm.trans there
      have leaves : cast.receiver.pc.departing = true := by rw [stands]; rfl
      exact ⟨_, tracked.departs isIndex rfl (.inr leaves) rfl ⟨rfl, rfl, rfl, rfl, rfl⟩ rfl permits
        nofun nofun nofun nofun (fun _ _ presents => presents.departing leaves)
        (on.gone (.inl leaves))⟩
  | deleteQueue there stands held live =>
      cases own.symm.trans there
      exact ⟨_, tracked.returns isIndex stands rfl permits⟩
  | grab there stands permit =>
      cases own.symm.trans there
      exact ⟨_, tracked.grabs isIndex stands permit permits⟩
  | take there stands held live =>
      cases own.symm.trans there
      rcases stands with ⟨atPop, rfl⟩ | ⟨atTake, -⟩
      · exact ⟨_, tracked.takes isIndex atPop held live permits⟩
      · rw [atTake] at staged
        exact absurd rfl staged
  | spawn there stands =>
      cases own.symm.trans there
      exact ⟨_, tracked.spawns isIndex stands permits⟩
  | spawnFailed there stands =>
      cases own.symm.trans there
      cases creates _ stands
  | finish there stands | stop there stands =>
      cases own.symm.trans there
      rw [stands] at staged
      exact absurd rfl staged

end Steps

end Cast

end PaintingCPS
