import PaintingCPS.Server.Isolation.Receiver

/-!
Contract: the children of one session.

A `result_child` of the process reads the struct, sends and posts where a child
of the session does.

Owns: the lemma about every step of a child.

Does not own: whether the struct is still what it was.
-/

set_option autoImplicit false

namespace PaintingCPS

open Foundation

namespace Cast

section Steps

variable {config : Config} {process after : Process} {cast moved : Cast} {index : Nat}
variable {call : Call}

/-- The permit of a child. -/
private def share (pc : ChildPc) : Nat := if (⟨[], pc⟩ : Child).active then 1 else 0

/-- A child of the session moves. -/
private theorem Tracked.child (tracked : cast.Tracked config process) {owner : Nat}
    (isIndex : cast.index = some owner) {pc next : WorkerAt}
    (there : process.threads[index]? = some (.worker ⟨owner, pc⟩))
    (threads : after.threads = process.threads.set index (.worker ⟨owner, next⟩))
    (same : process.Undisturbed after) (posted : Nat)
    (permits : after.permits + share pc.stage ≤ process.permits + posted + share next.stage)
    (matched : ∀ (session : Session) (place : Nat) (own : List Byte),
      session.children[place]? = some ⟨own, pc.stage⟩ →
      (cast.receiver.pc ≠ .ended → session.transInfo = cast.receiver.transInfo) →
        ∃ matched sent, let moved : Session := { session with
            children := session.children.set place ⟨own, next.stage⟩
            processSem := session.processSem + posted
            matched := matched
            sent := sent }
          moved = session ∨ ∃ label, session.move config.mode label = some (.ok moved)) :
    cast.Tracked config after := by
  have on := tracked.on
  have untouched := on.untouched_worker there threads same
  refine tracked.next (on.untouched untouched) rfl rfl ?_
  intro future session presents
  have sees : ∀ pc : WorkerAt,
      Thread.childOf owner (.worker ⟨owner, pc⟩) = some pc.stage := fun _ => if_pos rfl
  obtain ⟨place, seen, shown⟩ := filterMap_set_there there (sees pc) (sees next)
  have children := presents.children
  rw [Cast.children, isIndex, Option.elim_some] at children
  rw [← children, List.getElem?_map, Option.map_eq_some_iff] at seen
  obtain ⟨⟨own, stage⟩, found, rfl⟩ := seen
  obtain ⟨matched, sent, step⟩ := matched session place own found presents.transInfo
  have shows : Presents after cast future { session with
      children := session.children.set place ⟨own, next.stage⟩
      processSem := session.processSem + posted
      matched := matched
      sent := sent } := by
    apply presents_untouched presents untouched rfl
    · rw [Cast.children, isIndex, Option.elim_some, threads, shown, ← children, List.map_set]
    · have balance := presents.permits
      have moves := countP_set_there Child.active ⟨own, next.stage⟩ found
      have blind : ∀ pc, (⟨own, pc⟩ : Child).active = (⟨[], pc⟩ : Child).active := fun _ => rfl
      simp only [blind] at moves
      simp only [Session.allPermits, Session.activeChildren, Session.held, share] at *
      omega
  rcases step with stays | ⟨label, moves⟩
  · rw [stays] at shows
    exact .inl shows
  · exact .inr ⟨label, _, moves, shows⟩

/-- A child reads the struct of the `server_result` of the session. -/
private theorem On.reads (on : cast.On process) {owner : Nat} (isIndex : cast.index = some owner)
    {info : ArgResult} (read : process.args owner = .ok info) :
    cast.receiver.pc ≠ .ended ∧ cast.receiver.transInfo = some info := by
  simp only [Process.args, on.receiver owner isIndex] at read
  split at read
  next => cases read
  next running =>
    split at read
    next filled =>
      cases read
      exact ⟨running, filled⟩
    next => cases read

/-- A step of a child of the session. -/
theorem Tracked.works (tracked : cast.Tracked config process) {owner : Nat} {pc : WorkerAt}
    (isIndex : cast.index = some owner)
    (own : process.threads[index]? = some (.worker ⟨owner, pc⟩))
    (moves : Process.Moves config process (.worker index call) after) :
    cast.Tracked config after := by
  have on := tracked.on
  have permits := moves.permits
  have less := moves.permits_le
  cases moves with
  | advance there advances =>
      cases own.symm.trans there
      cases advances with
      | @sock info read =>
          obtain ⟨running, filled⟩ := on.reads isIndex read
          refine tracked.child isIndex there rfl ⟨rfl, rfl, rfl, rfl, rfl, rfl⟩ 0
            (Nat.succ_le_succ less) ?_
          intro session place own found transInfo
          have slot := (transInfo running).trans filled
          have moved : session.childSock place =
              some (.ok (session.setChild place ⟨own, .created⟩ (.hasSock info.sock))) := by
            simp only [WorkerAt.stage] at found
            simp only [Session.childSock, found, slot]
          exact ⟨session.matched, session.sent, .inr ⟨.childSock place, moved⟩⟩
      | @name info sock read =>
          obtain ⟨running, filled⟩ := on.reads isIndex read
          refine tracked.child isIndex there rfl ⟨rfl, rfl, rfl, rfl, rfl, rfl⟩ 0
            (Nat.succ_le_succ less) ?_
          intro session place own found transInfo
          have slot := (transInfo running).trans filled
          have moved : session.childName place =
              some (.ok { session.setChild place ⟨own, .hasSock sock⟩
                  (.matching sock info.fileName) with
                matched := session.matched ++ [info.fileName] }) := by
            simp only [WorkerAt.stage] at found
            simp only [Session.childName, found, slot]
          exact ⟨_, session.sent, .inr ⟨.childName place, moved⟩⟩
      | reply sock fileName written =>
          refine tracked.child isIndex there rfl ⟨rfl, rfl, rfl, rfl, rfl, rfl⟩ 0
            (Nat.succ_le_succ less) ?_
          intro session place own found _
          have moved : session.childReply config.mode place true =
              some (.ok { session.setChild place ⟨own, .matching sock fileName⟩ .replied with
                sent := session.sent ++ [(own, ⟨sock, fileName⟩)] }) := by
            simp only [WorkerAt.stage] at found
            simp only [Session.childReply, found, if_true]
          exact ⟨session.matched, _, .inr ⟨.childReply place true, moved⟩⟩
  | @unwritten _ _ sock fileName _ there failed =>
      cases own.symm.trans there
      have lost := (permits.resolve_left fun kept => failed.2 (kept.1 _ _ _ there failed.1)).2
      refine tracked.child isIndex there rfl ⟨rfl, rfl, rfl, rfl, rfl, rfl⟩ 0
        (Nat.le_of_eq lost) ?_
      intro session place own found _
      have moved : session.childReply config.mode place false =
          some (.ok (session.setChild place ⟨own, .matching sock fileName⟩ .ended)) := by
        simp only [WorkerAt.stage] at found
        simp only [Session.childReply, found, failed.1, if_true, Bool.false_eq_true, if_false]
      exact ⟨session.matched, session.sent, .inr ⟨.childReply place false, moved⟩⟩
  | finished there =>
      cases own.symm.trans there
      refine tracked.child isIndex there rfl ⟨rfl, rfl, rfl, rfl, rfl, rfl⟩ 0
        (Nat.succ_le_succ less) ?_
      intro session place own found _
      refine ⟨session.matched, session.sent, .inl ?_⟩
      rw [show session.children.set place ⟨own, WorkerAt.finished.stage⟩ = session.children from
        set_same found]
      rfl
  | released there =>
      cases own.symm.trans there
      refine tracked.child isIndex there rfl ⟨rfl, rfl, rfl, rfl, rfl, rfl⟩ 1
        (Nat.succ_le_succ less) ?_
      intro session place own found _
      have moved : session.childPost place =
          some (.ok { session.setChild place ⟨own, .replied⟩ .ended with
            processSem := session.processSem + 1 }) := by
        simp only [WorkerAt.stage] at found
        simp only [Session.childPost, found]
      exact ⟨session.matched, session.sent, .inr ⟨.childPost place, moved⟩⟩

end Steps

end Cast

end PaintingCPS
