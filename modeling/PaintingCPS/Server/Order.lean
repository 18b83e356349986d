import PaintingCPS.Server.Children

/-!
Contract: the order in which the results of one session are sent.

A result carries no request identifier, so the client takes the i-th result for
the i-th image. Workers send as they finish: children of `server_result` in the
local mode, matching bolts in Storm mode.

Owns: the order in both modes, and the numbers of workers for which it is the
order of the requests in every run.

Does not own: lost datagrams, and the other sessions.
-/

set_option autoImplicit false

namespace PaintingCPS

open Foundation

/-! ## Local mode -/

/-- A child that has still to give its permit back. -/
def Child.active (child : Child) : Bool :=
  match child.pc with
  | .ended | .faulted => false
  | _ => true

/-- The name whose result a child is going to send. -/
def Child.unsent (child : Child) : List (List Byte) :=
  match child.pc with
  | .created | .hasSock _ => [child.own]
  | .matching _ fileName => [fileName]
  | _ => []

/-- The name that an action puts on the queue. -/
def Action.queued : Action → Option (List Byte)
  | push fileName => some fileName
  | _ => none

namespace Session

/-- The names whose results were sent, in this order. -/
def sentNames (session : Session) : List (List Byte) :=
  session.sent.map fun result => result.2.fileName

/-- The permit that `server_result` holds. -/
def held (session : Session) : Nat :=
  match session.result with
  | .permitted | .popped _ | .filled _ => 1
  | _ => 0

def activeChildren (session : Session) : Nat := session.children.countP Child.active

/-- Names on their way from the queue to the client. -/
def underWay (session : Session) : List (List Byte) :=
  session.inHand ++ session.children.flatMap Child.unsent

end Session

namespace Session

/-- The invariant of a session with at most one permit. -/
structure OneAtATime (names : List (List Byte)) (session : Session) : Prop where
  pushes : session.pushed ++ session.program.filterMap Action.queued = names
  fresh : Action.register ∈ session.program →
    session.program = .register :: dispatch names ∧ session.pushed = [] ∧ session.popped = []
  queue : ∀ queue, session.imgQueue = some queue → session.popped ++ queue = session.pushed
  popped : session.popped <+: session.pushed
  permits : session.processSem + session.held + session.activeChildren ≤ 1
  order : session.sentNames ++ session.underWay <+: session.popped
  /-- While the permit exists no name is lost. -/
  complete : session.processSem + session.held + session.activeChildren = 1 →
    session.result ≠ .returned → session.sentNames ++ session.underWay = session.popped
  slot : ∀ child ∈ session.children, child.pending = true →
    (session.transInfo = none ∧ session.result = .returned) ∨
      session.transInfo.map ArgResult.fileName = some child.own
  filled : ∀ fileName, session.result = .filled fileName →
    session.transInfo.map ArgResult.fileName = some fileName

theorem register_notMem_dispatch (names : List (List Byte)) :
    Action.register ∉ dispatch names := by
  induction names with
  | nil => decide
  | cons fileName rest inductionHypothesis => simp [dispatch, inductionHypothesis]

section Steps

variable {mode : Mode} {names : List (List Byte)} {session after : Session} {label : SessionMove}

theorem unsent_of_idle (child : Child) (idle : child.active = false) : child.unsent = [] := by
  obtain ⟨own, pc⟩ := child
  cases pc with
  | ended | faulted => rfl
  | created | hasSock | matching | replied => cases idle

theorem active_of_pending {child : Child} (pending : child.pending = true) :
    child.active = true := by
  obtain ⟨own, pc⟩ := child
  cases pc with
  | created | hasSock => rfl
  | matching | replied | ended | faulted => cases pending

/-- A step of the transmit thread that leaves the names and the queue alone. -/
private theorem OneAtATime.advance (ordered : session.OneAtATime names) {action : Action}
    {rest : List Action} (there : session.program = action :: rest)
    (silent : action.queued = none) (notRegister : action ≠ .register)
    {imgQueue : Option (List (List Byte))}
    (queue : ∀ queue, imgQueue = some queue → session.imgQueue = some queue)
    {semMatch : Option Nat} {transmitSem : Bool} :
    OneAtATime names { session with program := rest, imgQueue, semMatch, transmitSem } where
  pushes := by
    have pushes := ordered.pushes
    rw [there, List.filterMap_cons_none silent] at pushes
    exact pushes
  fresh := by
    intro later
    have early := ordered.fresh (there ▸ List.mem_cons_of_mem action later)
    rw [there] at early
    exact absurd (List.cons.inj early.1).1 notRegister
  queue contents present := ordered.queue contents (queue contents present)
  popped := ordered.popped
  permits := ordered.permits
  order := ordered.order
  complete := ordered.complete
  slot := ordered.slot
  filled := ordered.filled

/-- A step of `server_result` before it holds a permit. -/
private theorem OneAtATime.walk (ordered : session.OneAtATime names) {result : ResultPc}
    (before : session.held = 0 ∧ session.inHand = []) (running : session.result ≠ .returned)
    (afterwards : Session.held { session with result := result } = 0 ∧
      Session.inHand { session with result := result } = [])
    (notFilled : ∀ fileName, result ≠ .filled fileName)
    {semMatch : Option Nat} {semMap resultQueue : Bool} :
    OneAtATime names { session with result, semMatch, semMap, resultQueue } := by
  have held : Session.held { session with result, semMatch, semMap, resultQueue } =
      session.held := afterwards.1.trans before.1.symm
  have inHand : Session.inHand { session with result, semMatch, semMap, resultQueue } =
      session.inHand := afterwards.2.trans before.2.symm
  refine ⟨ordered.pushes, ordered.fresh, ordered.queue, ordered.popped, ?_, ?_, ?_, ?_, ?_⟩
  · rw [held]
    exact ordered.permits
  · rw [underWay, inHand]
    exact ordered.order
  · intro one _
    rw [held] at one
    rw [underWay, inHand]
    exact ordered.complete one running
  · intro child member pending
    cases ordered.slot child member pending with
    | inl finished => exact absurd finished.2 running
    | inr same => exact .inr same
  · intro fileName atFilled
    exact absurd atFilled (notFilled fileName)

/-- A child moves on. It keeps the order when the results sent and the names
under way stay the same, or when a name is given up together with its permit. -/
private theorem OneAtATime.child (ordered : session.OneAtATime names) {index : Nat}
    {child : Child} {pc : ChildPc} {matched : List (List Byte)}
    {sent : List (List Byte × ArgResult)} {permits : Nat}
    (there : session.children[index]? = some child) (isActive : child.active = true)
    (permit : permits + (if ({ child with pc := pc } : Child).active then 1 else 0) ≤
      session.processSem + 1)
    (order : (sent.map fun result => result.2.fileName) ++
      ({ child with pc := pc } : Child).unsent <+: session.sentNames ++ child.unsent)
    (complete : permits + (if ({ child with pc := pc } : Child).active then 1 else 0) =
      session.processSem + 1 → session.result ≠ .returned →
      (sent.map fun result => result.2.fileName) ++ ({ child with pc := pc } : Child).unsent =
        session.sentNames ++ child.unsent)
    (slot : ({ child with pc := pc } : Child).pending = true → child.pending = true) :
    OneAtATime names { session.setChild index child pc with
      matched := matched, sent := sent, processSem := permits } := by
  have positive : 0 < session.activeChildren :=
    List.countP_pos_iff.mpr ⟨child, List.mem_of_getElem? there, isActive⟩
  have bound := ordered.permits
  have alone : session.children.countP Child.active ≤ 1 := by
    have : session.activeChildren ≤ 1 := by omega
    exact this
  have notHeld : session.held = 0 := by omega
  have noHand : session.inHand = [] := by
    unfold held at notHeld
    unfold inHand
    split <;> simp_all
  obtain ⟨holdsBefore, holdsAfter, activeAfter⟩ :=
    flatMap_set_alone unsent_of_idle { child with pc := pc } there isActive alone
  have active : session.activeChildren = 1 := by
    have : session.activeChildren ≤ 1 := by omega
    omega
  have underWayBefore : session.underWay = child.unsent := by
    rw [underWay, noHand, holdsBefore, List.nil_append]
  have underWayAfter : Session.underWay { session.setChild index child pc with
      matched := matched, sent := sent, processSem := permits } =
        ({ child with pc := pc } : Child).unsent := by
    change session.inHand ++ (session.children.set index { child with pc := pc }).flatMap _ = _
    rw [noHand, holdsAfter, List.nil_append]
  have permitsAfter : permits + session.held +
      (session.children.set index { child with pc := pc }).countP Child.active =
        permits + (if ({ child with pc := pc } : Child).active then 1 else 0) := by
    rw [notHeld, activeAfter, Nat.add_zero]
  refine ⟨ordered.pushes, ordered.fresh, ordered.queue, ordered.popped, ?_, ?_, ?_, ?_,
    ordered.filled⟩
  · change permits + session.held + _ ≤ 1
    have : (session.setChild index child pc).children =
      session.children.set index { child with pc := pc } := rfl
    rw [activeChildren, this, permitsAfter]
    omega
  · rw [underWayAfter]
    have whole := ordered.order
    rw [underWayBefore] at whole
    exact order.trans whole
  · intro one running
    change permits + session.held +
      (session.children.set index { child with pc := pc }).countP Child.active = 1 at one
    rw [permitsAfter] at one
    rw [underWayAfter]
    have whole := ordered.complete (by omega) running
    rw [underWayBefore] at whole
    exact (complete (by omega) running).trans whole
  · exact forall_mem_set ordered.slot fun pending =>
      ordered.slot child (List.mem_of_getElem? there) (slot pending)

/-- The transmit thread queues a name. -/
private theorem OneAtATime.push (ordered : session.OneAtATime names) {fileName : List Byte}
    {rest : List Action} {queue : List (List Byte)}
    (there : session.program = .push fileName :: rest) (live : session.imgQueue = some queue) :
    OneAtATime names { session with
      program := rest
      imgQueue := some (queue ++ [fileName])
      pushed := session.pushed ++ [fileName] } where
  pushes := by
    have pushes := ordered.pushes
    have queued : Action.queued (.push fileName) = some fileName := rfl
    rw [there, List.filterMap_cons_some queued] at pushes
    rw [List.append_assoc, List.singleton_append]
    exact pushes
  fresh := by
    intro later
    have early := ordered.fresh (there ▸ List.mem_cons_of_mem _ later)
    rw [there] at early
    exact absurd (List.cons.inj early.1).1 (by simp)
  queue contents present := by
    cases present
    rw [← List.append_assoc, ordered.queue queue live]
  popped := ordered.popped.trans (List.prefix_append _ _)
  permits := ordered.permits
  order := ordered.order
  complete := ordered.complete
  slot := ordered.slot
  filled := ordered.filled

/-- The transmit thread registers its queue before anything is queued. -/
private theorem OneAtATime.register (ordered : session.OneAtATime names) {rest : List Action}
    (there : session.program = .register :: rest) :
    OneAtATime names { session with program := rest, queueMap := true, imgQueue := some [] } := by
  obtain ⟨atStart, noPush, noPop⟩ := ordered.fresh (there ▸ List.mem_cons_self)
  have remaining : rest = dispatch names := (List.cons.inj (there.symm.trans atStart)).2
  refine ⟨?_, ?_, ?_, ordered.popped, ordered.permits, ordered.order, ordered.complete,
    ordered.slot, ordered.filled⟩
  · have pushes := ordered.pushes
    rw [there, List.filterMap_cons_none rfl] at pushes
    exact pushes
  · intro later
    rw [remaining] at later
    exact absurd later (register_notMem_dispatch names)
  · intro contents present
    cases present
    change session.popped ++ [] = session.pushed
    rw [noPop, noPush]
    rfl

/-- `server_result` takes the only permit, pops and fills while no child is
active. -/
private theorem OneAtATime.idle (ordered : session.OneAtATime names) (held : session.held = 1) :
    session.children.countP Child.active = 0 ∧ session.children.flatMap Child.unsent = [] := by
  have bound := ordered.permits
  have none' : session.children.countP Child.active = 0 := by
    have : session.activeChildren = 0 := by omega
    exact this
  exact ⟨none', flatMap_of_idle unsent_of_idle none'⟩

private theorem OneAtATime.grab (ordered : session.OneAtATime names) {value : Nat}
    (atGrab : session.result = .grabbing) (permit : session.processSem = value + 1) :
    OneAtATime names { session with processSem := value, result := .permitted } := by
  have held : session.held = 0 := by simp [Session.held, atGrab]
  have inHand : session.inHand = [] := by simp [Session.inHand, atGrab]
  have bound := ordered.permits
  refine ⟨ordered.pushes, ordered.fresh, ordered.queue, ordered.popped, ?_, ?_, ?_, ?_, ?_⟩
  · change value + 1 + session.activeChildren ≤ 1
    omega
  · have order := ordered.order
    rw [underWay, inHand] at order
    exact order
  · intro _ _
    have complete := ordered.complete (by omega) (by simp [atGrab])
    rw [underWay, inHand] at complete
    exact complete
  · intro child member pending
    cases ordered.slot child member pending with
    | inl finished => exact absurd (finished.2.symm.trans atGrab) (by simp)
    | inr same => exact .inr same
  · intro fileName impossible
    cases impossible

private theorem OneAtATime.pop (ordered : session.OneAtATime names) {fileName : List Byte}
    {rest : List (List Byte)} (atPop : session.result = .permitted)
    (there : session.imgQueue = some (fileName :: rest)) :
    OneAtATime names { session with
      imgQueue := some rest
      popped := session.popped ++ [fileName]
      result := .popped fileName } := by
  have held : session.held = 1 := by simp [Session.held, atPop]
  have inHand : session.inHand = [] := by simp [Session.inHand, atPop]
  obtain ⟨idle, noUnsent⟩ := ordered.idle held
  have bound := ordered.permits
  have queue := ordered.queue _ there
  have sentAll : session.sentNames = session.popped := by
    have complete := ordered.complete (by omega) (by simp [atPop])
    rw [underWay, inHand, noUnsent, List.append_nil, List.append_nil] at complete
    exact complete
  have underWay : Session.underWay { session with
      imgQueue := some rest, popped := session.popped ++ [fileName]
      result := .popped fileName } = [fileName] := by
    change [fileName] ++ session.children.flatMap Child.unsent = [fileName]
    rw [noUnsent, List.append_nil]
  have order : session.sentNames ++ [fileName] = session.popped ++ [fileName] := by rw [sentAll]
  refine ⟨ordered.pushes, ?_, ?_, ?_, ?_, ?_, ?_, ?_, ?_⟩
  · intro later
    obtain ⟨-, noPush, noPop⟩ := ordered.fresh later
    rw [noPop, noPush] at queue
    cases queue
  · intro contents present
    cases present
    rw [List.append_assoc, List.singleton_append]
    exact queue
  · rw [← queue]
    exact ⟨rest, by rw [List.append_assoc, List.singleton_append]⟩
  · change session.processSem + 1 + session.activeChildren ≤ 1
    omega
  · rw [underWay]
    exact order ▸ List.prefix_refl _
  · intro _ _
    rw [underWay]
    exact order
  · intro child member pending
    have none' := List.countP_eq_zero.mp idle child member
    exact absurd (active_of_pending pending) none'
  · intro other impossible
    cases impossible

private theorem OneAtATime.fill (ordered : session.OneAtATime names) {fileName : List Byte}
    (atFill : session.result = .popped fileName) :
    OneAtATime names { session with
      transInfo := some ⟨session.sock, fileName⟩
      result := .filled fileName } := by
  have held : session.held = 1 := by simp [Session.held, atFill]
  have inHand : session.inHand = [fileName] := by simp [Session.inHand, atFill]
  obtain ⟨idle, -⟩ := ordered.idle held
  have bound := ordered.permits
  refine ⟨ordered.pushes, ordered.fresh, ordered.queue, ordered.popped, ?_, ?_, ?_, ?_, ?_⟩
  · change session.processSem + 1 + session.activeChildren ≤ 1
    omega
  · have order := ordered.order
    rw [underWay, inHand] at order
    exact order
  · intro _ _
    have complete := ordered.complete (by omega) (by simp [atFill])
    rw [underWay, inHand] at complete
    exact complete
  · intro child member pending
    have none' := List.countP_eq_zero.mp idle child member
    exact absurd (active_of_pending pending) none'
  · intro other atFilled
    cases atFilled
    rfl

private theorem OneAtATime.spawn (ordered : session.OneAtATime names) {fileName : List Byte}
    (atSpawn : session.result = .filled fileName) :
    OneAtATime names { session with
      children := session.children ++ [⟨fileName, .created⟩]
      result := .waiting } := by
  have held : session.held = 1 := by simp [Session.held, atSpawn]
  have inHand : session.inHand = [fileName] := by simp [Session.inHand, atSpawn]
  obtain ⟨idle, noUnsent⟩ := ordered.idle held
  have bound := ordered.permits
  have before : session.underWay = [fileName] := by rw [underWay, inHand, noUnsent]; rfl
  have active : (session.children ++ [Child.mk fileName .created]).countP Child.active = 1 := by
    rw [List.countP_append, idle]
    rfl
  have after : Session.underWay { session with
      children := session.children ++ [Child.mk fileName .created], result := .waiting } =
        [fileName] := by
    change [] ++ (session.children ++ [Child.mk fileName .created]).flatMap Child.unsent = _
    rw [List.flatMap_append, noUnsent]
    rfl
  refine ⟨ordered.pushes, ordered.fresh, ordered.queue, ordered.popped, ?_, ?_, ?_, ?_, ?_⟩
  · change session.processSem + 0 + List.countP _ _ ≤ 1
    rw [active]
    omega
  · rw [after, ← before]
    exact ordered.order
  · intro _ _
    rw [after, ← before]
    exact ordered.complete (by omega) (by simp [atSpawn])
  · intro child member pending
    cases List.mem_append.mp member with
    | inl old =>
        have none' := List.countP_eq_zero.mp idle child old
        exact absurd (active_of_pending pending) none'
    | inr new =>
        rw [List.mem_singleton.mp new]
        exact .inr (ordered.filled fileName atSpawn)
  · intro other impossible
    cases impossible

private theorem OneAtATime.tearDown (ordered : session.OneAtATime names)
    (atTest : session.result = .testing) : session.tearDown.OneAtATime names := by
  have held : session.held = 0 := by simp [Session.held, atTest]
  have inHand : session.inHand = [] := by simp [Session.inHand, atTest]
  have bound := ordered.permits
  refine ⟨ordered.pushes, ordered.fresh, ?_, ordered.popped, ?_, ?_, ?_, ?_, ?_⟩
  · intro contents impossible
    cases impossible
  · change session.processSem + 0 + session.activeChildren ≤ 1
    omega
  · have order := ordered.order
    rw [underWay, inHand] at order
    exact order
  · intro _ running
    exact absurd rfl running
  · intro child member pending
    exact .inl ⟨rfl, rfl⟩
  · intro other impossible
    cases impossible

/-- Every step keeps the order while there is one permit. -/
theorem OneAtATime.step (ordered : session.OneAtATime names)
    (step : Step mode session label after) : after.OneAtATime names := by
  cases step with
  | register there => exact ordered.register there
  | push there live => exact ordered.push there live
  | lookup there | post there =>
      exact ordered.advance there rfl (by simp) (fun _ same => same)
  | deleteQueue there =>
      exact ordered.advance there rfl (by simp) (fun _ impossible => by cases impossible)
  | @aside action rest there silent =>
      refine ordered.advance there ?_ ?_ (fun _ same => same) <;>
        cases action <;> simp_all [Action.shared, Action.queued]
  | start atStart | wait atWait | fetch atWoken | goOn atTest =>
      exact ordered.walk (by simp [Session.held, Session.inHand, *]) (by simp [*])
        (by simp [Session.held, Session.inHand]) (by simp)
  | tearDown atTest => exact ordered.tearDown atTest
  | grab atGrab permit => exact ordered.grab atGrab permit
  | pop atPop there => exact ordered.pop atPop there
  | fill atFill => exact ordered.fill atFill
  | spawn atSpawn => exact ordered.spawn atSpawn
  | sock there =>
      exact ordered.child there rfl (Nat.le_refl _) (List.prefix_refl _) (fun _ _ => rfl)
        (fun pending => pending)
  | @name index own used info there slot =>
      have same : info.fileName = own := by
        cases ordered.slot _ (List.mem_of_getElem? there) rfl with
        | inl finished =>
            rw [slot] at finished
            cases finished.1
        | inr same =>
            rw [slot] at same
            exact Option.some.inj same
      refine ordered.child there rfl (Nat.le_refl _) ?_ ?_ (fun impossible => by cases impossible)
      · rw [same]
        exact List.prefix_refl _
      · intro _ _
        rw [same]
        rfl
  | @miss index child _ there pending gone =>
      refine ordered.child there (active_of_pending pending) (Nat.le_succ _) ?_ ?_
        (fun impossible => by cases impossible)
      · exact ⟨child.unsent, by rw [List.append_assoc]; rfl⟩
      · intro lost _
        exact absurd lost (by simp [Child.active])
  | @reply index own fileName used there =>
      have sentToo : (session.sent ++ [(own, ArgResult.mk used fileName)]).map
          (fun result => result.2.fileName) = session.sentNames ++ [fileName] := by
        rw [List.map_append]
        rfl
      refine ordered.child there rfl (Nat.le_refl _) ?_ ?_ (fun impossible => by cases impossible)
      · rw [sentToo]
        exact ⟨[], by rw [List.append_nil, List.append_assoc]; rfl⟩
      · intro _ _
        rw [sentToo]
        exact List.append_nil _
  | @hangUp index own fileName used there =>
      refine ordered.child there rfl (Nat.le_succ _) ?_ ?_ (fun impossible => by cases impossible)
      · exact ⟨[fileName], by rw [List.append_assoc]; rfl⟩
      · intro lost _
        exact absurd lost (by simp [Child.active])
  | @permit index own there =>
      exact ordered.child there rfl (Nat.le_refl _) (List.prefix_refl _) (fun _ _ => rfl)
        (fun impossible => by cases impossible)
  | crash => exact ⟨ordered.pushes, ordered.fresh, ordered.queue, ordered.popped,
      ordered.permits, ordered.order, ordered.complete, ordered.slot, ordered.filled⟩

end Steps

end Session

/-- One session in Storm mode. The spout hands every image to some bolt; each
bolt takes its images in turn and sends one datagram for each. -/
structure StormSession where
  /-- Images that the transmit thread has received, in this order. -/
  received : List (List Byte)
  /-- The image that is at the spout and not yet on the server's queue. -/
  handing : Option (List Byte)
  imgQueue : List (List Byte)
  bolts : List (List (List Byte))
  /-- The images whose results are in the socket of `server_result`. -/
  datagrams : List (List Byte)
  /-- `server_result` has popped a name and waits for a datagram. -/
  awaiting : Bool
  /-- The images whose results were sent to the client. -/
  sent : List (List Byte)
deriving DecidableEq, Repr

inductive StormMove where
  /-- The transmit thread sends the image to the spout, which emits it to a
  bolt. -/
  | forward (img : List Byte) (bolt : Nat)
  | enqueue
  /-- `ImgMatchingBolt.execute` -/
  | execute (bolt : Nat)
  /-- `imgQueue->pop()` -/
  | pop
  /-- `recv` on the UDP socket, and the result to the client. -/
  | reply
deriving DecidableEq, Repr

def StormSession.init (bolts : Nat) : StormSession :=
  ⟨[], none, [], List.replicate bolts [], [], false, []⟩

def StormSession.move (session : StormSession) : StormMove → Option StormSession
  | .forward img bolt =>
      match session.handing, session.bolts[bolt]? with
      | none, some waiting =>
          some { session with
            received := session.received ++ [img]
            handing := some img
            bolts := session.bolts.set bolt (waiting ++ [img]) }
      | _, _ => none
  | .enqueue =>
      match session.handing with
      | none => none
      | some img =>
          some { session with handing := none, imgQueue := session.imgQueue ++ [img] }
  | .execute bolt =>
      match session.bolts[bolt]? with
      | some (img :: rest) =>
          some { session with
            bolts := session.bolts.set bolt rest
            datagrams := session.datagrams ++ [img] }
      | _ => none
  | .pop =>
      match session.awaiting, session.imgQueue with
      | false, _ :: rest => some { session with imgQueue := rest, awaiting := true }
      | _, _ => none
  | .reply =>
      match session.awaiting, session.datagrams with
      | true, img :: rest =>
          some { session with
            datagrams := rest
            awaiting := false
            sent := session.sent ++ [img] }
      | _, _ => none

/-- Transmit thread, bolts and `server_result` in any order. -/
def stormMachine : Machine StormSession StormMove where
  next := StormSession.move

/-- Every image is at a bolt, in a datagram, or answered, in this order. -/
structure StormSession.Straight (session : StormSession) : Prop where
  single : session.bolts.length ≤ 1
  order : session.sent ++ session.datagrams ++ session.bolts.flatten = session.received

/-- The only bolt and what waits at it. -/
theorem StormSession.Straight.bolt {session : StormSession} (straight : session.Straight)
    {bolt : Nat} {waiting : List (List Byte)} (there : session.bolts[bolt]? = some waiting) :
    bolt = 0 ∧ session.bolts = [waiting] := by
  have single := straight.single
  obtain ⟨within, same⟩ := List.getElem?_eq_some_iff.mp there
  have first : bolt = 0 := by omega
  subst first
  obtain ⟨only, shape⟩ := List.length_eq_one_iff.mp (show session.bolts.length = 1 by omega)
  simp only [shape, List.getElem_cons_zero] at same
  exact ⟨rfl, by rw [shape, same]⟩

theorem StormSession.Straight.step {session after : StormSession} (straight : session.Straight)
    {label : StormMove} (step : stormMachine.transition session label after) :
    after.Straight := by
  have order := straight.order
  cases label with
  | forward img bolt =>
      simp only [Machine.transition, stormMachine, move] at step
      split at step
      next waiting idle there =>
        cases step
        obtain ⟨rfl, only⟩ := straight.bolt there
        refine ⟨by simpa using straight.single, ?_⟩
        simp only [only, List.set_cons_zero, List.flatten_singleton] at order ⊢
        rw [← order]
        simp
      next => contradiction
  | enqueue =>
      simp only [Machine.transition, stormMachine, move] at step
      split at step
      next => contradiction
      next =>
        cases step
        exact ⟨straight.single, order⟩
  | execute bolt =>
      simp only [Machine.transition, stormMachine, move] at step
      split at step
      next img rest there =>
        cases step
        obtain ⟨rfl, only⟩ := straight.bolt there
        refine ⟨by simpa using straight.single, ?_⟩
        simp only [only, List.set_cons_zero, List.flatten_singleton] at order ⊢
        rw [← order]
        simp
      next => contradiction
  | pop =>
      simp only [Machine.transition, stormMachine, move] at step
      split at step
      next =>
        cases step
        exact ⟨straight.single, order⟩
      next => contradiction
  | reply =>
      simp only [Machine.transition, stormMachine, move] at step
      split at step
      next img rest _ there =>
        cases step
        rw [there] at order
        refine ⟨straight.single, ?_⟩
        rw [← order]
        simp
      next => contradiction

end PaintingCPS
