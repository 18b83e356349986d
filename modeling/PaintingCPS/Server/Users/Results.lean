import PaintingCPS.Server.Users

/-!
Contract: no result leaves its session.

Every name and every socket that a session handles came in through its own two
connections, also where the struct for the children is overwritten.

Owns: that invariant of the session model, and what it says of the users of one
server.

Does not own: the order of the results.
-/

set_option autoImplicit false

namespace PaintingCPS

open Foundation

/-- A child uses this socket and such a name. -/
def Child.Uses (sock : Int) (names : List Byte → Prop) (child : Child) : Prop :=
  match child.pc with
  | .hasSock used => used = sock
  | .matching used fileName => used = sock ∧ names fileName
  | _ => True

namespace Session

/-- Only such names are in a session, and only its socket. -/
structure Enclosed (sock : Int) (names : List Byte → Prop) (session : Session) : Prop where
  socket : session.sock = sock
  program : ∀ fileName, .push fileName ∈ session.program → names fileName
  queued : ∀ queue, session.imgQueue = some queue → ∀ fileName ∈ queue, names fileName
  inHand : ∀ fileName ∈ session.inHand, names fileName
  slot : ∀ info, session.transInfo = some info → info.sock = sock ∧ names info.fileName
  children : ∀ child ∈ session.children, child.Uses sock names

theorem init_enclosed (parallelism : Nat) (sock : Int) (program : List Action) :
    (init parallelism sock program).Enclosed sock (fun fileName => .push fileName ∈ program) where
  socket := rfl
  program := fun _ asked => asked
  queued := nofun
  inHand := nofun
  slot := nofun
  children := nofun

section Enclosed

variable {mode : Mode} {sock : Int} {names : List Byte → Prop} {session after : Session}
variable {label : SessionMove}

/-- A child moves on, with what `server_result` has left for it. -/
private theorem Enclosed.setChild (enclosed : session.Enclosed sock names) {index : Nat}
    {child : Child} {pc : ChildPc} {matched : List (List Byte)}
    {sent : List (List Byte × ArgResult)} {permits : Nat}
    (uses : ({ child with pc := pc } : Child).Uses sock names) :
    Enclosed sock names { session.setChild index child pc with
      matched := matched, sent := sent, processSem := permits } :=
  { enclosed with children := forall_mem_set enclosed.children uses }

/-- No step brings in another name. -/
theorem Enclosed.step (enclosed : session.Enclosed sock names)
    (step : Step mode session label after) : after.Enclosed sock names := by
  have later : ∀ {action : Action} {rest : List Action}, session.program = action :: rest →
      ∀ fileName, .push fileName ∈ rest → names fileName := by
    intro action rest next fileName asked
    apply enclosed.program
    rw [next]
    exact List.mem_cons_of_mem _ asked
  cases step with
  | register next =>
      exact { enclosed with program := later next, queued := by rintro queue ⟨⟩ _ ⟨⟩ }
  | @push fileName rest queue next live =>
      refine { enclosed with program := later next, queued := ?_ }
      rintro _ ⟨⟩ other member
      rcases List.mem_append.mp member with old | new
      · exact enclosed.queued queue live other old
      · rw [List.mem_singleton.mp new]
        apply enclosed.program
        rw [next]
        exact List.mem_cons_self
  | lookup next _ | post next _ _ | aside next _ => exact { enclosed with program := later next }
  | deleteQueue next => exact { enclosed with program := later next, queued := by simp }
  | start | wait | fetch | goOn | grab =>
      exact { enclosed with inHand := by simp [Session.inHand, *] }
  | tearDown => exact { enclosed with
        queued := by simp [tearDown]
        inHand := by simp [Session.inHand, tearDown]
        slot := by simp [tearDown] }
  | @pop fileName rest atPop live =>
      have own := enclosed.queued _ live
      refine { enclosed with queued := ?_, inHand := ?_ }
      · rintro _ ⟨⟩ other member
        exact own other (List.mem_cons_of_mem _ member)
      · intro other member
        rw [List.mem_singleton.mp member]
        exact own fileName List.mem_cons_self
  | @fill fileName atFill =>
      have own : names fileName := by
        apply enclosed.inHand
        rw [Session.inHand, atFill]
        exact List.mem_singleton_self _
      refine { enclosed with inHand := ?_, slot := ?_ }
      · intro other member
        rw [List.mem_singleton.mp member]
        exact own
      · rintro _ ⟨⟩
        exact ⟨enclosed.socket, own⟩
  | @spawn fileName atSpawn =>
      refine { enclosed with inHand := by simp [Session.inHand], children := ?_ }
      intro child member
      rcases List.mem_append.mp member with old | new
      · exact enclosed.children child old
      · rw [List.mem_singleton.mp new]
        trivial
  | sock there slot => exact enclosed.setChild (enclosed.slot _ slot).1
  | @name index own used info there slot =>
      have same : used = sock := enclosed.children _ (List.mem_of_getElem? there)
      exact enclosed.setChild ⟨same, (enclosed.slot _ slot).2⟩
  | miss there pending gone => exact enclosed.setChild trivial
  | reply there | hangUp there | permit there => exact enclosed.setChild trivial
  | crash => exact { enclosed with }

end Enclosed

end Session

/-- No result leaves its session, although the struct for the children may be
overwritten and the threads of all users run in any order: a child writes to the
socket of the `server_result` that has created it, and about an image that the
`server_transmit` of the same user has queued. -/
theorem results_stay_with_user {config : Config} (served : config.mode ≠ .mf)
    (disk : config.storm = false) {state : Process}
    (reached : (processMachine config).ReachesUnder (Process.Cooperates config) (.init config) state)
    {owner : Nat} {sock : Int} {fileName : List Byte}
    (writes : .worker ⟨owner, .matching sock fileName⟩ ∈ state.threads) :
    ∃ (receiver : ResultThread) (sender : TransmitThread),
      state.threads[owner]? = some (.result receiver) ∧ sock = receiver.sock ∧
      .transmit sender ∈ state.threads ∧ sender.user = receiver.user ∧
        .push fileName ∈ sender.state.actions := by
  have separate := Process.separate_of_reaches served disk reached
  obtain ⟨place, found⟩ := List.mem_iff_getElem?.mp writes
  obtain ⟨receiver, there⟩ := separate.owned place _ found
  obtain ⟨cast, isIndex, tracked⟩ := separate.results owner receiver there
  have on := tracked.on
  obtain rfl : receiver = cast.receiver := by
    have shown := on.receiver owner isIndex
    rw [there, Option.some.injEq, Thread.result.injEq] at shown
    exact shown
  obtain ⟨session, run, presents⟩ := tracked.session []
  have enclosed : session.Enclosed cast.receiver.sock
      (fun fileName => .push fileName ∈ cast.program ++ []) :=
    run.invariant (Session.init_enclosed _ _ _) fun enclosed _ transition =>
      enclosed.step (Session.step_of_transition transition).2
  have shown : ChildPc.matching sock fileName ∈ session.children.map Child.pc := by
    rw [presents.children, Cast.children, isIndex, Option.elim_some, List.mem_filterMap]
    exact ⟨_, writes, if_pos rfl⟩
  obtain ⟨child, member, isPc⟩ := List.mem_map.mp shown
  have uses := enclosed.children child member
  simp only [Child.Uses, isPc, List.append_nil] at uses
  obtain ⟨isSock, pushed⟩ := uses
  cases isPlace : cast.place with
  | none =>
      rw [Cast.program, (on.nobody isPlace).1] at pushed
      cases pushed
  | some place =>
      obtain ⟨sender, isSender, sends⟩ := on.sender place isPlace
      rw [Cast.program, isSender] at pushed
      exact ⟨cast.receiver, sender, there, isSock, List.mem_of_getElem? sends,
        on.user sender isSender, pushed⟩

/-- Both children are about to send. -/
theorem results_stay_with_user_two : ∃ (state : Process) (receiver : ResultThread)
    (sender : TransmitThread), state.threads[2]? = some (.result receiver) ∧
      .transmit sender ∈ state.threads ∧ sender.user = receiver.user ∧
        .push (ascii "y") ∈ sender.state.actions := by
  obtain ⟨state, reached, -, there⟩ := twoUsers_reached
  obtain ⟨receiver, sender, owner, -, sends, same, pushed⟩ :=
    results_stay_with_user (by decide) (by decide) reached (List.mem_of_getElem? there)
  exact ⟨state, receiver, sender, owner, sends, same, pushed⟩

end PaintingCPS
