import PaintingCPS.Foundation.Pool
import PaintingCPS.Server.Session

/-!
Contract: which names the children of a session match.

`server_result` passes every child the address of one struct on its stack and
goes on at once. A child that has not read its name when the struct is filled
for another name, or when `server_result` returns, reads something else.

Owns: the condition under which no child is disturbed, the invariant of the
runs that meet it, and a run that does not.

Does not own: the order in which results are sent.
-/

set_option autoImplicit false

namespace PaintingCPS

open Foundation

/-- No child that has still to read its name loses the argument struct: it is
filled only for the name the child was created for, and not given up while such
a child exists. -/
def SessionMove.Undisturbed (session : Session) : SessionMove → Prop
  | resultFill =>
      ∀ child ∈ session.children, child.pending = true → session.result = .popped child.own
  | resultTest =>
      session.imgQueue = some [] → ∀ child ∈ session.children, child.pending = false
  | _ => True

instance (session : Session) (label : SessionMove) : Decidable (label.Undisturbed session) := by
  cases label <;> unfold SessionMove.Undisturbed <;> infer_instance

/-- The name that a child has still to read. -/
def Child.unread (child : Child) : List (List Byte) :=
  if child.pending = true then [child.own] else []

namespace Session

/-- The names of the children that have not read theirs. -/
def unread (session : Session) : List (List Byte) := session.children.flatMap Child.unread

/-- The name that `server_result` has popped and not passed on. -/
def inHand (session : Session) : List (List Byte) :=
  match session.result with
  | .popped fileName | .filled fileName => [fileName]
  | _ => []

/-- A child uses the socket of the session and its own name. -/
def Honest (sock : Int) (child : Child) : Prop :=
  match child.pc with
  | .hasSock used => used = sock
  | .matching used fileName => used = sock ∧ fileName = child.own
  | .faulted => False
  | _ => True

/-- The invariant of undisturbed runs. -/
structure Serving (sock : Int) (session : Session) : Prop where
  socket : session.sock = sock
  /-- Every popped name is matched, waits for its child, or is in hand. -/
  balance : ∀ fileName, session.matched.count fileName + session.unread.count fileName +
    session.inHand.count fileName = session.popped.count fileName
  slot : ∀ child ∈ session.children, child.pending = true →
    session.transInfo = some ⟨sock, child.own⟩
  filled : ∀ fileName, session.result = .filled fileName →
    session.transInfo = some ⟨sock, fileName⟩
  honest : ∀ child ∈ session.children, Honest sock child
  sent : ∀ result ∈ session.sent, result.2 = ⟨sock, result.1⟩

theorem init_serving (parallelism : Nat) (sock : Int) (program : List Action) :
    (init parallelism sock program).Serving sock where
  socket := rfl
  balance _ := rfl
  slot _ member := by cases member
  filled _ atFilled := by cases atFilled
  honest _ member := by cases member
  sent _ member := by cases member

section Steps

variable {mode : Mode} {sock : Int} {session after : Session} {label : SessionMove}

/-- A child moves on, with what it matches and sends. -/
private theorem Serving.setChild (serving : session.Serving sock) {index : Nat} {child : Child}
    {pc : ChildPc} {matched : List (List Byte)} {sent : List (List Byte × ArgResult)}
    {permits : Nat} (there : session.children[index]? = some child)
    (counts : ∀ fileName,
      matched.count fileName + ({ child with pc := pc } : Child).unread.count fileName =
        session.matched.count fileName + child.unread.count fileName)
    (shrinks : ({ child with pc := pc } : Child).pending = true → child.pending = true)
    (honest : Honest sock { child with pc := pc })
    (sentOwn : ∀ result ∈ sent, result.2 = ⟨sock, result.1⟩) :
    Serving sock { session.setChild index child pc with
      matched := matched, sent := sent, processSem := permits } where
  socket := serving.socket
  balance fileName := by
    have unread := count_flatMap_set Child.unread { child with pc := pc } there fileName
    have balance := serving.balance fileName
    have moved := counts fileName
    simp only [Session.unread] at balance
    change matched.count fileName +
      ((session.children.set index { child with pc := pc }).flatMap Child.unread).count fileName +
        session.inHand.count fileName = session.popped.count fileName
    omega
  slot := forall_mem_set serving.slot fun pending =>
    serving.slot child (List.mem_of_getElem? there) (shrinks pending)
  filled := serving.filled
  honest := forall_mem_set serving.honest honest
  sent := sentOwn

/-- A step of another thread that leaves the names and the struct alone. -/
private theorem Serving.other (serving : session.Serving sock)
    (socket : after.sock = session.sock) (matched : after.matched = session.matched)
    (popped : after.popped = session.popped) (inHand : after.inHand = session.inHand)
    (children : after.children = session.children) (sent : after.sent = session.sent)
    (transInfo : after.transInfo = session.transInfo)
    (filled : ∀ fileName, after.result = .filled fileName → session.result = .filled fileName) :
    after.Serving sock where
  socket := socket.trans serving.socket
  balance fileName := by
    rw [matched, popped, inHand, Session.unread, children]
    exact serving.balance fileName
  slot := by
    rw [children, transInfo]
    exact serving.slot
  filled fileName atFilled := by
    rw [transInfo]
    exact serving.filled fileName (filled fileName atFilled)
  honest := by
    rw [children]
    exact serving.honest
  sent := by
    rw [sent]
    exact serving.sent

/-- Every undisturbed step keeps the invariant. -/
theorem Serving.step (serving : session.Serving sock) (undisturbed : label.Undisturbed session)
    (step : Step mode session label after) : after.Serving sock := by
  cases step with
  | register | push | lookup | post | deleteQueue | aside | crash =>
      exact serving.other rfl rfl rfl rfl rfl rfl rfl fun _ same => same
  | start atStart | wait atWait | fetch atWoken | goOn atTest | grab atGrab =>
      exact serving.other rfl rfl rfl (by simp [inHand, *]) rfl rfl rfl fun _ => by simp
  | tearDown atTest empty =>
      refine ⟨serving.socket, ?_, ?_, fun _ atFilled => (by cases atFilled), serving.honest,
        serving.sent⟩
      · intro fileName
        have balance := serving.balance fileName
        rw [show session.inHand = [] by simp [inHand, atTest]] at balance
        exact balance
      · intro child member pending
        rw [undisturbed empty child member] at pending
        cases pending
  | @pop fileName rest atPop there =>
      refine ⟨serving.socket, ?_, serving.slot, fun _ atFilled => (by cases atFilled),
        serving.honest, serving.sent⟩
      intro other
      have balance := serving.balance other
      rw [show session.inHand = [] by simp [inHand, atPop]] at balance
      change session.matched.count other + session.unread.count other + [fileName].count other =
        (session.popped ++ [fileName]).count other
      rw [List.count_append]
      simpa using balance
  | @fill fileName atFill =>
      refine ⟨serving.socket, ?_, ?_, ?_, serving.honest, serving.sent⟩
      · intro other
        have balance := serving.balance other
        rw [show session.inHand = [fileName] by simp [inHand, atFill]] at balance
        exact balance
      · intro child member pending
        have same := undisturbed child member pending
        rw [atFill, ResultPc.popped.injEq] at same
        change some (ArgResult.mk session.sock fileName) = some ⟨sock, child.own⟩
        rw [serving.socket, same]
      · intro other atFilled
        cases atFilled
        change some (ArgResult.mk session.sock fileName) = some ⟨sock, fileName⟩
        rw [serving.socket]
  | @spawn fileName atSpawn =>
      have slot := serving.filled fileName atSpawn
      refine ⟨serving.socket, ?_, ?_, fun _ atFilled => (by cases atFilled), ?_, serving.sent⟩
      · intro other
        have balance := serving.balance other
        rw [show session.inHand = [fileName] by simp [inHand, atSpawn]] at balance
        change session.matched.count other +
          ((session.children ++ [Child.mk fileName .created]).flatMap Child.unread).count other +
            [].count other = session.popped.count other
        rw [List.flatMap_append, List.count_append]
        simp only [Session.unread] at balance
        simpa [Child.unread, Child.pending, Nat.add_assoc] using balance
      · intro child member
        rcases List.mem_append.mp member with old | new
        · exact serving.slot child old
        · rw [List.mem_singleton.mp new]
          exact fun _ => slot
      · intro child member
        rcases List.mem_append.mp member with old | new
        · exact serving.honest child old
        · rw [List.mem_singleton.mp new]
          trivial
  | @sock index own info there slot =>
      have expected := serving.slot _ (List.mem_of_getElem? there) rfl
      rw [slot, Option.some.injEq] at expected
      exact serving.setChild there (fun _ => rfl) (fun _ => rfl) (by rw [expected]; rfl)
        serving.sent
  | @name index own used info there slot =>
      have expected := serving.slot _ (List.mem_of_getElem? there) rfl
      rw [slot, Option.some.injEq] at expected
      have same : used = sock := serving.honest _ (List.mem_of_getElem? there)
      refine serving.setChild there ?_ (fun impossible => by cases impossible) ?_ serving.sent
      · intro other
        simp [Child.unread, Child.pending, expected]
      · rw [expected]
        exact ⟨same, rfl⟩
  | @miss index child _ there pending gone =>
      have expected := serving.slot child (List.mem_of_getElem? there) pending
      rw [gone] at expected
      cases expected
  | @reply index own fileName used there =>
      obtain ⟨socket, name⟩ : used = sock ∧ fileName = own :=
        serving.honest _ (List.mem_of_getElem? there)
      refine serving.setChild there (fun _ => rfl) (fun impossible => by cases impossible)
        trivial ?_
      intro result member
      rcases List.mem_append.mp member with old | new
      · exact serving.sent result old
      · rw [List.mem_singleton.mp new, socket, name]
  | hangUp there =>
      exact serving.setChild there (fun _ => rfl) (fun impossible => by cases impossible)
        trivial serving.sent
  | permit there =>
      exact serving.setChild there (fun _ => rfl) (fun impossible => by cases impossible)
        trivial serving.sent

end Steps

end Session

/-- In every undisturbed run, for every parallelism and every sequence of
names: each popped name is matched once, or waits for its child, or is in the
hands of `server_result`; every result is sent on the socket of the session
with the name of its own child; and no child reads a dead struct. -/
theorem undisturbed_matches_once {mode : Mode} {parallelism : Nat} {sock : Int}
    {names : List (List Byte)} {finish : Session}
    (reached : (sessionMachine mode).ReachesUnder
      (fun session label => label.Undisturbed session)
      (.init parallelism sock (.register :: dispatch names)) finish) :
    (finish.matched ++ finish.unread ++ finish.inHand).Perm finish.popped ∧
      (∀ result ∈ finish.sent, result.2 = ⟨sock, result.1⟩) ∧
      ∀ child ∈ finish.children, child.pc ≠ .faulted := by
  have serving : finish.Serving sock :=
    reached.invariant (Session.init_serving parallelism sock _)
      fun serving undisturbed transition =>
        serving.step undisturbed (Session.step_of_transition transition).2
  refine ⟨List.perm_iff_count.mpr fun fileName => ?_, serving.sent, fun child member faulted => ?_⟩
  · rw [List.count_append, List.count_append]
    exact serving.balance fileName
  · have honest := serving.honest child member
    rw [Session.Honest, faulted] at honest
    exact honest

/-- Two images are queued; the first child has its name before the second is
filled in. -/
def patientSchedule : List SessionMove :=
  [.transmit, .resultStart, .transmit, .transmit, .transmit, .transmit, .transmit, .transmit,
    .resultWait, .resultFetch, .resultTest, .resultGrab, .resultPop, .resultFill, .resultSpawn,
    .childSock 0, .childName 0, .resultWait, .resultFetch, .resultTest, .resultGrab, .resultPop,
    .resultFill, .resultSpawn, .childSock 1, .childName 1, .childReply 1 true,
    .childReply 0 true]

theorem undisturbed_matches_two : ∃ finish : Session,
    finish.popped = [ascii "a", ascii "b"] ∧ finish.unread ++ finish.inHand = [] ∧
      (finish.matched ++ finish.unread ++ finish.inHand).Perm finish.popped := by
  obtain ⟨finish, reached, complete⟩ := Machine.exists_of_run
    (show (((sessionMachine .tcp).run (fun session label => label.Undisturbed session)
        (.init 2 4 (.register :: dispatch [ascii "a", ascii "b"])) patientSchedule).map
      fun finish => decide (finish.popped = [ascii "a", ascii "b"] ∧
        finish.unread ++ finish.inHand = [])) = some true by
      decide +kernel)
  obtain ⟨popped, nothing⟩ := of_decide_eq_true complete
  exact ⟨finish, popped, nothing, (undisturbed_matches_once reached).1⟩

/-- Two images are queued; the struct is filled for the second before the first
child has read its name. -/
def hastySchedule : List SessionMove :=
  [.transmit, .resultStart, .transmit, .transmit, .transmit, .transmit, .transmit, .transmit,
    .resultWait, .resultFetch, .resultTest, .resultGrab, .resultPop, .resultFill, .resultSpawn,
    .resultWait, .resultFetch, .resultTest, .resultGrab, .resultPop, .resultFill, .resultSpawn,
    .childSock 0, .childName 0, .childSock 1, .childName 1, .childReply 0 true,
    .childReply 1 true]

/-- Both children match the second image; the first is matched by nobody, and
the result of the second is sent for both. -/
theorem image_matched_twice : ∃ finish : Session,
    (sessionMachine .tcp).Reaches
      (.init 2 4 (.register :: dispatch [ascii "a", ascii "b"])) finish ∧
    finish.popped = [ascii "a", ascii "b"] ∧ finish.unread ++ finish.inHand = [] ∧
    ¬ finish.matched.Perm finish.popped ∧
    finish.sent = [(ascii "a", ⟨4, ascii "b"⟩), (ascii "b", ⟨4, ascii "b"⟩)] := by
  obtain ⟨finish, reached, found⟩ := Machine.exists_of_run
    (show (((sessionMachine .tcp).run (fun _ _ => True)
        (.init 2 4 (.register :: dispatch [ascii "a", ascii "b"])) hastySchedule).map
      fun finish => decide (finish.popped = [ascii "a", ascii "b"] ∧
        finish.unread ++ finish.inHand = [] ∧ ¬ finish.matched.Perm finish.popped ∧
        finish.sent = [(ascii "a", ⟨4, ascii "b"⟩), (ascii "b", ⟨4, ascii "b"⟩)])) =
          some true by
      decide +kernel)
  exact ⟨finish, reached, of_decide_eq_true found⟩

/-- With one image and one permit, `server_result` returns before the child has
read its name. -/
def orphanSchedule : List SessionMove :=
  [.transmit, .resultStart, .transmit, .transmit, .transmit, .resultWait, .resultFetch,
    .resultTest, .resultGrab, .resultPop, .resultFill, .resultSpawn, .transmit, .resultWait,
    .resultFetch, .resultTest, .childSock 0]

theorem orphan_reads_dead_struct : ∃ finish : Session,
    (sessionMachine .tcp).Reaches (.init 1 4 (.register :: dispatch [ascii "a"])) finish ∧
    finish.children = [⟨ascii "a", .faulted⟩] := by
  obtain ⟨finish, reached, found⟩ := Machine.exists_of_run
    (show (((sessionMachine .tcp).run (fun _ _ => True)
        (.init 1 4 (.register :: dispatch [ascii "a"])) orphanSchedule).map
      fun finish => decide (finish.children = [⟨ascii "a", .faulted⟩])) = some true by
      decide +kernel)
  exact ⟨finish, reached, of_decide_eq_true found⟩

end PaintingCPS
