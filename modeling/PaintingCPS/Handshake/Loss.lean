import PaintingCPS.Handshake.Refinement

/-!
Contract: what becomes of data and `close` frames around the handshake.

A frame for an id can arrive while `accept` has announced the id and not
registered it, or while the id waits in `connect_queue` or in a `connect` that
has popped it. `Rendezvous.Settled` excludes that `listen` runs at such a
moment.

Owns: the order of notices on each channel, the account of every registered
id, and that nothing is lost in runs whose `listen` steps are settled.

Does not own: the ids themselves.
-/

set_option autoImplicit false

namespace PaintingCPS

open Foundation

/-! ## Invariants -/

/-- The id that a data or `close` notice is about. -/
def Notice.subject : Notice → Option Int
  | data id | close id => some id
  | create | accepted _ => none

/-- An id that is announced or popped and not registered. -/
def Pc.unentered : Pc → List Int
  | took id | announced id => [id]
  | _ => []

/-- Every data and `close` notice is about an id that was offered before. -/
def Introduced : List Int → List Notice → Prop
  | _, [] => True
  | offered, heard :: rest =>
      (∀ id, heard.subject = some id → id ∈ offered) ∧
        Introduced (offered ++ heard.offer.toList) rest

/-- The order of notices from one end to the other. -/
structure Channel (sender reader : Peer) : Prop where
  noClose : ∀ id, sender.known id = true → .close id ∉ reader.arriving
  closing : ∀ thread id, sender.pc thread = .closing id → sender.known id = false ∧
    .close id ∉ reader.arriving ∧ ∀ other, sender.pc other = .closing id → other = thread
  lastWord : reader.arriving.Pairwise fun earlier later =>
    ∀ id, earlier = .close id → later.subject ≠ some id
  hungUp : ∀ id ∈ reader.history.hungUp, sender.known id = false ∧
    (∀ thread, sender.pc thread ≠ .closing id) ∧
    ∀ heard ∈ reader.arriving, heard.subject ≠ some id
  heardOf : ∀ heard ∈ reader.arriving, ∀ id, heard.subject = some id → sender.recorded id = true
  hungUpOf : ∀ id ∈ reader.history.hungUp, sender.recorded id = true

/-- The account of the registered ids of one end. -/
structure Peer.Accounted (peer : Peer) : Prop where
  closing : ∀ thread id, peer.pc thread = .closing id → peer.recorded id = true
  registered : ∀ id ∈ peer.history.registered,
    peer.known id = true ∨ id ∈ peer.history.closed ∨ id ∈ peer.history.hungUp
  lost : peer.history.lost = []

theorem introduced_append {offered : List Int} {arriving : List Notice} {heard : Notice} :
    Introduced offered (arriving ++ [heard]) ↔
      Introduced offered arriving ∧
        ∀ id, heard.subject = some id → id ∈ offered ++ Notice.offers arriving := by
  induction arriving generalizing offered with
  | nil => simp [Introduced]
  | cons first rest inductionHypothesis =>
      simp only [List.cons_append, Introduced, inductionHypothesis, Notice.offers_cons,
        List.append_assoc, and_assoc]

/-! ## The sender's side of a channel -/

section Sender

variable {move : Move} {sender after reader : Peer} {message : Option Notice}

/-- The sender opens nothing, closes nothing and says nothing about an id. -/
private theorem Channel.idle (channel : Channel sender reader)
    (known : ∀ id, after.known id = true → sender.known id = true)
    (recorded : after.recorded = sender.recorded)
    (closing : ∀ thread id, after.pc thread = .closing id → sender.pc thread = .closing id)
    (silent : ∀ heard, message = some heard → heard.subject = none) :
    Channel after (reader.post message) := by
  have posted : ∀ heard ∈ (reader.post message).arriving,
      heard ∈ reader.arriving ∨ heard.subject = none := by
    intro heard member
    rcases List.mem_append.mp member with before | new
    · exact .inl before
    · exact .inr (silent heard (Option.mem_toList.mp new))
  have closeBefore : ∀ id, .close id ∈ (reader.post message).arriving →
      .close id ∈ reader.arriving := by
    intro id member
    exact (posted _ member).resolve_right (by simp [Notice.subject])
  have forgotten : ∀ id, sender.known id = false → after.known id = false := by
    intro id unknown
    cases found : after.known id with
    | false => rfl
    | true => exact absurd (known id found) (by simp [unknown])
  refine ⟨?_, ?_, ?_, ?_, ?_, ?_⟩
  · intro id found member
    exact channel.noClose id (known id found) (closeBefore id member)
  · intro thread id atClosing
    obtain ⟨unknown, unsent, unique⟩ := channel.closing thread id (closing thread id atClosing)
    exact ⟨forgotten id unknown, fun member => unsent (closeBefore id member),
      fun other otherClosing => unique other (closing other id otherClosing)⟩
  · refine List.pairwise_append.mpr ⟨channel.lastWord, ?_, ?_⟩
    · cases message with
      | none => exact List.Pairwise.nil
      | some heard => exact List.pairwise_singleton _ _
    · intro earlier _ later new id _
      rw [silent later (Option.mem_toList.mp new)]
      simp
  · intro id member
    obtain ⟨unknown, unclosing, unheard⟩ := channel.hungUp id member
    refine ⟨forgotten id unknown, fun thread atClosing =>
      unclosing thread (closing thread id atClosing), fun heard heardMember => ?_⟩
    rcases posted heard heardMember with before | none
    · exact unheard heard before
    · simp [none]
  · intro heard member id subject
    rw [recorded]
    rcases posted heard member with before | none
    · exact channel.heardOf heard before id subject
    · rw [none] at subject
      cases subject
  · intro id member
    rw [recorded]
    exact channel.hungUpOf id member

/-- The sender registers an id it has no entry for. -/
private theorem Channel.register (channel : Channel sender reader)
    (accounted : sender.Accounted) {id : Int} (fresh : sender.recorded id = false)
    {thread : Nat} {pc : Pc} (notClosing : ∀ other, pc ≠ .closing other) :
    Channel ((sender.enter id).goto thread pc) reader := by
  have unheard : ∀ heard ∈ reader.arriving, heard.subject ≠ some id := by
    intro heard member subject
    have := channel.heardOf heard member id subject
    rw [fresh] at this
    cases this
  have closing : ∀ other sock, (Function.update sender.pc thread pc) other = .closing sock →
      sender.pc other = .closing sock := by
    intro other sock atClosing
    by_cases same : other = thread
    · subst same
      rw [Function.update_self] at atClosing
      exact absurd atClosing (notClosing sock)
    · rwa [Function.update_of_ne same] at atClosing
  have unknown : ∀ sock, sock ≠ id → (sender.enter id).known sock = sender.known sock := by
    intro sock differs
    exact Function.update_of_ne differs _ _
  refine ⟨?_, ?_, channel.lastWord, ?_, ?_, ?_⟩
  · intro sock found member
    by_cases same : sock = id
    · exact unheard _ member (by simp [Notice.subject, same])
    · exact channel.noClose sock (by rw [← unknown sock same]; exact found) member
  · intro other sock atClosing
    have before := closing other sock atClosing
    have differs : sock ≠ id := by
      rintro rfl
      have := accounted.closing other sock before
      rw [fresh] at this
      cases this
    obtain ⟨closed, unsent, unique⟩ := channel.closing other sock before
    exact ⟨(unknown sock differs).trans closed, unsent,
      fun third thirdClosing => unique third (closing third sock thirdClosing)⟩
  · intro sock member
    obtain ⟨closed, unclosing, rest⟩ := channel.hungUp sock member
    have differs : sock ≠ id := by
      rintro rfl
      have := channel.hungUpOf sock member
      rw [fresh] at this
      cases this
    exact ⟨(unknown sock differs).trans closed,
      fun other atClosing => unclosing other (closing other sock atClosing), rest⟩
  · intro heard member sock subject
    by_cases same : sock = id
    · simp [Peer.goto, Peer.enter, same]
    · simpa [Peer.goto, Peer.enter, Function.update_of_ne same] using
        channel.heardOf heard member sock subject
  · intro sock member
    by_cases same : sock = id
    · simp [Peer.goto, Peer.enter, same]
    · simpa [Peer.goto, Peer.enter, Function.update_of_ne same] using
        channel.hungUpOf sock member

/-- A thread of the sender removes an id and is about to say so. -/
private theorem Channel.close (channel : Channel sender reader) {id : Int} {thread : Nat}
    (found : sender.known id = true) (atIdle : sender.pc thread = .idle)
    (pc : after.pc = Function.update sender.pc thread (.closing id))
    (known : after.known = Function.update sender.known id false)
    (recorded : after.recorded = sender.recorded) : Channel after reader := by
  have forgotten : ∀ sock, sender.known sock = false → after.known sock = false := by
    intro sock unknown
    rw [known]
    by_cases same : sock = id
    · simp [same]
    · rwa [Function.update_of_ne same]
  have unclosing : ∀ other, sender.pc other ≠ .closing id := by
    intro other atClosing
    have := (channel.closing other id atClosing).1
    rw [found] at this
    cases this
  refine ⟨?_, ?_, channel.lastWord, ?_, ?_, ?_⟩
  · intro sock sockFound
    refine channel.noClose sock ?_
    rw [known] at sockFound
    by_cases same : sock = id
    · simp [same] at sockFound
    · rwa [Function.update_of_ne same] at sockFound
  · intro other sock atClosing
    rw [pc] at atClosing
    by_cases mover : other = thread
    · subst mover
      rw [Function.update_self, Pc.closing.injEq] at atClosing
      subst atClosing
      refine ⟨by simp [known], channel.noClose id found, fun third thirdClosing => ?_⟩
      by_contra differs
      rw [pc, Function.update_of_ne differs] at thirdClosing
      exact unclosing third thirdClosing
    · rw [Function.update_of_ne mover] at atClosing
      obtain ⟨unknown, unsent, unique⟩ := channel.closing other sock atClosing
      refine ⟨forgotten sock unknown, unsent, fun third thirdClosing => ?_⟩
      rw [pc] at thirdClosing
      by_cases thirdMover : third = thread
      · subst thirdMover
        rw [Function.update_self, Pc.closing.injEq] at thirdClosing
        subst thirdClosing
        exact absurd atClosing (unclosing other)
      · rw [Function.update_of_ne thirdMover] at thirdClosing
        exact unique third thirdClosing
  · intro sock member
    obtain ⟨unknown, silent, rest⟩ := channel.hungUp sock member
    have differs : id ≠ sock := by
      rintro rfl
      rw [found] at unknown
      cases unknown
    refine ⟨forgotten sock unknown, fun other atClosing => ?_, rest⟩
    rw [pc] at atClosing
    by_cases mover : other = thread
    · subst mover
      rw [Function.update_self, Pc.closing.injEq] at atClosing
      exact differs atClosing
    · rw [Function.update_of_ne mover] at atClosing
      exact silent other atClosing
  · rw [recorded]
    exact channel.heardOf
  · rw [recorded]
    exact channel.hungUpOf

/-- The sender speaks of an id: a data notice of an open id, or the `close`
notice of the thread that removed it. -/
private theorem Channel.speak (channel : Channel sender reader) {id : Int} (heard : Notice)
    (subject : heard.subject = some id) (opened : sender.recorded id = true)
    (unsaid : .close id ∉ reader.arriving) (unheard : id ∉ reader.history.hungUp)
    (known : after.known = sender.known) (recorded : after.recorded = sender.recorded)
    (closing : ∀ thread sock, after.pc thread = .closing sock →
      sender.pc thread = .closing sock ∧ heard ≠ .close sock)
    (open' : heard = .close id → sender.known id = false) :
    Channel after (reader.post (some heard)) := by
  have posted : ∀ other ∈ (reader.post (some heard)).arriving,
      other ∈ reader.arriving ∨ other = heard := by
    intro other member
    simpa [Peer.post] using member
  have closes : ∀ sock, heard = .close sock → sock = id := by
    rintro sock rfl
    simpa [Notice.subject] using subject
  refine ⟨?_, ?_, ?_, ?_, ?_, ?_⟩
  · intro sock found member
    rw [known] at found
    rcases posted _ member with before | new
    · exact channel.noClose sock found before
    · have same := closes sock new.symm
      subst same
      rw [open' new.symm] at found
      cases found
  · intro thread sock atClosing
    obtain ⟨before, notLast⟩ := closing thread sock atClosing
    obtain ⟨unknown, unsent, unique⟩ := channel.closing thread sock before
    rw [known]
    refine ⟨unknown, fun member => ?_, fun other otherClosing =>
      unique other (closing other sock otherClosing).1⟩
    rcases posted _ member with early | new
    · exact unsent early
    · exact notLast new.symm
  · refine List.pairwise_append.mpr ⟨channel.lastWord, List.pairwise_singleton _ _, ?_⟩
    intro earlier earlierMember later laterMember sock isClose same
    rw [Option.toList_some, List.mem_singleton] at laterMember
    subst laterMember isClose
    rw [subject, Option.some.injEq] at same
    subst same
    exact unsaid earlierMember
  · intro sock member
    obtain ⟨unknown, silent, rest⟩ := channel.hungUp sock member
    rw [known]
    refine ⟨unknown, fun thread atClosing => silent thread (closing thread sock atClosing).1,
      fun other otherMember => ?_⟩
    rcases posted other otherMember with before | rfl
    · exact rest other before
    · rw [subject]
      rintro ⟨⟩
      exact unheard member
  · intro other member sock otherSubject
    rw [recorded]
    rcases posted other member with before | rfl
    · exact channel.heardOf other before sock otherSubject
    · rw [subject, Option.some.injEq] at otherSubject
      exact otherSubject ▸ opened
  · intro sock member
    rw [recorded]
    exact channel.hungUpOf sock member

/-- What the steps of an end do to the channel it sends on. -/
private theorem Channel.send (channel : Channel sender reader) (accounted : sender.Accounted)
    (known : ∀ id, sender.known id = true → sender.recorded id = true)
    (fresh : ∀ thread id, sender.pc thread = .took id ∨ sender.pc thread = .announced id →
      sender.recorded id = false)
    (step : Peer.Step move sender message after) : Channel after (reader.post message) := by
  -- a thread that goes anywhere but to `closing` closes nothing
  have still : ∀ {thread : Nat} {pc : Pc}, (∀ sock, pc ≠ .closing sock) → ∀ other sock,
      Function.update sender.pc thread pc other = .closing sock →
        sender.pc other = .closing sock := by
    intro thread pc notClosing other sock atClosing
    by_cases same : other = thread
    · subst same
      rw [Function.update_self] at atClosing
      exact absurd atClosing (notClosing sock)
    · rwa [Function.update_of_ne same] at atClosing
  have silent : ∀ heard : Notice, (none : Option Notice) = some heard → heard.subject = none :=
    fun _ none => by cases none
  have quiet : reader.post none = reader := by simp [Peer.post]
  cases step with
  | lockFirst => exact channel.idle (fun _ => id) rfl (still (by simp)) silent
  | lockLater => exact channel.idle (fun _ => id) rfl (still (by simp)) silent
  | requestLocked =>
      exact channel.idle (fun _ => id) rfl (still (by simp)) (by simp [Notice.subject])
  | requestFirst =>
      exact channel.idle (fun _ => id) rfl (still (by simp)) (by simp [Notice.subject])
  | take => exact channel.idle (fun _ => id) rfl (still (by simp)) silent
  | enterTaken atTook =>
      rw [quiet]
      exact channel.register accounted (fresh _ _ (.inl atTook)) (by simp)
  | connected => exact channel.idle (fun _ => id) rfl (still (by simp)) silent
  | wake => exact channel.idle (fun _ => id) rfl (still (by simp)) silent
  | allocate => exact channel.idle (fun _ => id) rfl (still (by simp)) silent
  | announce =>
      exact channel.idle (fun _ => id) rfl (still (by simp)) (by simp [Notice.subject])
  | enterAnnounced atAnnounced =>
      rw [quiet]
      exact channel.register accounted (fresh _ _ (.inr atAnnounced)) (by simp)
  | accepted => exact channel.idle (fun _ => id) rfl (still (by simp)) silent
  | close atIdle found =>
      rw [quiet]
      exact channel.close found atIdle rfl rfl rfl
  | @notify _ thread id atClosing =>
      obtain ⟨unknown, unsent, unique⟩ := channel.closing thread id atClosing
      have unheard : id ∉ reader.history.hungUp :=
        fun member => (channel.hungUp id member).2.1 thread atClosing
      refine channel.speak (.close id) rfl (accounted.closing thread id atClosing) unsent
        unheard rfl rfl ?_ (fun _ => unknown)
      intro other sock otherClosing
      by_cases mover : other = thread
      · subst mover
        simp [Peer.goto] at otherClosing
      · have before : sender.pc other = .closing sock :=
          still (by simp) other sock otherClosing
        refine ⟨before, ?_⟩
        rintro ⟨⟩
        exact mover (unique other before)
  | @send _ id payload found =>
      have unheard : id ∉ reader.history.hungUp := by
        intro member
        have := (channel.hungUp id member).1
        rw [found] at this
        cases this
      exact channel.speak (.data id) rfl (known id found) (channel.noClose id found)
        unheard rfl rfl (fun other sock atClosing => ⟨atClosing, by simp⟩) (by simp)
  | refuse => exact channel.idle (fun _ => id) rfl (fun _ _ => id) silent
  | @hear _ heard rest waiting =>
      obtain ⟨pcSame, -, recordedSame, -⟩ := sender.hear_same heard
      exact channel.idle (fun id => sender.hear_known) recordedSame
        (fun thread id atClosing => by rw [← pcSame]; exact atClosing) silent

end Sender

/-! ## The reader's side of a channel -/

section Reader

variable {move : Move} {sender reader after : Peer} {message : Option Notice}

/-- The reader has fewer notices before it and no new reason to hang up. -/
private theorem Channel.shrink (channel : Channel sender reader)
    (arriving : after.arriving.Sublist reader.arriving)
    (hungUp : after.history.hungUp = reader.history.hungUp) : Channel sender after := by
  refine ⟨?_, ?_, channel.lastWord.sublist arriving, ?_, ?_, ?_⟩
  · intro id found member
    exact channel.noClose id found (arriving.subset member)
  · intro thread id atClosing
    obtain ⟨unknown, unsent, unique⟩ := channel.closing thread id atClosing
    exact ⟨unknown, fun member => unsent (arriving.subset member), unique⟩
  · intro id member
    rw [hungUp] at member
    obtain ⟨unknown, silent, unheard⟩ := channel.hungUp id member
    exact ⟨unknown, silent, fun heard later => unheard heard (arriving.subset later)⟩
  · intro heard member
    exact channel.heardOf heard (arriving.subset member)
  · intro id member
    rw [hungUp] at member
    exact channel.hungUpOf id member

/-- What hearing a notice adds to the ids removed by the other end. -/
private theorem History.observe_hungUp (history : History) (known : Int → Bool)
    (heard : Notice) :
    (history.observe (Notice.knownTo known (some heard)) (some heard)).hungUp =
        history.hungUp ∨
      ∃ id, heard = .close id ∧ known id = true ∧
        (history.observe (Notice.knownTo known (some heard)) (some heard)).hungUp =
          history.hungUp ++ [id] := by
  cases heard with
  | create => exact .inl rfl
  | accepted id => exact .inl rfl
  | data id =>
      simp only [History.observe]
      split <;> exact .inl rfl
  | close id =>
      have knownEq : Notice.knownTo known (some (.close id)) = known id := rfl
      rw [knownEq]
      cases found : known id with
      | true => exact .inr ⟨id, rfl, found, rfl⟩
      | false =>
          refine .inl ?_
          simp only [History.observe, Bool.false_eq_true, if_false]
          split <;> rfl

/-- What the steps of an end do to the channel it reads. -/
private theorem Channel.read (channel : Channel sender reader)
    (step : Peer.Step move reader message after) : Channel sender after := by
  cases step with
  | @refuse _ id rest waiting =>
      refine channel.shrink ?_ rfl
      rw [waiting]
      exact List.sublist_cons_self _ _
  | @hear _ heard rest waiting =>
      have shorter : rest.Sublist reader.arriving := by
        rw [waiting]
        exact List.sublist_cons_self _ _
      rcases History.observe_hungUp reader.history reader.known heard with
        same | ⟨id, rfl, found, removed⟩
      · exact channel.shrink shorter same
      · -- a `close` notice is the last word of the sender about its id
        have here : Notice.close id ∈ reader.arriving := by
          rw [waiting]
          simp
        have unknown : sender.known id = false := by
          cases known : sender.known id with
          | false => rfl
          | true => exact absurd here (channel.noClose id known)
        have last := channel.lastWord
        rw [waiting, List.pairwise_cons] at last
        have shrunk : Channel sender { reader with arriving := rest } :=
          channel.shrink shorter rfl
        refine ⟨shrunk.noClose, shrunk.closing, shrunk.lastWord, ?_, shrunk.heardOf, ?_⟩
        · intro sock member
          rw [show History.hungUp _ = _ from removed, List.mem_append,
            List.mem_singleton] at member
          rcases member with before | rfl
          · exact shrunk.hungUp sock before
          · exact ⟨unknown, fun thread atClosing =>
              (channel.closing thread sock atClosing).2.1 here,
              fun later member => last.1 later member sock rfl⟩
        · intro sock member
          rw [show History.hungUp _ = _ from removed, List.mem_append,
            List.mem_singleton] at member
          rcases member with before | rfl
          · exact channel.hungUpOf sock before
          · exact channel.heardOf _ here sock rfl
  | _ => exact channel.shrink (List.Sublist.refl _) rfl

end Reader

/-! ## Accounts -/

section Accounts

variable {move : Move} {peer after : Peer} {message : Option Notice}

/-- Hearing keeps the accounts, when what finds no entry was closed here. -/
private theorem Peer.Accounted.hear (accounted : peer.Accounted) {heard : Notice}
    {rest : List Notice}
    (settled : ∀ id, heard.subject = some id → peer.known id = false →
      id ∈ peer.history.closed) :
    Peer.Accounted { peer.hear heard with
      arriving := rest
      history := peer.history.observe (Notice.knownTo peer.known (some heard)) (some heard) } := by
  cases heard with
  | create => exact ⟨accounted.closing, accounted.registered, accounted.lost⟩
  | accepted id => exact ⟨accounted.closing, accounted.registered, accounted.lost⟩
  | data id =>
      have unchanged : peer.history.observe (peer.known id) (some (.data id)) = peer.history := by
        refine if_neg ?_
        rintro ⟨unknown, unclosed⟩
        exact unclosed (settled id rfl unknown)
      have knownEq : Notice.knownTo peer.known (some (.data id)) = peer.known id := rfl
      rw [knownEq, unchanged]
      exact ⟨accounted.closing, accounted.registered, accounted.lost⟩
  | close id =>
      have knownEq : Notice.knownTo peer.known (some (.close id)) = peer.known id := rfl
      rw [knownEq]
      have others : ∀ sock, sock ≠ id → peer.known sock = true →
          (peer.forget id).known sock = true := by
        intro sock differs found
        exact (Function.update_of_ne differs _ _).trans found
      cases found : peer.known id with
      | true =>
          refine ⟨accounted.closing, fun sock member => ?_, accounted.lost⟩
          by_cases same : sock = id
          · exact .inr (.inr (List.mem_append_right _ (by simp [same])))
          · rcases accounted.registered sock member with known | closed | hungUp
            · exact .inl (others sock same known)
            · exact .inr (.inl closed)
            · exact .inr (.inr (List.mem_append_left _ hungUp))
      | false =>
          have unchanged : peer.history.observe false (some (.close id)) = peer.history := by
            simp only [History.observe, Bool.false_eq_true, if_false]
            exact if_neg (not_not.mpr (settled id rfl found))
          rw [unchanged]
          refine ⟨accounted.closing, fun sock member => ?_, accounted.lost⟩
          rcases accounted.registered sock member with known | rest
          · refine .inl (others sock ?_ known)
            rintro rfl
            rw [found] at known
            cases known
          · exact .inr rest

/-- Every step keeps the accounts, when what finds no entry was closed here. -/
private theorem Peer.Accounted.step (accounted : peer.Accounted)
    (known : ∀ id, peer.known id = true → peer.recorded id = true)
    (settled : ∀ heard rest, move = .dispatch → peer.arriving = heard :: rest →
      ∀ id, heard.subject = some id → peer.known id = false → id ∈ peer.history.closed)
    (step : Peer.Step move peer message after) : after.Accounted := by
  have still : ∀ {thread : Nat} {pc : Pc}, (∀ sock, pc ≠ .closing sock) → ∀ other id,
      Function.update peer.pc thread pc other = .closing id → peer.recorded id = true := by
    intro thread pc notClosing other id atClosing
    by_cases same : other = thread
    · subst same
      rw [Function.update_self] at atClosing
      exact absurd atClosing (notClosing id)
    · rw [Function.update_of_ne same] at atClosing
      exact accounted.closing other id atClosing
  have enters : ∀ {thread : Nat} {pc : Pc} (id : Int), (∀ sock, pc ≠ .closing sock) →
      Peer.Accounted ((peer.enter id).goto thread pc) := by
    intro thread pc id notClosing
    refine ⟨fun other sock atClosing => ?_, fun sock member => ?_, accounted.lost⟩
    · have before := still notClosing other sock atClosing
      by_cases same : sock = id
      · simp [Peer.goto, Peer.enter, same]
      · simpa [Peer.goto, Peer.enter, Function.update_of_ne same] using before
    · by_cases same : sock = id
      · exact .inl (by simp [Peer.goto, Peer.enter, same])
      · have member' : sock ∈ peer.history.registered ++ [id] := member
        rw [List.mem_append, List.mem_singleton] at member'
        rcases accounted.registered sock (member'.resolve_right same) with found | rest
        · exact .inl (by simpa [Peer.goto, Peer.enter, Function.update_of_ne same] using found)
        · exact .inr rest
  cases step with
  | enterTaken => exact enters _ (by simp)
  | enterAnnounced => exact enters _ (by simp)
  | @close _ thread id atIdle found =>
      refine ⟨fun other sock atClosing => ?_, fun sock member => ?_, accounted.lost⟩
      · by_cases mover : other = thread
        · subst mover
          have same : id = sock := by
            simpa [Peer.goto, Peer.forget] using atClosing
          exact same ▸ known id found
        · refine accounted.closing other sock ?_
          simpa [Peer.goto, Peer.forget, Function.update_of_ne mover] using atClosing
      · by_cases same : sock = id
        · exact .inr (.inl (List.mem_append_right _ (by simp [same])))
        · rcases accounted.registered sock member with before | closed | hungUp
          · refine .inl ?_
            simpa [Peer.goto, Peer.forget, Function.update_of_ne same] using before
          · exact .inr (.inl (List.mem_append_left _ closed))
          · exact .inr (.inr hungUp)
  | send => exact accounted
  | refuse => exact ⟨accounted.closing, accounted.registered, accounted.lost⟩
  | hear waiting => exact accounted.hear (settled _ _ rfl waiting)
  | _ => exact ⟨still (by simp), accounted.registered, accounted.lost⟩

end Accounts

/-! ## Settled runs -/

/-- `listen` does not run on a notice about an id that waits in the queue, or
that the lock holder is about to register. -/
def Rendezvous.Settled (both : Rendezvous) (label : Side × Move) : Prop :=
  label.2 = .dispatch → ∀ heard rest, (both label.1).arriving = heard :: rest →
    ∀ id, heard.subject = some id → id ∉ (both label.1).offers ∧
      id ∉ onLock (both label.1).idLock (both label.1).pc Pc.unentered

/-- What settled runs maintain. -/
structure Rendezvous.Lossless (both : Rendezvous) : Prop where
  agreement : both.Agreement
  channel : ∀ side : Side, Channel (both side.peer) (both side)
  accounted : ∀ side, (both side).Accounted
  introduced : Introduced ((both .client).history.taken ++ (both .client).offers)
    (both .client).arriving

/-- The ids an end is about to register are among those of the lock holder. -/
private theorem mem_unentered {idLock : Option Nat} {pc : Nat → Pc} {id : Int}
    (member : id ∈ onLock idLock pc Pc.popped ∨ id ∈ onLock idLock pc Pc.promised) :
    id ∈ onLock idLock pc Pc.unentered := by
  cases idLock with
  | none => simp at member
  | some thread =>
      simp only [onLock_some] at member ⊢
      cases at' : pc thread <;> simp_all [Pc.popped, Pc.promised, Pc.unentered]

section Lossless

variable {both after : Rendezvous} {side : Side} {move : Move}

/-- A notice is about an id that this end has registered, or is about to. -/
private theorem Rendezvous.Lossless.registered (lossless : both.Lossless)
    {heard : Notice} {rest : List Notice} (waiting : (both side).arriving = heard :: rest)
    {id : Int} (subject : heard.subject = some id)
    (settled : id ∉ (both side).offers ∧
      id ∉ onLock (both side).idLock (both side).pc Pc.unentered) :
    id ∈ (both side).history.registered := by
  cases side with
  | client =>
      have introduced := lossless.introduced
      rw [waiting] at introduced
      rcases List.mem_append.mp (introduced.1 id subject) with taken | offered
      · rw [lossless.agreement.connector.taken] at taken
        rcases List.mem_append.mp taken with registered | popped
        · exact registered
        · exact absurd (mem_unentered (.inl popped)) settled.2
      · exact absurd offered settled.1
  | server =>
      have recorded := (lossless.channel .server).heardOf heard (by rw [waiting]; simp) id subject
      have registered := lossless.agreement.connector.recorded id recorded
      have taken : id ∈ (both .client).history.taken := by
        rw [lossless.agreement.connector.taken]
        exact List.mem_append_left _ registered
      have announced := lossless.agreement.announced_of_taken taken
      rw [lossless.agreement.acceptor.announced] at announced
      rcases List.mem_append.mp announced with here | promised
      · exact here
      · exact absurd (mem_unentered (.inr promised)) settled.2

/-- An id that a thread is about to register has no entry. -/
private theorem Rendezvous.Agreement.unentered_fresh (agreement : both.Agreement) (thread : Nat)
    (id : Int)
    (about : (both side).pc thread = .took id ∨ (both side).pc thread = .announced id) :
    (both side).recorded id = false := by
  cases side with
  | client =>
      rcases about with took | announced
      · exact agreement.connector.took_fresh agreement.taken_nodup took
      · have role := agreement.connector.role thread
        rw [announced] at role
        cases role
  | server =>
      rcases about with took | announced
      · have role := agreement.acceptor.role thread
        rw [took] at role
        cases role
      · exact agreement.acceptor.announced_fresh announced

private theorem Rendezvous.Agreement.known_recorded (agreement : both.Agreement) (id : Int)
    (known : (both side).known id = true) : (both side).recorded id = true := by
  cases side with
  | client => exact agreement.connector.known id known
  | server => exact agreement.acceptor.known id known

/-- What the client has been offered when the server speaks. -/
private theorem Rendezvous.Lossless.introduces (lossless : both.Lossless)
    {message : Option Notice} {peer : Peer}
    (step : Peer.Step move (both .server) message peer) :
    Introduced ((both .client).history.taken ++ (both .client).offers)
      ((both .client).post message).arriving := by
  have offers := lossless.agreement.offers .client
  have known : ∀ id, (both .server).recorded id = true →
      id ∈ (both .client).history.taken ++ (both .client).offers ++
        Notice.offers (both .client).arriving := by
    intro id recorded
    rw [offers]
    change id ∈ (both .server).history.announced
    rw [lossless.agreement.acceptor.announced]
    exact List.mem_append_left _ (lossless.agreement.acceptor.recorded id recorded)
  have posts : ∀ heard : Notice, (∀ id, heard.subject = some id →
      (both .server).recorded id = true) →
      Introduced ((both .client).history.taken ++ (both .client).offers)
        ((both .client).post (some heard)).arriving := fun heard subject =>
    introduced_append.mpr ⟨lossless.introduced, fun id about => known id (subject id about)⟩
  cases step with
  | requestLocked => exact posts _ (by simp [Notice.subject])
  | requestFirst => exact posts _ (by simp [Notice.subject])
  | announce => exact posts _ (by simp [Notice.subject])
  | notify atClosing =>
      refine posts _ fun id about => ?_
      cases about
      exact (lossless.accounted .server).closing _ _ atClosing
  | send found =>
      refine posts _ fun id about => ?_
      cases about
      exact lossless.agreement.acceptor.known _ found
  | _ =>
      simp only [Peer.post, Option.toList_none, List.append_nil]
      exact lossless.introduced

/-- The steps of the client use up what it was offered. -/
private theorem Introduced.step {peer next : Peer} {message : Option Notice}
    (introduced : Introduced (peer.history.taken ++ peer.offers) peer.arriving)
    (step : Peer.Step move peer message next) :
    Introduced (next.history.taken ++ next.offers) next.arriving := by
  cases step with
  | take atAwaiting offered =>
      rw [offered] at introduced
      simpa [Peer.goto] using introduced
  | refuse waiting =>
      rw [waiting] at introduced
      simpa [Notice.offer] using introduced.2
  | @hear _ heard rest waiting =>
      rw [waiting] at introduced
      rw [History.observe_same]
      cases heard <;> simpa [Peer.hear, Peer.forget, Notice.offer] using introduced.2
  | _ => exact introduced

/-- Every settled step keeps the invariant. -/
theorem Rendezvous.Lossless.step (lossless : both.Lossless) {label : Side × Move}
    (role : label.1.Plays label.2) (settled : both.Settled label)
    (step : Rendezvous.Step both label after) : after.Lossless := by
  have agreement := lossless.agreement.step role step
  obtain ⟨side, move⟩ := label
  obtain ⟨message, peer, moved, rfl⟩ := step
  have laws : ∀ who : Side, who = side ∨ who.peer = side := by
    intro who
    cases who <;> cases side <;> simp [Side.peer]
  refine ⟨agreement, fun who => ?_, fun who => ?_, ?_⟩
  · dsimp only
    rcases laws who with rfl | rfl
    · rw [if_pos rfl, if_neg who.peer_ne]
      have read := (lossless.channel who).read moved
      exact ⟨read.noClose, read.closing, read.lastWord, read.hungUp, read.heardOf, read.hungUpOf⟩
    · rw [if_pos rfl, if_neg who.peer_ne.symm]
      exact (lossless.channel who).send (lossless.accounted who.peer)
        (lossless.agreement.known_recorded) (lossless.agreement.unentered_fresh) moved
  · dsimp only
    by_cases mover : who = side
    · subst mover
      rw [if_pos rfl]
      refine (lossless.accounted who).step lossless.agreement.known_recorded ?_ moved
      intro heard rest isDispatch waiting id subject unknown
      have registered := lossless.registered waiting subject
        (settled isDispatch heard rest waiting id subject)
      rcases (lossless.accounted who).registered id registered with known | closed | hungUp
      · rw [unknown] at known
        cases known
      · exact closed
      · exact absurd subject
          (((lossless.channel who).hungUp id hungUp).2.2 heard (by rw [waiting]; simp))
    · rw [if_neg mover]
      have same := lossless.accounted who
      exact ⟨same.closing, same.registered, same.lost⟩
  · cases side with
    | client => exact lossless.introduced.step moved
    | server => exact lossless.introduces moved

end Lossless

/-! ## The threads -/

/-- The id of the data or `close` frame that the listener holds. -/
def Party.subject (party : Party) : Option Int :=
  (party.hand.bind notice).bind Notice.subject

/-- The move is the second half of `listen`. -/
def Move.listens : Move → Bool
  | dispatch => true
  | _ => false

/-- One end connects, the other accepts, both run C++; and `listen` does not
run on a data or `close` frame while its id is in `connect_queue`, or while the
thread that holds `id_lock` has announced or popped the id and not yet
registered it. -/
def HandshakeStep.Settled (handshake : Handshake) (label : HandshakeStep) : Prop :=
  label.side.Plays label.move ∧ (label.move.listens = true →
    ∀ id ∈ (handshake.party label.side).subject.toList,
      id ∉ (handshake.party label.side).endpoint.connectQueue ∧
      id ∉ onLock (handshake.party label.side).idLock (handshake.party label.side).pc
        Pc.unentered)

instance (handshake : Handshake) (label : HandshakeStep) :
    Decidable (label.Settled handshake) :=
  inferInstanceAs (Decidable (_ ∧ _))

private theorem HandshakeStep.Settled.plays {handshake : Handshake} {label : HandshakeStep}
    (settled : label.Settled handshake) : label.Plays .cpp := by
  refine ⟨settled.1, fun isJava => ?_⟩
  cases sideEq : label.side <;> rw [sideEq] at isJava <;> cases isJava

/-- A settled step of the threads is a settled step of the rendezvous. -/
private theorem HandshakeStep.Settled.view {mfrecv : List Byte → Option (List Byte)}
    {handshake after : Handshake} {label : HandshakeStep} (sound : handshake.Sound .cpp)
    (settled : label.Settled handshake)
    (step : (handshakeMachine mfrecv .cpp).transition handshake label after) :
    handshake.view.Settled (label.side, label.move) := by
  intro isDispatch heard rest waiting id subject
  have listening : label.move.listens = true := by
    rw [show label.move = .dispatch from isDispatch]
    rfl
  refine settled.2 listening id ?_
  cases handEq : (handshake.party label.side).hand with
  | none =>
      simp only [Machine.transition, handshakeMachine,
        show label.move = .dispatch from isDispatch, Party.move, Party.dispatch, handEq] at step
      split at step <;> cases step
  | some message =>
      obtain ⟨frame, noticed, -, -⟩ :=
        ((sound label.side).understood message (by rw [handEq]; simp)).listen
      simp only [Handshake.view, Party.peer, handEq, Option.toList_some, List.singleton_append,
        List.filterMap_cons, noticed, List.cons.injEq] at waiting
      simp [Party.subject, handEq, noticed, waiting.1, subject]

private theorem Handshake.init_lossless (agreement : Handshake.init.view.Agreement) :
    Handshake.init.view.Lossless where
  agreement := agreement
  channel side :=
    { noClose := fun _ _ member => by cases member
      closing := fun _ _ atClosing => by cases atClosing
      lastWord := List.Pairwise.nil
      hungUp := fun _ member => by cases member
      heardOf := fun _ member => by cases member
      hungUpOf := fun _ member => by cases member }
  accounted side :=
    { closing := fun _ _ atClosing => by cases atClosing
      registered := fun _ member => by cases member
      lost := rfl }
  introduced := trivial

/-- In every run whose `listen` steps are settled, no data or `close` frame
finds its id missing, unless `close(id, 0)` was called at that end. -/
theorem settled_lossless {mfrecv : List Byte → Option (List Byte)}
    (contract : ReceiveContract mfrecv) {finish : Handshake}
    (reached : (handshakeMachine mfrecv .cpp).ReachesUnder
      (fun handshake label => label.Settled handshake) .init finish) (side : Side) :
    (finish.party side).history.lost = [] := by
  obtain ⟨image, ⟨-, rfl⟩, imageReached⟩ :=
    (handshake_refines contract .cpp HandshakeStep.Settled.plays
      (fun sound settled step => settled.view sound step)).reaches
      ⟨Handshake.init_sound .cpp, rfl⟩ reached
  have lossless : finish.view.Lossless :=
    imageReached.invariant (Handshake.init_lossless Handshake.init_agreement)
      fun lossless allowed step => lossless.step allowed.1 allowed.2 step
  exact (lossless.accounted side).lost

/-- After a handshake, a payload and a `close` frame both arrive. -/
def settledSchedule : List HandshakeStep :=
  [⟨.client, fun _ => 0, .connectLock 0⟩, ⟨.client, fun _ => 0, .connectSend 0⟩,
    ⟨.server, fun _ => 0, .receive⟩, ⟨.server, fun _ => 0, .dispatch⟩,
    ⟨.server, fun _ => 0, .acceptWait 0⟩, ⟨.server, fun _ => 0, .acceptAllocate 0⟩,
    ⟨.server, fun _ => 0, .acceptSend 0⟩, ⟨.server, fun _ => 0, .acceptRegister 0⟩,
    ⟨.client, fun _ => 0, .receive⟩, ⟨.client, fun _ => 0, .dispatch⟩,
    ⟨.client, fun _ => 0, .connectTake 0⟩, ⟨.client, fun _ => 0, .connectRegister 0⟩,
    ⟨.client, fun _ => 0, .send 1 [65]⟩, ⟨.client, fun _ => 0, .closeTables 1 1⟩,
    ⟨.client, fun _ => 0, .closeSend 1⟩, ⟨.server, fun _ => 0, .receive⟩,
    ⟨.server, fun _ => 0, .dispatch⟩, ⟨.server, fun _ => 0, .receive⟩,
    ⟨.server, fun _ => 0, .dispatch⟩]

theorem settled_lossless_closed : ∃ finish : Handshake,
    (finish.party .server).history.hungUp = [1] ∧
      (finish.party .server).history.lost = [] := by
  obtain ⟨finish, reached, hungUp⟩ := Machine.exists_of_run
    (show (((handshakeMachine boundedReceive .cpp).run
        (fun handshake label => label.Settled handshake) .init settledSchedule).map
      fun finish => decide ((finish.party .server).history.hungUp = [1])) = some true by
      decide +kernel)
  exact ⟨finish, of_decide_eq_true hungUp, settled_lossless boundedReceive_contract reached .server⟩

/-- `accept` has announced id 1 and not registered it when the first payload
of the client arrives. -/
def overtakingSchedule : List HandshakeStep :=
  [⟨.client, fun _ => 0, .connectLock 0⟩, ⟨.client, fun _ => 0, .connectSend 0⟩,
    ⟨.server, fun _ => 0, .receive⟩, ⟨.server, fun _ => 0, .dispatch⟩,
    ⟨.server, fun _ => 0, .acceptWait 0⟩, ⟨.server, fun _ => 0, .acceptAllocate 0⟩,
    ⟨.server, fun _ => 0, .acceptSend 0⟩, ⟨.client, fun _ => 0, .receive⟩,
    ⟨.client, fun _ => 0, .dispatch⟩, ⟨.client, fun _ => 0, .connectTake 0⟩,
    ⟨.client, fun _ => 0, .connectRegister 0⟩, ⟨.client, fun _ => 0, .connectReturn 0⟩,
    ⟨.client, fun _ => 0, .send 1 [65]⟩, ⟨.server, fun _ => 0, .receive⟩,
    ⟨.server, fun _ => 0, .dispatch⟩]

/-- `connect` has returned id 1, the server has not closed it, and the payload
sent under it is discarded. -/
theorem payload_lost_before_registration : ∃ finish : Handshake,
    (handshakeMachine boundedReceive .cpp).ReachesUnder
      (fun _ label => label.side.Plays label.move) .init finish ∧
    (finish.party .client).history.connected = [1] ∧
    (finish.party .server).history.closed = [] ∧
    (finish.party .server).history.lost = [1] := by
  obtain ⟨finish, reached, found⟩ := Machine.exists_of_run
    (show (((handshakeMachine boundedReceive .cpp).run
        (fun _ label => label.side.Plays label.move) .init overtakingSchedule).map
      fun finish => decide ((finish.party .client).history.connected = [1] ∧
        (finish.party .server).history.closed = [] ∧
        (finish.party .server).history.lost = [1])) = some true by
      decide +kernel)
  exact ⟨finish, reached, of_decide_eq_true found⟩

end PaintingCPS
