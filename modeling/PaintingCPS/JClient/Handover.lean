import PaintingCPS.JClient.SendImage

/-!
Contract: a call of `sendImage` returns when its own image is sent.

The fields and the semaphores carry no identity, so this holds as long as the
calls follow each other and none of them waits when the thread ends. With two
calls in progress a call returns although its image was never sent.

Owns: the invariant of the hand-over, and the schedules that break it.

Does not own: how the server reads the messages.
-/

set_option autoImplicit false

namespace PaintingCPS

open Foundation

namespace JClient

/-! ## The property -/

/-- Calls that have returned 0 own different complete transmissions of their
images, and no call waits for a thread that has ended. -/
structure Delivers (client : JClient) : Prop where
  transmitted : ∃ transmission : Nat → Nat,
    (∀ index call, client.calls[index]? = some call → call.pc = .returned →
      ∃ sent, client.sent[transmission index]? = some sent ∧ sent.IsOf call) ∧
    ∀ first second firstCall secondCall,
      client.calls[first]? = some firstCall → client.calls[second]? = some secondCall →
      firstCall.pc = .returned → secondCall.pc = .returned →
      transmission first = transmission second → first = second
  awaited : client.transmit = .ended → client.sendEndSem = 0 →
    ∀ call ∈ client.calls, call.pc ≠ .signalled

end JClient

/-- The thread has found `globalStop` unset for the image it sends. -/
def TransmitThreadPc.sends : TransmitThreadPc → Bool
  | loop | acquire | recheck | ended => false
  | info | exchange _ | remaining _ | copy _ _ _ _ | signal => true

namespace JClient

def Unused (client : JClient) : Prop := ∀ call ∈ client.calls, ¬ call.InProgress

instance (client : JClient) : Decidable client.Unused :=
  inferInstanceAs (Decidable (∀ call ∈ client.calls, ¬ call.InProgress))

/-- A call starts when no other one is in progress and the program is not
stopped. `stop` sets the flag when no call is in progress, or when the thread
has got past the flag for it. -/
def Sequential (client : JClient) : JClientStep → Prop
  | .call index =>
      ∀ call ∈ client.calls[index]?, call.pc = .entry →
        client.globalStop = false ∧ client.Unused
  | .stop =>
      client.stop = .entry →
        client.Unused ∨ client.transmit.sends = true ∨ 0 < client.sendEndSem
  | .transmit _ => True

instance (client : JClient) (label : JClientStep) : Decidable (client.Sequential label) := by
  cases label <;> unfold Sequential <;> infer_instance

/-! ## The invariant -/

/-- The calls whose images are sent, in the order of the transmissions. -/
structure Paired (client : JClient) (order : List Nat) : Prop where
  once : order.Nodup
  images : List.Forall₂
    (fun index sent => ∃ call, client.calls[index]? = some call ∧ sent.IsOf call)
    order client.sent
  returned : ∀ index call, client.calls[index]? = some call → call.pc = .returned →
    index ∈ order
  started : ∀ index call, client.calls[index]? = some call → call.pc = .entry →
    index ∉ order

/-- The thread sends nothing, and has left `permits` for the callers. -/
structure Between (client : JClient) (permits : Nat) : Prop where
  place : client.transmit = .loop ∨ client.transmit = .acquire ∨
    client.globalStop = true ∧ (client.transmit = .recheck ∨ client.transmit = .ended)
  finished : client.sendEndSem = permits
  unasked : client.globalStop = false → client.sendStartSem = 0

end JClient

/-- What the thread has of the image of a call. -/
def TransmitThreadPc.Carries (call : SendImage) : TransmitThreadPc → Prop
  | info => True
  | exchange announced | remaining announced => announced = call.size
  | copy announced index remain bytes =>
      announced = call.size ∧ (index : Int) + remain = call.size ∧
        index ≤ (call.img.getD []).length ∧ bytes = (call.img.getD []).take index
  | loop | acquire | recheck | signal | ended => False

namespace JClient

/-- How far the only call in progress is. -/
inductive Serves (client : JClient) (order : List Nat) (index : Nat) (call : SendImage) : Prop
  | stored (pc : call.pc = .stored) (between : client.Between 0)
      (going : client.globalStop = false) (new : index ∉ order) (img : client.img = call.img)
  | sized (pc : call.pc = .sized) (between : client.Between 0)
      (going : client.globalStop = false) (new : index ∉ order) (img : client.img = call.img)
      (size : client.imgSize = call.size)
  | asked (pc : call.pc = .signalled)
      (place : (client.transmit = .loop ∨ client.transmit = .acquire) ∧ client.sendStartSem = 1 ∨
        client.transmit = .recheck ∧ client.sendStartSem = 0)
      (finished : client.sendEndSem = 0)
      (going : client.globalStop = false) (new : index ∉ order) (img : client.img = call.img)
      (size : client.imgSize = call.size)
  | sending (pc : call.pc = .signalled) (carries : client.transmit.Carries call)
      (finished : client.sendEndSem = 0)
      (unasked : client.globalStop = false → client.sendStartSem = 0)
      (new : index ∉ order) (img : client.img = call.img) (size : client.imgSize = call.size)
  | sent (pc : call.pc = .signalled) (place : client.transmit = .signal)
      (finished : client.sendEndSem = 0)
      (unasked : client.globalStop = false → client.sendStartSem = 0) (done : index ∈ order)
  | answered (pc : call.pc = .signalled) (between : client.Between 1) (done : index ∈ order)

/-- At most one call is in progress. -/
inductive Stage (client : JClient) (order : List Nat) : Prop
  | unused (unused : client.Unused) (between : client.Between 0)
  | used (index : Nat) (call : SendImage) (there : client.calls[index]? = some call)
      (alone : ∀ other ∈ client.calls.set index { call with pc := .returned },
        ¬ other.InProgress)
      (serves : client.Serves order index call)

structure Orderly (client : JClient) : Prop where
  stopped : client.globalStop = true ↔ client.stop ≠ .entry
  serving : ∃ order, client.Paired order ∧ client.Stage order

/-! ## Steps of a caller -/

section Steps

variable {client after : JClient} {order : List Nat} {index : Nat} {call : SendImage}

private theorem Serves.inProgress (serves : client.Serves order index call) :
    call.InProgress := by
  cases serves with
  | stored pc | sized pc | asked pc | sending pc | sent pc | answered pc =>
      exact ⟨by rw [pc]; decide, by rw [pc]; decide⟩

/-- A call in progress is the one that is served. -/
private theorem Stage.serves (stage : client.Stage order)
    (there : client.calls[index]? = some call) (busy : call.InProgress) :
    (∀ other ∈ client.calls.set index { call with pc := .returned }, ¬ other.InProgress) ∧
      client.Serves order index call := by
  cases stage with
  | unused unused between => exact absurd busy (unused call (List.mem_of_getElem? there))
  | used at' served found alone serves =>
      by_cases same : index = at'
      · subst same
        rw [there] at found
        cases found
        exact ⟨alone, serves⟩
      · apply absurd busy
        apply alone call
        apply List.mem_of_getElem?
        rw [List.getElem?_set_ne (Ne.symm same)]
        exact there

private theorem Paired.moved (paired : client.Paired order)
    (there : client.calls[index]? = some call) {pc : SendImagePc}
    (calls : after.calls = client.calls.set index { call with pc := pc })
    (sent : after.sent = client.sent) (started : pc ≠ .entry)
    (returned : pc = .returned → index ∈ order) : after.Paired order where
  once := paired.once
  images := by
    rw [sent]
    refine paired.images.imp fun position image => ?_
    rintro ⟨owner, found, isOf⟩
    rw [calls, getElem?_set_there _ there]
    by_cases same : position = index
    · subst same
      rw [there] at found
      cases found
      exact ⟨_, if_pos rfl, isOf⟩
    · exact ⟨owner, by rw [if_neg same]; exact found, isOf⟩
  returned := by
    intro position owner found back
    rw [calls, getElem?_set_there _ there] at found
    split at found
    next same =>
      cases found
      rw [same]
      exact returned back
    next => exact paired.returned position owner found back
  started := by
    intro position owner found back
    rw [calls, getElem?_set_there _ there] at found
    split at found
    next same =>
      cases found
      exact absurd back started
    next => exact paired.started position owner found back

/-- The fields on which `Between` depends. -/
private theorem Between.same {permits : Nat} (between : client.Between permits)
    (transmit : after.transmit = client.transmit)
    (globalStop : after.globalStop = client.globalStop)
    (sendEndSem : after.sendEndSem = client.sendEndSem)
    (sendStartSem : after.sendStartSem = client.sendStartSem) : after.Between permits where
  place := by rw [transmit, globalStop]; exact between.place
  finished := sendEndSem.trans between.finished
  unasked := by rw [globalStop, sendStartSem]; exact between.unasked

/-- A started call is the only one in progress. -/
private theorem alone_of_unused (unused : client.Unused) (pc : SendImagePc) :
    ∀ other ∈ (client.calls.set index { call with pc := pc }).set index
      { call with pc := .returned }, ¬ other.InProgress := by
  rw [List.set_set]
  exact forall_mem_set unused fun busy => busy.2 rfl

private theorem Orderly.callStep (orderly : client.Orderly)
    (allowed : client.Sequential (.call index)) (step : client.callStep index = some after) :
    after.Orderly := by
  obtain ⟨stopped, order, paired, stage⟩ := orderly
  obtain ⟨call, there, moved⟩ := Option.bind_eq_some_iff.mp step
  have kept : ∀ pc, (client.calls.set index { call with pc := pc })[index]? =
      some { call with pc := pc } := fun pc => by
    rw [getElem?_set_there _ there, if_pos rfl]
  have busy : ∀ pc, call.pc = pc → pc ≠ .entry → pc ≠ .returned → call.InProgress :=
    fun pc at' notEntry notReturned => ⟨at' ▸ notEntry, at' ▸ notReturned⟩
  split at moved
  next entry =>
    obtain ⟨going, unused⟩ := allowed call there entry
    cases stage with
    | used at' served found alone serves =>
        exact absurd serves.inProgress (unused served (List.mem_of_getElem? found))
    | unused _ between =>
        cases moved
        refine ⟨stopped, order, paired.moved there rfl rfl (by decide) (by simp), ?_⟩
        exact .used index _ (kept .stored) (alone_of_unused unused .stored)
          (.stored rfl (between.same rfl rfl rfl rfl) going
            (paired.started index call there entry) rfl)
  next stored =>
    obtain ⟨alone, serves⟩ := stage.serves there (busy _ stored (by decide) (by decide))
    cases serves with
    | stored pc between going new img =>
        cases moved
        refine ⟨stopped, order, paired.moved there rfl rfl (by decide) (by simp), ?_⟩
        refine .used index _ (kept .sized) ?_
          (.sized rfl (between.same rfl rfl rfl rfl) going new img rfl)
        rw [moveCall, List.set_set]
        exact alone
    | sized pc | asked pc | sending pc | sent pc | answered pc =>
        rw [stored] at pc
        cases pc
  next sized =>
    obtain ⟨alone, serves⟩ := stage.serves there (busy _ sized (by decide) (by decide))
    cases serves with
    | sized pc between going new img size =>
        cases moved
        refine ⟨stopped, order, paired.moved there rfl rfl (by decide) (by simp), ?_⟩
        refine .used index _ (kept .signalled) ?_ (.asked rfl (.inl ⟨?_, ?_⟩)
          between.finished going new img size)
        · rw [moveCall, List.set_set]
          exact alone
        · rcases between.place with loop | acquire | ⟨halted, -⟩
          · exact .inl loop
          · exact .inr acquire
          · rw [going] at halted
            cases halted
        · rw [moveCall]
          exact congrArg (· + 1) (between.unasked going)
    | stored pc | asked pc | sending pc | sent pc | answered pc =>
        rw [sized] at pc
        cases pc
  next signalled =>
    obtain ⟨alone, serves⟩ := stage.serves there (busy _ signalled (by decide) (by decide))
    split at moved
    next => cases moved
    next permit =>
      cases moved
      cases serves with
      | answered pc between done =>
          refine ⟨stopped, order, paired.moved there rfl rfl (by decide) fun _ => done, ?_⟩
          refine .unused alone ⟨between.place, ?_, between.unasked⟩
          rw [moveCall, between.finished]
      | asked pc place finished | sending pc carries finished | sent pc place finished =>
          exact absurd finished permit
      | stored pc | sized pc =>
          rw [signalled] at pc
          cases pc
  next => cases moved

/-! ## Steps of the thread -/

private theorem Paired.same (paired : client.Paired order) (calls : after.calls = client.calls)
    (sent : after.sent = client.sent) : after.Paired order where
  once := paired.once
  images := by rw [calls, sent]; exact paired.images
  returned := by rw [calls]; exact paired.returned
  started := by rw [calls]; exact paired.started

/-- Between two images the thread takes at most the permit of `stop`. -/
private theorem Between.transmitStep {permits : Nat} {answered : Bool}
    (between : client.Between permits) (step : client.transmitStep answered = some after) :
    after.Between permits ∧ ∃ transmit sendStartSem,
      after = { client with
        transmit := transmit
        sendStartSem := sendStartSem } := by
  rcases between.place with loop | acquire | ⟨halted, recheck | ended⟩
  · rw [JClient.transmitStep, loop] at step
    cases step
    refine ⟨⟨.inr ?_, between.finished, between.unasked⟩, _, _, rfl⟩
    by_cases halted : client.globalStop = true
    · exact .inr ⟨halted, .inr (if_pos halted)⟩
    · exact .inl (if_neg halted)
  · rw [JClient.transmitStep, acquire] at step
    dsimp only at step
    split at step
    next => cases step
    next permit =>
      have halted : client.globalStop = true := by
        cases going : client.globalStop with
        | false => exact absurd (between.unasked going) permit
        | true => rfl
      cases step
      refine ⟨⟨.inr (.inr ⟨halted, .inl rfl⟩), between.finished, fun going => ?_⟩, _, _, rfl⟩
      rw [halted] at going
      cases going
  · rw [JClient.transmitStep, recheck] at step
    cases step
    exact ⟨⟨.inr (.inr ⟨halted, .inr (if_pos halted)⟩), between.finished, between.unasked⟩, _, _,
      rfl⟩
  · rw [JClient.transmitStep, ended] at step
    cases step

theorem arraycopy_eq_ok {img : Option (List Byte)} {from' : Nat} {length : Int}
    {block : List Byte} (copied : arraycopy img from' length = .ok block) :
    ∃ content, img = some content ∧ 0 ≤ length ∧ from' + length ≤ content.length ∧
      block = (content.drop from').take length.toNat := by
  cases length with
  | negSucc length => cases copied
  | ofNat length =>
      cases img with
      | none => cases copied
      | some content =>
          unfold arraycopy Java.arraycopy at copied
          dsimp only at copied
          split at copied
          next => cases copied
          next within =>
            cases copied
            rw [Int.ofNat_eq_natCast]
            exact ⟨content, rfl, by omega, by omega, rfl⟩

/-- A pass of the loop keeps what is sent a prefix of the image; the last one
completes it. -/
private theorem copyStep_serves {announced remain : Int} {from' : Nat} {bytes : List Byte}
    (paired : client.Paired order) (there : client.calls[index]? = some call)
    (pc : call.pc = .signalled) (place : client.transmit = .copy announced from' remain bytes)
    (carries : client.transmit.Carries call) (finished : client.sendEndSem = 0)
    (unasked : client.globalStop = false → client.sendStartSem = 0) (new : index ∉ order)
    (img : client.img = call.img) (size : client.imgSize = call.size) :
    ∃ later, (client.copyStep announced from' remain bytes).Paired later ∧
      (client.copyStep announced from' remain bytes).Serves later index call := by
  have known := carries
  rw [place] at known
  obtain ⟨rfl, total, within, rfl⟩ := known
  have extend : ∀ {length : Int} {block : List Byte},
      arraycopy client.img from' length = .ok block →
      ∃ content, call.img = some content ∧ 0 ≤ length ∧ from' + length ≤ content.length ∧
        (call.img.getD []).take from' ++ block = content.take (from' + length.toNat) := by
    intro length block copied
    obtain ⟨content, isContent, natural, inside, rfl⟩ := arraycopy_eq_ok copied
    rw [img] at isContent
    refine ⟨content, isContent, natural, inside, ?_⟩
    rw [isContent, Option.getD_some, List.take_add]
  unfold copyStep
  split
  next large =>
    split
    next =>
      exact ⟨order, paired.same rfl rfl, .sending pc carries finished unasked new img size⟩
    next block copied =>
      obtain ⟨content, isContent, natural, inside, joined⟩ := extend copied
      refine ⟨order, paired.same rfl rfl, .sending pc ⟨rfl, ?_, ?_, ?_⟩ finished unasked new img
        size⟩
      · omega
      · rw [isContent, Option.getD_some]
        omega
      · rw [joined, isContent, Option.getD_some, Int.toNat_natCast]
  next =>
    split
    next =>
      exact ⟨order, paired.same rfl rfl, .sending pc carries finished unasked new img size⟩
    next block copied =>
      obtain ⟨content, isContent, natural, inside, joined⟩ := extend copied
      have whole : call.size.toNat = from' + remain.toNat := by omega
      refine ⟨order ++ [index], ⟨?_, ?_, ?_, ?_⟩, .sent pc rfl finished unasked ?_⟩
      · rw [List.nodup_append]
        refine ⟨paired.once, by simp, fun one member other last same => ?_⟩
        rw [List.mem_singleton] at last
        exact new (last ▸ same ▸ member)
      · refine List.rel_append paired.images
          (.cons ⟨call, there, content, isContent, ?_, ?_, ?_⟩ .nil)
        · omega
        · omega
        · rw [joined, whole]
      · intro position owner found back
        exact List.mem_append_left _ (paired.returned position owner found back)
      · intro position owner found back member
        rcases List.mem_append.mp member with earlier | last
        · exact paired.started position owner found back earlier
        · rw [List.mem_singleton] at last
          subst last
          rw [there] at found
          cases found
          rw [pc] at back
          cases back
      · exact List.mem_append_right _ (List.mem_singleton_self index)

private theorem Orderly.transmitStep {answered : Bool} (orderly : client.Orderly)
    (step : client.transmitStep answered = some after) : after.Orderly := by
  obtain ⟨stopped, order, paired, stage⟩ := orderly
  cases stage with
  | unused unused between =>
      obtain ⟨between, transmit, sendStartSem, rfl⟩ := between.transmitStep step
      exact ⟨stopped, order, paired.same rfl rfl, .unused unused between⟩
  | used index call there alone serves =>
      cases serves with
      | stored pc between going new img =>
          obtain ⟨between, transmit, sendStartSem, rfl⟩ := between.transmitStep step
          exact ⟨stopped, order, paired.same rfl rfl,
            .used index call there alone (.stored pc between going new img)⟩
      | sized pc between going new img size =>
          obtain ⟨between, transmit, sendStartSem, rfl⟩ := between.transmitStep step
          exact ⟨stopped, order, paired.same rfl rfl,
            .used index call there alone (.sized pc between going new img size)⟩
      | answered pc between done =>
          obtain ⟨between, transmit, sendStartSem, rfl⟩ := between.transmitStep step
          exact ⟨stopped, order, paired.same rfl rfl,
            .used index call there alone (.answered pc between done)⟩
      | asked pc place finished going new img size =>
          rcases place with ⟨loop | acquire, permit⟩ | ⟨recheck, permit⟩
          · rw [JClient.transmitStep, loop] at step
            cases step
            exact ⟨stopped, order, paired.same rfl rfl, .used index call there alone
              (.asked pc (.inl ⟨.inr (by rw [going]; rfl), permit⟩) finished going new img size)⟩
          · rw [JClient.transmitStep, acquire] at step
            dsimp only at step
            rw [if_neg (by omega)] at step
            cases step
            exact ⟨stopped, order, paired.same rfl rfl, .used index call there alone
              (.asked pc (.inr ⟨rfl, by rw [permit]⟩) finished going new img size)⟩
          · rw [JClient.transmitStep, recheck] at step
            cases step
            refine ⟨stopped, order, paired.same rfl rfl, .used index call there alone
              (.sending pc ?_ finished (fun _ => permit) new img size)⟩
            rw [going]
            exact trivial
      | sent pc place finished unasked done =>
          rw [JClient.transmitStep, place] at step
          cases step
          exact ⟨stopped, order, paired.same rfl rfl, .used index call there alone
            (.answered pc ⟨.inl rfl, by rw [finished], unasked⟩ done)⟩
      | sending pc carries finished unasked new img size =>
          cases place : client.transmit with
          | info =>
              rw [JClient.transmitStep, place] at step
              cases step
              exact ⟨stopped, order, paired.same rfl rfl, .used index call there alone
                (.sending pc size finished unasked new img size)⟩
          | exchange announced =>
              rw [place] at carries
              rw [JClient.transmitStep, place] at step
              cases answered with
              | true | false =>
                  cases step
                  exact ⟨stopped, order, paired.same rfl rfl, .used index call there alone
                    (.sending pc carries finished unasked new img size)⟩
          | remaining announced =>
              rw [place] at carries
              rw [JClient.transmitStep, place] at step
              cases step
              refine ⟨stopped, order, paired.same rfl rfl, .used index call there alone
                (.sending pc ⟨carries, ?_, Nat.zero_le _, ?_⟩ finished unasked new img size)⟩
              · rw [size]
                exact Int.zero_add _
              · rw [List.take_zero]
          | copy announced from' remain bytes =>
              rw [JClient.transmitStep, place] at step
              cases step
              obtain ⟨later, laterPaired, laterServes⟩ := copyStep_serves paired there pc place
                carries finished unasked new img size
              have calls : (client.copyStep announced from' remain bytes).calls = client.calls := by
                unfold copyStep
                split <;> split <;> rfl
              have same : (client.copyStep announced from' remain bytes).globalStop =
                  client.globalStop ∧
                  (client.copyStep announced from' remain bytes).stop = client.stop := by
                unfold copyStep
                split <;> split <;> exact ⟨rfl, rfl⟩
              refine ⟨by rw [same.1, same.2]; exact stopped, later, laterPaired,
                .used index call (by rw [calls]; exact there) ?_ laterServes⟩
              rw [calls]
              exact alone
          | loop | acquire | recheck | signal | ended =>
              rw [place] at carries
              cases carries

/-! ## The step of `stop` -/

private theorem Orderly.stopStep (orderly : client.Orderly) (allowed : client.Sequential .stop)
    (step : client.stopStep = some after) : after.Orderly := by
  obtain ⟨stopped, order, paired, stage⟩ := orderly
  unfold JClient.stopStep at step
  split at step
  next entry =>
    have picked := allowed entry
    cases step
    refine ⟨⟨fun _ => by simp, fun _ => rfl⟩, order, paired.same rfl rfl, ?_⟩
    have going : client.globalStop = false := by
      rw [Bool.eq_false_iff]
      exact fun halted => stopped.mp halted entry
    have between' : ∀ {permits : Nat}, client.Between permits →
        Between { client with
          globalStop := true
          stop := .flagged } permits := by
      intro permits between
      refine ⟨?_, between.finished, fun running => by cases running⟩
      rcases between.place with loop | acquire | ⟨halted, -⟩
      · exact .inl loop
      · exact .inr (.inl acquire)
      · rw [going] at halted
        cases halted
    cases stage with
    | unused unused between => exact .unused unused (between' between)
    | used index call there alone serves =>
        replace picked := picked.resolve_left fun unused =>
          unused call (List.mem_of_getElem? there) serves.inProgress
        refine .used index call there alone ?_
        cases serves with
        | sending pc carries finished unasked new img size =>
            exact .sending pc carries finished (fun running => by cases running) new img size
        | sent pc place finished unasked done =>
            exact .sent pc place finished (fun running => by cases running) done
        | answered pc between done => exact .answered pc (between' between) done
        | stored pc between | sized pc between =>
            have finished := between.finished
            rcases between.place with place | place | ⟨-, place | place⟩ <;>
              simp [place, finished, TransmitThreadPc.sends] at picked
        | asked pc place finished =>
            rcases place with ⟨place | place, -⟩ | ⟨place, -⟩ <;>
              simp [place, finished, TransmitThreadPc.sends] at picked
  next flagged =>
    have halted : client.globalStop = true := stopped.mpr (by rw [flagged]; decide)
    cases step
    have never : client.globalStop = false → client.sendStartSem + 1 = 0 := fun running => by
      rw [halted] at running
      cases running
    refine ⟨⟨fun _ => by simp, fun _ => halted⟩, order, paired.same rfl rfl, ?_⟩
    cases stage with
    | unused unused between => exact .unused unused ⟨between.place, between.finished, never⟩
    | used index call there alone serves =>
        refine .used index call there alone ?_
        cases serves with
        | sending pc carries finished unasked new img size =>
            exact .sending pc carries finished never new img size
        | sent pc place finished unasked done => exact .sent pc place finished never done
        | answered pc between done =>
            exact .answered pc ⟨between.place, between.finished, never⟩ done
        | stored pc between going | sized pc between going | asked pc place finished going =>
            rw [halted] at going
            cases going
  next => cases step

end Steps

/-! ## Runs -/

private theorem orderly_init (arguments : List (Option (List Byte) × Int)) :
    (init arguments).Orderly := by
  have entry : ∀ call ∈ (init arguments).calls, call.pc = .entry := by
    intro call member
    obtain ⟨argument, -, rfl⟩ := List.mem_map.mp member
    rfl
  refine ⟨by simp [init], [], ⟨List.nodup_nil, .nil, ?_, fun _ _ _ _ => List.not_mem_nil⟩,
    .unused (fun call member busy => busy.1 (entry call member)) ⟨.inl rfl, rfl, fun _ => rfl⟩⟩
  intro index call found back
  rw [entry call (List.mem_of_getElem? found)] at back
  cases back

private theorem Orderly.step {client after : JClient} {label : JClientStep}
    (orderly : client.Orderly) (allowed : client.Sequential label)
    (step : jclientMachine.next client label = some after) : after.Orderly := by
  unfold jclientMachine at step
  dsimp only at step
  split at step
  next => cases step
  next =>
    cases label with
    | call index => exact orderly.callStep allowed step
    | transmit answered => exact orderly.transmitStep step
    | stop => exact orderly.stopStep allowed step

/-- The position of a call among the transmitted ones is that of its image. -/
private theorem Paired.transmission {client : JClient} {order : List Nat}
    (paired : client.Paired order) {index : Nat} {call : SendImage}
    (there : client.calls[index]? = some call) (member : index ∈ order) :
    ∃ sent, client.sent[order.idxOf index]? = some sent ∧ sent.IsOf call := by
  have within := List.idxOf_lt_length_of_mem member
  have withinSent := paired.images.length_eq ▸ within
  obtain ⟨owner, found, isOf⟩ := paired.images.get within withinSent
  refine ⟨client.sent[order.idxOf index], List.getElem?_eq_getElem withinSent, ?_⟩
  rw [List.get_eq_getElem, List.getElem_idxOf, there] at found
  cases found
  exact isOf

private theorem Orderly.delivers {client : JClient} (orderly : client.Orderly) :
    client.Delivers := by
  obtain ⟨-, order, paired, stage⟩ := orderly
  refine ⟨⟨order.idxOf, fun index call there back =>
    paired.transmission there (paired.returned index call there back), ?_⟩, ?_⟩
  · intro first second firstCall secondCall firstThere secondThere firstOver secondOver same
    exact (List.idxOf_inj (paired.returned first firstCall firstThere firstOver)).mp same
  · intro ended finished call member waiting
    have busy : call.InProgress := ⟨by rw [waiting]; decide, by rw [waiting]; decide⟩
    obtain ⟨index, there⟩ := List.mem_iff_getElem?.mp member
    obtain ⟨-, serves⟩ := stage.serves there busy
    cases serves with
    | stored pc | sized pc =>
        rw [waiting] at pc
        cases pc
    | asked pc place =>
        rw [ended] at place
        simp at place
    | sending pc carries =>
        rw [ended] at carries
        cases carries
    | sent pc place =>
        rw [ended] at place
        cases place
    | answered pc between =>
        have permits := between.finished
        omega

/-- As long as the calls follow each other, and none waits for the thread when
it is stopped, every call that returns had its image sent. -/
theorem sendImage_delivers {arguments : List (Option (List Byte) × Int)} {client : JClient}
    (reached : jclientMachine.ReachesUnder Sequential (init arguments) client) :
    client.Delivers :=
  (reached.invariant (orderly_init arguments) Orderly.step).delivers

/-- Two calls one after the other, then `stop`. -/
def handoverSchedule : List JClientStep :=
  [.transmit true, .call 0, .call 0, .call 0] ++ List.replicate 7 (.transmit true) ++
    [.call 0, .call 1, .call 1, .transmit true, .call 1] ++ List.replicate 6 (.transmit true) ++
    [.stop, .transmit true, .call 1, .stop, .transmit true]

/-- Both images are sent, and the thread ends. -/
theorem sendImage_delivers_two : ∃ client : JClient,
    jclientMachine.ReachesUnder Sequential (init [(some [1, 2, 3], 3), (some [4, 5], 2)]) client ∧
    client.sent = [⟨3, [1, 2, 3]⟩, ⟨2, [4, 5]⟩] ∧ client.transmit = .ended ∧
    (∀ call ∈ client.calls, call.pc = .returned) ∧ client.Delivers := by
  obtain ⟨client, reached, holds⟩ := Machine.exists_of_run
    (show (jclientMachine.run Sequential (init [(some [1, 2, 3], 3), (some [4, 5], 2)])
      handoverSchedule).map (fun client =>
        decide (client.sent = [⟨3, [1, 2, 3]⟩, ⟨2, [4, 5]⟩] ∧ client.transmit = .ended ∧
          ∀ call ∈ client.calls, call.pc = .returned)) = some true by decide +kernel)
  obtain ⟨sent, ended, back⟩ := of_decide_eq_true holds
  exact ⟨client, reached, sent, ended, back, sendImage_delivers reached⟩

/-! ## Overlapping calls -/

/-- The second call writes the fields before the first one signals. -/
def overlappingSchedule : List JClientStep :=
  [.call 0, .call 0, .call 1, .call 1, .call 0] ++ List.replicate 8 (.transmit true) ++ [.call 0]

/-- `stop` sets the flag before the thread sees the signal of the call. -/
def stoppingSchedule : List JClientStep :=
  [.transmit true, .call 0, .call 0, .call 0, .stop, .transmit true, .transmit true]

/-- A call returns although only another image was sent, and a call waits for a
thread that has ended. -/
theorem sendImage_fails :
    (∃ client : JClient,
      jclientMachine.Reaches (init [(some [1, 2, 3], 3), (some [4, 5], 2)]) client ∧
      client.calls[0]? = some ⟨some [1, 2, 3], 3, .returned⟩ ∧ client.sent = [⟨2, [4, 5]⟩] ∧
      ¬ client.Delivers) ∧
    ∃ client : JClient,
      jclientMachine.Reaches (init [(some [1, 2, 3], 3)]) client ∧
      client.calls[0]? = some ⟨some [1, 2, 3], 3, .signalled⟩ ∧ client.transmit = .ended ∧
      ¬ client.Delivers := by
  constructor
  · obtain ⟨client, reached, holds⟩ := Machine.exists_of_run
      (show (jclientMachine.run (fun _ _ => True)
        (init [(some [1, 2, 3], 3), (some [4, 5], 2)]) overlappingSchedule).map (fun client =>
          decide (client.calls[0]? = some ⟨some [1, 2, 3], 3, .returned⟩ ∧
            client.sent = [⟨2, [4, 5]⟩])) = some true by decide +kernel)
    obtain ⟨there, sent⟩ := of_decide_eq_true holds
    refine ⟨client, reached, there, sent, fun delivers => ?_⟩
    obtain ⟨transmission, transmitted, -⟩ := delivers.transmitted
    obtain ⟨image, found, content, isContent, -, -, rfl⟩ := transmitted 0 _ there rfl
    rw [sent] at found
    have only := List.mem_singleton.mp (List.mem_of_getElem? found)
    cases isContent
    revert only
    decide
  · obtain ⟨client, reached, holds⟩ := Machine.exists_of_run
      (show (jclientMachine.run (fun _ _ => True) (init [(some [1, 2, 3], 3)])
        stoppingSchedule).map (fun client =>
          decide (client.calls[0]? = some ⟨some [1, 2, 3], 3, .signalled⟩ ∧
            client.transmit = .ended ∧ client.sendEndSem = 0)) = some true by decide +kernel)
    obtain ⟨there, ended, finished⟩ := of_decide_eq_true holds
    exact ⟨client, reached, there, ended, fun delivers =>
      delivers.awaited ended finished _ (List.mem_of_getElem? there) rfl⟩

end JClient

end PaintingCPS
