import PaintingCPS.Upload.Exchange

/-!
Contract: upload by the Java client, which has only orbit mode.

`sendImage` hands one image after the other to `TransmitThread`. The loop of
the thread sends a trailing message even when nothing remains.

Owns: the messages of the thread, their number, and the images for which the
server reads as many.

Does not own: the server's end, which is that of the exchange.
-/

set_option autoImplicit false

namespace PaintingCPS

open Foundation

/-- The arguments of `sendImage`. -/
structure JavaImage where
  img : List Byte
  imgSize : Nat
  positive : 0 < imgSize
  within : imgSize ≤ img.length
  /-- It is an `int`. -/
  bounded : imgSize < 2 ^ 31

/-! ## Messages -/

namespace Java

/-- `BUFFER_SIZE * 4` -/
def sendSize : Nat := bufferSize * 4

def fileName : List Byte := ascii "./pics/orbit-sample.jpg"

/-- `System.arraycopy(img, index, buf, 0, length)`, and the part of `buf` that
is sent. An exception ends in `System.exit`. -/
def arraycopy (img : List Byte) (index length : Nat) : Except Fault (List Byte) :=
  if img.length < index + length then .error .exited else .ok ((img.drop index).take length)

/-- The file info in a new array; the first 100 bytes are sent. -/
def header (imgSize : Nat) : Except Fault (List Byte) := do
  let buf ← writeBytes (List.replicate sendSize 0) 0 (fileName ++ comma :: decimal imgSize)
  return buf.take headerSize

/-- `while (true)`: the messages of one image. The first argument bounds the
number of passes. -/
def bodyLoop (img : List Byte) : Nat → Nat → Nat → Except Fault (List (List Byte))
  | 0, _, _ => .error .outOfFuel
  | passes + 1, index, remain =>
      if sendSize ≤ remain then do
        let block ← arraycopy img index sendSize
        return block :: (← bodyLoop img passes (index + sendSize) (remain - sendSize))
      else do
        return [← arraycopy img index remain]

/-- `TransmitThread` from one `sendStartSem.acquire` to `sendEndSem.release`. -/
def transmitProgram (image : JavaImage) : Except Fault (List Op) := do
  let info ← header image.imgSize
  return Exchange.upload info (← bodyLoop image.img (image.imgSize + 1) 0 image.imgSize)

end Java

namespace JavaImage

/-- The image as the server should store it. -/
def upload (image : JavaImage) : Upload where
  fileName := Java.fileName
  image := image.img.take image.imgSize
  field := by decide
  nonempty := by
    have positive := image.positive
    have within := image.within
    rw [← List.length_pos_iff, List.length_take]
    omega

@[simp] theorem upload_length (image : JavaImage) :
    image.upload.image.length = image.imgSize := by
  rw [upload, List.length_take, Nat.min_eq_left image.within]

theorem upload_accepted (image : JavaImage) : image.upload.Accepted where
  name := show Java.fileName.length < fileNameCapacity by decide
  size := by
    rw [upload_length]
    exact image.bounded

/-- The header is what the server expects. -/
theorem header_eq (image : JavaImage) :
    ∃ header, Java.header image.imgSize = .ok header ∧ image.upload.IsHeader header ∧
      header.length = headerSize := by
  have bounded := image.bounded
  have digits : (decimal image.imgSize).length ≤ 10 := by
    rw [decimal_length_le_iff (by decide)]
    omega
  have info : Java.fileName ++ comma :: decimal image.imgSize = image.upload.info := by
    rw [Upload.info, upload_length]
    rfl
  have short : image.upload.info.length ≤ 34 := by
    rw [← info, List.length_append, List.length_cons,
      show Java.fileName.length = 23 by decide]
    omega
  have room : headerSize = 100 := rfl
  have size : Java.sendSize = 4096 := rfl
  have written := writeBytes_append [] image.upload.info
    (List.replicate Java.sendSize 0) (by rw [List.length_replicate]; omega)
  rw [List.nil_append, List.nil_append, List.length_nil, List.drop_replicate] at written
  refine ⟨(image.upload.info ++
    List.replicate (Java.sendSize - image.upload.info.length) 0).take headerSize, ?_, ?_, ?_⟩
  · rw [Java.header, info, written]
    rfl
  · obtain ⟨zeros, some⟩ := Nat.exists_eq_add_of_lt
      (show image.upload.info.length < Java.sendSize by omega)
    rw [Upload.IsHeader, List.prefix_take_iff, List.length_append, List.length_singleton]
    refine ⟨⟨List.replicate zeros 0, ?_⟩, by omega⟩
    rw [some, show image.upload.info.length + zeros + 1 - image.upload.info.length = zeros + 1
      by omega, List.replicate_succ, List.append_assoc]
    rfl
  · rw [List.length_take, List.length_append, List.length_replicate]
    omega

end JavaImage

namespace Java

theorem sendSize_eq : sendSize = recvLength := rfl

theorem arraycopy_eq {img : List Byte} {index length : Nat} (within : index + length ≤ img.length) :
    arraycopy img index length = .ok ((img.drop index).take length) :=
  if_neg (Nat.not_lt.mpr within)

/-- The messages of an image: one more than there are full blocks. Unless the
last one is empty, they are what the server reassembles. -/
theorem bodyLoop_eq {img : List Byte} {passes index remain : Nat} (enough : remain < passes)
    (within : index + remain ≤ img.length) :
    ∃ blocks, bodyLoop img passes index remain = .ok blocks ∧
      blocks.length = remain / recvLength + 1 ∧
      (¬ recvLength ∣ remain → Covers recvLength (img.take (index + remain)) index blocks) := by
  have positive : 0 < recvLength := by decide
  induction passes generalizing index remain with
  | zero => omega
  | succ passes inductionHypothesis =>
      have total : (img.take (index + remain)).length = index + remain := by
        rw [List.length_take, Nat.min_eq_left within]
      have content : (img.take (index + remain)).drop index = (img.drop index).take remain := by
        rw [List.drop_take, Nat.add_sub_cancel_left]
      by_cases large : recvLength ≤ remain
      · obtain ⟨rest, rfl⟩ := Nat.exists_eq_add_of_le' large
        obtain ⟨blocks, looped, counted, covers⟩ :=
          inductionHypothesis (show rest < passes by omega)
            (show index + recvLength + rest ≤ img.length by omega)
        refine ⟨(img.drop index).take recvLength :: blocks, ?_, ?_, fun uneven => ?_⟩
        · simp only [bodyLoop, sendSize_eq, if_pos large, Nat.add_sub_cancel, looped,
            arraycopy_eq (show index + recvLength ≤ img.length by omega), bind, Except.bind,
            pure, Except.pure]
        · rw [List.length_cons, counted, Nat.add_div_right _ positive]
        · have unevenRest : ¬ recvLength ∣ rest := fun divides =>
            uneven (Nat.dvd_add_self_right.mpr divides)
          have some : rest ≠ 0 := fun none => unevenRest (none ▸ Nat.dvd_zero _)
          have same : ((img.take (index + (rest + recvLength))).drop index).take recvLength =
              (img.drop index).take recvLength := by
            rw [content, List.take_take, Nat.min_eq_left large]
          refine .more (by omega) ⟨[], by rw [List.append_nil, same]⟩ ?_
          · rw [show index + (rest + recvLength) = index + recvLength + rest by omega]
            exact covers unevenRest
      · refine ⟨[(img.drop index).take remain], ?_, ?_,
          fun _ => .last (by omega) ⟨[], by rw [List.append_nil, content]⟩⟩
        · simp only [bodyLoop, sendSize_eq, if_neg large, arraycopy_eq within, bind, Except.bind,
            pure, Except.pure]
        · rw [Nat.div_eq_of_lt (Nat.not_le.mp large), List.length_singleton]

end Java

/-! ## The number of messages -/

namespace JavaImage

/-- The server's loop for the announced size takes as many messages as the
thread sends. -/
def CountsAgree (image : JavaImage) : Prop :=
  ∃ blocks, Java.bodyLoop image.img (image.imgSize + 1) 0 image.imgSize = .ok blocks ∧
    ∀ (junk : Nat → Byte) (server : Transmit) (img : List Byte),
      server.pc = .body Java.fileName image.imgSize img 0 → img.length = image.imgSize →
        server.ReadsBodies junk blocks.length

/-- The thread sends one message too many exactly for sizes without a rest. -/
theorem countsAgree_iff (image : JavaImage) :
    image.CountsAgree ↔ ¬ recvLength ∣ image.imgSize := by
  have some := image.positive
  obtain ⟨blocks, looped, counted, -⟩ :=
    Java.bodyLoop_eq (Nat.lt_succ_self image.imgSize)
      (show 0 + image.imgSize ≤ image.img.length by rw [Nat.zero_add]; exact image.within)
  have needed : blocks.length = (image.imgSize - 0 + recvLength - 1) / recvLength ↔
      ¬ recvLength ∣ image.imgSize := by
    rw [counted, show recvLength = 4096 from rfl]
    omega
  constructor
  · rintro ⟨sent, loopedSent, agree⟩
    obtain rfl : blocks = sent := Except.ok.inj (looped.symm.trans loopedSent)
    exact needed.mp ((Transmit.readsBodies_iff rfl (by simp) some).mp
      (agree (fun _ => 0)
        ⟨.body Java.fileName image.imgSize (List.replicate image.imgSize 0) 0, false, 1, []⟩ _ rfl
        (by simp)))
  · intro uneven
    refine ⟨blocks, looped, fun junk server img atBody allocated => ?_⟩
    exact (Transmit.readsBodies_iff atBody allocated some).mpr (needed.mpr uneven)

/-- Without a trailing empty message, the messages of an image are what the
server expects. -/
theorem transmitProgram_messages (image : JavaImage) (uneven : ¬ recvLength ∣ image.imgSize) :
    ∃ header blocks, Java.transmitProgram image = .ok (Exchange.upload header blocks) ∧
      Exchange.Messages image.upload header blocks := by
  obtain ⟨header, written, isHeader, size⟩ := image.header_eq
  obtain ⟨blocks, looped, -, covers⟩ :=
    Java.bodyLoop_eq (Nat.lt_succ_self image.imgSize)
      (show 0 + image.imgSize ≤ image.img.length by rw [Nat.zero_add]; exact image.within)
  have covered := covers uneven
  rw [Nat.zero_add] at covered
  refine ⟨header, blocks, ?_, isHeader, size, covered⟩
  simp only [Java.transmitProgram, written, looped, bind, Except.bind, pure, Except.pure]

end JavaImage

/-! ## One image after the other -/

/-- `TransmitThread` and the server. -/
structure JavaSending where
  exchange : Exchange
  /-- The arguments of the calls of `sendImage` to come. -/
  waiting : List JavaImage
  begun : List JavaImage

inductive JavaStep where
  | begin
  | exchange (step : ExchangeStep)

namespace JavaSending

def init (images : List JavaImage) : JavaSending := ⟨.init, images, []⟩

section Steps

variable (sending : JavaSending)

/-- `sendImage` returns when the thread is done with the image. -/
def beginStep : Option JavaSending :=
  match sending.exchange.program, sending.waiting with
  | [], image :: rest =>
      match Java.transmitProgram image with
      | .error fault => some { sending with exchange := sending.exchange.stuck fault }
      | .ok program =>
          some ⟨{ sending.exchange with program := program }, rest, sending.begun ++ [image]⟩
  | _, _ => none

def step : JavaStep → Option JavaSending
  | .begin => sending.beginStep
  | .exchange label =>
      (sending.exchange.step label).map fun exchange => { sending with exchange := exchange }

end Steps

end JavaSending

def javaMachine : Machine JavaSending JavaStep where
  next sending label := if sending.exchange.fault.isSome then none else sending.step label

namespace JavaSending

theorem step_of_transition {sending after : JavaSending} {label : JavaStep}
    (transition : javaMachine.transition sending label after) :
    sending.step label = some after := by
  simp only [Machine.transition, javaMachine] at transition
  split at transition
  next => cases transition
  next => exact transition

/-- All images are sent and stored, and the server waits for the next
header. -/
structure Finished (sending : JavaSending) : Prop where
  waiting : sending.waiting = []
  program : sending.exchange.program = []
  arrived : sending.exchange.toServer = []
  idle : sending.exchange.server.pc = .header

/-- The upload is exact so far, and goes on until all is done. -/
structure Exact (images : List JavaImage) (sending : JavaSending) : Prop where
  sound : sending.exchange.fault = none
  lockstep : ∀ read ∈ sending.exchange.reads, read.1 = read.2
  order : sending.exchange.server.stored <+: images.map fun image => image.upload.entry
  progress : ¬ sending.Finished → ∃ label, (javaMachine.next sending label).isSome
  complete : sending.Finished →
    sending.exchange.server.stored = images.map fun image => image.upload.entry

/-- What has been begun is in step with the server. -/
structure Sending (images : List JavaImage) (sending : JavaSending) : Prop where
  inStep : sending.exchange.InStep (sending.begun.map JavaImage.upload)
  order : sending.begun ++ sending.waiting = images

section Invariant

variable {images : List JavaImage} {sending after : JavaSending}

theorem init_sending : (init images).Sending images := ⟨Exchange.init_inStep, rfl⟩

theorem Sending.step (sound : sending.Sending images)
    (uneven : ∀ image ∈ images, ¬ recvLength ∣ image.imgSize) {label : JavaStep}
    (stepped : sending.step label = some after) : after.Sending images := by
  cases label with
  | begin =>
      simp only [JavaSending.step, beginStep] at stepped
      split at stepped
      next image rest done waits =>
        have next : image ∈ images := by
          rw [← sound.order, waits]
          exact List.mem_append_right _ (List.mem_cons_self ..)
        obtain ⟨header, blocks, program, messages⟩ :=
          image.transmitProgram_messages (uneven image next)
        simp only [program, Option.some.injEq] at stepped
        subst stepped
        refine ⟨?_, ?_⟩
        · rw [List.map_append]
          exact sound.inStep.begin done image.upload_accepted messages
        · rw [← sound.order, waits, List.append_assoc]
          rfl
      next => cases stepped
  | exchange label =>
      obtain ⟨exchange, moved, rfl⟩ := Option.map_eq_some_iff.mp stepped
      exact ⟨sound.inStep.step moved, sound.order⟩

/-- The thread or the server can move until all is done. -/
private theorem Sending.progress (sound : sending.Sending images)
    (unfinished : ¬ sending.Finished) :
    ∃ label, (javaMachine.next sending label).isSome := by
  have moves : (∃ label, (sending.step label).isSome) →
      ∃ label, (javaMachine.next sending label).isSome := by
    rintro ⟨label, moved⟩
    exact ⟨label, by simpa [javaMachine, sound.inStep.sound] using moved⟩
  by_cases busy : sending.exchange.program ≠ [] ∨ sending.exchange.toServer ≠ [] ∨
      sending.exchange.server.pc ≠ .header
  · obtain ⟨label, moved⟩ := sound.inStep.progress busy
    exact moves ⟨.exchange label, by simpa [JavaSending.step] using moved⟩
  · simp only [not_or, ne_eq, not_not] at busy
    obtain ⟨done, arrived, idle⟩ := busy
    cases waits : sending.waiting with
    | nil => exact absurd ⟨waits, done, arrived, idle⟩ unfinished
    | cons image rest =>
        refine moves ⟨.begin, ?_⟩
        simp only [JavaSending.step, beginStep, done, waits]
        split <;> rfl

theorem Sending.exact (sound : sending.Sending images) : sending.Exact images where
  sound := sound.inStep.sound
  lockstep := sound.inStep.agreed
  order := by
    have order := sound.inStep.stored_prefix
    rw [← sound.order, List.map_append]
    rw [List.map_map] at order
    exact order.trans (List.prefix_append _ _)
  progress := sound.progress
  complete finished := by
    have stored := sound.inStep.stored_all finished.program finished.arrived finished.idle
    have order := sound.order
    rw [finished.waiting, List.append_nil] at order
    rw [stored, order, List.map_map]
    rfl

end Invariant

end JavaSending

/-- Upload by the Java client is exact, for every sequence of images, if and
only if no size is a multiple of 4096. -/
theorem java_upload_exact_iff {images : List JavaImage} :
    ((∀ image ∈ images, image.CountsAgree) ∧
        ∀ sending, javaMachine.Reaches (.init images) sending → sending.Exact images) ↔
      ∀ image ∈ images, ¬ recvLength ∣ image.imgSize := by
  constructor
  · rintro ⟨agree, -⟩ image member
    exact image.countsAgree_iff.mp (agree image member)
  · intro uneven
    refine ⟨fun image member => image.countsAgree_iff.mpr (uneven image member), ?_⟩
    intro sending reached
    have sound : sending.Sending images :=
      reached.invariant JavaSending.init_sending fun sound _ transition =>
        sound.step uneven (JavaSending.step_of_transition transition)
    exact sound.exact

/-- One full block, followed by another image. -/
def evenImages : List JavaImage :=
  [⟨List.replicate 4096 7, 4096, by decide, by rw [List.length_replicate], by decide⟩,
    ⟨[1], 1, by decide, by decide, by decide⟩]

def evenSchedule : List JavaStep :=
  [.begin, .exchange .client, .exchange (.read (fun _ => 0) []), .exchange .client,
    .exchange .client, .exchange .client, .exchange (.read (fun _ => 0) []), .exchange .store,
    .exchange (.read (fun _ => 0) [])]

/-- The trailing empty message is read as the next header. -/
theorem empty_message_read_as_header : ∃ finish,
    javaMachine.Reaches (.init evenImages) finish ∧
      (Kind.header, Kind.body) ∈ finish.exchange.reads ∧ ¬ finish.Exact evenImages := by
  obtain ⟨finish, reached, found⟩ := Machine.exists_of_run
    (show ((javaMachine.run (fun _ _ => True) (.init evenImages) evenSchedule).map
      fun finish => decide ((Kind.header, Kind.body) ∈ finish.exchange.reads)) = some true by
      decide +kernel)
  have confused := of_decide_eq_true found
  refine ⟨finish, reached, confused, fun exact => ?_⟩
  cases exact.lockstep _ confused

end PaintingCPS
