import PaintingCPS.MsgDistributor.Decoding

/-!
Contract: what `recv` puts into the caller's buffer, in both languages.

The queue of the C++ class holds pointers without lengths. The block behind a
pointer is the object that `listen` allocated, so a read past it is a fault.
Java keeps arrays, which know their lengths, and its `recv` catches every
exception.

Owns: `recv` from the wake-up to the return, and the exact sizes for which the
two classes fill the buffer alike.

Does not own: waiting, and the other calls of the endpoint.
-/

set_option autoImplicit false

namespace PaintingCPS

open Foundation

namespace Cpp

/-- `recv` from a successful `sem_wait` on: the endpoint, the return value and
the buffer afterwards. Reading past the end of a shorter block, which is
undefined, is a fault here; `recvCopy` takes the bytes behind it instead. -/
def recvInto (endpoint : MsgDistributor) (sock : Int) (recvSem : Nat) (buffer : List Byte)
    (size : Int) : Except Fault (MsgDistributor × Int × List Byte) := do
  let (after, recvChar) ← recvWake endpoint sock recvSem
  match recvChar with
  | none => return (after, -1, buffer)
  | some block =>
      let copied ← readBytes block size
      return (after, 1, ← writeBytes buffer 0 copied)

end Cpp

namespace Java

/-- `recv` from a successful `acquire` on. A null status, queue or block throws,
and so does the end of the buffer; the method then returns 0. -/
def recvInto (endpoint : MsgDistributor) (sockID : Int) (recvSem : Nat) (buf : List Byte)
    (size : Int) : MsgDistributor × Int × List Byte :=
  let woken := { endpoint with
    sems := Function.update endpoint.sems recvSem (endpoint.sems recvSem - 1) }
  match woken.statusMap sockID with
  | none => (woken, 0, buf)
  | some status =>
      if status = 0 then
        ({ woken with statusMap := Function.update woken.statusMap sockID none }, -1, buf)
      else
        match woken.queueMap sockID with
        | none => (woken, 0, buf)
        | some recvQueue =>
            match woken.queues recvQueue with
            | none | some [] => (woken, 0, buf)
            | some (recvByte :: rest) =>
                let getSize := min (recvByte.length : Int) size
                let copied := (recvByte.take getSize.toNat).take buf.length
                ({ woken with queues := Function.update woken.queues recvQueue (some rest) }, 0,
                  copied ++ buf.drop copied.length)

end Java

/-- What the buffer should hold: the message as far as it and `size` go, and
what was there before. -/
def filled (buffer block : List Byte) (size : Int) : List Byte :=
  block.take size.toNat ++ buffer.drop (min block.length size.toNat)

namespace MsgDistributor

/-- `recv` on an open id whose queue starts with this block. -/
structure Receivable (endpoint : MsgDistributor) (sock : Int) (recvSem : Nat)
    (block : List Byte) : Prop where
  semaphore : endpoint.semMap sock = some recvSem
  status : endpoint.statusMap sock = some 1
  queued : ∃ queue rest, endpoint.queueMap sock = some queue ∧
    endpoint.queues queue = some (block :: rest)

/-- The C++ `recv` reads inside the block, and leaves the buffer that the
message and the Java `recv` make of it. -/
def RecvLikeJava (endpoint : MsgDistributor) (sock : Int) (recvSem : Nat)
    (block buffer : List Byte) (size : Int) : Prop :=
  ∃ after,
    Cpp.recvInto endpoint sock recvSem buffer size = .ok (after, 1, filled buffer block size) ∧
    (Java.recvInto endpoint sock recvSem buffer size).2.2 = filled buffer block size

section Copy

variable {endpoint : MsgDistributor} {sock : Int} {recvSem : Nat} {block buffer : List Byte}
  {size : Nat}

/-- Java copies what there is, whatever the size. -/
theorem Receivable.java (receivable : endpoint.Receivable sock recvSem block)
    (room : size ≤ buffer.length) :
    (Java.recvInto endpoint sock recvSem buffer size).2.2 = filled buffer block size := by
  obtain ⟨-, status, queue, rest, queueFound, queueLive⟩ := receivable
  have count : (min (block.length : Int) size).toNat = min block.length size := by omega
  have inside : (block.take (min block.length size)).take buffer.length = block.take size := by
    rw [List.take_take, List.take_eq_take_iff]
    omega
  have copied : (block.take size).length = min block.length size := by
    rw [List.length_take, Nat.min_comm]
  simp only [Java.recvInto, status, queueFound, queueLive, count, inside, copied, filled,
    Int.toNat_natCast]
  rfl

/-- C++ takes the same block from the queue. -/
theorem Receivable.woken (receivable : endpoint.Receivable sock recvSem block) :
    ∃ after, Cpp.recvWake endpoint sock recvSem = .ok (after, some block) := by
  obtain ⟨-, status, queue, rest, queueFound, queueLive⟩ := receivable
  refine ⟨{ endpoint with
    sems := Function.update endpoint.sems recvSem (endpoint.sems recvSem - 1)
    queues := Function.update endpoint.queues queue (some rest) }, ?_⟩
  simp only [Cpp.recvWake, status, Option.getD_some, if_neg (show (1 : Int) ≠ 0 by decide),
    queueFound, deref_some, liveQueue, queueLive, bind, Except.bind]
  rfl

/-- C++ copies `size` bytes when the block has them. -/
theorem Receivable.cpp (receivable : endpoint.Receivable sock recvSem block)
    (room : size ≤ buffer.length) (enough : size ≤ block.length) :
    ∃ after, Cpp.recvInto endpoint sock recvSem buffer size =
      .ok (after, 1, filled buffer block size) := by
  obtain ⟨after, taken⟩ := receivable.woken
  have written : writeBytes buffer 0 (block.take size) = .ok (filled buffer block size) := by
    rw [writeBytes_eq (by rw [List.length_take]; omega), filled, List.length_take,
      Int.toNat_natCast, Nat.min_comm size]
    simp
  refine ⟨after, ?_⟩
  rw [Cpp.recvInto, taken]
  change (readBytes block size >>= fun copied => writeBytes buffer 0 copied >>= _) = _
  rw [readBytes_eq enough]
  change (writeBytes buffer 0 (block.take size) >>= _) = _
  rw [written]
  rfl

/-- With a longer size the read leaves the block. -/
theorem Receivable.cpp_short (receivable : endpoint.Receivable sock recvSem block)
    (short : block.length < size) :
    Cpp.recvInto endpoint sock recvSem buffer size = .error .outOfBounds := by
  obtain ⟨after, taken⟩ := receivable.woken
  have beyond : readBytes block size = .error .outOfBounds := by
    rw [readBytes, if_neg (by omega), Int.toNat_natCast]
    dsimp only
    rw [if_pos (by rw [List.length_take]; omega)]
  rw [Cpp.recvInto, taken]
  change (readBytes block size >>= _) = _
  rw [beyond]
  rfl

/-- Where the memory behind the block is mapped, the bytes that happen to be
there come after it. -/
theorem recvCopy_short {beyond : List Byte} (short : block.length ≤ size) :
    Cpp.recvCopy buffer block beyond size =
      block ++ beyond.take (size - block.length) ++ buffer.drop size := by
  rw [Cpp.recvCopy, List.take_append, List.take_of_length_le short]

end Copy

end MsgDistributor

open MsgDistributor in
/-- The C++ `recv` fills the buffer as the Java `recv` does exactly for sizes
that are at most the length of the message. -/
theorem recv_like_java_iff {endpoint : MsgDistributor} {sock : Int} {recvSem : Nat}
    {block buffer : List Byte} {size : Nat} (receivable : endpoint.Receivable sock recvSem block)
    (room : size ≤ buffer.length) :
    endpoint.RecvLikeJava sock recvSem block buffer size ↔ size ≤ block.length := by
  constructor
  · rintro ⟨after, received, -⟩
    by_contra short
    rw [receivable.cpp_short (Nat.not_le.mp short)] at received
    cases received
  · intro enough
    obtain ⟨after, received⟩ := receivable.cpp room enough
    exact ⟨after, received, receivable.java room⟩

/-- `char response[] = "ok"` of the server, as `listen` stores it. -/
def replyBlock : List Byte := ascii "ok" ++ [nul]

/-- The first connection of the client, with the reply in its queue. -/
def replyStored : MsgDistributor :=
  { MsgDistributor.init.register 1 with
    sems := Function.update (MsgDistributor.init.register 1).sems 0 1
    queues := Function.update (MsgDistributor.init.register 1).queues 0 (some [replyBlock]) }

theorem listen_replyStored (junk : Nat → Byte) :
    Cpp.listen junk (MsgDistributor.init.register 1)
      (some (sockHeader SocketId.first ++ replyBlock)) = .ok (replyStored, 0) := by
  have initialised : (MsgDistributor.init.register 1).mfsockid ≠ -1 := by decide
  have written : Written comma (.sock 1 replyBlock) (sockHeader SocketId.first ++ replyBlock) :=
    ⟨SocketId.first, rfl, rfl⟩
  rw [Cpp.listen_frame initialised junk (.inl rfl) written]
  rfl

private theorem replyStored_receivable : replyStored.Receivable 1 0 replyBlock where
  semaphore := rfl
  status := rfl
  queued := ⟨0, [], rfl, rfl⟩

theorem recv_like_java_iff_three :
    replyStored.RecvLikeJava 1 0 replyBlock (List.replicate 10 7) 3 :=
  (recv_like_java_iff replyStored_receivable (by decide)).mpr (by decide)

/-- The client asks for the ten bytes of its `response` array. -/
theorem reply_overread :
    Cpp.listen (fun _ => 0) (MsgDistributor.init.register 1)
        (some (sockHeader SocketId.first ++ replyBlock)) = .ok (replyStored, 0) ∧
      ¬ replyStored.RecvLikeJava 1 0 replyBlock (List.replicate 10 7) 10 := by
  refine ⟨listen_replyStored _, ?_⟩
  rintro ⟨after, received, -⟩
  have short : Cpp.recvInto replyStored 1 0 (List.replicate 10 7) ((10 : Nat) : Int) =
    .error .outOfBounds := replyStored_receivable.cpp_short (by decide)
  cases short.symm.trans received

end PaintingCPS
