/-
**Kernels without I/O errors.**

`Kernel.Completes` says of a kind of operations that they move all the bytes
there are. Where entries are to be had and the operations a handler queues
complete, a reply ends in the verdict of the session: a reply, a read and a write
of the volume return 0 as soon as the session accepts what stands in the pipe.
-/

import Fuseuring.Framing

namespace Fuseuring

open Bytes Interaction

/-- Every operation of a kind moves all the bytes there are, as far as an `int` reports them. -/
def Kernel.Completes (kernel : Kernel) (kind : Operation → Prop) : Prop :=
  ∀ (world : World) (sqe : Sqe) (bytes : List UInt8), kind sqe.operation →
    world.available sqe.operation = some bytes → bytes.length < 2 ^ 31 →
      (bytes.length : Int) ≤ kernel.result world sqe

/-- What a handler queues, but for the splice that hands the reply over. -/
def Operation.Serves (operation : Operation) : Prop := operation.Plain ∧ operation.toFuse = false

/-- The session takes this reply. -/
def Kernel.Accepts (kernel : Kernel) (fuseIo : FuseIo) (reply : List UInt8) : Prop :=
  ∀ world : World, world.pipe = reply →
    (reply.length : Int) ≤ kernel.result world ⟨replySplice fuseIo reply.length, .none⟩

section Moved

variable {kernel : Kernel} {sqe : Sqe} {pipe available bytes : List UInt8} {res : Int}

/-- **A transfer that completes is whole.** -/
theorem World.Moved.complete (moved : World.Moved kernel sqe pipe available bytes res)
    (least : ∀ world : World, world.pipe = pipe → world.available sqe.operation = some available →
      (available.length : Int) ≤ kernel.result world sqe)
    (offers : available ≠ [] ∨ ∀ world : World, world.available sqe.operation ≠ none) :
    bytes = available ∧ res = available.length := by
  have reached : available.length ≤ bytes.length := moved.reached least le_rfl
  obtain ⟨world, found, granted⟩ := moved.granted
  refine moved.whole ?_
  rcases moved.result with rfl | ⟨negative, rfl⟩
  · exact Int.ofNat_le.mpr reached
  · have empty : available = [] := List.eq_nil_of_length_eq_zero (Nat.le_zero.mp reached)
    rcases granted with ⟨refused, -⟩ | ⟨offered, positive, -⟩
    · exact absurd refused (offers.resolve_left (not_not.mpr empty) world)
    · have granted := positive (le_trans (Int.natCast_nonneg _) (least world found offered))
      exact absurd granted (not_le.mpr negative)

theorem World.Moved.completes {kind : Operation → Prop}
    (moved : World.Moved kernel sqe pipe available bytes res)
    (completes : kernel.Completes kind) (served : kind sqe.operation)
    (small : available.length < 2 ^ 31)
    (offers : available ≠ [] ∨ ∀ world : World, world.available sqe.operation ≠ none) :
    bytes = available ∧ res = available.length :=
  moved.complete (fun world _ offered => completes world sqe available served offered small) offers

end Moved

section Outcomes

variable {kernel : Kernel} {fuseIo : FuseIo} {mem : Mem}

/-- A reply through an empty pipe. -/
theorem ReplyOutcome.completes {write : Operation} {reply left : List UInt8} {rc : Int}
    {events : List Event}
    (entries : ∀ world peek, kernel.sqe world peek = true)
    (serves : kernel.Completes Operation.Serves)
    (served : write.Serves) (nonempty : reply ≠ []) (small : reply.length < 2 ^ 31)
    (accepts : kernel.Accepts fuseIo reply)
    (outcome : ReplyOutcome kernel fuseIo mem write reply [] rc events left) : rc = 0 := by
  cases outcome with
  | unqueued missing =>
    obtain ⟨world, missing⟩ := missing
    exact absurd (entries world 2) missing
  | cut bytes res moved short =>
    obtain ⟨-, rfl⟩ := moved.completes serves served small (Or.inl nonempty)
    exact absurd short (lt_irrefl _)
  | lost bytes res moved short =>
    rw [List.nil_append, List.take_length] at moved
    obtain ⟨-, rfl⟩ := moved.complete (fun world found _ => accepts world found) (Or.inl nonempty)
    exact absurd rfl short
  | delivered => rfl

/-- A read of the volume through an empty pipe, of bytes that the file has. -/
theorem ReadOutcome.completes {readOffset readSize len : Nat} {left : List UInt8}
    {file file' : File} {rc : Int}
    {events : List Event} (entries : ∀ world peek, kernel.sqe world peek = true)
    (serves : kernel.Completes Operation.Serves) (exact : len = OutHeader.size + readSize)
    (small : OutHeader.size + readSize < 2 ^ 31)
    (backed : (file.source (int64 readOffset) readSize).length = readSize)
    (accepts : kernel.Accepts fuseIo
      (mem.bytes fuseIo.scratchBuf OutHeader.size ++ file.source (int64 readOffset) readSize))
    (outcome : ReadOutcome kernel fuseIo mem readOffset readSize len [] file rc events left file') :
      rc = 0 := by
  have size : (mem.bytes fuseIo.scratchBuf OutHeader.size).length = OutHeader.size :=
    length_slice _ _ _
  cases outcome with
  | unqueued missing =>
    obtain ⟨world, missing⟩ := missing
    exact absurd (entries world 3) missing
  | cutHeader bytes res moved short =>
    obtain ⟨-, rfl⟩ := moved.completes serves ⟨trivial, rfl⟩ (by rw [size]; decide)
      (Or.inl (List.ne_nil_of_length_pos (by rw [size]; decide)))
    rw [size] at short
    exact absurd short (lt_irrefl _)
  | cutData data res moved short =>
    have offers : file.source (int64 readOffset) readSize ≠ [] ∨
        ∀ world : World, world.available (dataSplice fuseIo readOffset readSize) ≠ none := by
      by_cases none : readSize = 0
      · right
        intro world
        simp [World.available, dataSplice, none]
      · left
        exact List.ne_nil_of_length_pos (by omega)
    obtain ⟨-, rfl⟩ := moved.completes serves ⟨trivial, rfl⟩ (by omega) offers
    rw [backed] at short
    exact absurd short (lt_irrefl _)
  | sent data bytes res whole full fits moved =>
    subst whole
    have count : (mem.bytes fuseIo.scratchBuf OutHeader.size ++ file.source
        (int64 readOffset) readSize).length =
        len := by
      rw [List.length_append, size, full, exact]
    rw [List.nil_append, ← count, List.take_length] at moved
    obtain ⟨-, rfl⟩ := moved.complete (fun world found _ => accepts world found)
      (Or.inl (List.ne_nil_of_length_pos (by rw [count, exact, OutHeader.size]; omega)))
    rw [count, if_neg (lt_irrefl _)]

/-- A write to the volume of a payload as long as its size. -/
theorem WriteOutcome.completes {writeOffset writeSize len : Nat} {pipe left : List UInt8}
    {file file' : File}
    {rc : Int} {events : List Event} {mem' : Mem}
    (entries : ∀ world peek, kernel.sqe world peek = true)
    (serves : kernel.Completes Operation.Serves) (exact : len = OutHeader.size + WriteOut.size)
    (covered : pipe.length = writeSize) (small : writeSize < 2 ^ 31)
    (accepted : file.accepts (int64 writeOffset) writeSize pipe = pipe)
    (accepts : kernel.Accepts fuseIo (mem.bytes fuseIo.scratchBuf len))
    (outcome : WriteOutcome kernel fuseIo mem writeOffset writeSize len pipe file rc events
      mem' left file') :
    rc = 0 := by
  have size : (mem.bytes fuseIo.scratchBuf len).length = len := length_slice _ _ _
  have nonempty : mem.bytes fuseIo.scratchBuf len ≠ [] :=
    List.ne_nil_of_length_pos (by rw [size, exact]; decide)
  cases outcome with
  | unqueued missing =>
    obtain ⟨world, missing⟩ := missing
    exact absurd (entries world 3) missing
  | fallback payload res moved short reply =>
    have offers : file.accepts (int64 writeOffset) writeSize pipe ≠ [] ∨
        ∀ world : World, world.available (payloadSplice fuseIo writeOffset writeSize) ≠ none := by
      by_cases none : writeSize = 0
      · right
        intro world
        simp [World.available, payloadSplice, none]
      · left
        rw [accepted]
        exact List.ne_nil_of_length_pos (by omega)
    obtain ⟨-, rfl⟩ := moved.completes serves ⟨trivial, rfl⟩ (by rw [accepted]; omega) offers
    rw [accepted, covered] at short
    exact absurd short (lt_irrefl _)
  | cutReply payload whole full bytes res moved short =>
    obtain ⟨-, rfl⟩ :=
      moved.completes serves ⟨trivial, rfl⟩ (by rw [size, exact]; decide) (Or.inl nonempty)
    rw [size] at short
    exact absurd short (lt_irrefl _)
  | sent payload whole full bytes res moved =>
    rw [← covered, List.drop_length, List.nil_append, List.take_of_length_le size.le] at moved
    have accepts' : ∀ world : World, world.pipe = mem.bytes fuseIo.scratchBuf len →
        ((mem.bytes fuseIo.scratchBuf len).length : Int) ≤ kernel.result world
          ⟨replySplice fuseIo len, .none⟩ := by
      intro world found
      have taken := accepts world found
      rwa [size] at taken ⊢
    obtain ⟨-, rfl⟩ := moved.complete (fun world found _ => accepts' world found) (Or.inl nonempty)
    rw [size, if_pos rfl]

end Outcomes

end Fuseuring
