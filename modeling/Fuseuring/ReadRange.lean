/-
**The range arithmetic of `handle_read`.**

`handle_read` clamps the requested size against the size of the backing file in 64-bit
arithmetic and stores the difference to 32 bits. `RangeExact` is what the chain it submits
owes the request: the part of the range that lies in the file, announced in full, read from
the requested place, and computed without a wrap. `RangeFits` is when the handler meets it.
-/

import Fuseuring.Requests

namespace Fuseuring

open Bytes Interaction

/-- What a chain asks of the backing file: the place and the number of bytes. -/
def fileSplice (chain : List Sqe) : Option (Int × Nat) :=
  chain.findSome? fun sqe =>
    match sqe.operation with
    | .splice .backing offset _ _ nbytes => some (offset, nbytes)
    | _ => none

/-- The part of a range that lies in the file. -/
def rangeInFile (ring : FuseRing) (offset size : Nat) : Nat :=
  min size (ring.backingFSize - min offset ring.backingFSize)

/-- The sum and the difference of `clampedSize` are those of the numbers. -/
structure ClampExact (ring : FuseRing) (offset size : Nat) : Prop where
  sum : (offset + size) % 2 ^ 64 = offset + size
  difference : (offset + size) % 2 ^ 64 > ring.backingFSize →
    (((ring.backingFSize + 2 ^ 64 - offset) % 2 ^ 64 % 2 ^ 32 : Nat) : Int) =
      ring.backingFSize - offset

/-- **The submitted range is the requested one**, cut at the end of the file. -/
structure RangeExact (ring : FuseRing) (fuseIo : FuseIo) (offset size : Nat)
    (chain : List Sqe) (mem : Mem)
    (start : Int) (count : Nat) : Prop where
  submitted : fileSplice chain = some (start, count)
  inFile : count = rangeInFile ring offset size
  requested : count ≤ size
  arithmetic : ClampExact ring offset size
  announced : mem.load fuseIo.scratchBuf OutHeader.len = OutHeader.size + count
  place : 0 < count → start = offset ∧ 0 ≤ start

/-- **When a range fits**: it starts in the file or at its end, and the length
of the reply fits 32 bits. -/
def RangeFits (ring : FuseRing) (offset size : Nat) : Prop :=
  offset ≤ ring.backingFSize ∧ OutHeader.size + min size (ring.backingFSize - offset) < 2 ^ 32

/-! ### The clamp -/

section Clamp

variable (ring : FuseRing) {offset size : Nat}

theorem rangeInFile_inside (inside : offset ≤ ring.backingFSize) :
    rangeInFile ring offset size = min size (ring.backingFSize - offset) := by
  rw [rangeInFile, Nat.min_eq_left inside]

/-- **The clamp wraps exactly where the range starts beyond the end of the file.** -/
theorem clampExact_iff (small : size < 2 ^ 32) : ClampExact ring offset size ↔
    offset ≤ ring.backingFSize := by
  have bound := ring.backingFSize_lt
  constructor
  · intro exact
    by_contra beyond
    have larger : (offset + size) % 2 ^ 64 > ring.backingFSize := by
      rw [exact.sum]
      omega
    have negative : (ring.backingFSize : Int) - offset < 0 := by omega
    rw [← exact.difference larger] at negative
    exact absurd negative (Int.not_lt.mpr (Int.natCast_nonneg _))
  · intro inside
    have sum : (offset + size) % 2 ^ 64 = offset + size := Nat.mod_eq_of_lt (by omega)
    refine ⟨sum, fun larger => ?_⟩
    rw [sum] at larger
    have difference : (ring.backingFSize + 2 ^ 64 - offset) % 2 ^ 64 =
        ring.backingFSize - offset := by omega
    have narrow : (ring.backingFSize - offset) % 2 ^ 32 = ring.backingFSize - offset :=
      Nat.mod_eq_of_lt (by omega)
    rw [difference, narrow]
    omega

/-- Where nothing wraps, the clamp is the range in the file. -/
theorem clampedSize_inside (inside : offset ≤ ring.backingFSize) (small : size < 2 ^ 32) :
    clampedSize ring offset size = rangeInFile ring offset size := by
  have exact := (clampExact_iff ring small).mpr inside
  rw [rangeInFile_inside ring inside, clampedSize]
  by_cases larger : (offset + size) % 2 ^ 64 > ring.backingFSize
  · rw [if_pos larger]
    have difference := exact.difference larger
    have sum := exact.sum
    omega
  · rw [if_neg larger]
    have sum := exact.sum
    omega

/-- Beyond the end of the file nothing is left of a range exactly where the sum
does not wrap to a place in the file and the difference vanishes in 32 bits. -/
theorem clampedSize_beyond (beyond : ring.backingFSize < offset) (word : offset < 2 ^ 64)
    (small : size < 2 ^ 32) :
    clampedSize ring offset size = 0 ↔
      ring.backingFSize < (offset + size) % 2 ^ 64 ∧ (offset - ring.backingFSize) % 2 ^ 32 = 0 := by
  rw [clampedSize]
  by_cases larger : (offset + size) % 2 ^ 64 > ring.backingFSize
  · rw [if_pos larger]
    have difference : (ring.backingFSize + 2 ^ 64 - offset) % 2 ^ 64 = ring.backingFSize +
        2 ^ 64 - offset :=
      Nat.mod_eq_of_lt (by omega)
    rw [difference]
    constructor
    · exact fun none => ⟨larger, by omega⟩
    · exact fun both => by omega
  · rw [if_neg larger]
    constructor
    · -- an empty range does not wrap
      intro empty
      subst empty
      rw [Nat.add_zero, Nat.mod_eq_of_lt word] at larger
      exact absurd beyond larger
    · exact fun both => absurd both.1 larger

/-- A place in the file is no negative offset. -/
theorem int64_inside {offset : Nat} (inside : offset < 2 ^ 63) : int64 offset = offset := by
  rw [int64, if_pos inside]

end Clamp

/-! ### The chain -/

section Chain

variable {kernel : Kernel} {ring : FuseRing} {fuseIo : FuseIo} {rbytesBuf : Ptr} {mem : Mem}

/-- A read of the volume queues its chain and nothing else. -/
theorem ReadOutcome.queued {readOffset readSize len : Nat} {pipe left : List UInt8}
    {file file' : File} {rc : Int}
    {events : List Event} {chain : List Sqe} {queuedMem : Mem}
    (outcome : ReadOutcome kernel fuseIo mem readOffset readSize len pipe file rc events left file')
    (queued : .queued chain queuedMem ∈ events) :
    chain = readChain fuseIo readOffset readSize len ∧ queuedMem = mem := by
  cases outcome <;> simp at queued <;> exact queued

/-- The length in the header of a read is assigned modulo `2 ^ 32`. -/
theorem readHeaded_len_mod :
    (readHeaded ring fuseIo rbytesBuf mem).load fuseIo.scratchBuf OutHeader.len =
      (OutHeader.size + clampedSize ring (mem.load rbytesBuf ReadIn.offset)
        (mem.load rbytesBuf ReadIn.count)) % 2 ^ 32 := by
  rw [readHeaded, readReply, outHeader, Mem.load_store_apart _ (Mem.apart_same (by decide)),
    Mem.load_store_same,
    (readClamped_fields ring rbytesBuf mem).2]
  rfl

/-- **A read of the volume submits the requested range exactly where the range fits.** -/
theorem read_range_exact {world : World} (idle : world.Idle)
    (volume : requestNodeid world.mem fuseIo = 3)
    {chain : List Sqe} {queuedMem : Mem}
    (queued : .queued chain queuedMem ∈
      (exec kernel (handleRead ring fuseIo rbytesBuf) world).2.trace.drop world.trace.length) :
    (∃ start count, RangeExact ring fuseIo (world.mem.load rbytesBuf ReadIn.offset)
        (world.mem.load rbytesBuf ReadIn.count) chain queuedMem start count) ↔
      RangeFits ring (world.mem.load rbytesBuf ReadIn.offset)
        (world.mem.load rbytesBuf ReadIn.count) := by
  obtain ⟨rc, events, pipe, file, outcome, ran⟩ :=
    exec_handleRead_outcome kernel fuseIo idle ring rbytesBuf volume
  rw [ran, World.leave_trace, World.setMem_trace, List.drop_left] at queued
  obtain ⟨rfl, rfl⟩ := outcome.queued queued
  have fields := readClamped_fields ring rbytesBuf world.mem
  have len := @readHeaded_len_mod ring fuseIo rbytesBuf world.mem
  have small : world.mem.load rbytesBuf ReadIn.count < 2 ^ 32 := load_lt _ _ 4
  rw [fields.1, fields.2]
  generalize world.mem.load rbytesBuf ReadIn.offset = offset at *
  generalize world.mem.load rbytesBuf ReadIn.count = size at *
  have splice : ∀ len, fileSplice (readChain fuseIo offset (clampedSize ring offset size) len) =
      some (int64 offset, clampedSize ring offset size) := fun _ => rfl
  constructor
  · rintro ⟨start, count, exact⟩
    have inside := (clampExact_iff ring small).mp exact.arithmetic
    have submitted := exact.submitted
    rw [splice, Option.some.injEq, Prod.mk.injEq] at submitted
    obtain ⟨rfl, rfl⟩ := submitted
    have announced := exact.announced
    rw [len] at announced
    refine ⟨inside, ?_⟩
    rw [← rangeInFile_inside ring inside, ← exact.inFile, ← announced]
    exact Nat.mod_lt _ (by decide)
  · rintro ⟨inside, fits⟩
    have inFile := clampedSize_inside ring inside small
    rw [← rangeInFile_inside ring inside, ← inFile] at fits
    refine ⟨_, _, splice _, inFile, ?_, (clampExact_iff ring small).mpr inside,
      len.trans (Nat.mod_eq_of_lt fits), ?_⟩
    · rw [inFile]
      exact Nat.min_le_left _ _
    · intro _
      rw [int64_inside (lt_of_le_of_lt inside ring.backingFSize_lt)]
      exact ⟨rfl, Int.natCast_nonneg _⟩

/-! ### Two ranges -/

/-- A slot in which `handle_read` finds a range of the volume. -/
def rangeSlot (offset size : Nat) : World :=
  handlerSlot (sessionMessage .read 7 3 (rangeBody offset size))

/-- `handle_read` of a range, its request in `header_buf`. -/
def readRange (offset size : Nat) : List Event :=
  (exec Kernel.full (handleRead FuseRing.small ⟨0⟩ ((FuseIo.headerBuf ⟨0⟩).add InHeader.size))
    (rangeSlot offset size)).2.trace

/-- A chain is queued that asks for this place and this number of bytes. -/
def Event.asksFile (place : Int × Nat) : Event → Bool
  | .queued chain _ => fileSplice chain == some place
  | _ => false

theorem queued_of_asksFile {place : Int × Nat} {events : List Event}
    (asked : events.any (Event.asksFile place) = true) :
    ∃ chain mem, .queued chain mem ∈ events ∧ fileSplice chain = some place := by
  obtain ⟨event, member, asks⟩ := List.any_eq_true.mp asked
  cases event with
  | queued chain mem => exact ⟨chain, mem, member, eq_of_beq asks⟩
  | called function => cases asks
  | ran operation pipe bytes res => cases asks

/-- Reading 100 bytes across the end of the file. -/
theorem straddling_range_exact :
    ∃ chain mem start count, .queued chain mem ∈ readRange 4000 100 ∧
      RangeExact FuseRing.small ⟨0⟩ 4000 100 chain mem start count := by
  obtain ⟨chain, mem, queued, -⟩ :=
    queued_of_asksFile (show (readRange 4000 100).any (Event.asksFile (4000, 96)) = true by
    decide +kernel)
  have volume : requestNodeid (rangeSlot 4000 100).mem ⟨0⟩ = 3 := by decide +kernel
  have request : (rangeSlot 4000 100).mem.load
      ((FuseIo.headerBuf ⟨0⟩).add InHeader.size) ReadIn.offset = 4000 ∧
      (rangeSlot 4000 100).mem.load ((FuseIo.headerBuf ⟨0⟩).add InHeader.size) ReadIn.count =
        100 := by decide +kernel
  have fits : RangeFits FuseRing.small 4000 100 := ⟨by decide, by decide⟩
  have exact := read_range_exact ⟨rfl, rfl⟩ volume queued
  rw [request.1, request.2] at exact
  obtain ⟨start, count, range⟩ := exact.mpr fits
  exact ⟨chain, mem, start, count, queued, range⟩

/-- **Reading one byte beyond the end of the file**: 4294966392 bytes are asked
for, and none is there. -/
theorem range_beyond_end_wraps :
    ∃ chain mem, .queued chain mem ∈ readRange 5000 1 ∧ fileSplice chain = some (5000, 4294966392) ∧
      ∀ start count, ¬ RangeExact FuseRing.small ⟨0⟩ 5000 1 chain mem start count := by
  obtain ⟨chain, mem, queued, asked⟩ := queued_of_asksFile (show (readRange 5000 1).any
    (Event.asksFile (5000, 4294966392)) = true by decide +kernel)
  refine ⟨chain, mem, queued, asked, fun start count exact => ?_⟩
  have submitted := exact.submitted
  rw [asked, Option.some.injEq, Prod.mk.injEq] at submitted
  have inFile := exact.inFile
  rw [← submitted.2] at inFile
  exact absurd inFile (by decide)

end Chain

end Fuseuring
