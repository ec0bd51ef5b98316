/-
**How the volume is read and written.**

`ReadOutcome` and `WriteOutcome` list every way the chains of `handle_read` and `handle_write`
end, as `ReplyOutcome` does for a reply: the result, the events, and what is left in the pipe and
in the file. `handle_write` goes on behind its chain: its fallback reply is part of the outcome.
-/

import Fuseuring.Replies

namespace Fuseuring

open Bytes Interaction

/-! ### How a read of the volume ends -/

/-- The bytes a splice from the file can move. -/
def File.source (file : File) (offset : Int) (count : Nat) : List UInt8 :=
  if count = 0 then [] else ((file.start offset).map fun start => file.read start count).getD []

theorem File.source_length (file : File) (offset : Int) (count : Nat) :
    (file.source offset count).length ≤ count := by
  unfold File.source
  split
  · exact Nat.zero_le _
  · cases file.start offset with
    | none => exact Nat.zero_le _
    | some start => simp [File.read]

/-- A range that the file has is there whole. -/
theorem File.source_inside (file : File) {offset count : Nat} (small : offset < 2 ^ 63)
    (inside : offset + count ≤ file.size) : (file.source (int64 offset) count).length = count := by
  unfold File.source
  by_cases none : count = 0
  · rw [if_pos none, none]
    rfl
  rw [if_neg none, File.start, int64, if_pos small, if_neg (by omega), if_neg (by omega),
    Option.map_some, Option.getD_some, File.read, length_slice, Int.toNat_natCast]
  omega

/-- The write of the header in front of the data. -/
def headerWrite (fuseIo : FuseIo) : Operation :=
  .writeFixed (.pipe1 fuseIo) fuseIo.scratchBuf OutHeader.size

/-- The splice of the data behind the header. -/
def dataSplice (fuseIo : FuseIo) (readOffset readSize : Nat) : Operation :=
  .splice .backing (int64 readOffset) (.pipe1 fuseIo) (-1) readSize

/-- How the chain of `handle_read` ends: result, events, pipe and file. -/
inductive ReadOutcome (kernel : Kernel) (fuseIo : FuseIo) (mem : Mem)
    (readOffset readSize len : Nat)
    (pipe : List UInt8) (file : File) : Int → List Event → List UInt8 → File → Prop
  | unqueued (missing : ∃ world, kernel.sqe world 3 ≠ true) :
      ReadOutcome kernel fuseIo mem readOffset readSize len pipe file (-1) [] pipe file
  | cutHeader (bytes : List UInt8) (res : Int)
      (moved : World.Moved kernel ⟨headerWrite fuseIo, .link⟩ pipe
        (mem.bytes fuseIo.scratchBuf OutHeader.size) bytes res)
      (short : res < OutHeader.size) :
      ReadOutcome kernel fuseIo mem readOffset readSize len pipe file (-1)
        [.queued (readChain fuseIo readOffset readSize len) mem,
          .ran (headerWrite fuseIo) pipe bytes res]
        (pipe ++ bytes) file
  | cutData (data : List UInt8) (res : Int)
      (moved : World.Moved kernel ⟨dataSplice fuseIo readOffset readSize, .link⟩
        (pipe ++ mem.bytes fuseIo.scratchBuf OutHeader.size)
          (file.source (int64 readOffset) readSize) data res)
      (short : res < readSize) :
      ReadOutcome kernel fuseIo mem readOffset readSize len pipe file (-1)
        [.queued (readChain fuseIo readOffset readSize len) mem,
          .ran (headerWrite fuseIo) pipe
            (mem.bytes fuseIo.scratchBuf OutHeader.size) OutHeader.size,
          .ran (dataSplice fuseIo readOffset readSize)
            (pipe ++ mem.bytes fuseIo.scratchBuf OutHeader.size) data res]
        (pipe ++ mem.bytes fuseIo.scratchBuf OutHeader.size ++ data)
        (file.seek (int64 readOffset) data.length)
  | sent (data bytes : List UInt8) (res : Int)
    (whole : data = file.source (int64 readOffset) readSize)
      (full : data.length = readSize) (fits : readSize < 2 ^ 31)
      (moved : World.Moved kernel ⟨replySplice fuseIo len, .none⟩
        (pipe ++ mem.bytes fuseIo.scratchBuf OutHeader.size ++ data)
        ((pipe ++ mem.bytes fuseIo.scratchBuf OutHeader.size ++ data).take len) bytes res) :
      ReadOutcome kernel fuseIo mem readOffset readSize len pipe file (if res < len then -1 else 0)
        [.queued (readChain fuseIo readOffset readSize len) mem,
          .ran (headerWrite fuseIo) pipe
            (mem.bytes fuseIo.scratchBuf OutHeader.size) OutHeader.size,
          .ran (dataSplice fuseIo readOffset readSize)
            (pipe ++ mem.bytes fuseIo.scratchBuf OutHeader.size) data readSize,
          .ran (replySplice fuseIo len) (pipe ++ mem.bytes fuseIo.scratchBuf OutHeader.size ++ data)
            bytes res]
        ((pipe ++ mem.bytes fuseIo.scratchBuf OutHeader.size ++ data).drop bytes.length)
        (file.seek (int64 readOffset) data.length)

section Outcomes

variable (kernel : Kernel) (world : World) (fuseIo : FuseIo) (readOffset readSize len : Nat)

/-- The splice of the data: it is cut, or all of it is behind what the pipe holds. -/
theorem runChain_dataSplice (rest : List Sqe) :
    (∃ data res, World.Moved kernel ⟨dataSplice fuseIo readOffset readSize, .link⟩ world.pipe
        (world.file.source (int64 readOffset) readSize) data res ∧ res < readSize ∧
      World.runChain kernel (⟨dataSplice fuseIo readOffset readSize, .link⟩ :: rest) world =
        (res :: rest.map fun _ => -ECANCELED,
          world.leave (world.pipe ++ data) (world.file.seek (int64 readOffset) data.length)
            [.ran (dataSplice fuseIo readOffset readSize) world.pipe data res])) ∨
    ∃ data after, data = world.file.source (int64 readOffset) readSize ∧ data.length = readSize ∧
      readSize < 2 ^ 31 ∧
      after = world.leave (world.pipe ++ data) (world.file.seek (int64 readOffset) data.length)
        [.ran (dataSplice fuseIo readOffset readSize) world.pipe data readSize] ∧
      World.runChain kernel (⟨dataSplice fuseIo readOffset readSize, .link⟩ :: rest) world =
        ((readSize : Int) :: (World.runChain kernel rest after).1,
          (World.runChain kernel rest after).2) := by
  have available : (world.available (dataSplice fuseIo readOffset readSize)).getD [] =
      world.file.source (int64 readOffset) readSize := by
    simp only [World.available, dataSplice, File.source]
    split <;> rfl
  obtain ⟨data, res, moved, ⟨cut, ran⟩ | ⟨full, ran⟩⟩ := runChain_link kernel world
    (show (dataSplice fuseIo readOffset readSize).Plain from trivial) rest
  all_goals rw [available] at moved
  · exact Or.inl ⟨data, res, moved, cut, ran⟩
  · right
    have bound := world.file.source_length (int64 readOffset) readSize
    obtain ⟨rfl, rfl⟩ := moved.whole (le_trans (Int.ofNat_le.mpr bound) full)
    have count : (world.file.source (int64 readOffset) readSize).length = readSize :=
      le_antisymm bound (Int.ofNat_le.mp full)
    refine ⟨_, _, rfl, count, count ▸ moved.fits, rfl, ?_⟩
    rw [ran, count]
    simp only [World.moved, World.transfer, dataSplice, count]

/-- **How the chain of `handle_read` ends.** -/
theorem submit_readChain :
    ∃ rc events pipe file, ReadOutcome kernel fuseIo world.mem readOffset readSize len
      world.pipe world.file
        rc events pipe file ∧
      (readRc (world.submit kernel (readChain fuseIo readOffset readSize len)).1 readSize len,
        (world.submit kernel (readChain fuseIo readOffset readSize len)).2) =
          (rc, world.leave pipe file events) := by
  have chain : readChain fuseIo readOffset readSize len =
      ⟨headerWrite fuseIo, .link⟩ :: ⟨dataSplice fuseIo readOffset readSize, .link⟩ ::
        [⟨replySplice fuseIo len, .none⟩] := rfl
  have header : WritesReply world.mem (headerWrite fuseIo)
      (world.mem.bytes fuseIo.scratchBuf OutHeader.size) :=
    writesReply_fixed _ _ _ _
  have size : (world.mem.bytes fuseIo.scratchBuf OutHeader.size).length = OutHeader.size := by
    simp [Mem.bytes]
  rw [World.submit, World.record_leave]
  generalize queued : Event.queued (readChain fuseIo readOffset readSize len) world.mem = event
  rw [chain]
  generalize written : world.mem.bytes fuseIo.scratchBuf OutHeader.size = bytes at header size
  rcases runChain_write kernel (world.leave world.pipe world.file [event]) header
    [⟨dataSplice fuseIo readOffset readSize, .link⟩, ⟨replySplice fuseIo len, .none⟩]
    with ⟨part, res, moved, cut, ran⟩ | ran
  all_goals
    simp only [World.leave_pipe, World.leave_file, World.leave_leave, List.cons_append,
      List.nil_append,
      size] at ran
    rw [ran]
  · rw [size] at cut
    refine ⟨_, _, _, _, .cutHeader part res (written ▸ moved) cut, ?_⟩
    simp [queued, readRc, ECANCELED]
  rcases runChain_dataSplice kernel (world.leave (world.pipe ++ bytes) world.file
      [event, .ran (headerWrite fuseIo) world.pipe bytes OutHeader.size]) fuseIo readOffset readSize
      [⟨replySplice fuseIo len, .none⟩]
    with ⟨data, res, moved, cut, ran⟩ | ⟨data, after, whole, full, fits, rfl, ran⟩
  all_goals
    simp only [World.leave_pipe, World.leave_file, World.leave_leave, List.cons_append,
      List.nil_append] at ran
    rw [ran]
  · refine ⟨_, _, _, _, .cutData data res (written ▸ moved) cut, ?_⟩
    simp [queued, readRc, ECANCELED, written]
  obtain ⟨out, res, moved, ran⟩ := runChain_replySplice kernel
    (world.leave (world.pipe ++ bytes ++ data) (world.file.seek (int64 readOffset) data.length)
      [event, .ran (headerWrite fuseIo) world.pipe bytes OutHeader.size,
        .ran (dataSplice fuseIo readOffset readSize)
          (world.pipe ++ bytes) data readSize]) fuseIo len
  simp only [World.leave_pipe, World.leave_file, World.leave_leave, List.cons_append,
    List.nil_append] at moved ran
  rw [ran]
  refine ⟨_, _, _, _, .sent data out res whole full fits (written ▸ moved), ?_⟩
  have rc : readRc [(OutHeader.size : Int), readSize, res] readSize len = if res < len
      then -1 else 0 := by
    by_cases negative : res < 0
    · have short : res < len := by omega
      simp [readRc, negative, short]
    · simp [readRc, negative]
  simp only [rc, queued, written]

end Outcomes

/-! ### How a write to the volume ends -/

/-- The splice of the payload to the backing file. -/
def payloadSplice (fuseIo : FuseIo) (writeOffset writeSize : Nat) : Operation :=
  .splice (.pipe0 fuseIo) (-1) .backing (int64 writeOffset) writeSize

/-- The write of the success reply. -/
def successWrite (fuseIo : FuseIo) (len : Nat) : Operation :=
  .writeFixed (.pipe1 fuseIo) fuseIo.scratchBuf len

/-- The file behind a splice from the pipe. -/
def File.absorb (file : File) (offset : Int) (bytes : List UInt8) : File :=
  (file.write ((file.start offset).getD 0) bytes).seek offset bytes.length

/-- The bytes a splice to the file can move. -/
def File.accepts (file : File) (offset : Int) (count : Nat) (pipe : List UInt8) : List UInt8 :=
  if count = 0 then [] else ((file.start offset).map fun _ => pipe.take count).getD []

theorem File.accepts_prefix (file : File) (offset : Int) (count : Nat) (pipe : List UInt8) :
    file.accepts offset count pipe <+: pipe.take count := by
  unfold File.accepts
  split
  · exact List.nil_prefix
  · cases file.start offset with
    | none => exact List.nil_prefix
    | some start => exact List.prefix_rfl

/-- The reply after a splice of the payload that failed or was short. -/
def writeFallback (fuseIo : FuseIo) (rc : Int) (mem : Mem) : Mem :=
  if rc < 0 then writeFailed fuseIo rc mem else writeShort fuseIo rc mem

/-- How `handle_write` ends from its chain on: result, events, memory, pipe and file. -/
inductive WriteOutcome (kernel : Kernel) (fuseIo : FuseIo) (mem : Mem)
    (writeOffset writeSize len : Nat)
    (pipe : List UInt8) (file : File) : Int → List Event → Mem → List UInt8 → File → Prop
  | unqueued (missing : ∃ world, kernel.sqe world 3 ≠ true) :
      WriteOutcome kernel fuseIo mem writeOffset writeSize len pipe file (-1) [] mem pipe file
  | fallback (payload : List UInt8) (res : Int)
      (moved : World.Moved kernel ⟨payloadSplice fuseIo writeOffset writeSize, .link⟩ pipe
        (file.accepts (int64 writeOffset) writeSize pipe) payload res)
      (short : res < writeSize) {rc : Int} {events : List Event} {left : List UInt8}
      (reply : ReplyOutcome kernel fuseIo (writeFallback fuseIo res mem)
        (scratchReply fuseIo (writeFallback fuseIo res mem))
        (scratchBytes fuseIo (writeFallback fuseIo res mem))
          (pipe.drop payload.length) rc events left) :
      WriteOutcome kernel fuseIo mem writeOffset writeSize len pipe file rc
        (.queued (writeChain fuseIo writeOffset writeSize len) mem ::
          .ran (payloadSplice fuseIo writeOffset writeSize) pipe payload res ::
          .called .sendReply :: events)
        (writeFallback fuseIo res mem) left (file.absorb (int64 writeOffset) payload)
  | cutReply (payload : List UInt8) (whole : payload = file.accepts
    (int64 writeOffset) writeSize pipe)
      (full : payload.length = writeSize) (bytes : List UInt8) (res : Int)
      (moved : World.Moved kernel ⟨successWrite fuseIo len, .link⟩ (pipe.drop writeSize)
        (mem.bytes fuseIo.scratchBuf len) bytes res)
      (short : res < len) :
      WriteOutcome kernel fuseIo mem writeOffset writeSize len pipe file (-1)
        [.queued (writeChain fuseIo writeOffset writeSize len) mem,
          .ran (payloadSplice fuseIo writeOffset writeSize) pipe payload writeSize,
          .ran (successWrite fuseIo len) (pipe.drop writeSize) bytes res]
        mem (pipe.drop writeSize ++ bytes) (file.absorb (int64 writeOffset) payload)
  | sent (payload : List UInt8) (whole : payload = file.accepts (int64 writeOffset) writeSize pipe)
      (full : payload.length = writeSize) (bytes : List UInt8) (res : Int)
      (moved : World.Moved kernel ⟨replySplice fuseIo len, .none⟩
        (pipe.drop writeSize ++ mem.bytes fuseIo.scratchBuf len)
        ((pipe.drop writeSize ++ mem.bytes fuseIo.scratchBuf len).take len) bytes res) :
      WriteOutcome kernel fuseIo mem writeOffset writeSize len pipe file
        (if res = len then 0 else -1)
        [.queued (writeChain fuseIo writeOffset writeSize len) mem,
          .ran (payloadSplice fuseIo writeOffset writeSize) pipe payload writeSize,
          .ran (successWrite fuseIo len) (pipe.drop writeSize)
            (mem.bytes fuseIo.scratchBuf len) len,
          .ran (replySplice fuseIo len)
            (pipe.drop writeSize ++ mem.bytes fuseIo.scratchBuf len) bytes res]
        mem ((pipe.drop writeSize ++ mem.bytes fuseIo.scratchBuf len).drop bytes.length)
        (file.absorb (int64 writeOffset) payload)

section Outcomes

variable (kernel : Kernel) {world : World} (fuseIo : FuseIo) (writeOffset writeSize len : Nat)

/-- The splice of the payload: it is cut, or all of the size asked for has left the pipe. -/
theorem runChain_payloadSplice (world : World) (rest : List Sqe) :
    (∃ payload res, World.Moved kernel ⟨payloadSplice fuseIo writeOffset writeSize,
      .link⟩ world.pipe
        (world.file.accepts (int64 writeOffset) writeSize world.pipe) payload res ∧
        res < writeSize ∧
      World.runChain kernel (⟨payloadSplice fuseIo writeOffset writeSize, .link⟩ :: rest) world =
        (res :: rest.map fun _ => -ECANCELED,
          world.leave (world.pipe.drop payload.length)
          (world.file.absorb (int64 writeOffset) payload)
            [.ran (payloadSplice fuseIo writeOffset writeSize) world.pipe payload res])) ∨
    ∃ payload after, payload = world.file.accepts (int64 writeOffset) writeSize world.pipe ∧
      payload.length = writeSize ∧
      after = world.leave (world.pipe.drop writeSize)
      (world.file.absorb (int64 writeOffset) payload)
        [.ran (payloadSplice fuseIo writeOffset writeSize) world.pipe payload writeSize] ∧
      World.runChain kernel (⟨payloadSplice fuseIo writeOffset writeSize, .link⟩ :: rest) world =
        ((writeSize : Int) :: (World.runChain kernel rest after).1,
          (World.runChain kernel rest after).2) := by
  have available : (world.available (payloadSplice fuseIo writeOffset writeSize)).getD [] =
      world.file.accepts (int64 writeOffset) writeSize world.pipe := by
    simp only [World.available, payloadSplice, File.accepts]
    split <;> rfl
  obtain ⟨payload, res, moved, ⟨cut, ran⟩ | ⟨full, ran⟩⟩ := runChain_link kernel world
    (show (payloadSplice fuseIo writeOffset writeSize).Plain from trivial) rest
  all_goals rw [available] at moved
  · exact Or.inl ⟨payload, res, moved, cut, ran⟩
  · right
    have bound : (world.file.accepts (int64 writeOffset) writeSize world.pipe).length ≤ writeSize :=
      (world.file.accepts_prefix _ _ _).length_le.trans (List.length_take_le _ _)
    obtain ⟨rfl, rfl⟩ := moved.whole (le_trans (Int.ofNat_le.mpr bound) full)
    have count : (world.file.accepts (int64 writeOffset) writeSize world.pipe).length = writeSize :=
      le_antisymm bound (Int.ofNat_le.mp full)
    refine ⟨_, _, rfl, count, rfl, ?_⟩
    rw [ran, count]
    simp only [World.moved, World.transfer, payloadSplice, count, File.absorb]

/-- The tests of `handle_write` behind its chain. -/
def writeTail (writeSize len : Nat) (done : List Int × World) : Int × World :=
  if done.1.getD 0 (-1) < 0 then
    exec kernel (replyWith fuseIo (writeFailed fuseIo (done.1.getD 0 (-1)))) done.2
  else if done.1.getD 0 (-1) < writeSize then
    exec kernel (replyWith fuseIo (writeShort fuseIo (done.1.getD 0 (-1)))) done.2
  else if done.1.getD 1 (-1) < 0 ∨ done.1.getD 2 (-1) < 0 ∨ done.1.getD 1 (-1) ≠ len ∨
    done.1.getD 2 (-1) ≠ len then (-1, done.2)
  else (0, done.2)

/-- A first result below the size leads to the fallback. -/
theorem writeTail_short {res : Int} (short : res < writeSize) (others : List Int) (after : World) :
    writeTail kernel fuseIo writeSize len (res :: others, after) =
      exec kernel (replyWith fuseIo (writeFallback fuseIo res)) after := by
  have same : writeFallback fuseIo res =
      if res < 0 then writeFailed fuseIo res else writeShort fuseIo res := by
    funext mem
    rw [writeFallback]
    split <;> rfl
  rw [same]
  simp only [writeTail, List.getD_cons_zero, if_pos short]
  split <;> rfl

/-- A complete first result leaves only the other two to be tested. -/
theorem writeTail_full (second third : Int) (after : World) :
    writeTail kernel fuseIo writeSize len ([(writeSize : Int), second, third], after) =
      (if second = len ∧ third = len then 0 else -1, after) := by
  have nonneg : ¬ ((writeSize : Int) < 0) := by omega
  simp only [writeTail, List.getD_cons_zero, List.getD_cons_succ, if_neg nonneg,
    lt_irrefl, if_false]
  by_cases both : second = len ∧ third = len
  · obtain ⟨rfl, rfl⟩ := both
    simp
  · rw [if_neg both, if_pos]
    rcases not_and_or.mp both with other | other
    · exact Or.inr (Or.inr (Or.inl other))
    · exact Or.inr (Or.inr (Or.inr other))

/-- **How `handle_write` ends from its chain on.** -/
theorem submit_writeChain (idle : world.Idle) :
    ∃ rc events mem pipe file, WriteOutcome kernel fuseIo world.mem writeOffset writeSize len
      world.pipe world.file
        rc events mem pipe file ∧
      writeTail kernel fuseIo writeSize len
        (world.submit kernel (writeChain fuseIo writeOffset writeSize len)) =
          (rc, (world.setMem mem).leave pipe file events) := by
  have chain : writeChain fuseIo writeOffset writeSize len =
      ⟨payloadSplice fuseIo writeOffset writeSize, .link⟩ :: ⟨successWrite fuseIo len, .link⟩ ::
        [⟨replySplice fuseIo len, .none⟩] := rfl
  have writes : WritesReply world.mem (successWrite fuseIo len)
      (world.mem.bytes fuseIo.scratchBuf len) :=
    writesReply_fixed _ _ _ _
  have size : (world.mem.bytes fuseIo.scratchBuf len).length = len := by simp [Mem.bytes]
  rw [World.submit, World.record_leave]
  generalize queued : Event.queued (writeChain fuseIo writeOffset writeSize len) world.mem = event
  rw [chain]
  rcases runChain_payloadSplice kernel fuseIo writeOffset writeSize
    (world.leave world.pipe world.file [event])
      [⟨successWrite fuseIo len, .link⟩, ⟨replySplice fuseIo len, .none⟩]
    with ⟨payload, res, moved, cut, ran⟩ | ⟨payload, after, whole, full, rfl, ran⟩
  all_goals
    simp only [World.leave_pipe, World.leave_file, World.leave_leave, List.cons_append,
      List.nil_append] at ran
    rw [ran]
  · rw [writeTail_short kernel fuseIo _ _ cut]
    obtain ⟨rc, events, left, reply, ran⟩ := exec_replyWith_outcome kernel fuseIo
      (idle.leave (world.pipe.drop payload.length) (world.file.absorb (int64 writeOffset) payload)
        [event, .ran (payloadSplice fuseIo writeOffset writeSize) world.pipe payload res])
      (writeFallback fuseIo res)
    refine ⟨_, _, _, _, _, .fallback payload res moved cut reply, ?_⟩
    rw [ran]
    simp [World.leave, World.setMem, queued]
  generalize written : world.mem.bytes fuseIo.scratchBuf len = reply at writes size
  rcases runChain_write kernel (world.leave (world.pipe.drop writeSize)
      (world.file.absorb (int64 writeOffset) payload)
      [event, .ran (payloadSplice fuseIo writeOffset writeSize) world.pipe payload writeSize])
        writes
    [⟨replySplice fuseIo len, .none⟩] with ⟨bytes, res, moved, cut, ran⟩ | ran
  all_goals
    simp only [World.leave_pipe, World.leave_file, World.leave_leave, List.cons_append,
      List.nil_append,
      size] at ran
    rw [ran]
  · rw [size] at cut
    refine ⟨_, _, _, _, _, .cutReply payload whole full bytes res (written ▸ moved) cut, ?_⟩
    have short : ¬ (res = len ∧ -ECANCELED = (len : Int)) := fun both => absurd both.1 cut.ne
    rw [List.map_cons, List.map_nil, writeTail_full, if_neg short]
    simp [World.leave, World.setMem, queued]
  obtain ⟨out, res, moved, ran⟩ := runChain_replySplice kernel
    (world.leave (world.pipe.drop writeSize ++ reply)
      (world.file.absorb (int64 writeOffset) payload)
      [event, .ran (payloadSplice fuseIo writeOffset writeSize) world.pipe payload writeSize,
        .ran (successWrite fuseIo len) (world.pipe.drop writeSize) reply len]) fuseIo len
  simp only [World.leave_pipe, World.leave_file, World.leave_leave, List.cons_append,
    List.nil_append] at moved ran
  rw [ran]
  refine ⟨_, _, _, _, _, .sent payload whole full out res (written ▸ moved), ?_⟩
  rw [writeTail_full]
  simp [World.leave, World.setMem, queued, written]

end Outcomes

/-! ### The two handlers -/

/-- The length a `WRITE` message announces is that of its header, its structure and its payload. -/
def WriteFramed (fuseIo : FuseIo) (rbytesBuf : Ptr) (mem : Mem) : Prop :=
  mem.load fuseIo.headerBuf InHeader.len = InHeader.size + WriteIn.size +
    mem.load rbytesBuf WriteIn.count

theorem clampedSize_lt (ring : FuseRing) (offset : Nat) {size : Nat} (small : size < 2 ^ 32) :
    clampedSize ring offset size < 2 ^ 32 := by
  unfold clampedSize
  split
  · exact Nat.mod_lt _ (by decide)
  · exact small

/-- The clamp of `handle_read` is the range's length, unless it goes past the end of the file. -/
theorem clampedSize_range {ring : FuseRing} {offset count : Nat} (offset_lt : offset < 2 ^ 64)
    (count_lt : count < 2 ^ 32)
    (inside : offset ≤ ring.backingFSize ∨ clampedSize ring offset count ≤
      ring.backingFSize - offset) :
    clampedSize ring offset count = min count (ring.backingFSize - offset) := by
  have limit := ring.backingFSize_lt
  unfold clampedSize at inside ⊢
  by_cases past : (offset + count) % 2 ^ 64 > ring.backingFSize
  · rw [if_pos past] at inside ⊢
    omega
  · rw [if_neg past] at inside ⊢
    omega

/-- The clamp assigns the size alone. -/
theorem readClamped_fields (ring : FuseRing) (rbytesBuf : Ptr) (mem : Mem) :
    (readClamped ring rbytesBuf mem).load rbytesBuf ReadIn.offset =
      mem.load rbytesBuf ReadIn.offset ∧
      (readClamped ring rbytesBuf mem).load rbytesBuf ReadIn.count =
        clampedSize ring (mem.load rbytesBuf ReadIn.offset) (mem.load rbytesBuf ReadIn.count) := by
  refine ⟨?_, ?_⟩
  · rw [readClamped, Mem.load_store_apart _ (Mem.apart_same (by decide))]
  · rw [readClamped, Mem.load_store_same]
    exact Nat.mod_eq_of_lt (clampedSize_lt ring _ (load_lt _ _ 4))

/-- The memory in which the chain of `handle_read` is queued. -/
def readHeaded (ring : FuseRing) (fuseIo : FuseIo) (rbytesBuf : Ptr) (mem : Mem) : Mem :=
  readReply fuseIo rbytesBuf (readClamped ring rbytesBuf mem)

/-- The memory in which the chain of `handle_write` is queued. -/
def writeFilled (fuseIo : FuseIo) (rbytesBuf : Ptr) (mem : Mem) : Mem :=
  writeReply fuseIo (mem.load rbytesBuf WriteIn.count) mem

section Handlers

variable (kernel : Kernel) {world : World} (fuseIo : FuseIo)

/-- A read of another node is refused. -/
theorem exec_handleRead_refused (idle : world.Idle) (ring : FuseRing) (rbytesBuf : Ptr)
    (other : requestNodeid world.mem fuseIo ≠ 3) :
    exec kernel (handleRead ring fuseIo rbytesBuf) world =
      exec kernel (replyWith fuseIo (readRefusal fuseIo)) world := by
  rw [exec_handleRead kernel fuseIo idle, if_pos other]

/-- **How a read of the volume ends.** -/
theorem exec_handleRead_outcome (idle : world.Idle) (ring : FuseRing) (rbytesBuf : Ptr)
    (volume : requestNodeid world.mem fuseIo = 3) :
    ∃ rc events pipe file, ReadOutcome kernel fuseIo (readHeaded ring fuseIo rbytesBuf world.mem)
        ((readClamped ring rbytesBuf world.mem).load rbytesBuf ReadIn.offset)
        ((readClamped ring rbytesBuf world.mem).load rbytesBuf ReadIn.count)
        ((readHeaded ring fuseIo rbytesBuf world.mem).load fuseIo.scratchBuf OutHeader.len)
        world.pipe world.file rc events pipe file ∧
      exec kernel (handleRead ring fuseIo rbytesBuf) world =
        (rc, (world.setMem (readHeaded ring fuseIo rbytesBuf world.mem)).leave pipe
          file events) := by
  rw [exec_handleRead kernel fuseIo idle, if_neg (not_not.mpr volume)]
  dsimp only
  split
  next =>
    exact submit_readChain kernel
      (world.setMem (readHeaded ring fuseIo rbytesBuf world.mem)) fuseIo _ _ _
  next missing => exact ⟨_, _, _, _, .unqueued ⟨_, missing⟩, congrArg _ (World.leave_self _).symm⟩

/-- A write to another node, or one whose length is not what it announces, is refused. -/
theorem exec_handleWrite_refused (idle : world.Idle) (rbytesBuf : Ptr)
    (refused : requestNodeid world.mem fuseIo ≠ 3 ∨ ¬ WriteFramed fuseIo rbytesBuf world.mem) :
    exec kernel (handleWrite fuseIo rbytesBuf) world =
      exec kernel (replyWith fuseIo (bareReply fuseIo
        (if requestNodeid world.mem fuseIo ≠ 3 then -ENOENT else -EINVAL))) world := by
  rw [exec_handleWrite kernel fuseIo idle]
  by_cases other : requestNodeid world.mem fuseIo ≠ 3
  · simp only [if_pos other]
  · have unframed : ¬ WriteFramed fuseIo rbytesBuf world.mem := refused.resolve_left other
    simp only [if_neg other, if_pos (show _ ≠ _ from unframed)]

/-- **How a write to the volume ends.** -/
theorem exec_handleWrite_outcome (idle : world.Idle) (rbytesBuf : Ptr)
    (volume : requestNodeid world.mem fuseIo = 3)
    (framed : WriteFramed fuseIo rbytesBuf world.mem) :
    ∃ rc events mem pipe file, WriteOutcome kernel fuseIo (writeFilled fuseIo rbytesBuf world.mem)
        (world.mem.load rbytesBuf WriteIn.offset) (world.mem.load rbytesBuf WriteIn.count)
        ((writeFilled fuseIo rbytesBuf world.mem).load fuseIo.scratchBuf OutHeader.len)
        world.pipe world.file rc events mem pipe file ∧
      exec kernel (handleWrite fuseIo rbytesBuf) world =
        (rc, (world.setMem mem).leave pipe file events) := by
  rw [exec_handleWrite kernel fuseIo idle]
  have announced : ¬ (world.mem.load fuseIo.headerBuf InHeader.len ≠
      InHeader.size + WriteIn.size + world.mem.load rbytesBuf WriteIn.count) := not_not.mpr framed
  dsimp only
  rw [if_neg (not_not.mpr volume), if_neg announced]
  split
  next =>
    exact submit_writeChain kernel fuseIo _ _ _
      (idle.setMem (writeFilled fuseIo rbytesBuf world.mem))
  next missing =>
    exact ⟨_, _, _, _, _, .unqueued ⟨_, missing⟩, congrArg _ (World.leave_self _).symm⟩

end Handlers

end Fuseuring
