/-
**The chains of the handlers, and how a reply ends.**

`exec_sendReply`, `exec_sendReplyBuf`, `exec_handleRead` and `exec_handleWrite` reduce
the four functions that submit chains to the runs of these chains. `ReplyOutcome`
lists every way the chain of a reply can end, with the events it leaves in the trace
and the bytes it leaves in the pipe; every property of a reply is read off it.
-/

import Fuseuring.Transfer

namespace Fuseuring

open Bytes Interaction

/-! ### The chains -/

section Chains
variable (kernel : Kernel) {world : World} (fuseIo : FuseIo)

/-- Write a reply into the pipe and splice it out. -/
def replyChain (write : Operation) : List Sqe :=
  [⟨write, .link⟩, ⟨.splice (.pipe0 fuseIo) (-1) (.fuse fuseIo) (-1) write.nbytes, .none⟩]

/-- The write of a reply from `scratch_buf`. -/
def scratchReply (mem : Mem) : Operation :=
  .writeFixed (.pipe1 fuseIo) fuseIo.scratchBuf (mem.load fuseIo.scratchBuf OutHeader.len)

/-- The result `send_reply` returns. -/
def replyRc (rcs : List Int) (count : Nat) : Int :=
  if rcs.getD 0 (-1) ≠ count ∨ rcs.getD 1 (-1) ≠ count then -1 else 0

theorem exec_sendReply (idle : world.Idle) :
    exec kernel (sendReply fuseIo) world =
      if kernel.sqe world 2 then
        (replyRc (world.submit kernel (replyChain fuseIo (scratchReply fuseIo world.mem))).1
            (world.mem.load fuseIo.scratchBuf OutHeader.len),
          (world.submit kernel (replyChain fuseIo (scratchReply fuseIo world.mem))).2)
      else (-1, world) := by
  rcases world with ⟨_, _, _, _, _, entries, reserved, _, _, _⟩
  obtain ⟨rfl, rfl⟩ := idle
  rw [sendReply, exec_getSqe_fresh _ rfl]
  split
  · simp [exec_getSqe_reserved, World.prep, World.complete, World.chainOf, World.submit,
      World.record, replyChain, scratchReply, Operation.nbytes, exec_ite, replyRc]
    split <;> rfl
  · rfl

theorem exec_sendReplyBuf (idle : world.Idle) (buf : List UInt8) :
    exec kernel (sendReplyBuf fuseIo buf) world =
      if kernel.sqe world 2 then
        (replyRc (world.submit kernel
          (replyChain fuseIo (.write (.pipe1 fuseIo) buf))).1 buf.length,
          (world.submit kernel (replyChain fuseIo (.write (.pipe1 fuseIo) buf))).2)
      else (-1, world) := by
  rcases world with ⟨_, _, _, _, _, entries, reserved, _, _, _⟩
  obtain ⟨rfl, rfl⟩ := idle
  rw [sendReplyBuf, exec_getSqe_fresh _ rfl]
  split
  · simp [exec_getSqe_reserved, World.prep, World.complete, World.chainOf, World.submit,
      World.record, replyChain, Operation.nbytes, exec_ite, replyRc]
    split <;> rfl
  · rfl

/-- The chain of `handle_read`. -/
def readChain (readOffset readSize len : Nat) : List Sqe :=
  [⟨.writeFixed (.pipe1 fuseIo) fuseIo.scratchBuf OutHeader.size, .link⟩,
   ⟨.splice .backing (int64 readOffset) (.pipe1 fuseIo) (-1) readSize, .link⟩,
   ⟨.splice (.pipe0 fuseIo) (-1) (.fuse fuseIo) (-1) len, .none⟩]

/-- The result `handle_read` returns after its chain. -/
def readRc (rcs : List Int) (readSize len : Nat) : Int :=
  if rcs.any (· < 0) then -1 else if rcs.getD 0 (-1) < OutHeader.size then -1
  else if rcs.getD 1 (-1) < readSize then -1 else if rcs.getD 2 (-1) < len then -1 else 0

theorem exec_readRc (rcs : List Int) (readSize len : Nat) :
    exec kernel (if rcs.any (· < 0) then pure (-1) else if rcs.getD 0
      (-1) < OutHeader.size then pure (-1)
      else if rcs.getD 1 (-1) < readSize then pure (-1)
      else if rcs.getD 2 (-1) < len then pure (-1) else pure 0) world =
      (readRc rcs readSize len, world) := by
  unfold readRc
  split_ifs <;> rfl

theorem exec_handleRead (idle : world.Idle) (ring : FuseRing) (rbytesBuf : Ptr) :
    exec kernel (handleRead ring fuseIo rbytesBuf) world =
      if requestNodeid world.mem fuseIo ≠ 3 then
        exec kernel (replyWith fuseIo (readRefusal fuseIo)) world
      else
        let clamped := readClamped ring rbytesBuf world.mem
        let headed := world.setMem (readReply fuseIo rbytesBuf clamped)
        let readSize := clamped.load rbytesBuf ReadIn.count
        let len := headed.mem.load fuseIo.scratchBuf OutHeader.len
        let chain := readChain fuseIo (clamped.load rbytesBuf ReadIn.offset) readSize len
        if kernel.sqe headed 3 then
          (readRc (headed.submit kernel chain).1 readSize len, (headed.submit kernel chain).2)
        else (-1, headed) := by
  rw [handleRead, exec_loadMem, exec_ite]
  split
  · rfl
  · rw [exec_storeMem, exec_submitTriple kernel (idle.setMem _)]
    exact if_congr Iff.rfl (exec_readRc kernel _ _ _) rfl

/-- The chain of `handle_write`. -/
def writeChain (writeOffset writeSize len : Nat) : List Sqe :=
  [⟨.splice (.pipe0 fuseIo) (-1) .backing (int64 writeOffset) writeSize, .link⟩,
   ⟨.writeFixed (.pipe1 fuseIo) fuseIo.scratchBuf len, .link⟩,
   ⟨.splice (.pipe0 fuseIo) (-1) (.fuse fuseIo) (-1) len, .none⟩]

theorem exec_handleWrite (idle : world.Idle) (rbytesBuf : Ptr) :
    exec kernel (handleWrite fuseIo rbytesBuf) world =
      let writeSize := world.mem.load rbytesBuf WriteIn.count
      if requestNodeid world.mem fuseIo ≠ 3 then
        exec kernel (replyWith fuseIo (bareReply fuseIo (-ENOENT))) world
      else if world.mem.load fuseIo.headerBuf InHeader.len ≠ InHeader.size +
        WriteIn.size + writeSize then
        exec kernel (replyWith fuseIo (bareReply fuseIo (-EINVAL))) world
      else
        let filled := world.setMem (writeReply fuseIo writeSize world.mem)
        let len := filled.mem.load fuseIo.scratchBuf OutHeader.len
        let chain := writeChain fuseIo (world.mem.load rbytesBuf WriteIn.offset) writeSize len
        if kernel.sqe filled 3 then
          let done := filled.submit kernel chain
          if done.1.getD 0 (-1) < 0 then
            exec kernel (replyWith fuseIo (writeFailed fuseIo (done.1.getD 0 (-1)))) done.2
          else if done.1.getD 0 (-1) < writeSize then
            exec kernel (replyWith fuseIo (writeShort fuseIo (done.1.getD 0 (-1)))) done.2
          else if done.1.getD 1 (-1) < 0 ∨ done.1.getD 2 (-1) < 0 ∨ done.1.getD 1 (-1) ≠ len ∨
            done.1.getD 2 (-1) ≠ len then (-1, done.2)
          else (0, done.2)
        else (-1, filled) := by
  rw [handleWrite, exec_loadMem, exec_ite]
  dsimp only
  split
  · rfl
  rw [exec_ite]
  split
  · rfl
  rw [exec_storeMem, exec_submitTriple kernel (idle.setMem _)]
  refine if_congr Iff.rfl ?_ rfl
  simp only [exec_ite, exec_pure]
  rfl

end Chains
/-! ### Chains that only move bytes -/

/-- What a finished chain leaves: bytes in the pipe, more of a trace, and perhaps another file. -/
def World.leave (world : World) (pipe : List UInt8) (file : File) (events : List Event) : World :=
  { world with pipe := pipe, file := file, trace := world.trace ++ events }

section Leave

variable (world : World) (pipe : List UInt8) (file : File) (events : List Event)

@[simp] theorem World.leave_mem : (world.leave pipe file events).mem = world.mem := rfl
@[simp] theorem World.leave_pipe : (world.leave pipe file events).pipe = pipe := rfl
@[simp] theorem World.leave_file : (world.leave pipe file events).file = file := rfl
@[simp] theorem World.leave_incoming : (world.leave pipe file events).incoming = world.incoming :=
  rfl
@[simp] theorem World.leave_lastRc : (world.leave pipe file events).lastRc = world.lastRc := rfl
@[simp] theorem World.leave_fuseIo : (world.leave pipe file events).fuseIo = world.fuseIo := rfl
@[simp] theorem World.leave_trace : (world.leave pipe file events).trace = world.trace ++ events :=
  rfl

@[simp] theorem World.leave_leave (pipe' : List UInt8) (file' : File) (events' : List Event) :
    (world.leave pipe file events).leave pipe' file' events' = world.leave pipe' file'
      (events ++ events') := by
  simp [World.leave]

theorem World.leave_self : world.leave world.pipe world.file [] = world := by
  simp [World.leave]

theorem World.record_leave (event : Event) :
    world.record event = world.leave world.pipe world.file [event] := rfl

theorem World.Idle.leave {world : World} (idle : world.Idle) :
    (world.leave pipe file events).Idle :=
  ⟨idle.entries, idle.reserved⟩

end Leave

/-- An operation that neither takes a message nor writes memory. -/
def Operation.Plain : Operation → Prop
  | .splice (.fuse _) _ _ _ _ => False
  | .read _ _ _ => False
  | _ => True

theorem Operation.Plain.other {operation : Operation} (plain : operation.Plain) :
    ¬ operation.fromFuse := by
  rcases operation with ⟨fdIn, offIn, fdOut, offOut, nbytes⟩ | _ | _ | _
  · rcases fdIn with _ | _ | _ | _
    · exact id
    · exact plain.elim
    all_goals exact id
  all_goals exact id

theorem World.transfer_plain {operation : Operation} (plain : operation.Plain) (world : World)
    (bytes : List UInt8) :
    world.transfer operation bytes =
      world.leave (world.transfer operation bytes).pipe
        (world.transfer operation bytes).file [] := by
  rcases operation with ⟨fdIn, offIn, fdOut, offOut, nbytes⟩ | _ | _ | _
  · rcases fdIn with _ | _ | _ | _
    · simp [transfer, leave]
    · exact plain.elim
    all_goals rcases fdOut with _ | _ | _ | _ <;> simp [transfer, leave]
  · exact plain.elim
  all_goals simp [transfer, leave]

/-- The world behind one operation of a chain. -/
def World.moved (world : World) (operation : Operation) (bytes : List UInt8) (res : Int) : World :=
  world.leave (world.transfer operation bytes).pipe (world.transfer operation bytes).file
    [.ran operation world.pipe bytes res]

section Outcomes

variable (kernel : Kernel) (world : World)

theorem perform_plain (sqe : Sqe) (plain : sqe.operation.Plain) :
    ∃ bytes res, world.perform kernel sqe = (res, world.moved sqe.operation bytes res) ∧
      World.Moved kernel sqe world.pipe ((world.available sqe.operation).getD []) bytes res := by
  obtain ⟨bytes, res, performed, moved⟩ := World.perform_cases kernel world sqe plain.other
  refine ⟨bytes, res, ?_, moved⟩
  rw [performed, World.transfer_plain plain]
  simp [World.moved, World.record_leave]

/-- A soft-linked operation: the rest is cancelled, or goes on behind a complete transfer. -/
theorem runChain_link {operation : Operation} (plain : operation.Plain) (rest : List Sqe) :
    ∃ bytes res, World.Moved kernel ⟨operation, .link⟩ world.pipe
      ((world.available operation).getD []) bytes res ∧
      ((res < operation.nbytes ∧
        World.runChain kernel (⟨operation, .link⟩ :: rest) world =
          (res :: rest.map fun _ => -ECANCELED, world.moved operation bytes res)) ∨
      (operation.nbytes ≤ res ∧
        World.runChain kernel (⟨operation, .link⟩ :: rest) world =
          (res :: (World.runChain kernel rest (world.moved operation bytes res)).1,
            (World.runChain kernel rest (world.moved operation bytes res)).2))) := by
  obtain ⟨bytes, res, performed, moved⟩ := perform_plain kernel world ⟨operation, .link⟩ plain
  refine ⟨bytes, res, moved, ?_⟩
  by_cases cut : res < operation.nbytes
  · left
    refine ⟨cut, ?_⟩
    rw [World.runChain, performed]
    simp only [cut, and_self, if_true]
  · right
    refine ⟨by omega, ?_⟩
    rw [World.runChain, performed]
    simp only [cut, and_false, if_false]

/-- The last operation of a chain. -/
theorem runChain_last {operation : Operation} (plain : operation.Plain) :
    ∃ bytes res, World.Moved kernel ⟨operation, .none⟩ world.pipe
      ((world.available operation).getD []) bytes res ∧
      World.runChain kernel [⟨operation, .none⟩] world = ([res],
        world.moved operation bytes res) := by
  obtain ⟨bytes, res, performed, moved⟩ := perform_plain kernel world ⟨operation, .none⟩ plain
  refine ⟨bytes, res, moved, ?_⟩
  rw [World.runChain, performed]
  simp [World.runChain]

end Outcomes

/-! ### How a reply ends -/

/-- The last operation of every reply. -/
def replySplice (fuseIo : FuseIo) (count : Nat) : Operation :=
  .splice (.pipe0 fuseIo) (-1) (.fuse fuseIo) (-1) count

/-- How a reply `reply`, written by `write` and spliced out, ends: result, events and pipe. -/
inductive ReplyOutcome (kernel : Kernel) (fuseIo : FuseIo) (mem : Mem) (write : Operation)
    (reply pipe : List UInt8) : Int → List Event → List UInt8 → Prop
  | unqueued (missing : ∃ world, kernel.sqe world 2 ≠ true) :
      ReplyOutcome kernel fuseIo mem write reply pipe (-1) [] pipe
  | cut (bytes : List UInt8) (res : Int) (moved : World.Moved kernel
    ⟨write, .link⟩ pipe reply bytes res)
      (short : res < reply.length) :
      ReplyOutcome kernel fuseIo mem write reply pipe (-1)
        [.queued (replyChain fuseIo write) mem, .ran write pipe bytes res] (pipe ++ bytes)
  | lost (bytes : List UInt8) (res : Int)
      (moved : World.Moved kernel ⟨replySplice fuseIo reply.length, .none⟩ (pipe ++ reply)
        ((pipe ++ reply).take reply.length) bytes res)
      (short : res ≠ reply.length) :
      ReplyOutcome kernel fuseIo mem write reply pipe (-1)
        [.queued (replyChain fuseIo write) mem, .ran write pipe reply reply.length,
          .ran (replySplice fuseIo reply.length) (pipe ++ reply) bytes res]
        ((pipe ++ reply).drop bytes.length)
  | delivered :
      ReplyOutcome kernel fuseIo mem write reply pipe 0
        [.queued (replyChain fuseIo write) mem, .ran write pipe reply reply.length,
          .ran (replySplice fuseIo reply.length) (pipe ++ reply) ((pipe ++ reply).take reply.length)
            reply.length]
        ((pipe ++ reply).drop reply.length)

/-- An operation that writes `reply` into the pipe. -/
structure WritesReply (mem : Mem) (write : Operation) (reply : List UInt8) : Prop where
  available : ∀ world : World, world.mem = mem → world.available write = some reply
  pipe : ∀ (world : World) (bytes : List UInt8), (world.transfer write bytes).pipe =
    world.pipe ++ bytes
  file : ∀ (world : World) (bytes : List UInt8), (world.transfer write bytes).file = world.file
  plain : write.Plain
  nbytes : write.nbytes = reply.length

theorem writesReply_fixed (mem : Mem) (fuseIo : FuseIo) (buf : Ptr) (count : Nat) :
    WritesReply mem (.writeFixed (.pipe1 fuseIo) buf count) (mem.bytes buf count) where
  available := by
    rintro world rfl
    rfl
  pipe _ _ := rfl
  file _ _ := rfl
  plain := trivial
  nbytes := by simp [Operation.nbytes, Mem.bytes]

theorem writesReply_buf (mem : Mem) (fuseIo : FuseIo) (buf : List UInt8) :
    WritesReply mem (.write (.pipe1 fuseIo) buf) buf where
  available _ _ := rfl
  pipe _ _ := rfl
  file _ _ := rfl
  plain := trivial
  nbytes := rfl

section Outcomes

variable (kernel : Kernel) (world : World) (fuseIo : FuseIo)

/-- The splice that ends a reply: a prefix of the pipe goes out. -/
theorem runChain_replySplice (count : Nat) :
    ∃ bytes res, World.Moved kernel ⟨replySplice fuseIo count, .none⟩ world.pipe
      (world.pipe.take count) bytes res ∧
      World.runChain kernel [⟨replySplice fuseIo count, .none⟩] world =
        ([res], world.leave (world.pipe.drop bytes.length) world.file
          [.ran (replySplice fuseIo count) world.pipe bytes res]) :=
  runChain_last kernel world (show (replySplice fuseIo count).Plain from trivial)

/-- The write of a reply: it is cut, or the reply is behind what the pipe holds. -/
theorem runChain_write {write : Operation} {reply : List UInt8}
    (writes : WritesReply world.mem write reply)
    (rest : List Sqe) :
    (∃ bytes res, World.Moved kernel ⟨write, .link⟩ world.pipe reply bytes res ∧
      res < reply.length ∧
      World.runChain kernel (⟨write, .link⟩ :: rest) world =
        (res :: rest.map fun _ => -ECANCELED,
          world.leave (world.pipe ++ bytes) world.file [.ran write world.pipe bytes res])) ∨
    World.runChain kernel (⟨write, .link⟩ :: rest) world =
      ((reply.length : Int) :: (World.runChain kernel rest
          (world.leave (world.pipe ++ reply) world.file
            [.ran write world.pipe reply reply.length])).1,
        (World.runChain kernel rest
          (world.leave (world.pipe ++ reply) world.file
            [.ran write world.pipe reply reply.length])).2) := by
  obtain ⟨bytes, res, moved, ⟨cut, ran⟩ | ⟨full, ran⟩⟩ :=
    runChain_link kernel world writes.plain rest
  all_goals
    rw [writes.available world rfl, Option.getD_some] at moved
    rw [World.moved, writes.pipe, writes.file] at ran
  · rw [writes.nbytes] at cut
    exact Or.inl ⟨bytes, res, moved, cut, ran⟩
  · rw [writes.nbytes] at full
    obtain ⟨rfl, rfl⟩ := moved.whole full
    exact Or.inr ran

/-- **How a reply ends.** -/
theorem submit_replyChain {write : Operation} {reply : List UInt8}
    (writes : WritesReply world.mem write reply) :
    ∃ rc events pipe, ReplyOutcome kernel fuseIo world.mem write reply world.pipe rc events pipe ∧
      (replyRc (world.submit kernel (replyChain fuseIo write)).1 reply.length,
        (world.submit kernel (replyChain fuseIo write)).2) = (rc,
        world.leave pipe world.file events) := by
  have chain : replyChain fuseIo write = ⟨write, .link⟩ ::
      [⟨replySplice fuseIo reply.length, .none⟩] := by
    rw [replyChain, writes.nbytes]
    rfl
  rw [World.submit, World.record_leave]
  generalize queued : Event.queued (replyChain fuseIo write) world.mem = event
  rw [chain]
  rcases runChain_write kernel (world.leave world.pipe world.file [event]) writes
    [⟨replySplice fuseIo reply.length, .none⟩] with ⟨bytes, res, moved, cut, ran⟩ | ran
  · refine ⟨_, _, _, .cut bytes res moved cut, ?_⟩
    have rc : replyRc [res, -ECANCELED] reply.length = -1 := if_pos (Or.inl cut.ne)
    simp [ran, queued, rc]
  · rw [ran]
    obtain ⟨bytes, res, moved, ran⟩ := runChain_replySplice kernel
      ((world.leave world.pipe world.file [event]).leave (world.pipe ++ reply) world.file
        [.ran write world.pipe reply reply.length]) fuseIo reply.length
    simp only [World.leave_pipe, World.leave_file, World.leave_leave] at moved ran ⊢
    rw [ran]
    by_cases whole : res = reply.length
    · have count : ((world.pipe ++ reply).take reply.length).length = reply.length := by simp
      obtain ⟨rfl, -⟩ := moved.whole (by rw [whole, count])
      refine ⟨_, _, _, .delivered, ?_⟩
      simp [queued, replyRc, whole]
    · refine ⟨_, _, _, .lost bytes res moved whole, ?_⟩
      simp [queued, replyRc, whole]

end Outcomes

/-! ### How `send_reply` ends -/

/-- The bytes of the reply in `scratch_buf`. -/
def scratchBytes (fuseIo : FuseIo) (mem : Mem) : List UInt8 :=
  mem.bytes fuseIo.scratchBuf (mem.load fuseIo.scratchBuf OutHeader.len)

section Outcomes

variable (kernel : Kernel) {world : World} (fuseIo : FuseIo)

/-- **How `send_reply` ends.** -/
theorem exec_sendReply_outcome (idle : world.Idle) :
    ∃ rc events pipe, ReplyOutcome kernel fuseIo world.mem (scratchReply fuseIo world.mem)
        (scratchBytes fuseIo world.mem) world.pipe rc events pipe ∧
      exec kernel (sendReply fuseIo) world = (rc, world.leave pipe world.file events) := by
  rw [exec_sendReply kernel fuseIo idle]
  split
  next =>
    have writes : WritesReply world.mem (scratchReply fuseIo world.mem)
        (scratchBytes fuseIo world.mem) :=
      writesReply_fixed _ _ _ _
    obtain ⟨rc, events, pipe, outcome, ran⟩ := submit_replyChain kernel world fuseIo writes
    refine ⟨rc, events, pipe, outcome, ?_⟩
    rw [← ran, scratchBytes, Mem.bytes, length_slice]
  next missing => exact ⟨_, _, _, .unqueued ⟨_, missing⟩, congrArg _ world.leave_self.symm⟩

/-- **How the vector overload of `send_reply` ends.** -/
theorem exec_sendReplyBuf_outcome (idle : world.Idle) (buf : List UInt8) :
    ∃ rc events pipe, ReplyOutcome kernel fuseIo world.mem
      (.write (.pipe1 fuseIo) buf) buf world.pipe
        rc events pipe ∧
      exec kernel (sendReplyBuf fuseIo buf) world = (rc, world.leave pipe world.file events) := by
  rw [exec_sendReplyBuf kernel fuseIo idle]
  split
  next =>
    obtain ⟨rc, events, pipe, outcome, ran⟩ :=
      submit_replyChain kernel world fuseIo (writesReply_buf world.mem fuseIo buf)
    exact ⟨rc, events, pipe, outcome, ran⟩
  next missing => exact ⟨_, _, _, .unqueued ⟨_, missing⟩, congrArg _ world.leave_self.symm⟩

/-- A reply from `scratch_buf` is built and sent. -/
theorem exec_replyWith (build : Mem → Mem) :
    exec kernel (replyWith fuseIo build) world =
      exec kernel (sendReply fuseIo) ((world.setMem (build world.mem)).record
        (.called .sendReply)) := rfl

/-- How a reply built by `build` ends. -/
theorem exec_replyWith_outcome (idle : world.Idle) (build : Mem → Mem) :
    ∃ rc events pipe, ReplyOutcome kernel fuseIo (build world.mem)
    (scratchReply fuseIo (build world.mem))
        (scratchBytes fuseIo (build world.mem)) world.pipe rc events pipe ∧
      exec kernel (replyWith fuseIo build) world =
        (rc, (world.setMem (build world.mem)).leave pipe world.file
          (.called .sendReply :: events)) := by
  have built : ((world.setMem (build world.mem)).record (.called .sendReply)).Idle :=
    (idle.setMem _).record _
  obtain ⟨rc, events, pipe, outcome, ran⟩ := exec_sendReply_outcome kernel fuseIo built
  refine ⟨rc, events, pipe, outcome, ?_⟩
  rw [exec_replyWith, ran]
  simp [World.record_leave]

end Outcomes

end Fuseuring
