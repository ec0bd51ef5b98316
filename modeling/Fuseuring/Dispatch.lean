/-
**What serving a request from its header on can do.**

`builtReply` is the reply in `scratch_buf` of every handler that sends one,
`DispatchOutcome` the four kinds of requests with what may become of them: a reply built in
`scratch_buf`, a directory listing, a read and a write of the volume.
`exec_dispatch_outcome` says that the second switch of `queue_fuse_read` does nothing else.
-/

import Fuseuring.Volume

namespace Fuseuring

open Bytes Interaction

/-! ### Handlers by opcode -/

/-- The handler the second switch selects. -/
def handlerOf : Option Opcode → Function
  | some .getattr => .handleGetattr
  | some .setattr => .handleSetattr
  | some .opendir => .handleOpendir
  | some .readdir => .handleReaddir
  | some .releasedir => .handleReleasedir
  | some .lookup => .handleLookup
  | some .open => .handleOpen
  | some .read => .handleRead
  | some .release => .handleRelease
  | some .write => .handleWrite
  | _ => .handleUnknown

/-- The coroutines entered before a reply in `scratch_buf` is sent. -/
def callsOf (request : Option Opcode) : List Event :=
  if request = some .getattr ∨ request = some .setattr then
    [.called (handlerOf request), .called .sendAttr]
  else [.called (handlerOf request)]

theorem callsOf_called (request : Option Opcode) :
    ∀ event ∈ callsOf request, ∃ function, event = .called function := by
  unfold callsOf
  intro event member
  split at member <;> simp only [List.mem_cons, List.not_mem_nil, or_false] at member
  · exact member.elim (fun first => ⟨_, first⟩) fun second => ⟨_, second⟩
  · exact ⟨_, member⟩

/-- The reply a handler builds in `scratch_buf`. -/
def builtReply (ring : FuseRing) (fuseIo : FuseIo) (request : Option Opcode) (rbytesBuf : Ptr)
    (mem : Mem) : Mem :=
  match request with
  | some .getattr =>
    attrReply ring fuseIo (requestUnique mem fuseIo) (getattrNodeid mem fuseIo rbytesBuf) mem
  | some .setattr =>
    attrReply ring fuseIo (requestUnique mem fuseIo) (setattrNodeid mem fuseIo rbytesBuf) mem
  | some .opendir => openReply fuseIo rbytesBuf 1 fopenCacheDir mem
  | some .releasedir => bareReply fuseIo 0 mem
  | some .lookup => lookupReply ring fuseIo rbytesBuf mem
  | some .open => openReply fuseIo rbytesBuf 3 (fopenKeepCache ||| fopenDirectIo) mem
  | some .read => readRefusal fuseIo mem
  | some .release => bareReply fuseIo 0 mem
  | some .write => bareReply fuseIo (if requestNodeid mem fuseIo ≠ 3 then -ENOENT else -EINVAL) mem
  | _ => bareReply fuseIo (-ENOSYS) mem

/-- The requests answered from `scratch_buf` alone. -/
structure Plain (fuseIo : FuseIo) (request : Option Opcode) (rbytesBuf : Ptr)
    (mem : Mem) : Prop where
  readdir : request ≠ some .readdir
  read : request = some .read → requestNodeid mem fuseIo ≠ 3
  write : request = some .write → requestNodeid mem fuseIo ≠ 3 ∨ ¬ WriteFramed fuseIo rbytesBuf mem

/-- What a request may come to: result, events, memory, pipe and file. -/
inductive DispatchOutcome (kernel : Kernel) (ring : FuseRing) (fuseIo : FuseIo)
    (request : Option Opcode)
    (rbytesBuf : Ptr) (mem : Mem) (pipe : List UInt8) (file : File) :
    Int → List Event → Mem → List UInt8 → File → Prop
  | built (plain : Plain fuseIo request rbytesBuf mem) {rc : Int} {events : List Event}
    {left : List UInt8}
      (reply : ReplyOutcome kernel fuseIo (builtReply ring fuseIo request rbytesBuf mem)
        (scratchReply fuseIo (builtReply ring fuseIo request rbytesBuf mem))
        (scratchBytes fuseIo (builtReply ring fuseIo request rbytesBuf mem)) pipe rc events left) :
      DispatchOutcome kernel ring fuseIo request rbytesBuf mem pipe file rc
        (callsOf request ++ .called .sendReply :: events)
        (builtReply ring fuseIo request rbytesBuf mem) left file
  | listed (readdir : request = some .readdir) {rc : Int} {events : List Event} {left : List UInt8}
      (reply : ReplyOutcome kernel fuseIo mem
        (.write (.pipe1 fuseIo) (readdirReply (requestUnique mem fuseIo)
          (mem.load rbytesBuf ReadIn.offset)))
        (readdirReply (requestUnique mem fuseIo) (mem.load rbytesBuf ReadIn.offset)) pipe
          rc events left) :
      DispatchOutcome kernel ring fuseIo request rbytesBuf mem pipe file rc
        (.called .handleReaddir :: .called .sendReplyBuf :: events) mem left file
  | read (read : request = some .read) (volume : requestNodeid mem fuseIo = 3)
      {rc : Int} {events : List Event} {left : List UInt8} {file' : File}
      (outcome : ReadOutcome kernel fuseIo (readHeaded ring fuseIo rbytesBuf mem)
        ((readClamped ring rbytesBuf mem).load rbytesBuf ReadIn.offset)
        ((readClamped ring rbytesBuf mem).load rbytesBuf ReadIn.count)
        ((readHeaded ring fuseIo rbytesBuf mem).load fuseIo.scratchBuf OutHeader.len)
        pipe file rc events left file') :
      DispatchOutcome kernel ring fuseIo request rbytesBuf mem pipe file rc
        (.called .handleRead :: events)
        (readHeaded ring fuseIo rbytesBuf mem) left file'
  | written (write : request = some .write) (volume : requestNodeid mem fuseIo = 3)
      (framed : WriteFramed fuseIo rbytesBuf mem)
      {rc : Int} {events : List Event} {mem' : Mem} {left : List UInt8} {file' : File}
      (outcome : WriteOutcome kernel fuseIo (writeFilled fuseIo rbytesBuf mem)
        (mem.load rbytesBuf WriteIn.offset) (mem.load rbytesBuf WriteIn.count)
        ((writeFilled fuseIo rbytesBuf mem).load fuseIo.scratchBuf OutHeader.len)
        pipe file rc events mem' left file') :
      DispatchOutcome kernel ring fuseIo request rbytesBuf mem pipe file rc
        (.called .handleWrite :: events)
        mem' left file'

/-! ### The second switch -/

section Outcomes

variable (kernel : Kernel) {world : World} (ring : FuseRing) (fuseIo : FuseIo) (rbytesBuf : Ptr)

/-- A request that is answered from `scratch_buf` alone. -/
theorem exec_dispatch_plain (idle : world.Idle) (opcode : Nat)
    (plain : Plain fuseIo (Opcode.ofCode opcode) rbytesBuf world.mem) :
    exec kernel (dispatch ring fuseIo opcode rbytesBuf) world =
      exec kernel (sendReply fuseIo)
        (((world.setMem (builtReply ring fuseIo
          (Opcode.ofCode opcode) rbytesBuf world.mem)).leave world.pipe
          world.file (callsOf (Opcode.ofCode opcode))).record (.called .sendReply)) := by
  rcases plain with ⟨readdir, read, write⟩
  unfold dispatch
  generalize Opcode.ofCode opcode = request at *
  cases request with
  | none => rfl
  | some code =>
    cases code with
    | readdir => exact absurd rfl readdir
    | getattr | setattr =>
      simp only [exec_awaitInt, handleGetattr, handleSetattr, exec_loadMem, sendAttr,
        exec_replyWith]
      simp [World.leave, World.record, World.setMem, callsOf, handlerOf, builtReply]
    | read =>
      rw [exec_awaitInt, exec_handleRead_refused kernel fuseIo
        (idle.record _) ring rbytesBuf (read rfl),
        exec_replyWith]
      rfl
    | write =>
      rw [exec_awaitInt, exec_handleWrite_refused kernel fuseIo
        (idle.record _) rbytesBuf (write rfl),
        exec_replyWith]
      rfl
    | _ => rfl

/-- **What the second switch does.** -/
theorem exec_dispatch_outcome (idle : world.Idle) (opcode : Nat) :
    ∃ rc events mem pipe file,
      DispatchOutcome kernel ring fuseIo
        (Opcode.ofCode opcode) rbytesBuf world.mem world.pipe world.file
        rc events mem pipe file ∧
      exec kernel (dispatch ring fuseIo opcode rbytesBuf) world =
        (rc, (world.setMem mem).leave pipe file events) := by
  by_cases plain : Plain fuseIo (Opcode.ofCode opcode) rbytesBuf world.mem
  · rw [exec_dispatch_plain kernel ring fuseIo rbytesBuf idle opcode plain]
    obtain ⟨rc, events, pipe, reply, ran⟩ := exec_sendReply_outcome kernel fuseIo
      (((idle.setMem (builtReply ring fuseIo (Opcode.ofCode opcode) rbytesBuf world.mem)).leave
        world.pipe
        world.file (callsOf (Opcode.ofCode opcode))).record (.called .sendReply))
    refine ⟨_, _, _, _, _, .built plain reply, ?_⟩
    rw [ran]
    simp [World.record_leave]
  by_cases readdir : Opcode.ofCode opcode = some .readdir
  · obtain ⟨rc, events, pipe, reply, ran⟩ := exec_sendReplyBuf_outcome kernel fuseIo
      ((idle.record (.called .handleReaddir)).record (.called .sendReplyBuf))
      (readdirReply (requestUnique world.mem fuseIo) (world.mem.load rbytesBuf ReadIn.offset))
    refine ⟨_, _, _, _, _, .listed readdir reply, ?_⟩
    simp only [dispatch, readdir]
    rw [exec_awaitInt, handleReaddir, exec_loadMem, exec_awaitInt]
    simp only [World.record_mem]
    rw [ran]
    simp [World.record, World.leave, World.setMem]
  by_cases read : Opcode.ofCode opcode = some .read
  · have volume : requestNodeid world.mem fuseIo = 3 := by
      by_contra other
      exact plain ⟨readdir, fun _ => other, fun write => by simp [read] at write⟩
    obtain ⟨rc, events, pipe, file, outcome, ran⟩ := exec_handleRead_outcome kernel fuseIo
      (idle.record (.called .handleRead)) ring rbytesBuf volume
    refine ⟨_, _, _, _, _, .read read volume outcome, ?_⟩
    simp only [dispatch, read]
    rw [exec_awaitInt, ran]
    simp [World.record, World.leave, World.setMem]
  · have write : Opcode.ofCode opcode = some .write ∧ requestNodeid world.mem fuseIo = 3 ∧
        WriteFramed fuseIo rbytesBuf world.mem := by
      by_contra other
      refine plain ⟨readdir, fun request => absurd request read, fun request => ?_⟩
      by_contra both
      rw [not_or, not_not, not_not] at both
      exact other ⟨request, both⟩
    obtain ⟨write, volume, framed⟩ := write
    obtain ⟨rc, events, mem, pipe, file, outcome, ran⟩ := exec_handleWrite_outcome kernel fuseIo
      (idle.record (.called .handleWrite)) rbytesBuf volume framed
    refine ⟨_, _, _, _, _, .written write volume framed outcome, ?_⟩
    simp only [dispatch, write]
    rw [exec_awaitInt, ran]
    simp [World.record, World.leave, World.setMem]

end Outcomes

end Fuseuring
