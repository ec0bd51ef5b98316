/-
**Replies are framed.**

`Framed` is what a `fuse_out_header` owes its request: the request's number, the length
of all that goes to the session with it, and either an error with nothing behind it or
the structure of the opcode. `HoldsReply` says that of `scratch_buf`; every handler's
reply satisfies it (`builtReply_holds`) but the refusal of `handle_read`, which assigns
no length. `slotRun_answered` is the statement about runs, whatever the slot's buffers
hold: every queued reply is framed, and a request that returns 0 has been answered.
-/

import Fuseuring.PipeSync

namespace Fuseuring

open Bytes Interaction

/-! ### Framed replies -/

/-- The size of what stands behind the header of a reply without an error. -/
def replySize (ring : FuseRing) (request : Request) : Nat :=
  match request.opcode with
  | some .getattr => AttrOut.size
  | some .setattr => AttrOut.size
  | some .opendir => OpenOut.size
  | some .open => OpenOut.size
  | some .lookup => EntryOut.size
  | some .write => WriteOut.size
  | some .readdir => if request.body ReadIn.offset = 0 then (rootEntries []).length else 0
  | some .read => clampedSize ring (request.body ReadIn.offset) (request.body ReadIn.count)
  | _ => 0

/-- A header that goes to the session with `total` bytes, itself included. -/
structure Framed (ring : FuseRing) (request : Request) (header : Buffer) (total : Nat) : Prop where
  unique : OutHeader.unique.load header 0 = request.header InHeader.unique
  len : OutHeader.len.load header 0 = total
  least : OutHeader.size ≤ total
  failure : OutHeader.error.load header 0 ≠ 0 → total = OutHeader.size
  success : OutHeader.error.load header 0 = 0 → total = OutHeader.size + replySize ring request

theorem Framed.total_le {ring : FuseRing} {request : Request} {header : Buffer} {total : Nat}
    (framed : Framed ring request header total) :
    total ≤ OutHeader.size + replySize ring request := by
  by_cases none : OutHeader.error.load header 0 = 0
  · exact (framed.success none).le
  · exact (framed.failure none).trans_le (Nat.le_add_right _ _)

/-- The bytes a chain writes into the pipe from memory. -/
def chainWrites (mem : Mem) (chain : List Sqe) : List UInt8 :=
  chain.flatMap fun sqe =>
    match sqe.operation with
    | .writeFixed _ buf nbytes => mem.bytes buf nbytes
    | .write _ buf => buf
    | _ => []

/-- The bytes a chain puts into the pipe, from memory or from the backing file. -/
def chainTotal (chain : List Sqe) : Nat :=
  (chain.map fun sqe => if sqe.operation.puts then sqe.operation.nbytes else 0).sum

/-- A chain that goes out to the session carries a framed reply, and what it
takes from `scratch_buf` is inside of it. -/
def Event.Framed (ring : FuseRing) (request : Request) : Event → Prop
  | .queued chain mem => ∀ sqe ∈ chain,
      (sqe.operation.toFuse = true → sqe.operation.nbytes = chainTotal chain ∧
        Fuseuring.Framed ring request (ofList (chainWrites mem chain)) (chainTotal chain)) ∧
      ∀ fd buf nbytes, sqe.operation = .writeFixed fd buf nbytes →
        buf.offset + nbytes ≤ scratchBufSize
  | _ => True

@[simp] theorem Event.framed_called (ring : FuseRing) (request : Request) (function : Function) :
    Event.Framed ring request (.called function) := trivial

@[simp] theorem Event.framed_ran (ring : FuseRing) (request : Request) (operation : Operation)
    (pipe bytes : List UInt8) (res : Int) : Event.Framed ring request
      (.ran operation pipe bytes res) := trivial

/-- A framed reply reaches the session. -/
def Event.Delivers (ring : FuseRing) (request : Request) : Event → Prop
  | .ran operation _ bytes _ =>
    operation.toFuse = true ∧ Fuseuring.Framed ring request (ofList bytes) bytes.length
  | _ => False

theorem Event.Delivers.delivers {ring : FuseRing} {request : Request} {event : Event}
    (delivers : event.Delivers ring request) : event.delivers = true := by
  cases event with
  | ran operation pipe bytes res =>
    have least : OutHeader.size ≤ bytes.length := delivers.2.least
    refine Bool.and_eq_true_iff.mpr ⟨delivers.1, ?_⟩
    cases bytes with
    | nil => exact absurd least (by decide)
    | cons _ _ => rfl
  | _ => exact delivers.elim

/-- Every reply is framed, and a result of 0 means that one was delivered. -/
structure Answered (ring : FuseRing) (request : Request) (rc : Int)
    (events : List Event) : Prop where
  framed : ∀ event ∈ events, event.Framed ring request
  delivered : rc = 0 → ∃ event ∈ events, event.Delivers ring request

/-! ### The replies in `scratch_buf` -/

/-- `scratch_buf` holds a reply: a bare error, or a header in front of `size` bytes. -/
inductive HoldsReply (fuseIo : FuseIo) (unique size : Nat) (mem : Mem) : Prop
  | failure (error : Int) (nonzero : error ≠ 0) (low : -2 ^ 31 ≤ error) (high : error < 2 ^ 31)
      (headed : Headed fuseIo error OutHeader.size unique mem)
  | success (headed : Headed fuseIo 0 (OutHeader.size + size) unique mem)

section Replies

variable {fuseIo : FuseIo} {error : Int} {len unique : Nat} {mem : Mem}

/-- Error and length may be assigned again. -/
theorem Headed.restate (headed : Headed fuseIo error len unique mem) (error' : Int) {len' : Nat}
    (small : len' < 2 ^ 32) :
    Headed fuseIo error' len' unique
      ((mem.store fuseIo.scratchBuf OutHeader.error (word32 error')).store
      fuseIo.scratchBuf OutHeader.len len') := by
  refine ⟨?_, ?_, ?_⟩
  · rw [Mem.load_store_same]
    exact Nat.mod_eq_of_lt small
  · rw [Mem.load_store_apart _ (Mem.apart_same (by decide)), Mem.load_store_same]
    exact Nat.mod_eq_of_lt (word32_lt error')
  · rw [Mem.load_store_apart _ (Mem.apart_same (by decide)),
      Mem.load_store_apart _ (Mem.apart_same (by decide)), headed.unique]

theorem fillAttr_headed (ring : FuseRing) (headed : Headed fuseIo error len unique mem) {base : Ptr}
    (behind : OutHeader.size ≤ base.offset) (volume : Bool) :
    Headed fuseIo error len unique (fillAttr ring mem base volume) := by
  have cleared := headed.copy (List.replicate Attr.size 0) (Or.inr behind)
  have stays : ∀ {mem : Mem}, Headed fuseIo error len unique mem → ∀ (field : Field) (value : Nat),
      Headed fuseIo error len unique (mem.store base field value) :=
    fun headed field value => headed.store value (Or.inr (le_trans behind (Nat.le_add_right _ _)))
  unfold fillAttr
  cases volume with
  | true => exact stays (stays (stays (stays (stays cleared _ _) _ _) _ _) _ _) _ _
  | false => exact stays (stays cleared _ _) _ _

theorem bareReply_headed (error : Int) :
    Headed fuseIo error OutHeader.size (requestUnique mem fuseIo) (bareReply fuseIo error mem) :=
  outHeader_headed (by decide) (requestUnique_lt mem fuseIo)

theorem bareReply_failure (size : Nat) (nonzero : error ≠ 0) (low : -2 ^ 31 ≤ error)
    (high : error < 2 ^ 31) :
    HoldsReply fuseIo (requestUnique mem fuseIo) size (bareReply fuseIo error mem) :=
  .failure error nonzero low high (bareReply_headed error)

/-- The structure behind the header may be assigned. -/
theorem Headed.assign (headed : Headed fuseIo error len unique mem) (field : Field) (value : Nat) :
    Headed fuseIo error len unique
      (mem.store (fuseIo.scratchBuf.add OutHeader.size) field value) := by
  have start : (fuseIo.scratchBuf.add OutHeader.size).offset = OutHeader.size := Nat.zero_add _
  exact headed.store value (Or.inr (start ▸ Nat.le_add_right _ _))

/-- An `attr` behind the header. -/
theorem attr_behind (inner : Nat) :
    OutHeader.size ≤ ((fuseIo.scratchBuf.add OutHeader.size).add inner).offset := by
  have start : (fuseIo.scratchBuf.add OutHeader.size).offset = OutHeader.size := Nat.zero_add _
  exact start ▸ Nat.le_add_right _ _

theorem attrReply_holds (ring : FuseRing) (small : unique < 2 ^ 64) (nodeid : Nat) :
    HoldsReply fuseIo unique AttrOut.size (attrReply ring fuseIo unique nodeid mem) := by
  have headed : Headed fuseIo 0 (AttrOut.size + OutHeader.size) unique
      (outHeader mem fuseIo 0 (AttrOut.size + OutHeader.size) unique) :=
        outHeader_headed (by decide) small
  have valid := (headed.assign AttrOut.attrValid 3600).assign AttrOut.attrValidNsec 0
  have behind : OutHeader.size ≤ ((fuseIo.scratchBuf.add OutHeader.size).add AttrOut.attr).offset :=
    attr_behind _
  unfold attrReply
  dsimp only
  split
  · exact .success (fillAttr_headed ring valid behind false)
  split
  · exact .success (fillAttr_headed ring valid behind true)
  · exact .failure (-EACCES) (by decide) (by decide) (by decide)
      ((valid.copy _ (Or.inr behind)).restate _ (by decide))

theorem openReply_holds (rbytesBuf : Ptr) (fh extraFlags : Nat) :
    HoldsReply fuseIo (requestUnique mem fuseIo) OpenOut.size
      (openReply fuseIo rbytesBuf fh extraFlags mem) := by
  have headed : Headed fuseIo 0 (OpenOut.size + OutHeader.size) (requestUnique mem fuseIo)
      (outHeader mem fuseIo 0 (OpenOut.size + OutHeader.size) (requestUnique mem fuseIo)) :=
    outHeader_headed (by decide) (requestUnique_lt mem fuseIo)
  exact .success ((headed.assign OpenOut.fh fh).assign OpenOut.openFlags _)

theorem lookupReply_headed (ring : FuseRing) (rbytesBuf : Ptr) :
    Headed fuseIo 0 (OutHeader.size + EntryOut.size) (requestUnique mem fuseIo)
      (lookupReply ring fuseIo rbytesBuf mem) := by
  have headed : Headed fuseIo 0 (EntryOut.size + OutHeader.size) (requestUnique mem fuseIo)
      (outHeader mem fuseIo 0 (EntryOut.size + OutHeader.size) (requestUnique mem fuseIo)) :=
    outHeader_headed (by decide) (requestUnique_lt mem fuseIo)
  have valid := ((((headed.assign EntryOut.generation 0).assign EntryOut.entryValid 3600).assign
    EntryOut.entryValidNsec 0).assign EntryOut.attrValid 3600).assign EntryOut.attrValidNsec 0
  exact fillAttr_headed ring (valid.assign EntryOut.nodeid _) (attr_behind _) _

theorem lookupReply_holds (ring : FuseRing) (rbytesBuf : Ptr) :
    HoldsReply fuseIo (requestUnique mem fuseIo) EntryOut.size
      (lookupReply ring fuseIo rbytesBuf mem) := .success (lookupReply_headed ring rbytesBuf)

theorem writeFilled_headed (fuseIo : FuseIo) (rbytesBuf : Ptr) (mem : Mem) :
    Headed fuseIo 0 (OutHeader.size + WriteOut.size) (requestUnique mem fuseIo)
    (writeFilled fuseIo rbytesBuf mem) := by
  have headed : Headed fuseIo 0 (OutHeader.size + WriteOut.size) (requestUnique mem fuseIo)
      (outHeader mem fuseIo 0 (OutHeader.size + WriteOut.size) (requestUnique mem fuseIo)) :=
    outHeader_headed (by decide) (requestUnique_lt mem fuseIo)
  exact (headed.assign WriteOut.count _).assign WriteOut.padding 0

/-- The fallback reply of a write restates the header of its success reply. -/
theorem writeFallback_holds (headed : Headed fuseIo 0 (OutHeader.size + WriteOut.size) unique mem)
    {res : Int}
    (low : -2 ^ 31 ≤ res) : HoldsReply fuseIo unique WriteOut.size
      (writeFallback fuseIo res mem) := by
  unfold writeFallback
  split
  · exact .failure res (by omega) low (by omega) (headed.restate res (by decide))
  · exact .success (headed.assign WriteOut.count _)

/-- **Every reply built in `scratch_buf` is one**, but for the refusal of `handle_read`. -/
theorem builtReply_holds (ring : FuseRing) (request : Request) (fuseIo : FuseIo)
    (rbytesBuf : Ptr) (mem : Mem)
    (assigned : request.opcode ≠ some .read) :
    HoldsReply fuseIo (requestUnique mem fuseIo) (replySize ring request)
      (builtReply ring fuseIo request.opcode rbytesBuf mem) := by
  unfold builtReply replySize
  generalize request.opcode = opcode at assigned
  rcases opcode with _ | opcode
  · exact bareReply_failure _ (by decide) (by decide) (by decide)
  · cases opcode with
    | getattr | setattr => exact attrReply_holds ring (requestUnique_lt mem fuseIo) _
    | opendir => exact openReply_holds rbytesBuf 1 fopenCacheDir
    | «open» => exact openReply_holds rbytesBuf 3 _
    | lookup => exact lookupReply_holds ring rbytesBuf
    | releasedir | release => exact .success (bareReply_headed 0)
    | read => exact absurd rfl assigned
    | write =>
      dsimp only
      split <;> exact bareReply_failure _ (by decide) (by decide) (by decide)
    | _ => exact bareReply_failure _ (by decide) (by decide) (by decide)

/-- The header read back from bytes that start as `scratch_buf` does. -/
theorem Headed.load (headed : Headed fuseIo error len unique mem) {header : Buffer}
    (same : ∀ index < OutHeader.size, header index = mem.scratchBuf index) :
    OutHeader.unique.load header 0 = unique ∧ OutHeader.len.load header 0 = len ∧
      OutHeader.error.load header 0 = word32 error := by
  have field : ∀ field : Field, field.offset + field.width ≤ OutHeader.size →
      field.load header 0 = mem.load fuseIo.scratchBuf field := by
    intro field inside
    refine load_congr fun index small => ?_
    rw [Nat.zero_add]
    exact (same _ (by omega)).trans (congrArg mem.scratchBuf (by simp [FuseIo.scratchBuf]))
  refine ⟨?_, ?_, ?_⟩
  · rw [field OutHeader.unique (by decide), headed.unique]
  · rw [field OutHeader.len (by decide), headed.len]
  · rw [field OutHeader.error (by decide), headed.error]

variable {ring : FuseRing} {request : Request} {header : Buffer}

/-- A success reply is framed. -/
theorem Headed.framed (headed : Headed fuseIo 0 (OutHeader.size + replySize ring request)
      (request.header InHeader.unique) mem)
    (same : ∀ index < OutHeader.size, header index = mem.scratchBuf index) :
    Framed ring request header (OutHeader.size + replySize ring request) := by
  obtain ⟨unique, len, error⟩ := headed.load same
  refine ⟨unique, len, Nat.le_add_right _ _, fun failed => ?_, fun _ => rfl⟩
  exact absurd (error.trans (show word32 0 = 0 by decide)) failed

/-- A reply in `scratch_buf` is framed. -/
theorem HoldsReply.framed
    (holds : HoldsReply fuseIo (request.header InHeader.unique) (replySize ring request) mem)
    (same : ∀ index < OutHeader.size, header index = mem.scratchBuf index) :
    Framed ring request header (mem.load fuseIo.scratchBuf OutHeader.len) := by
  cases holds with
  | success headed =>
    rw [headed.len]
    exact headed.framed same
  | failure error nonzero low high headed =>
    obtain ⟨unique, len, stored⟩ := headed.load same
    rw [headed.len]
    refine ⟨unique, len, le_rfl, fun _ => rfl, fun none => absurd ?_ nonzero⟩
    rw [stored] at none
    rw [← int32_word32 low high, none]
    rfl

theorem HoldsReply.len_le {size : Nat} (holds : HoldsReply fuseIo unique size mem)
    (small : size ≤ EntryOut.size) :
    mem.load fuseIo.scratchBuf OutHeader.len ≤ scratchBufSize := by
  have most : OutHeader.size + EntryOut.size ≤ scratchBufSize := by decide
  cases holds with
  | success headed =>
    rw [headed.len]
    omega
  | failure error nonzero low high headed =>
    rw [headed.len]
    decide

/-- No structure is larger than that of a lookup. -/
theorem replySize_le (ring : FuseRing) {request : Request} (other : request.opcode ≠ some .read) :
    replySize ring request ≤ EntryOut.size := by
  unfold replySize
  split
  any_goals decide
  · split <;> decide
  · next read => exact absurd read other

end Replies

/-! ### Directory listings -/

theorem rootEntries_append (buf : List UInt8) : rootEntries buf = buf ++ rootEntries [] := by
  simp only [rootEntries, addDir, List.append_assoc, List.nil_append]

/-- **A listing is framed.** -/
theorem readdirReply_framed (ring : FuseRing) {request : Request}
    (readdir : request.opcode = some .readdir) :
    Framed ring request
      (ofList (readdirReply (request.header InHeader.unique) (request.body ReadIn.offset)))
      (readdirReply (request.header InHeader.unique) (request.body ReadIn.offset)).length := by
  let blank : Buffer := ofList (List.replicate OutHeader.size 0)
  let header : Buffer := OutHeader.unique.store (OutHeader.error.store blank 0 0) 0
    (request.header InHeader.unique)
  obtain ⟨listing, outBuf, size⟩ : ∃ listing, (if request.body ReadIn.offset = 0 then
      rootEntries (slice header 0 OutHeader.size) else slice header 0 OutHeader.size) =
        slice header 0 OutHeader.size ++ listing ∧ listing.length = replySize ring request := by
    simp only [replySize, readdir]
    split
    · exact ⟨rootEntries [], rootEntries_append _, rfl⟩
    · exact ⟨[], (List.append_nil _).symm, rfl⟩
  have length : (slice header 0 OutHeader.size ++ listing).length = OutHeader.size +
      listing.length := by
    rw [List.length_append, length_slice]
  have reply : readdirReply (request.header InHeader.unique) (request.body ReadIn.offset) =
      slice (OutHeader.len.store (ofList (slice header 0 OutHeader.size ++ listing)) 0
        (OutHeader.size + listing.length)) 0 (OutHeader.size + listing.length) := by
    rw [← length, ← outBuf]
    rfl
  have bound : OutHeader.size + listing.length < 2 ^ 32 := by
    have small := replySize_le ring (show request.opcode ≠ some .read by simp [readdir])
    rw [OutHeader.size]
    rw [EntryOut.size] at small
    omega
  have field : ∀ field : Field, field.offset + field.width ≤ OutHeader.size →
      field.load (ofList (slice (OutHeader.len.store
        (ofList (slice header 0 OutHeader.size ++ listing)) 0
        (OutHeader.size + listing.length)) 0 (OutHeader.size + listing.length))) 0 =
      field.load (OutHeader.len.store header 0 (OutHeader.size + listing.length)) 0 := by
    intro field inside
    refine load_congr fun index small => ?_
    rw [ofList_slice (by omega), Nat.zero_add, Field.store, Field.store, store, store]
    refine if_congr Iff.rfl rfl ?_
    rw [ofList_append (by rw [length_slice]; omega), ofList_slice (by omega), Nat.zero_add]
  rw [reply, length_slice]
  refine ⟨?_, ?_, Nat.le_add_right _ _, fun failed => absurd ?_ failed, fun _ => by rw [size]⟩
  · rw [field OutHeader.unique (by decide)]
    exact (load_store_disjoint (by decide)).trans
      (load_store_same_of_lt (load_lt (ofList request.message) 8 8))
  · rw [field OutHeader.len (by decide)]
    exact load_store_same_of_lt bound
  · rw [field OutHeader.error (by decide)]
    exact (load_store_disjoint (by decide)).trans ((load_store_disjoint (by decide)).trans
      (load_store_same_of_lt (by decide)))

/-! ### Outcomes -/

section Outcomes

variable {kernel : Kernel} {ring : FuseRing} {request : Request} {fuseIo : FuseIo} {mem : Mem}

/-- Events that queue no reply may stand in front. -/
theorem Answered.append {quiet events : List Event} {rc : Int}
    (none : ∀ event ∈ quiet, event.Framed ring request)
    (answered : Answered ring request rc events) : Answered ring request rc (quiet ++ events) := by
  refine ⟨fun event member => ?_, fun settled => ?_⟩
  · exact (List.mem_append.mp member).elim (none event) (answered.framed event)
  · obtain ⟨event, member, delivers⟩ := answered.delivered settled
    exact ⟨event, List.mem_append_right _ member, delivers⟩

/-- A failed request owes only its framing. -/
theorem Answered.failed {rc : Int} {events : List Event} (failed : rc ≠ 0)
    (framed : ∀ event ∈ events, event.Framed ring request) : Answered ring request rc events :=
  ⟨framed, fun settled => absurd settled failed⟩

/-- A chain of replies through an empty pipe. -/
theorem ReplyOutcome.answered {write : Operation} {reply left : List UInt8} {rc : Int}
    {events : List Event}
    (queued : Event.Framed ring request (.queued (replyChain fuseIo write) mem))
    (framed : Framed ring request (ofList reply) reply.length)
    (outcome : ReplyOutcome kernel fuseIo mem write reply [] rc events left) :
    Answered ring request rc events := by
  cases outcome with
  | unqueued => exact .failed (by decide) (by simp)
  | cut | lost => exact .failed (by decide) (by simp [queued])
  | delivered =>
    rw [List.nil_append, List.take_length]
    exact ⟨by simp [queued], fun _ =>
      ⟨.ran (replySplice fuseIo reply.length) reply reply reply.length, by simp,
      rfl, framed⟩⟩

/-- A reply from `scratch_buf`. -/
theorem scratchReply_framed (framed : Framed ring request (ofList (scratchBytes fuseIo mem))
      (scratchBytes fuseIo mem).length)
    (small : mem.load fuseIo.scratchBuf OutHeader.len ≤ scratchBufSize) :
    Event.Framed ring request (.queued (replyChain fuseIo (scratchReply fuseIo mem)) mem) := by
  have length : (scratchBytes fuseIo mem).length = mem.load fuseIo.scratchBuf OutHeader.len :=
    length_slice _ _ _
  have writes : chainWrites mem (replyChain fuseIo (scratchReply fuseIo mem)) =
      scratchBytes fuseIo mem :=
    List.append_nil _
  have total : chainTotal (replyChain fuseIo (scratchReply fuseIo mem)) =
      (scratchBytes fuseIo mem).length :=
    length.symm
  intro sqe member
  rw [writes, total]
  rcases List.mem_cons.mp member with rfl | member
  · refine ⟨fun out => absurd out Bool.false_ne_true, fun fd buf nbytes same => ?_⟩
    cases same
    exact (Nat.zero_add _).trans_le small
  · rw [List.mem_singleton.mp member]
    exact ⟨fun _ => ⟨length.symm, framed⟩, fun fd buf nbytes same => by cases same⟩

/-- A reply from a vector. -/
theorem bufReply_framed {buf : List UInt8} (framed : Framed ring request (ofList buf) buf.length) :
    Event.Framed ring request (.queued (replyChain fuseIo (.write (.pipe1 fuseIo) buf)) mem) := by
  have writes : chainWrites mem (replyChain fuseIo (.write (.pipe1 fuseIo) buf)) = buf :=
    List.append_nil _
  have total : chainTotal (replyChain fuseIo (.write (.pipe1 fuseIo) buf)) = buf.length := rfl
  intro sqe member
  rw [writes, total]
  rcases List.mem_cons.mp member with rfl | member
  · exact ⟨fun out => absurd out Bool.false_ne_true, fun fd buf nbytes same => by cases same⟩
  · rw [List.mem_singleton.mp member]
    exact ⟨fun _ => ⟨rfl, framed⟩, fun fd buf nbytes same => by cases same⟩

/-- The bytes of a reply held in `scratch_buf`. -/
theorem HoldsReply.framed_bytes
    (holds : HoldsReply fuseIo (request.header InHeader.unique) (replySize ring request) mem) :
    Framed ring request (ofList (scratchBytes fuseIo mem)) (scratchBytes fuseIo mem).length := by
  have length : (scratchBytes fuseIo mem).length = mem.load fuseIo.scratchBuf OutHeader.len :=
    length_slice _ _ _
  have least := (holds.framed fun index _ => rfl).least
  rw [length]
  refine holds.framed fun index inside => ?_
  exact (ofList_slice (lt_of_lt_of_le inside least)).trans (congrArg _ (Nat.zero_add _))

/-- A reply held in `scratch_buf`, through an empty pipe. -/
theorem HoldsReply.answered
    (holds : HoldsReply fuseIo (request.header InHeader.unique) (replySize ring request) mem)
    (small : replySize ring request ≤ EntryOut.size) {left : List UInt8} {rc : Int}
    {events : List Event}
    (outcome : ReplyOutcome kernel fuseIo mem (scratchReply fuseIo mem) (scratchBytes fuseIo mem) []
      rc events left) : Answered ring request rc events :=
  outcome.answered (scratchReply_framed holds.framed_bytes (holds.len_le small)) holds.framed_bytes

/-- The header bytes of `scratch_buf`, in front of anything. -/
theorem headerBytes_same (fuseIo : FuseIo) (mem : Mem) (rest : List UInt8) {count : Nat}
    (enough : OutHeader.size ≤ count) :
    ∀ index < OutHeader.size, ofList (mem.bytes fuseIo.scratchBuf count ++ rest) index =
      mem.scratchBuf index := by
  intro index inside
  have short : index < count := lt_of_lt_of_le inside enough
  rw [ofList_append (by rw [Mem.bytes, length_slice]; exact short), Mem.bytes, ofList_slice short]
  exact congrArg _ (Nat.zero_add _)

/-- A success reply of which `count` bytes come from `scratch_buf`. -/
theorem Headed.framed_bytes (headed : Headed fuseIo 0 (OutHeader.size + replySize ring request)
      (request.header InHeader.unique) mem) {count : Nat} (enough : OutHeader.size ≤ count)
        (rest : List UInt8)
    (length : count + rest.length = OutHeader.size + replySize ring request) :
    Framed ring request (ofList (mem.bytes fuseIo.scratchBuf count ++ rest))
      (mem.bytes fuseIo.scratchBuf count ++ rest).length := by
  rw [List.length_append, Mem.bytes, length_slice, length]
  exact headed.framed (headerBytes_same fuseIo mem rest enough)

/-- A read of the volume, through an empty pipe. -/
theorem ReadOutcome.answered {readOffset readSize len : Nat} {left : List UInt8}
    {file file' : File} {rc : Int}
    {events : List Event} (size : replySize ring request = readSize)
    (headed : Headed fuseIo 0 (OutHeader.size + readSize) (request.header InHeader.unique) mem)
    (exact : len = OutHeader.size + readSize)
    (outcome : ReadOutcome kernel fuseIo mem readOffset readSize len [] file rc events left file') :
    Answered ring request rc events := by
  rw [← size] at headed
  have writes : chainWrites mem (readChain fuseIo readOffset readSize len) =
      mem.bytes fuseIo.scratchBuf OutHeader.size := List.append_nil _
  have total : chainTotal (readChain fuseIo readOffset readSize len) = OutHeader.size + readSize :=
    rfl
  have queued : Event.Framed ring request
      (.queued (readChain fuseIo readOffset readSize len) mem) := by
    have framed := headed.framed (headerBytes_same fuseIo mem [] le_rfl)
    rw [List.append_nil, size] at framed
    intro sqe member
    rw [writes, total]
    simp only [readChain, List.mem_cons, List.not_mem_nil, or_false] at member
    rcases member with rfl | rfl | rfl
    · refine ⟨fun out => absurd out Bool.false_ne_true, fun fd buf nbytes same => ?_⟩
      cases same
      exact (show 0 + OutHeader.size ≤ scratchBufSize by decide)
    · exact ⟨fun out => absurd out Bool.false_ne_true, fun fd buf nbytes same => by cases same⟩
    · exact ⟨fun _ => ⟨exact, framed⟩, fun fd buf nbytes same => by cases same⟩
  cases outcome with
  | unqueued => exact .failed (by decide) (by simp)
  | cutHeader | cutData => exact .failed (by decide) (by simp [queued])
  | sent data bytes res whole full fits moved =>
    have count : ([] ++ mem.bytes fuseIo.scratchBuf OutHeader.size ++ data).length = len := by
      rw [List.nil_append, List.length_append, Mem.bytes, length_slice, full, exact]
    refine ⟨by simp [queued], fun settled => ?_⟩
    have delivered : ¬ res < len := by
      intro short
      rw [if_pos short] at settled
      exact absurd settled (by decide)
    obtain ⟨rfl, -⟩ := moved.whole (by rw [List.length_take, count]; omega)
    rw [List.take_of_length_le count.le]
    refine ⟨.ran (replySplice fuseIo len) ([] ++ mem.bytes fuseIo.scratchBuf OutHeader.size ++ data)
      ([] ++ mem.bytes fuseIo.scratchBuf OutHeader.size ++ data) res, by simp, rfl, ?_⟩
    exact headed.framed_bytes le_rfl data (by rw [full, size])

/-- A write to the volume whose payload the file takes whole. -/
theorem WriteOutcome.answered {writeOffset writeSize len : Nat} {pipe left : List UInt8}
    {file file' : File}
    {rc : Int} {events : List Event} {mem' : Mem} (size : replySize ring request = WriteOut.size)
    (headed : Headed fuseIo 0 (OutHeader.size + WriteOut.size) (request.header InHeader.unique) mem)
    (exact : len = OutHeader.size + WriteOut.size) (covered : pipe.length ≤ writeSize)
    (accepted : file.accepts (int64 writeOffset) writeSize pipe = pipe)
    (absorbed : pipe = [] ∨ ∀ world : World, world.pipe = pipe →
      world.available (payloadSplice fuseIo writeOffset writeSize) = some pipe →
      (pipe.length : Int) ≤ kernel.result world ⟨payloadSplice fuseIo writeOffset writeSize, .link⟩)
    (outcome : WriteOutcome kernel fuseIo mem writeOffset writeSize len pipe file rc events
      mem' left file') :
    Answered ring request rc events := by
  rw [← size] at headed exact
  have drained : pipe.drop writeSize = [] := List.drop_eq_nil_of_le covered
  have small : replySize ring request ≤ EntryOut.size := by
    rw [size]
    decide
  have length : (mem.bytes fuseIo.scratchBuf len).length = len := length_slice _ _ _
  have enough : OutHeader.size ≤ len := exact ▸ Nat.le_add_right _ _
  have framed : Framed ring request (ofList (mem.bytes fuseIo.scratchBuf len)) len := by
    have framed := headed.framed_bytes enough [] exact
    rwa [List.append_nil, length] at framed
  have writes : chainWrites mem (writeChain fuseIo writeOffset writeSize len) =
      mem.bytes fuseIo.scratchBuf len :=
    List.append_nil _
  have total : chainTotal (writeChain fuseIo writeOffset writeSize len) = len := Nat.zero_add _
  have queued : Event.Framed ring request
      (.queued (writeChain fuseIo writeOffset writeSize len) mem) := by
    intro sqe member
    rw [writes, total]
    simp only [writeChain, List.mem_cons, List.not_mem_nil, or_false] at member
    rcases member with rfl | rfl | rfl
    · exact ⟨fun out => absurd out Bool.false_ne_true, fun fd buf nbytes same => by cases same⟩
    · refine ⟨fun out => absurd out Bool.false_ne_true, fun fd buf nbytes same => ?_⟩
      cases same
      rw [exact, size]
      exact (show 0 + (OutHeader.size + WriteOut.size) ≤ scratchBufSize by decide)
    · exact ⟨fun _ => ⟨rfl, framed⟩, fun fd buf nbytes same => by cases same⟩
  cases outcome with
  | unqueued => exact .failed (by decide) (by simp)
  | fallback payload res moved short reply =>
    rw [payload_drained accepted absorbed moved] at reply
    rw [size] at headed
    have holds := writeFallback_holds headed moved.low
    rw [← size] at holds
    exact .append (by simp [queued] : ∀ event ∈ [_, _, _], Event.Framed ring request event)
      (holds.answered small reply)
  | cutReply => exact .failed (by decide) (by simp [queued])
  | sent payload whole full bytes res moved =>
    rw [drained, List.nil_append] at moved ⊢
    rw [List.take_of_length_le length.le] at moved
    refine ⟨by simp [queued], fun settled => ?_⟩
    have delivered : res = len := by
      by_contra other
      rw [if_neg other] at settled
      exact absurd settled (by decide)
    obtain ⟨rfl, -⟩ := moved.whole (by rw [length, delivered])
    refine ⟨.ran (replySplice fuseIo len) (mem.bytes fuseIo.scratchBuf len)
      (mem.bytes fuseIo.scratchBuf len) res,
      by simp, rfl, ?_⟩
    rw [length]
    exact framed

end Outcomes

/-! ### Requests -/

/-- The requests whose reply is framed: a `READ` is for the volume and its
length with the header fits in 32 bits, and no payload stays behind. -/
structure Answerable (ring : FuseRing) (request : Request) : Prop where
  volume : request.opcode = some .read → request.header InHeader.nodeid = 3
  fits : request.opcode = some .read →
    OutHeader.size + clampedSize ring (request.body ReadIn.offset)
      (request.body ReadIn.count) < 2 ^ 32
  absorbed : PayloadAbsorbed request

section Requests

variable (ring : FuseRing) (slot : SlotState) (request : Request)

/-- **Whatever the second switch comes to is answered.** -/
theorem DispatchOutcome.answered {fuseIo : FuseIo} {rbytesBuf : Ptr} {mem : Mem} {rc : Int}
    {events : List Event}
    {mem' : Mem} {left : List UInt8} {file' : File} (answerable : Answerable ring request)
    (acceptable : Acceptable ring request.message)
    (delivered : Delivered fuseIo request.message rbytesBuf mem)
    (outcome : DispatchOutcome request.kernel ring fuseIo request.opcode rbytesBuf mem
      request.payload
      request.file rc events mem' left file') : Answered ring request rc events := by
  cases outcome with
  | built plain reply =>
    have other : request.opcode ≠ some .read := fun read =>
      plain.read read (delivered.nodeid.trans (answerable.volume read))
    have holds := builtReply_holds ring request fuseIo rbytesBuf mem other
    rw [delivered.unique] at holds
    rw [plain.payload_empty answerable.absorbed acceptable delivered] at reply
    rw [← List.singleton_append, ← List.append_assoc]
    refine .append (fun event member => ?_) (holds.answered (replySize_le ring other) reply)
    rcases List.mem_append.mp member with first | last
    · obtain ⟨function, rfl⟩ := callsOf_called _ event first
      trivial
    · rw [List.mem_singleton.mp last]
      trivial
  | listed readdir reply =>
    have other : request.opcode ≠ some .write := by simp [readdir]
    have framed := readdirReply_framed ring readdir
    rw [Request.payload, payload_empty acceptable other, delivered.unique,
      (delivered.readIn (Or.inr readdir)).1] at reply
    exact .append (by simp : ∀ event ∈ [_, _], Event.Framed ring request event)
      (reply.answered (bufReply_framed framed) framed)
  | read read volume outcome =>
    have other : request.opcode ≠ some .write := by simp [read]
    obtain ⟨offset, count⟩ := readClamped_fields ring rbytesBuf mem
    rw [(delivered.readIn (Or.inl read)).1, (delivered.readIn (Or.inl read)).2] at count
    have size : replySize ring request =
        (readClamped ring rbytesBuf mem).load rbytesBuf ReadIn.count := by
      rw [count]
      simp only [replySize, read]
    have headed : Headed fuseIo 0
        (OutHeader.size + (readClamped ring rbytesBuf mem).load rbytesBuf ReadIn.count)
        (request.header InHeader.unique) (readHeaded ring fuseIo rbytesBuf mem) := by
      rw [← delivered.clamped_unique ring read]
      exact outHeader_headed (count ▸ answerable.fits read) (requestUnique_lt _ _)
    rw [Request.payload, payload_empty acceptable other] at outcome
    exact .append (by simp : ∀ event ∈ [_], Event.Framed ring request event)
      (outcome.answered size headed headed.len)
  | written write volume framed outcome =>
    have size : replySize ring request = WriteOut.size := by simp only [replySize, write]
    obtain ⟨covered, accepted, taken⟩ := answerable.absorbed.write fuseIo acceptable write
    have headed := writeFilled_headed fuseIo rbytesBuf mem
    rw [(delivered.writeIn write).1, (delivered.writeIn write).2] at outcome
    rw [delivered.unique] at headed
    exact .append (by simp : ∀ event ∈ [_], Event.Framed ring request event)
      (outcome.answered size headed headed.len covered accepted taken)

/-- A receiving event queues no reply. -/
theorem Event.Receives.framed {event : Event} (receives : event.Receives) :
    event.Framed ring request := by
  cases receives with
  | called => trivial
  | ran => trivial
  | queued mem reads =>
    intro sqe member
    refine ⟨fun out => absurd ((reads sqe member).inward.symm.trans out) Bool.false_ne_true, ?_⟩
    intro fd buf nbytes same
    have receives := reads sqe member
    rw [same] at receives
    exact receives.elim

/-- **A request is answered**, whatever the slot's buffers hold. -/
theorem serve_answered (empty : slot.pipe = []) (answerable : Answerable ring request) :
    Answered ring request (serve ring slot request).1 (serve ring slot request).2.trace := by
  rcases exec_queueFuseRead_outcome ring request (slot.world_idle request) empty rfl rfl with
    ⟨rbytesBuf, mem, quiet, rc, events, mem', left, file', delivered, receives, acceptable,
      outcome, ran⟩ |
    ⟨after, ran, refused, -⟩
  · rw [serve, ran]
    exact .append (fun event member => (receives event member).framed ring request)
      (outcome.answered ring request answerable acceptable delivered)
  · obtain ⟨quiet, added, receives⟩ := refused
    rw [serve, ran]
    refine .failed (show (-1 : Int) ≠ 0 by decide) fun event member => ?_
    rw [added] at member
    exact (receives event member).framed ring request

end Requests

/-- Every request of a run is answered. -/
def RunAnswered (ring : FuseRing) (slot : SlotState) (requests : List Request) : Prop :=
  ∀ served ∈ slotRun ring slot requests,
    Answered ring served.2 (serve ring served.1 served.2).1 (serve ring served.1 served.2).2.trace

/-- **Every answered request gets a complete, correctly framed reply**, over
whole runs and whatever the slot's buffers held before. -/
theorem slotRun_answered (ring : FuseRing) (slot : SlotState) (requests : List Request)
    (empty : slot.pipe = []) (answerable : ∀ request ∈ requests, Answerable ring request) :
    RunAnswered ring slot requests := by
  intro served member
  obtain ⟨before, good⟩ := slotRun_induction (fun slot => slot.pipe = []) (Answerable ring)
    (fun slot request start good => serve_reusable_empty ring slot request start good.absorbed)
    requests slot empty answerable served member
  exact serve_answered ring served.1 served.2 before good

/-! ### A reply without a length -/

/-- A `READ` of one byte. -/
def readRequest (nodeid : Nat) : Request where
  message := sessionMessage .read 7 nodeid (rangeBody 0 1)
  file := ⟨4096, ofList [], 0⟩
  kernel := .full
  wild := ofList []

theorem readRequest_volume_answerable : Answerable .small (readRequest 3) where
  volume := by decide +kernel
  fits := by decide +kernel
  absorbed write := absurd write (by decide +kernel)

theorem two_reads_answered : RunAnswered .small .fresh [readRequest 3, readRequest 3] :=
  slotRun_answered .small .fresh [readRequest 3, readRequest 3] rfl fun request member => by
    have same : request = readRequest 3 := by simpa using member
    exact same ▸ readRequest_volume_answerable

/-- A `READ` of another node returns 0 with nothing delivered: the length is what `scratch_buf` held
before, here zero. -/
theorem wrong_node_read_unanswered :
    ¬ ∀ (ring : FuseRing) (slot : SlotState) (requests : List Request), slot.pipe = [] →
      RunAnswered ring slot requests := by
  intro claim
  have first : (SlotState.fresh, readRequest 1) ∈ slotRun .small .fresh [readRequest 1] := by
    rw [slotRun]
    exact List.mem_cons_self
  have settled : (serve .small .fresh (readRequest 1)).1 = 0 := by decide +kernel
  have silent : (serve .small .fresh (readRequest 1)).2.trace.any Event.delivers =
      false := by decide +kernel
  obtain ⟨event, member, delivers⟩ :=
    (claim .small .fresh [readRequest 1] rfl _ first).delivered settled
  rw [List.any_eq_false] at silent
  exact silent event member delivers.delivers

end Fuseuring
