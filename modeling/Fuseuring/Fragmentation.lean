/-
**How a message was read does not show.**

Two schedules of short reads deliver the same message; everything else the kernel answers
depends only on what has been observed so far: the coroutines entered and the chains
queued, with the bytes they take from memory but for padding. The body may end up in
`header_buf`, in `scratch_buf` or in a vector, and the handlers build their replies in
`scratch_buf`. `fragmentation_unobserved`: for exactly the messages of `ReadOnce` the
outcome is the same for all schedules. The others are read by their handler after their
place was overwritten, or leave a field of the reply unassigned: `fragmented_open_shows`.
-/

import Fuseuring.Framing

namespace Fuseuring

open Bytes Interaction

/-! ### What is observed -/

instance Operation.decidableReceives (operation : Operation) : Decidable operation.Receives :=
  match operation with
  | .splice (.fuse _) _ (.pipe1 _) _ _ => isTrue trivial
  | .splice (.fuse _) _ .backing _ _ => isFalse id
  | .splice (.fuse _) _ (.fuse _) _ _ => isFalse id
  | .splice (.fuse _) _ (.pipe0 _) _ _ => isFalse id
  | .splice .backing _ _ _ _ => isFalse id
  | .splice (.pipe0 _) _ _ _ _ => isFalse id
  | .splice (.pipe1 _) _ _ _ _ => isFalse id
  | .read (.pipe0 _) _ _ => isTrue trivial
  | .read .backing _ _ => isFalse id
  | .read (.fuse _) _ _ => isFalse id
  | .read (.pipe1 _) _ _ => isFalse id
  | .writeFixed _ _ _ => isFalse id
  | .write _ _ => isFalse id

/-- The padding of the reply to a request, as a field behind the header. -/
def paddingOf : Option Opcode → Option Field
  | some .getattr => some AttrOut.dummy
  | some .setattr => some AttrOut.dummy
  | some .opendir => some OpenOut.padding
  | some .open => some OpenOut.padding
  | _ => none

def isPadding (request : Option Opcode) (index : Nat) : Bool :=
  match paddingOf request with
  | some field =>
    OutHeader.size + field.offset ≤ index && index < OutHeader.size + field.offset + field.width
  | none => false

/-- The bytes an entry takes from memory, with zeros for the padding of a reply. -/
def Sqe.unpadded (request : Option Opcode) (mem : Mem) (sqe : Sqe) : List UInt8 :=
  match sqe.operation with
  | .writeFixed _ buf count =>
    slice (fun index => if isPadding request index then 0 else mem.buffer buf.region
      (buf.offset + index)) 0 count
  | _ => []

/-- A handler or another coroutine is entered, or a chain is queued. -/
inductive Observed
  | called (function : Function)
  | queued (chain : List (Sqe × List UInt8))
deriving DecidableEq

/-- What is observed of an event, unless it brings the message in. -/
def Event.observed (request : Option Opcode) : Event → Option Observed
  | .called function => if function = .readRbytes then none else some (.called function)
  | .queued chain mem =>
    if chain.all fun sqe => decide sqe.operation.Receives then none
    else some (.queued (chain.map fun sqe => (sqe, sqe.unpadded request mem)))
  | .ran _ _ _ _ => none

def observe (request : Option Opcode) (events : List Event) : List Observed :=
  events.filterMap (Event.observed request)

theorem observe_append (request : Option Opcode) (first second : List Event) :
    observe request (first ++ second) = observe request first ++ observe request second :=
  List.filterMap_append ..

/-- Receiving is not observed. -/
theorem observe_receives (request : Option Opcode) {events : List Event}
    (receives : ∀ event ∈ events, event.Receives) : observe request events = [] := by
  refine List.filterMap_eq_nil_iff.mpr fun event member => ?_
  cases receives event member with
  | called => rfl
  | queued mem reads =>
    exact if_pos (List.all_eq_true.mpr fun sqe inside => decide_eq_true (reads sqe inside))
  | ran => rfl

/-! ### Schedules of reads -/

/-- The operations that brought parts of the message in so far. -/
def receivedSoFar (events : List Event) : Nat :=
  events.countP fun event =>
    match event with
    | .ran operation _ _ _ => decide operation.Receives
    | _ => false

/-- The kernel that delivers a message in reads of these sizes, one more than each number, and
as far as there are bytes. What else it answers is any function of what has been observed. -/
def Kernel.ofReads (request : Option Opcode) (reads : Nat → Nat)
    (others : List Observed → Operation → Int) :
    Kernel where
  sqe _ _ := true
  result world sqe :=
    if sqe.operation.Receives then min (reads (receivedSoFar world.trace) + 1) (2 ^ 31 - 1)
    else max (-2 ^ 31) (min (others (observe request world.trace) sqe.operation) (2 ^ 31 - 1))
  result_lt world sqe := by split <;> omega
  result_ge world sqe := by split <;> omega

@[simp] theorem Kernel.ofReads_sqe (request : Option Opcode) (reads : Nat → Nat)
    (others : List Observed → Operation → Int) (world : World) (peek : Nat) :
    (Kernel.ofReads request reads others).sqe world peek = true := rfl

theorem Kernel.ofReads_result (request : Option Opcode) (reads : Nat → Nat)
    (others : List Observed → Operation → Int) (world : World) {sqe : Sqe}
    (receives : sqe.operation.Receives) :
    (Kernel.ofReads request reads others).result world sqe =
      (min (reads (receivedSoFar world.trace) + 1) (2 ^ 31 - 1) : Int) := if_pos receives

theorem Kernel.ofReads_prompt (request : Option Opcode) (reads : Nat → Nat)
    (others : List Observed → Operation → Int) : (Kernel.ofReads request reads others).Prompt := by
  refine ⟨fun _ _ => rfl, fun world sqe receives => ?_⟩
  rw [Kernel.ofReads_result _ _ _ _ receives]
  omega

/-- The request in reads of these sizes. -/
def Request.scheduled (request : Request) (reads : Nat → Nat)
    (others : List Observed → Operation → Int) : Request :=
  { request with kernel := .ofReads request.opcode reads others }

/-- What is observed of serving a request. -/
def Request.outcome (ring : FuseRing) (slot : SlotState) (request : Request) (reads : Nat → Nat)
    (others : List Observed → Operation → Int) : List Observed :=
  observe request.opcode (serve ring slot (request.scheduled reads others)).2.trace

/-- The outcome does not depend on the schedule of reads, whatever the slot held before. -/
def Unobserved (ring : FuseRing) (request : Request) : Prop :=
  ∀ (slot : SlotState) (reads reads' : Nat → Nat) (others : List Observed → Operation → Int),
    slot.pipe = [] →
    request.outcome ring slot reads others = request.outcome ring slot reads' others

/-- The messages that are read before their place is overwritten: an `OPEN` or `OPENDIR` whose flags
are those of the length 32 for all that `open_flags` shows of them, and a `READ` of the volume. -/
structure ReadOnce (request : Request) : Prop where
  opened : request.opcode = some .open → 32 ||| (fopenKeepCache ||| fopenDirectIo) =
    request.body OpenIn.flags ||| (fopenKeepCache ||| fopenDirectIo)
  opendir : request.opcode = some .opendir →
    32 ||| fopenCacheDir = request.body OpenIn.flags ||| fopenCacheDir
  read : request.opcode = some .read → request.header InHeader.nodeid = 3

/-! ### Worlds that are alike -/

/-- Two worlds that differ in contents only. -/
structure Alike (request : Option Opcode) (first second : World) : Prop where
  pipe : first.pipe.length = second.pipe.length
  size : first.file.size = second.file.size
  pos : first.file.pos = second.file.pos
  observed : observe request first.trace = observe request second.trace

section Alike

variable {request : Option Opcode} {first second : World} {reads reads' : Nat → Nat}
  {others : List Observed → Operation → Int}

theorem Alike.record (alike : Alike request first second) {event event' : Event}
    (same : event.observed request = event'.observed request) :
    Alike request (first.record event) (second.record event') := by
  refine ⟨alike.pipe, alike.size, alike.pos, ?_⟩
  have last : observe request [event] = observe request [event'] := by
    simp only [observe, List.filterMap_cons, same]
  rw [World.record_trace, World.record_trace, observe_append, observe_append, alike.observed, last]

theorem Alike.setMem (alike : Alike request first second) (mem mem' : Mem) :
    Alike request (first.setMem mem) (second.setMem mem') :=
  ⟨alike.pipe, alike.size, alike.pos, alike.observed⟩

/-- As many bytes are there for an operation. -/
theorem Alike.available (alike : Alike request first second) {operation : Operation}
    (other : ¬ operation.Receives) :
    (first.available operation).map List.length = (second.available operation).map List.length := by
  have start : ∀ offset, first.file.start offset = second.file.start offset := by
    intro offset
    rw [File.start, File.start, alike.pos]
  rcases operation with ⟨fdIn, offIn, fdOut, offOut, nbytes⟩ | ⟨fd, buf, nbytes⟩ | ⟨fd, buf,
    nbytes⟩ | ⟨fd, buf⟩
  · rcases fdIn with _ | _ | _ | _ <;> rcases fdOut with _ | _ | _ | _ <;>
      simp [World.available, File.read, Operation.Receives, alike.pipe, alike.size,
        start] at other ⊢
    all_goals split <;> simp [Function.comp_def, alike.pipe]
  · rcases fd with _ | _ | _ | _ <;> first | rfl | exact absurd trivial other
  · rcases fd with _ | _ | _ | _ <;> simp [World.available, Mem.bytes]
  · rcases fd with _ | _ | _ | _ <;> rfl

/-- As many bytes move. -/
theorem Alike.transfer (alike : Alike request first second) (operation : Operation)
    {bytes bytes' : List UInt8}
    (same : bytes.length = bytes'.length) :
    Alike request (first.transfer operation bytes) (second.transfer operation bytes') := by
  have none : bytes = [] ↔ bytes' = [] := by rw [← List.length_eq_zero_iff, same,
    List.length_eq_zero_iff]
  have start : ∀ offset, first.file.start offset = second.file.start offset := by
    intro offset
    rw [File.start, File.start, alike.pos]
  have observed : observe request (first.transfer operation bytes).trace =
      observe request (second.transfer operation bytes').trace := by
    rw [World.transfer_trace, World.transfer_trace, alike.observed]
  have sought : ∀ (file file' : File) (offset : Int) (count : Nat), file.size = file'.size →
      file.pos = file'.pos →
      (file.seek offset count).size = (file'.seek offset count).size ∧
        (file.seek offset count).pos = (file'.seek offset count).pos := by
    intro file file' offset count size pos
    unfold File.seek
    split
    · exact ⟨size, congrArg (· + count) pos⟩
    · exact ⟨size, pos⟩
  have written : ∀ place, (first.file.write place bytes).size =
      (second.file.write place bytes').size := by
    intro place
    simp only [File.write, none, alike.size, same]
  rcases operation with ⟨fdIn, offIn, fdOut, offOut, nbytes⟩ | ⟨fd, buf, nbytes⟩ | ⟨fd, buf,
    nbytes⟩ | ⟨fd, buf⟩
  · rcases fdIn with _ | _ | _ | _ <;> rcases fdOut with _ | _ | _ | _ <;>
      refine ⟨?_, ?_, ?_, observed⟩ <;>
      simp only [World.transfer, List.length_append, List.length_drop, alike.pipe, alike.size,
        alike.pos, same,
        start]
    all_goals
      first
      | exact (sought _ _ _ _ alike.size alike.pos).1
      | exact (sought _ _ _ _ alike.size alike.pos).2
      | exact (sought _ _ _ _ (written _) alike.pos).1
      | exact (sought _ _ _ _ (written _) alike.pos).2
  all_goals
    exact ⟨by simp [World.transfer, alike.pipe, same], alike.size, alike.pos, observed⟩

/-- Kernels with the same answers to all but the reads answer alike. -/
theorem Alike.result (alike : Alike request first second) {sqe : Sqe}
    (other : ¬ sqe.operation.Receives) :
    (Kernel.ofReads request reads others).result first sqe =
      (Kernel.ofReads request reads' others).result second sqe := by
  show ite _ _ _ = ite _ _ _
  rw [if_neg other, if_neg other, alike.observed]

/-- **One operation.** -/
theorem Alike.perform (alike : Alike request first second) {sqe : Sqe}
    (other : ¬ sqe.operation.Receives) :
    (first.perform (.ofReads request reads others) sqe).1 =
        (second.perform (.ofReads request reads' others) sqe).1 ∧
      Alike request (first.perform (.ofReads request reads others) sqe).2
        (second.perform (.ofReads request reads' others) sqe).2 := by
  have available := alike.available other
  have result : (Kernel.ofReads request reads others).result first sqe =
      (Kernel.ofReads request reads' others).result second sqe := alike.result other
  unfold World.perform
  cases found : first.available sqe.operation with
  | none =>
    rw [found, Option.map_none, eq_comm, Option.map_eq_none_iff] at available
    rw [available]
    exact ⟨rfl, alike.record rfl⟩
  | some bytes =>
    rw [found, Option.map_some, eq_comm, Option.map_eq_some_iff] at available
    obtain ⟨bytes', found', same⟩ := available
    rw [found']
    dsimp only
    rw [result]
    by_cases failed : (Kernel.ofReads request reads' others).result second sqe < 0
    · rw [if_pos failed, if_pos failed]
      exact ⟨rfl, alike.record rfl⟩
    · have moved : ∀ res, (World.portion sqe.operation bytes res).length =
          (World.portion sqe.operation bytes' res).length := by
        intro res
        unfold World.portion
        split <;> simp [same]
      rw [if_neg failed, if_neg failed]
      exact ⟨congrArg Int.ofNat (moved _), (alike.transfer _ (moved _)).record rfl⟩

/-- **A chain.** -/
theorem Alike.runChain {chain : List Sqe} (others' : ∀ sqe ∈ chain, ¬ sqe.operation.Receives)
    {first second : World} (alike : Alike request first second) :
    (World.runChain (.ofReads request reads others) chain first).1 =
        (World.runChain (.ofReads request reads' others) chain second).1 ∧
      Alike request (World.runChain (.ofReads request reads others) chain first).2
        (World.runChain (.ofReads request reads' others) chain second).2 :=
  World.runChain_lockstep chain (fun sqe member _ _ related => related.perform
    (others' sqe member)) alike

/-- **A chain is queued and runs.** -/
theorem Alike.submit (alike : Alike request first second) {chain : List Sqe}
    (others' : ∀ sqe ∈ chain, ¬ sqe.operation.Receives)
    (same : ∀ sqe ∈ chain, sqe.unpadded request first.mem = sqe.unpadded request second.mem) :
    (first.submit (.ofReads request reads others) chain).1 =
        (second.submit (.ofReads request reads' others) chain).1 ∧
      Alike request (first.submit (.ofReads request reads others) chain).2
        (second.submit (.ofReads request reads' others) chain).2 := by
  refine Alike.runChain others' (alike.record ?_)
  have entries : chain.map (fun sqe => (sqe, sqe.unpadded request first.mem)) =
      chain.map (fun sqe => (sqe, sqe.unpadded request second.mem)) :=
    List.map_congr_left fun sqe member => by rw [same sqe member]
  rw [Event.observed, Event.observed, entries]

end Alike

/-! ### Replies that agree -/

/-- `scratch_buf` holds the same at these places. -/
def Agree (first second : Mem) (inside : Nat → Prop) : Prop :=
  ∀ index, inside index → first.scratchBuf index = second.scratchBuf index

/-- The same reply is in `scratch_buf`, but for padding. -/
structure SameReply (request : Option Opcode) (fuseIo : FuseIo) (first second : Mem) : Prop where
  len : first.load fuseIo.scratchBuf OutHeader.len = second.load fuseIo.scratchBuf OutHeader.len
  agree : Agree first second fun index =>
    index < second.load fuseIo.scratchBuf OutHeader.len ∧ isPadding request index = false

section Agreement

variable {request : Option Opcode} {fuseIo : FuseIo} {first second : Mem} {inside : Nat → Prop}

theorem Agree.mono (agree : Agree first second inside) {inside' : Nat → Prop}
    (less : ∀ index, inside' index → inside index) : Agree first second inside' :=
  fun index member => agree index (less index member)

/-- The same assignment on both sides. -/
theorem Agree.store (agree : Agree first second inside) {pointer : Ptr}
    (scratch : pointer.region = .scratch)
    (field : Field) (value : Nat) :
    Agree (first.store pointer field value) (second.store pointer field value) fun index =>
      inside index ∨ pointer.offset + field.offset ≤ index ∧
        index < pointer.offset + field.offset + field.width := by
  intro index member
  simp only [Mem.store, scratch, Mem.setBuffer, Mem.buffer, Field.store, Bytes.store]
  split
  · rfl
  next outside => exact agree index (member.resolve_right outside)

/-- The same copy on both sides. -/
theorem Agree.copy (agree : Agree first second inside) {pointer : Ptr}
    (scratch : pointer.region = .scratch)
    (bytes : List UInt8) :
    Agree (first.copy pointer bytes) (second.copy pointer bytes) fun index =>
      inside index ∨ pointer.offset ≤ index ∧ index < pointer.offset + bytes.length := by
  intro index member
  simp only [Mem.copy, scratch, Mem.setBuffer, Mem.buffer, Bytes.write]
  split
  · rfl
  next outside => exact agree index (member.resolve_right outside)

/-- Fields where both agree. -/
theorem Agree.load (agree : Agree first second inside) {field : Field}
    (within : ∀ index, field.offset ≤ index → index < field.offset + field.width → inside index) :
    first.load fuseIo.scratchBuf field = second.load fuseIo.scratchBuf field := by
  refine load_congr fun index small => agree _ (within _ ?_ ?_)
  · have start : fuseIo.scratchBuf.offset = 0 := rfl
    omega
  · have start : fuseIo.scratchBuf.offset = 0 := rfl
    omega

/-- The same entry takes the same bytes. -/
theorem Agree.unpadded {count : Nat}
    (agree : Agree first second fun index => index < count ∧
      isPadding request index = false) (fd : Fd)
    (flag : Link) : Sqe.unpadded request first ⟨.writeFixed fd fuseIo.scratchBuf count, flag⟩ =
      Sqe.unpadded request second ⟨.writeFixed fd fuseIo.scratchBuf count, flag⟩ := by
  simp only [Sqe.unpadded]
  refine slice_congr fun index small => ?_
  cases padding : isPadding request (0 + index) with
  | true => rfl
  | false =>
    have start : fuseIo.scratchBuf.offset + (0 + index) = 0 + index := Nat.zero_add _
    have same := agree (0 + index) ⟨by omega, padding⟩
    rw [if_neg Bool.false_ne_true, if_neg Bool.false_ne_true, start]
    exact same

/-- The same header on both sides. -/
theorem Agree.outHeader (agree : Agree first second inside) (error : Int) (len unique : Nat) :
    Agree (outHeader first fuseIo error len unique)
    (outHeader second fuseIo error len unique) fun index =>
      inside index ∨ index < OutHeader.size := by
  refine (((agree.store rfl OutHeader.error _).store rfl OutHeader.len len).store rfl
    OutHeader.unique unique).mono fun index member => ?_
  have start : fuseIo.scratchBuf.offset = 0 := rfl
  rcases member with held | small
  · exact Or.inl (Or.inl (Or.inl held))
  · have words : (4 ≤ index ∧ index < 8 ∨ index < 4) ∨ 8 ≤ index ∧ index < 16 := by
      rw [OutHeader.size] at small
      omega
    simp only [OutHeader.error, OutHeader.len, OutHeader.unique, start]
    rcases words with (word | word) | word
    · exact Or.inl (Or.inl (Or.inr (by omega)))
    · exact Or.inl (Or.inr (by omega))
    · exact Or.inr (by omega)

/-- **The header.** -/
theorem outHeader_agree (error : Int) (len unique : Nat) :
    Agree (outHeader first fuseIo error len unique) (outHeader second fuseIo error len unique)
      (· < OutHeader.size) := by
  have none : Agree first second fun _ => False := fun _ => False.elim
  exact (none.outHeader error len unique).mono fun index small => Or.inr small

/-- An `attr` structure is cleared before it is filled. -/
theorem Agree.fillAttr (agree : Agree first second inside) (ring : FuseRing) {base : Ptr}
    (scratch : base.region = .scratch) (volume : Bool) :
    Agree (fillAttr ring first base volume) (fillAttr ring second base volume) fun index =>
      inside index ∨ base.offset ≤ index ∧ index < base.offset + Attr.size := by
  have cleared := agree.copy scratch (List.replicate Attr.size 0)
  rw [List.length_replicate] at cleared
  unfold Fuseuring.fillAttr
  cases volume with
  | true =>
    have sized : ∀ mem : Mem, (mem.store base Attr.fileSize ring.backingFSize).load base
        Attr.fileSize =
        ring.backingFSize % 256 ^ 8 := fun mem => Mem.load_store_same _
    simp only [sized, if_true]
    exact (((((cleared.store scratch _ _).store scratch _ _).store scratch _ _).store scratch _
      _).store scratch
      _ _).mono fun index member => Or.inl (Or.inl (Or.inl (Or.inl (Or.inl member))))
  | false =>
    exact ((cleared.store scratch _ _).store scratch _ _).mono fun index member => Or.inl
      (Or.inl member)

end Agreement

/-! ### Handlers on both sides -/

/-- A handler finds the message, wherever it is, and without a body whatever was there before. -/
structure Received (fuseIo : FuseIo) (message : List UInt8) (wild : Buffer) (rbytesBuf : Ptr)
    (mem : Mem) : Prop
    extends Delivered fuseIo message rbytesBuf mem where
  bare : (bodyOf message).readRbytes = 0 → rbytesBuf = fuseIo.wild ∧ mem.wild = wild

section Handlers

variable {ring : FuseRing} {request : Request} {fuseIo : FuseIo} {wild wild' : Buffer}
  {rbytesBuf rbytesBuf' : Ptr}
  {first second : Mem}

/-- A name is `"volume"` on both sides or on none, if it is in the message. -/
theorem Received.isVolume_imp (received : Received fuseIo request.message wild rbytesBuf first)
    (received' : Received fuseIo request.message wild' rbytesBuf' second)
    (lookup : request.opcode = some .lookup)
    (stray : (bodyOf request.message).readRbytes = 0 → wild = wild')
    (volume : isVolume first rbytesBuf = true) : isVolume second rbytesBuf' = true := by
  have addZero : (bodyOf request.message).addZero = true := by
    rw [Request.opcode] at lookup
    simp only [bodyOf, expectedBody, lookup]
  have name : first.bytes rbytesBuf 7 = volumeName ++ [0] := eq_of_beq volume
  have byte : ∀ index < 7, some (first.buffer rbytesBuf.region (rbytesBuf.offset + index)) =
      (volumeName ++ [0])[index]? := by
    intro index small
    rw [← name, Mem.bytes, slice_getElem _ _ _ _ small]
  have same : first.bytes rbytesBuf 7 = second.bytes rbytesBuf' 7 := by
    refine slice_congr fun index small => ?_
    rcases Nat.eq_zero_or_pos (bodyOf request.message).readRbytes with none | nonempty
    · obtain ⟨rfl, kept⟩ := received.bare none
      obtain ⟨rfl, kept'⟩ := received'.bare none
      exact congrFun ((kept.trans (stray none)).trans kept'.symm) _
    · have zero := received.zero nonempty addZero
      have zero' := received'.zero nonempty addZero
      -- the zero behind a shorter name is none of the bytes of `"volume"`
      have long : 6 ≤ (bodyOf request.message).readRbytes := by
        by_contra short
        have found := byte (bodyOf request.message).readRbytes (by omega)
        rw [zero] at found
        have nonzero : ∀ count < 6, some 0 ≠ (volumeName ++ [0])[count]? := by decide
        exact nonzero _ (by omega) found
      by_cases inside : index < (bodyOf request.message).readRbytes
      · rw [received.body index inside, received'.body index inside]
      · have last : index = (bodyOf request.message).readRbytes := by omega
        rw [last, zero, zero']
  rw [Fuseuring.isVolume, ← same]
  exact volume

theorem Received.isVolume_eq (received : Received fuseIo request.message wild rbytesBuf first)
    (received' : Received fuseIo request.message wild' rbytesBuf' second)
    (lookup : request.opcode = some .lookup)
    (stray : (bodyOf request.message).readRbytes = 0 → wild = wild') :
    isVolume first rbytesBuf = isVolume second rbytesBuf' :=
  Bool.eq_iff_iff.mpr ⟨received.isVolume_imp received' lookup stray,
    received'.isVolume_imp received lookup fun none => (stray none).symm⟩

/-- The memory in which an `OPEN` or `OPENDIR` reads its flags: the header of
the reply and `fh` are assigned. -/
def openHandled (fuseIo : FuseIo) (fh : Nat) (mem : Mem) : Mem :=
  (outHeader mem fuseIo 0 (OpenOut.size + OutHeader.size) (requestUnique mem fuseIo)).store
    (fuseIo.scratchBuf.add OutHeader.size) OpenOut.fh fh

theorem openBody {opcode : Option Opcode} {message : List UInt8}
    (code : Opcode.ofCode (opcodeOf message) = opcode)
    (opens : opcode = some .open ∨ opcode = some .opendir) :
    bodyOf message = ⟨OpenIn.size, false, false⟩ := by
  subst code
  rcases opens with opens | opens <;> simp only [bodyOf, expectedBody, opens]

/-- Flags in `header_buf` are the request's. -/
theorem Received.openFlags_header (received : Received fuseIo request.message wild rbytesBuf first)
    (opens : request.opcode = some .open ∨ request.opcode = some .opendir) (fh : Nat)
    (place : rbytesBuf = fuseIo.headerBuf.add InHeader.size) :
    (openHandled fuseIo fh first).load rbytesBuf OpenIn.flags = request.body OpenIn.flags := by
  subst place
  have apart : ∀ pointer : Ptr, pointer.region = .scratch → ∀ field,
      Mem.Apart pointer field (fuseIo.headerBuf.add InHeader.size) OpenIn.flags :=
    fun pointer scratch field => Or.inl (by rw [scratch]; exact Region.noConfusion)
  rw [openHandled, outHeader, Mem.load_store_apart _ (apart _ rfl _),
    Mem.load_store_apart _ (apart _ rfl _),
    Mem.load_store_apart _ (apart _ rfl _), Mem.load_store_apart _ (apart _ rfl _),
    received.load (by rw [openBody rfl opens]; decide)]
  rfl

/-- Flags in `scratch_buf` are overwritten by the length of the reply. -/
theorem openFlags_scratch (fuseIo : FuseIo) (fh : Nat) (mem : Mem) :
    (openHandled fuseIo fh mem).load fuseIo.scratchBuf OpenIn.flags = 32 := by
  show (openHandled fuseIo fh mem).load fuseIo.scratchBuf OutHeader.len = 32
  have headed : Headed fuseIo 0 (OpenOut.size + OutHeader.size) (requestUnique mem fuseIo)
      (outHeader mem fuseIo 0 (OpenOut.size + OutHeader.size) (requestUnique mem fuseIo)) :=
    outHeader_headed (by decide) (requestUnique_lt _ _)
  rw [openHandled, (headed.assign OpenOut.fh fh).len]
  rfl

/-- The flags that are read once show in `open_flags` wherever they are. -/
theorem Received.openFlags (received : Received fuseIo request.message wild rbytesBuf first)
    (opens : request.opcode = some .open ∨ request.opcode = some .opendir) (fh : Nat) {extra : Nat}
    (once : 32 ||| extra = request.body OpenIn.flags ||| extra) :
    (openHandled fuseIo fh first).load rbytesBuf OpenIn.flags ||| extra =
      request.body OpenIn.flags ||| extra := by
  have body := openBody rfl opens
  have nonempty : 0 < (bodyOf request.message).readRbytes := by
    rw [body]
    decide
  rcases received.place nonempty with place | place
  · rw [received.openFlags_header opens fh place]
  · rw [place, body, show bodyTarget fuseIo _ false = fuseIo.scratchBuf from rfl, openFlags_scratch]
    exact once

/-- The one word of padding. -/
theorem padding_word {opcode : Option Opcode} {index : Nat} (word : paddingOf opcode = some ⟨12, 4⟩)
    (padding : isPadding opcode index = false) : index < 28 ∨ 32 ≤ index := by
  rw [isPadding, word] at padding
  by_contra inside
  have found : (OutHeader.size + 12 ≤ index && index < OutHeader.size + 12 + 4) = true := by
    rw [OutHeader.size, Bool.and_eq_true_iff, decide_eq_true_eq, decide_eq_true_eq]
    omega
  exact Bool.false_ne_true (padding.symm.trans found)

/-- The reply of `send_attr`, over what both sides have already. -/
theorem Agree.attrReply {inside : Nat → Prop} (agree : Agree first second inside)
    (unique nodeid : Nat) :
    Agree (attrReply ring fuseIo unique nodeid first)
    (attrReply ring fuseIo unique nodeid second) fun index =>
      index < OutHeader.size + AttrOut.size ∧ (inside index ∨ index < 28 ∨ 32 ≤ index) := by
  have headed :=
    @Agree.outHeader fuseIo first second inside agree 0 (AttrOut.size + OutHeader.size) unique
  have scratch : (fuseIo.scratchBuf.add OutHeader.size).region = .scratch := rfl
  have scratch' : ((fuseIo.scratchBuf.add OutHeader.size).add AttrOut.attr).region = .scratch := rfl
  have valid := (headed.store scratch AttrOut.attrValid 3600).store scratch AttrOut.attrValidNsec 0
  have covers : ∀ index, index < OutHeader.size + AttrOut.size ∧
      (inside index ∨ index < 28 ∨ 32 ≤ index) →
      (((inside index ∨ index < 16) ∨ 16 ≤ index ∧ index < 24) ∨ 24 ≤ index ∧ index < 28) ∨
        32 ≤ index ∧ index < 120 := by
    rintro index ⟨small, held | assigned⟩
    · exact Or.inl (Or.inl (Or.inl (Or.inl held)))
    rw [OutHeader.size, AttrOut.size] at small
    by_cases front : index < 16
    · exact Or.inl (Or.inl (Or.inl (Or.inr front)))
    by_cases valid : index < 24
    · exact Or.inl (Or.inl (Or.inr (by omega)))
    by_cases nsec : index < 28
    · exact Or.inl (Or.inr (by omega))
    · exact Or.inr (by omega)
  unfold Fuseuring.attrReply
  dsimp only
  split
  · exact (valid.fillAttr ring scratch' false).mono covers
  split
  · exact (valid.fillAttr ring scratch' true).mono covers
  · have base : fuseIo.scratchBuf.region = .scratch := rfl
    refine (((valid.copy scratch' (List.replicate Attr.size 0)).store base
      OutHeader.error _).store base
      OutHeader.len _).mono fun index member => Or.inl (Or.inl ?_)
    rw [List.length_replicate]
    exact covers index member

/-- The reply of `send_attr`. -/
theorem attrReply_agree (unique nodeid : Nat) :
    Agree (attrReply ring fuseIo unique nodeid first)
    (attrReply ring fuseIo unique nodeid second) fun index =>
      index < OutHeader.size + AttrOut.size ∧ (index < 28 ∨ 32 ≤ index) := by
  have none : Agree first second fun _ => False := fun _ => False.elim
  exact (none.attrReply unique nodeid).mono fun index member => ⟨member.1, Or.inr member.2⟩

/-- The reply of `handle_opendir` and `handle_open`. -/
theorem openReply_agree (received : Received fuseIo request.message wild rbytesBuf first)
    (received' : Received fuseIo request.message wild' rbytesBuf' second)
    (opens : request.opcode = some .open ∨ request.opcode = some .opendir) (fh : Nat) {extra : Nat}
    (once : 32 ||| extra = request.body OpenIn.flags ||| extra) :
    Agree (openReply fuseIo rbytesBuf fh extra first)
    (openReply fuseIo rbytesBuf' fh extra second) fun index =>
      index < OutHeader.size + OpenOut.size ∧ (index < 28 ∨ 32 ≤ index) := by
  have unique : requestUnique first fuseIo = requestUnique second fuseIo :=
    received.unique.trans received'.unique.symm
  have headed := @outHeader_agree fuseIo first second 0 (OpenOut.size + OutHeader.size)
    (requestUnique second fuseIo)
  have flags := (received.openFlags opens fh once).trans (received'.openFlags opens fh once).symm
  rw [openHandled, openHandled] at flags
  unfold openReply
  dsimp only
  rw [flags, unique]
  have scratch : (fuseIo.scratchBuf.add OutHeader.size).region = .scratch := rfl
  have start : (fuseIo.scratchBuf.add 16).offset = 16 := rfl
  refine ((headed.store scratch OpenOut.fh fh).store scratch OpenOut.openFlags _).mono ?_
  rintro index ⟨small, padding⟩
  simp only [OutHeader.size, OpenOut.size, OpenOut.fh, OpenOut.openFlags, start] at small ⊢
  omega

/-- The reply of `handle_lookup`. -/
theorem lookupReply_agree (ring : FuseRing)
    (received : Received fuseIo request.message wild rbytesBuf first)
    (received' : Received fuseIo request.message wild' rbytesBuf' second)
    (lookup : request.opcode = some .lookup)
    (stray : (bodyOf request.message).readRbytes = 0 → wild = wild') :
    Agree (lookupReply ring fuseIo rbytesBuf first)
    (lookupReply ring fuseIo rbytesBuf' second) fun index =>
      index < OutHeader.size + EntryOut.size := by
  have unique : requestUnique first fuseIo = requestUnique second fuseIo :=
    received.unique.trans received'.unique.symm
  have headed := @outHeader_agree fuseIo first second 0 (EntryOut.size + OutHeader.size)
    (requestUnique second fuseIo)
  have scratch : (fuseIo.scratchBuf.add OutHeader.size).region = .scratch := rfl
  have valid := ((((headed.store scratch EntryOut.generation 0).store scratch
    EntryOut.entryValid 3600).store
    scratch EntryOut.entryValidNsec 0).store scratch EntryOut.attrValid 3600).store scratch
      EntryOut.attrValidNsec 0
  unfold lookupReply
  dsimp only
  rw [received.isVolume_eq received' lookup stray, unique]
  refine ((valid.store scratch EntryOut.nodeid _).fillAttr ring rfl _).mono fun index small => ?_
  have start : (fuseIo.scratchBuf.add 16).offset = 16 := rfl
  have start' : ((fuseIo.scratchBuf.add 16).add 40).offset = 56 := rfl
  simp only [OutHeader.size, EntryOut.size, EntryOut.generation, EntryOut.entryValid,
    EntryOut.entryValidNsec,
    EntryOut.attrValid, EntryOut.attrValidNsec, EntryOut.nodeid, EntryOut.attr, Attr.size, start,
    start'] at small ⊢
  omega

/-- The node of a `GETATTR` or `SETATTR`. -/
theorem Received.attrNodeid (received : Received fuseIo request.message wild rbytesBuf first)
    (received' : Received fuseIo request.message wild' rbytesBuf' second) :
    (request.opcode = some .getattr →
      getattrNodeid first fuseIo rbytesBuf = getattrNodeid second fuseIo rbytesBuf') ∧
    (request.opcode = some .setattr →
      setattrNodeid first fuseIo rbytesBuf = setattrNodeid second fuseIo rbytesBuf') := by
  have node : requestNodeid first fuseIo = requestNodeid second fuseIo :=
    received.nodeid.trans received'.nodeid.symm
  have same : ∀ field : Field, field.offset + field.width ≤ (bodyOf request.message).readRbytes →
      first.load rbytesBuf field = second.load rbytesBuf' field :=
    fun field inside => (received.load inside).trans (received'.load inside).symm
  refine ⟨fun getattr => ?_, fun setattr => ?_⟩
  · have body : (bodyOf request.message).readRbytes = GetattrIn.size := by
      rw [Request.opcode] at getattr
      simp only [bodyOf, expectedBody, getattr]
    rw [getattrNodeid, getattrNodeid, same _ (by rw [body]; decide),
      same _ (by rw [body]; decide), node]
  · have body : (bodyOf request.message).readRbytes = SetattrIn.size := by
      rw [Request.opcode] at setattr
      simp only [bodyOf, expectedBody, setattr]
    rw [setattrNodeid, setattrNodeid, same _ (by rw [body]; decide), node]

/-- A reply that is only a header. -/
theorem bareReply_agree (received : Received fuseIo request.message wild rbytesBuf first)
    (received' : Received fuseIo request.message wild' rbytesBuf' second) (error : Int) :
    Agree (bareReply fuseIo error first) (bareReply fuseIo error second) (· < OutHeader.size) := by
  have unique : requestUnique first fuseIo = requestUnique second fuseIo :=
    received.unique.trans received'.unique.symm
  rw [bareReply, bareReply, unique]
  exact outHeader_agree _ _ _

/-- **Every reply built in `scratch_buf`.** -/
theorem builtReply_agree (ring : FuseRing)
    (received : Received fuseIo request.message wild rbytesBuf first)
    (received' : Received fuseIo request.message wild rbytesBuf' second) (once : ReadOnce request)
    (other : request.opcode ≠ some .read) (other' : request.opcode ≠ some .write)
    (other'' : request.opcode ≠ some .readdir) :
    Agree (builtReply ring fuseIo request.opcode rbytesBuf first)
      (builtReply ring fuseIo request.opcode rbytesBuf' second) fun index =>
        index < OutHeader.size + replySize ring request ∧
          isPadding request.opcode index = false := by
  have unique : requestUnique first fuseIo = requestUnique second fuseIo :=
    received.unique.trans received'.unique.symm
  obtain ⟨getattr, setattr⟩ := received.attrNodeid received'
  have bare := fun error => (bareReply_agree received received' error).mono
    fun index (inside : index < OutHeader.size + 0 ∧ isPadding request.opcode index = false) =>
      inside.1
  have lookup := fun lookup => (lookupReply_agree ring received received' lookup fun _ => rfl).mono
    fun index (inside : _ ∧ isPadding request.opcode index = false) => inside.1
  have opened :=
    fun opens fh => openReply_agree received received' (Or.inl opens) fh (once.opened opens)
  have opendir :=
    fun opens fh => openReply_agree received received' (Or.inr opens) fh (once.opendir opens)
  have word : ∀ {bound index : Nat}, paddingOf request.opcode = some ⟨12, 4⟩ →
      index < bound ∧ isPadding request.opcode index = false → index < bound ∧
      (index < 28 ∨ 32 ≤ index) :=
    fun padded inside => ⟨inside.1, padding_word padded inside.2⟩
  unfold replySize
  generalize request.opcode = opcode at *
  unfold builtReply
  rcases opcode with _ | opcode
  · exact bare _
  · cases opcode with
    | getattr =>
      dsimp only
      rw [getattr rfl, unique]
      exact (attrReply_agree _ _).mono fun index => word rfl
    | setattr =>
      dsimp only
      rw [setattr rfl, unique]
      exact (attrReply_agree _ _).mono fun index => word rfl
    | opendir => exact (opendir rfl 1).mono fun index => word rfl
    | «open» => exact (opened rfl 3).mono fun index => word rfl
    | lookup => exact lookup rfl
    | read => exact absurd rfl other
    | write => exact absurd rfl other'
    | readdir => exact absurd rfl other''
    | _ => exact bare _

/-- The padding is behind the header. -/
theorem header_unpadded (opcode : Option Opcode) {index : Nat} (header : index < OutHeader.size) :
    isPadding opcode index = false := by
  unfold isPadding
  cases paddingOf opcode with
  | none => rfl
  | some field =>
    have short : ¬ OutHeader.size + field.offset ≤ index := by omega
    simp only [short, decide_false, Bool.false_and]

/-- Replies that agree as far as both reach are the same. -/
theorem SameReply.of_agree {opcode : Option Opcode} {bound : Nat} (header : OutHeader.size ≤ bound)
    (agree : Agree first second fun index => index < bound ∧ isPadding opcode index = false)
    (len : second.load fuseIo.scratchBuf OutHeader.len ≤ bound) :
    SameReply opcode fuseIo first second := by
  refine ⟨agree.load fun index _ small => ?_,
    agree.mono fun index inside => ⟨inside.1.trans_le len, inside.2⟩⟩
  have front : index < OutHeader.size := lt_of_lt_of_le small (by decide)
  exact ⟨front.trans_le header, header_unpadded opcode front⟩

/-- A reply is no longer than its success reply. -/
theorem HoldsReply.total_le {unique size : Nat} {mem : Mem}
    (holds : HoldsReply fuseIo unique size mem) :
    mem.load fuseIo.scratchBuf OutHeader.len ≤ OutHeader.size + size := by
  cases holds with
  | success headed => exact headed.len.le
  | failure error nonzero low high headed => exact headed.len.trans_le (Nat.le_add_right _ _)

/-- **The same reply is built on both sides.** -/
theorem builtReply_same (ring : FuseRing)
    (received : Received fuseIo request.message wild rbytesBuf first)
    (received' : Received fuseIo request.message wild rbytesBuf' second) (once : ReadOnce request)
    (other : request.opcode ≠ some .read) (other' : request.opcode ≠ some .readdir) :
    SameReply request.opcode fuseIo (builtReply ring fuseIo request.opcode rbytesBuf first)
      (builtReply ring fuseIo request.opcode rbytesBuf' second) := by
  by_cases write : request.opcode = some .write
  · have node : requestNodeid first fuseIo = requestNodeid second fuseIo :=
      received.nodeid.trans received'.nodeid.symm
    rw [write]
    show SameReply _ fuseIo (bareReply fuseIo _ first) (bareReply fuseIo _ second)
    rw [node]
    refine .of_agree le_rfl ?_ (bareReply_headed _).len.le
    exact (bareReply_agree received received' _).mono fun index inside => inside.1
  · exact .of_agree (Nat.le_add_right _ _)
      (builtReply_agree ring received received' once other write other')
      (builtReply_holds ring request fuseIo rbytesBuf' second other).total_le

end Handlers

/-! ### The second switch on both sides -/

/-- A chain that only moves bytes leaves the memory alone. -/
theorem submit_mem (kernel : Kernel) (world : World) {chain : List Sqe}
    (plain : ∀ sqe ∈ chain, sqe.operation.Plain) :
    (world.submit kernel chain).2.mem = world.mem := by
  refine @World.runChain_relates kernel (fun before after => after.mem = before.mem)
    ?_ ?_ chain ?_ _
  · exact fun _ => rfl
  · exact fun _ _ _ first second => second.trans first
  · intro sqe member before
    obtain ⟨bytes, res, performed, -⟩ := perform_plain kernel before sqe (plain sqe member)
    rw [performed]
    rfl

/-- **Two runs in lockstep**: what related worlds may do to stay related. `padded` is
the request whose padding does not count among the bytes an entry takes from memory. -/
structure Lockstep (padded : Option Opcode) (kernel kernel' : Kernel)
    (relates : World → World → Prop) : Prop where
  sqe : ∀ {first second}, relates first second →
    ∀ peek, kernel.sqe first peek = kernel'.sqe second peek
  called : ∀ {first second}, relates first second → ∀ function,
    relates (first.record (.called function)) (second.record (.called function))
  setMem : ∀ {first second}, relates first second →
    ∀ mem mem', relates (first.setMem mem) (second.setMem mem')
  submit : ∀ {first second}, relates first second → ∀ {chain : List Sqe},
    (∀ sqe ∈ chain, ¬ sqe.operation.Receives) →
    (∀ sqe ∈ chain, sqe.unpadded padded first.mem = sqe.unpadded padded second.mem) →
    (first.submit kernel chain).1 = (second.submit kernel' chain).1 ∧
      relates (first.submit kernel chain).2 (second.submit kernel' chain).2

section Dispatch

variable {padded : Option Opcode} {kernel kernel' : Kernel} {relates : World → World → Prop}
  {first second : World} {fuseIo : FuseIo}

theorem replyChain_sends {write : Operation} (other : ¬ write.Receives) :
    ∀ sqe ∈ replyChain fuseIo write, ¬ sqe.operation.Receives := by
  intro sqe member
  simp only [replyChain, List.mem_cons, List.not_mem_nil, or_false] at member
  rcases member with rfl | rfl
  · exact other
  · exact id

/-- Coroutines are entered one after the other. -/
theorem Lockstep.calls (lockstep : Lockstep padded kernel kernel' relates) {events : List Event}
    (called : ∀ event ∈ events, ∃ function, event = .called function) :
    ∀ {first second : World}, relates first second →
      relates (first.leave first.pipe first.file events)
      (second.leave second.pipe second.file events) := by
  induction events with
  | nil =>
    intro first second related
    rw [World.leave_self, World.leave_self]
    exact related
  | cons event rest ih =>
    intro first second related
    obtain ⟨function, rfl⟩ := called event List.mem_cons_self
    have step := ih (fun event' member => called event' (List.mem_cons_of_mem _ member))
      (lockstep.called related function)
    simpa only [World.record_leave, World.leave_leave, World.leave_pipe, World.leave_file,
      List.singleton_append] using step

/-- **`send_reply`**, of the same reply. -/
theorem Lockstep.sendReply (lockstep : Lockstep padded kernel kernel' relates)
    (related : relates first second)
    (idle : first.Idle) (idle' : second.Idle)
    (same : SameReply padded fuseIo first.mem second.mem) :
    relates (exec kernel (sendReply fuseIo) first).2
      (exec kernel' (sendReply fuseIo) second).2 := by
  rw [exec_sendReply _ fuseIo idle, exec_sendReply _ fuseIo idle', lockstep.sqe related]
  split
  · rw [scratchReply, scratchReply, same.len]
    refine (lockstep.submit related (replyChain_sends id) fun sqe member => ?_).2
    simp only [replyChain, List.mem_cons, List.not_mem_nil, or_false] at member
    rcases member with rfl | rfl
    · exact same.agree.unpadded _ _
    · rfl
  · exact related

/-- **The vector overload of `send_reply`.** -/
theorem Lockstep.sendReplyBuf (lockstep : Lockstep padded kernel kernel' relates)
    (related : relates first second)
    (idle : first.Idle) (idle' : second.Idle) (buf : List UInt8) :
    relates (exec kernel (sendReplyBuf fuseIo buf) first).2
      (exec kernel' (sendReplyBuf fuseIo buf) second).2 := by
  rw [exec_sendReplyBuf _ fuseIo idle, exec_sendReplyBuf _ fuseIo idle', lockstep.sqe related]
  split
  · refine (lockstep.submit related (replyChain_sends id) fun sqe member => ?_).2
    simp only [replyChain, List.mem_cons, List.not_mem_nil, or_false] at member
    rcases member with rfl | rfl <;> rfl
  · exact related

/-- A reply is built and sent. -/
theorem Lockstep.replyWith (lockstep : Lockstep padded kernel kernel' relates)
    (related : relates first second)
    (idle : first.Idle) (idle' : second.Idle) {build build' : Mem → Mem}
    (same : SameReply padded fuseIo (build first.mem) (build' second.mem)) :
    relates (exec kernel (replyWith fuseIo build) first).2
      (exec kernel' (replyWith fuseIo build') second).2 := by
  rw [exec_replyWith, exec_replyWith]
  refine lockstep.sendReply ?_ ((idle.setMem _).record _) ((idle'.setMem _).record _) same
  exact lockstep.called (lockstep.setMem related _ _) _

variable {ring : FuseRing} {request : Request} {wild wild' : Buffer}
  {rbytesBuf rbytesBuf' : Ptr}

/-- A read of the volume. -/
theorem Lockstep.handleRead (lockstep : Lockstep padded kernel kernel' relates) (ring : FuseRing)
    (related : relates first second) (idle : first.Idle) (idle' : second.Idle)
    (read : request.opcode = some .read)
    (received : Received fuseIo request.message wild rbytesBuf first.mem)
    (received' : Received fuseIo request.message wild' rbytesBuf' second.mem)
    (volume : request.header InHeader.nodeid = 3) :
    relates (exec kernel (handleRead ring fuseIo rbytesBuf) first).2
      (exec kernel' (handleRead ring fuseIo rbytesBuf') second).2 := by
  have node := received.nodeid.trans volume
  have node' := received'.nodeid.trans volume
  obtain ⟨offset, count⟩ := readClamped_fields ring rbytesBuf first.mem
  obtain ⟨offset', count'⟩ := readClamped_fields ring rbytesBuf' second.mem
  rw [(received.readIn (Or.inl read)).1] at offset
  rw [(received'.readIn (Or.inl read)).1] at offset'
  rw [(received.readIn (Or.inl read)).1, (received.readIn (Or.inl read)).2] at count
  rw [(received'.readIn (Or.inl read)).1, (received'.readIn (Or.inl read)).2] at count'
  rw [exec_handleRead _ fuseIo idle, exec_handleRead _ fuseIo idle', if_neg (not_not.mpr node),
    if_neg (not_not.mpr node')]
  simp only [World.setMem_mem, readReply, received.clamped_unique ring read,
    received'.clamped_unique ring read, offset, offset', count, count']
  have agree := @outHeader_agree fuseIo (readClamped ring rbytesBuf first.mem)
    (readClamped ring rbytesBuf' second.mem) 0
    (OutHeader.size + clampedSize ring (request.body ReadIn.offset) (request.body ReadIn.count))
    (request.header InHeader.unique)
  have len := @Agree.load fuseIo _ _ _ agree OutHeader.len
    fun index _ small => lt_of_lt_of_le small (by decide)
  have headed := lockstep.setMem related
    (outHeader (readClamped ring rbytesBuf first.mem) fuseIo 0
      (OutHeader.size + clampedSize ring (request.body ReadIn.offset) (request.body ReadIn.count))
      (request.header InHeader.unique))
    (outHeader (readClamped ring rbytesBuf' second.mem) fuseIo 0
      (OutHeader.size + clampedSize ring (request.body ReadIn.offset) (request.body ReadIn.count))
      (request.header InHeader.unique))
  rw [len, lockstep.sqe headed]
  split
  rotate_left
  · exact headed
  refine (lockstep.submit headed (fun sqe member => ?_) fun sqe member => ?_).2
  all_goals
    simp only [readChain, List.mem_cons, List.not_mem_nil, or_false] at member
    rcases member with rfl | rfl | rfl
  · exact id
  · exact id
  · exact id
  · exact (agree.mono fun index inside => inside.1).unpadded _ _
  · rfl
  · rfl

/-- The tests behind the chain of a write. -/
theorem Lockstep.writeTail (lockstep : Lockstep padded kernel kernel' relates) (writeSize len : Nat)
    {done done' : List Int × World} (related : relates done.2 done'.2)
    (results : done.1 = done'.1) (idle : done.2.Idle) (idle' : done'.2.Idle)
    (agree : Agree done.2.mem done'.2.mem (· < OutHeader.size + WriteOut.size))
    (total : done'.2.mem.load fuseIo.scratchBuf OutHeader.len = OutHeader.size + WriteOut.size) :
    relates (Fuseuring.writeTail kernel fuseIo writeSize len done).2
      (Fuseuring.writeTail kernel' fuseIo writeSize len done').2 := by
  have base : fuseIo.scratchBuf.region = .scratch := rfl
  have behind : (fuseIo.scratchBuf.add OutHeader.size).region = .scratch := rfl
  have failed : ∀ res, SameReply padded fuseIo (writeFailed fuseIo res done.2.mem)
      (writeFailed fuseIo res done'.2.mem) := by
    intro res
    refine .of_agree le_rfl (((agree.store base OutHeader.error
      (word32 res)).store base OutHeader.len
      OutHeader.size).mono fun index inside => Or.inl
        (Or.inl (inside.1.trans_le (Nat.le_add_right _ _)))) ?_
    rw [writeFailed, Mem.load_store_same]
    exact Nat.mod_le _ _
  have short : ∀ res, SameReply padded fuseIo (writeShort fuseIo res done.2.mem)
      (writeShort fuseIo res done'.2.mem) := by
    intro res
    refine .of_agree (Nat.le_add_right _ _) ((agree.store behind WriteOut.count (word32 res)).mono
      fun index inside => Or.inl inside.1) ?_
    rw [writeShort, Mem.load_store_apart _
      (Or.inr (Or.inr (show 0 + 0 + 4 ≤ 0 + 16 + 0 by decide))), total]
  unfold Fuseuring.writeTail
  rw [results]
  split
  · exact lockstep.replyWith related idle idle' (failed _)
  split
  · exact lockstep.replyWith related idle idle' (short _)
  split <;> exact related

/-- A framed write to the volume is its chain and the tests behind it. -/
theorem exec_handleWrite_tail {kernel : Kernel} {world : World} (idle : world.Idle)
    (write : request.opcode = some .write)
    (received : Received fuseIo request.message wild rbytesBuf world.mem)
    (volume : request.header InHeader.nodeid = 3)
    (framed : request.header InHeader.len = InHeader.size + WriteIn.size +
      request.body WriteIn.count) :
    exec kernel (Fuseuring.handleWrite fuseIo rbytesBuf) world =
      if kernel.sqe (world.setMem (writeReply fuseIo (request.body WriteIn.count) world.mem)) 3 then
        Fuseuring.writeTail kernel fuseIo (request.body WriteIn.count)
          (OutHeader.size + WriteOut.size)
          ((world.setMem (writeReply fuseIo (request.body WriteIn.count) world.mem)).submit kernel
            (writeChain fuseIo (request.body WriteIn.offset) (request.body WriteIn.count)
              (OutHeader.size + WriteOut.size)))
      else (-1, world.setMem (writeReply fuseIo (request.body WriteIn.count) world.mem)) := by
  have len := (writeFilled_headed fuseIo rbytesBuf world.mem).len
  rw [writeFilled, (received.writeIn write).2] at len
  rw [exec_handleWrite kernel fuseIo idle, if_neg (not_not.mpr (received.nodeid.trans volume))]
  dsimp only
  rw [(received.writeIn write).1, (received.writeIn write).2, received.announced,
    if_neg (not_not.mpr framed),
    World.setMem_mem, len]
  rfl

/-- A write to the volume. -/
theorem Lockstep.handleWrite (lockstep : Lockstep padded kernel kernel' relates)
    (related : relates first second)
    (idle : first.Idle) (idle' : second.Idle) (write : request.opcode = some .write)
    (received : Received fuseIo request.message wild rbytesBuf first.mem)
    (received' : Received fuseIo request.message wild' rbytesBuf' second.mem)
    (volume : request.header InHeader.nodeid = 3)
    (framed : request.header InHeader.len = InHeader.size + WriteIn.size +
      request.body WriteIn.count) :
    relates (exec kernel (handleWrite fuseIo rbytesBuf) first).2
      (exec kernel' (handleWrite fuseIo rbytesBuf') second).2 := by
  have unique : requestUnique first.mem fuseIo = requestUnique second.mem fuseIo :=
    received.unique.trans received'.unique.symm
  have behind : (fuseIo.scratchBuf.add OutHeader.size).region = .scratch := rfl
  have start : (fuseIo.scratchBuf.add 16).offset = 16 := rfl
  have agree : Agree (writeReply fuseIo (request.body WriteIn.count) first.mem)
      (writeReply fuseIo (request.body WriteIn.count) second.mem)
        (· < OutHeader.size + WriteOut.size) := by
    rw [writeReply, writeReply, unique]
    refine (((outHeader_agree _ _ _).store behind WriteOut.count _).store behind
      WriteOut.padding 0).mono ?_
    intro index small
    simp only [OutHeader.size, WriteOut.size, WriteOut.count, WriteOut.padding, start] at small ⊢
    omega
  have total := (writeFilled_headed fuseIo rbytesBuf' second.mem).len
  rw [writeFilled, (received'.writeIn write).2] at total
  have plain : ∀ sqe ∈ writeChain fuseIo (request.body WriteIn.offset) (request.body WriteIn.count)
      (OutHeader.size + WriteOut.size), sqe.operation.Plain ∧ ¬ sqe.operation.Receives := by
    intro sqe member
    simp only [writeChain, List.mem_cons, List.not_mem_nil, or_false] at member
    rcases member with rfl | rfl | rfl <;> exact ⟨trivial, id⟩
  have mem := fun kernel (world : World) => submit_mem kernel world
    fun sqe member => (plain sqe member).1
  have filled := lockstep.setMem related (writeReply fuseIo (request.body WriteIn.count) first.mem)
    (writeReply fuseIo (request.body WriteIn.count) second.mem)
  rw [exec_handleWrite_tail idle write received volume framed,
    exec_handleWrite_tail idle' write received' volume framed, lockstep.sqe filled]
  split
  rotate_left
  · exact filled
  obtain ⟨results, after⟩ := lockstep.submit filled (fun sqe member => (plain sqe member).2)
    fun sqe member => by
      simp only [writeChain, List.mem_cons, List.not_mem_nil, or_false] at member
      rcases member with rfl | rfl | rfl
      · rfl
      · exact (agree.mono fun index inside => inside.1).unpadded _ _
      · rfl
  refine lockstep.writeTail _ _ after results ((idle.setMem _).submit _ _)
    ((idle'.setMem _).submit _ _) ?_ ?_
  · rw [mem, mem]
    exact agree
  · rw [mem]
    exact total

/-- A message is answered from `scratch_buf` alone on both sides or on none. -/
theorem Received.plain (received : Received fuseIo request.message wild rbytesBuf first.mem)
    (received' : Received fuseIo request.message wild' rbytesBuf' second.mem)
    (plain : Plain fuseIo request.opcode rbytesBuf first.mem) :
    Plain fuseIo request.opcode rbytesBuf' second.mem := by
  have node := received.nodeid.trans received'.nodeid.symm
  refine ⟨plain.readdir, fun read => node ▸ plain.read read, fun write => ?_⟩
  have refused := plain.write write
  rw [WriteFramed, received.announced, (received.writeIn write).2] at refused
  rw [WriteFramed, received'.announced, (received'.writeIn write).2, ← node]
  exact refused

/-- **The second switch, of the same message**, where it builds the same reply. -/
theorem Lockstep.dispatch (lockstep : Lockstep padded kernel kernel' relates) (ring : FuseRing)
    (related : relates first second) (idle : first.Idle) (idle' : second.Idle)
    (received : Received fuseIo request.message wild rbytesBuf first.mem)
    (received' : Received fuseIo request.message wild' rbytesBuf' second.mem)
    (same : Plain fuseIo request.opcode rbytesBuf first.mem →
      SameReply padded fuseIo (builtReply ring fuseIo request.opcode rbytesBuf first.mem)
        (builtReply ring fuseIo request.opcode rbytesBuf' second.mem)) :
    relates (exec kernel (dispatch ring fuseIo (opcodeOf request.message) rbytesBuf) first).2
      (exec kernel' (dispatch ring fuseIo (opcodeOf request.message) rbytesBuf') second).2 := by
  have code : Opcode.ofCode (opcodeOf request.message) = request.opcode := rfl
  by_cases plain : Plain fuseIo request.opcode rbytesBuf first.mem
  · rw [exec_dispatch_plain _ ring fuseIo _ idle _ plain,
      exec_dispatch_plain _ ring fuseIo _ idle' _ (received.plain received' plain)]
    refine lockstep.sendReply ?_ (((idle.setMem _).leave _ _ _).record _)
      (((idle'.setMem _).leave _ _ _).record _) (same plain)
    exact lockstep.called (lockstep.calls (callsOf_called request.opcode)
      (lockstep.setMem related _ _)) _
  by_cases readdir : request.opcode = some .readdir
  · have selected : ∀ buf, Fuseuring.dispatch ring fuseIo (opcodeOf request.message) buf =
        awaitInt .handleReaddir (handleReaddir fuseIo buf) := by
      intro buf
      simp only [Fuseuring.dispatch, code, readdir]
    have unique := received.unique.trans received'.unique.symm
    have offset :=
      ((received.readIn (Or.inr readdir)).1).trans (received'.readIn (Or.inr readdir)).1.symm
    rw [selected, selected, exec_awaitInt, exec_awaitInt, handleReaddir,
      handleReaddir, exec_loadMem,
      exec_loadMem, exec_awaitInt, exec_awaitInt, World.record_mem, World.record_mem,
      unique, offset]
    exact lockstep.sendReplyBuf (lockstep.called (lockstep.called related _) _)
      ((idle.record _).record _)
      ((idle'.record _).record _) _
  by_cases read : request.opcode = some .read
  · have volume : request.header InHeader.nodeid = 3 := by
      by_contra other
      refine plain ⟨readdir, fun _ => ?_, fun write => absurd (read.symm.trans write) (by decide)⟩
      rw [received.nodeid]
      exact other
    have selected : ∀ buf, Fuseuring.dispatch ring fuseIo (opcodeOf request.message) buf =
        awaitInt .handleRead (Fuseuring.handleRead ring fuseIo buf) := by
      intro buf
      simp only [Fuseuring.dispatch, code, read]
    rw [selected, selected, exec_awaitInt, exec_awaitInt]
    exact lockstep.handleRead ring (lockstep.called related _) (idle.record _)
      (idle'.record _) read received received'
      volume
  · have framed : request.opcode = some .write ∧ request.header InHeader.nodeid = 3 ∧
        request.header InHeader.len = InHeader.size + WriteIn.size +
          request.body WriteIn.count := by
      by_contra other
      refine plain ⟨readdir, fun code => absurd code read, fun write => ?_⟩
      rw [WriteFramed, received.announced, (received.writeIn write).2, received.nodeid]
      by_contra both
      rw [not_or, not_not, not_not] at both
      exact other ⟨write, both⟩
    obtain ⟨write, volume, framed⟩ := framed
    have selected : ∀ buf, Fuseuring.dispatch ring fuseIo (opcodeOf request.message) buf =
        awaitInt .handleWrite (Fuseuring.handleWrite fuseIo buf) := by
      intro buf
      simp only [Fuseuring.dispatch, code, write]
    rw [selected, selected, exec_awaitInt, exec_awaitInt]
    exact lockstep.handleWrite (lockstep.called related _) (idle.record _)
      (idle'.record _) write received received'
      volume framed

/-- **Kernels that differ in the reads alone run alike worlds in lockstep.** -/
theorem alike_lockstep (opcode : Option Opcode) (reads reads' : Nat → Nat)
    (others : List Observed → Operation → Int) :
    Lockstep opcode (.ofReads opcode reads others) (.ofReads opcode reads' others) (Alike opcode) :=
  ⟨fun _ _ => rfl, fun alike _ => alike.record rfl, fun alike => alike.setMem,
    fun alike _ => alike.submit⟩

end Dispatch

/-! ### Whole messages -/

section Whole

variable (ring : FuseRing) (request : Request) (slot : SlotState) (reads : Nat → Nat)
  (others : List Observed → Operation → Int)

/-- **A message that the size check accepts comes to its handler**, in whatever reads. -/
theorem serve_received (empty : slot.pipe = []) (acceptable : Acceptable ring request.message) :
    ∃ rbytesBuf mem quiet, Received slot.fuseIo request.message request.wild rbytesBuf mem ∧
      (∀ event ∈ quiet, event.Receives) ∧
      serve ring slot (request.scheduled reads others) =
        exec (.ofReads request.opcode reads others)
        (dispatch ring slot.fuseIo (opcodeOf request.message) rbytesBuf)
          ((slot.world request).received mem
            (request.message.drop (InHeader.size +
              (bodyOf request.message).readRbytes)) quiet) := by
  rcases exec_queueFuseRead_placed (.ofReads request.opcode reads others) ring
    (slot.world_idle request) empty with
    ⟨count, rbytesBuf, mem, quiet, delivered, placed, receives, -, ran⟩ | ⟨after, -, -, -, failed⟩
  · exact ⟨rbytesBuf, mem, quiet, ⟨delivered, placed.bare⟩, receives, ran⟩
  · exact absurd ⟨Kernel.ofReads_prompt _ _ _, acceptable⟩ failed

/-- **Messages that are read once have one outcome.** -/
theorem ReadOnce.unobserved (once : ReadOnce request)
    (acceptable : Acceptable ring request.message) :
    Unobserved ring request := by
  intro slot reads reads' others empty
  obtain ⟨rbytesBuf, mem, quiet, received, receives, ran⟩ :=
    serve_received ring request slot reads others empty acceptable
  obtain ⟨rbytesBuf', mem', quiet', received', receives', ran'⟩ :=
    serve_received ring request slot reads' others empty acceptable
  have alike : Alike request.opcode
      ((slot.world request).received mem (request.message.drop
        (InHeader.size + (bodyOf request.message).readRbytes))
        quiet)
      ((slot.world request).received mem' (request.message.drop
        (InHeader.size + (bodyOf request.message).readRbytes))
        quiet') := by
    refine ⟨rfl, rfl, rfl, ?_⟩
    show observe request.opcode ([] ++ quiet) = observe request.opcode ([] ++ quiet')
    rw [List.nil_append, List.nil_append, observe_receives _ receives, observe_receives _ receives']
  rw [Request.outcome, Request.outcome, ran, ran']
  have same := fun plain : Plain slot.fuseIo request.opcode rbytesBuf mem =>
    builtReply_same ring received received' once
      (fun read => absurd (received.nodeid.trans (once.read read)) (plain.read read))
      plain.readdir
  exact ((alike_lockstep request.opcode reads reads' others).dispatch ring alike
    ((slot.world_idle request).received _ _ _)
      ((slot.world_idle request).received _ _ _) received received' same).observed

end Whole

/-! ### Reads of one size -/

section Limit

variable {kernel : Kernel} {world : World} {ring : FuseRing}

/-- The first read takes what its size allows. -/
theorem submit_first_limit (empty : world.pipe = []) (prompt : kernel.Prompt)
    (fits : world.incoming.length ≤ ring.maxBufsize) (limit : Nat)
    (each : ∀ before buf count, kernel.result before (readSqe world.fuseIo buf count) = limit) :
    (world.submit kernel [messageSqe ring world.fuseIo,
      readSqe world.fuseIo world.fuseIo.headerBuf (InHeader.size + WriteIn.size)]).1.getD 1 (-1) =
        (min limit (min (InHeader.size + WriteIn.size) world.incoming.length) : Nat) := by
  have nonnegative : ¬ ((limit : Int) < 0) := by omega
  rw [World.submit]
  generalize queued : world.record (.queued _ world.mem) = start
  have empty' : start.pipe = [] := by
    rw [← queued]
    exact empty
  have incoming : start.incoming = world.incoming := by
    rw [← queued]
    rfl
  obtain ⟨res, event, -, ⟨-, -, unprompt⟩ | ⟨-, -, ran⟩⟩ :=
    perform_message kernel ring world.fuseIo empty'
  · exact absurd ⟨prompt, incoming ▸ fits⟩ unprompt
  · have cut : ¬ ((messageSqe ring world.fuseIo).link = .link ∧
        res < (messageSqe ring world.fuseIo).operation.nbytes) := fun both =>
          Link.noConfusion both.1
    rw [World.runChain, ran]
    dsimp only
    rw [if_neg cut, World.runChain, perform_read, each, if_neg nonnegative]
    simp [readSqe, World.runChain, World.arrived, incoming]

/-- **A message in reads of one size**: the first one decides where the body is. -/
theorem exec_queueFuseRead_limit (idle : world.Idle) (empty : world.pipe = [])
    (prompt : kernel.Prompt)
    (acceptable : Acceptable ring world.incoming) (limit : Nat) (enough : InHeader.size ≤ limit)
    (each : ∀ before buf count, kernel.result before (readSqe world.fuseIo buf count) = limit) :
    ∃ rbytesBuf mem events, Delivered world.fuseIo world.incoming rbytesBuf mem ∧
      PlacedAt world.fuseIo world.incoming
        (min limit (min (InHeader.size + WriteIn.size) world.incoming.length)) world.mem
          rbytesBuf mem ∧
      (∀ event ∈ events, event.Receives) ∧
      exec kernel (queueFuseRead ring) world =
        exec kernel (dispatch ring world.fuseIo (opcodeOf world.incoming) rbytesBuf)
          (world.received mem (world.incoming.drop
            (InHeader.size + (bodyOf world.incoming).readRbytes))
            events) := by
  have first := submit_first_limit empty prompt acceptable.fits limit each
  have header := acceptable.header
  obtain ⟨rbytes, initRead, after, events, submitted, -, -, receives, outcome⟩ :=
    submit_first kernel ring world.fuseIo empty
  rw [exec_queueFuseRead, queueFuseReadBody,
    exec_queueFuseReadWith kernel ring world.fuseIo _ idle,
    if_pos (prompt.sqe _ _), submitted]
  rw [submitted] at first
  simp only [List.getD_cons_zero, List.getD_cons_succ] at first ⊢
  rcases outcome with ⟨-, unprompt⟩ | ⟨amount, rfl, -, rfl, small, present,
    ⟨positive, rfl⟩ | ⟨-, unprompt⟩⟩
  · exact absurd ⟨prompt, acceptable.fits⟩ unprompt
  · have count := Int.ofNat.inj first
    have long : InHeader.size ≤ amount := by
      rw [count, InHeader.size, WriteIn.size] at *
      omega
    have whole : readHeader world.fuseIo (amount : Int) = pure (some amount) := by
      rw [readHeader, if_neg (by omega), if_neg (by omega), Int.toNat_natCast]
    rw [if_neg (by omega), Int.toNat_natCast, whole, exec_pure]
    rcases exec_serveRequest kernel ring world.fuseIo idle receives long small present
      acceptable.fits with
      ⟨rbytesBuf, mem, events', delivered, placed, receives', -, served⟩ | ⟨last, -, -, unprompt⟩
    · exact ⟨rbytesBuf, mem, events', delivered, count ▸ placed, receives', served⟩
    · exact absurd ⟨prompt, acceptable⟩ unprompt
  · exact absurd ⟨prompt, lt_of_lt_of_le (by decide) header⟩ unprompt

end Limit

/-! ### Messages that are not read once -/

section Converse

variable {ring : FuseRing} {request : Request} {slot : SlotState} {others : List Observed →
  Operation → Int}

/-- What is observed of a request that is answered from `scratch_buf` alone. -/
def plainOutcome (request : Request) (fuseIo : FuseIo) (built : Mem) : List Observed :=
  observe request.opcode (callsOf request.opcode ++
    [.called .sendReply, .queued (replyChain fuseIo (scratchReply fuseIo built)) built])

/-- A reply from `scratch_buf` is queued, whatever becomes of it. -/
theorem observe_dispatch_plain {kernel : Kernel} {world : World} {fuseIo : FuseIo} {rbytesBuf : Ptr}
    (idle : world.Idle) (entries : ∀ world, kernel.sqe world 2 = true)
    (plain : Plain fuseIo request.opcode rbytesBuf world.mem) :
    observe request.opcode (exec kernel (dispatch ring fuseIo
      (opcodeOf request.message) rbytesBuf) world).2.trace =
      observe request.opcode world.trace ++
        plainOutcome request fuseIo (builtReply ring fuseIo request.opcode rbytesBuf
          world.mem) := by
  have ran := exec_dispatch_plain kernel ring fuseIo rbytesBuf idle (opcodeOf request.message) plain
  have code : Opcode.ofCode (opcodeOf request.message) = request.opcode := rfl
  rw [code] at ran
  generalize builtReply ring fuseIo request.opcode rbytesBuf world.mem = built at ran ⊢
  obtain ⟨rc, events, pipe, outcome, sent⟩ := exec_sendReply_outcome kernel fuseIo
    (((idle.setMem built).leave world.pipe world.file (callsOf request.opcode)).record
      (.called .sendReply))
  simp only [World.record_mem, World.leave_mem, World.setMem_mem, World.record_pipe,
    World.leave_pipe] at outcome
  rw [ran, sent, plainOutcome, observe_append]
  simp only [World.leave_trace, World.record_trace, World.setMem_trace, observe_append,
    List.append_assoc]
  refine congrArg _ (congrArg _ ?_)
  have first : ∀ (event : Event) (rest : List Event),
      (∀ event ∈ rest, event.observed request.opcode = none) →
      observe request.opcode [.called .sendReply] ++ observe request.opcode (event :: rest) =
        observe request.opcode [.called .sendReply, event] := by
    intro event rest none
    have nothing : observe request.opcode rest = [] := List.filterMap_eq_nil_iff.mpr none
    have alone : observe request.opcode (event :: rest) = observe request.opcode [event] := by
      refine (observe_append _ [event] rest).trans ?_
      rw [nothing, List.append_nil]
    rw [alone]
    exact (observe_append _ [_] [event]).symm
  cases outcome with
  | unqueued missing =>
    obtain ⟨world, missing⟩ := missing
    exact absurd (entries world) missing
  | cut =>
    refine first _ _ fun event member => ?_
    rw [List.mem_singleton.mp member]
    rfl
  | lost =>
    refine first _ _ fun event member => ?_
    rcases List.mem_cons.mp member with rfl | member
    · rfl
    · rw [List.mem_singleton.mp member]
      rfl
  | delivered =>
    refine first _ _ fun event member => ?_
    rcases List.mem_cons.mp member with rfl | member
    · rfl
    · rw [List.mem_singleton.mp member]
      rfl

/-- **The outcome of a message in reads of one size.** -/
theorem outcome_plain (ring : FuseRing) (others : List Observed → Operation → Int)
    (empty : slot.pipe = []) (acceptable : Acceptable ring request.message) {limit : Nat}
    (enough : InHeader.size ≤ limit) (most : limit ≤ InHeader.size + WriteIn.size)
    (plain : ∀ buf mem, Received slot.fuseIo request.message request.wild buf mem →
      Plain slot.fuseIo request.opcode buf mem) :
    ∃ rbytesBuf mem, Received slot.fuseIo request.message request.wild rbytesBuf mem ∧
      PlacedAt slot.fuseIo request.message
        (min limit (min (InHeader.size + WriteIn.size) request.message.length))
        (slot.world request).mem rbytesBuf mem ∧
      request.outcome ring slot (fun _ => limit - 1) others =
        plainOutcome request slot.fuseIo
          (builtReply ring slot.fuseIo request.opcode rbytesBuf mem) := by
  have each : ∀ before buf count, (Kernel.ofReads request.opcode
      (fun _ => limit - 1) others).result before
      (readSqe slot.fuseIo buf count) = limit := by
    intro before buf count
    rw [Kernel.ofReads_result _ _ _ _ (readSqe_receives slot.fuseIo buf count)]
    rw [InHeader.size] at enough
    rw [InHeader.size, WriteIn.size] at most
    omega
  obtain ⟨rbytesBuf, mem, quiet, delivered, placed, receives, ran⟩ := exec_queueFuseRead_limit
    (slot.world_idle request) empty (Kernel.ofReads_prompt _ _ _) acceptable limit enough each
  have received : Received slot.fuseIo request.message request.wild rbytesBuf mem :=
    ⟨delivered, placed.bare⟩
  refine ⟨rbytesBuf, mem, received, placed, ?_⟩
  have served : serve ring slot (request.scheduled (fun _ => limit - 1) others) = _ := ran
  rw [Request.outcome, served]
  refine (observe_dispatch_plain ((slot.world_idle request).received mem _ quiet) (fun _ => rfl)
    (plain rbytesBuf mem received)).trans ?_
  have front : observe request.opcode ([] ++ quiet) = [] := observe_receives _ receives
  exact (congrArg (· ++ _) front).trans (List.nil_append _)

/-- The outcome shows the reply. -/
theorem plainOutcome_reply {fuseIo : FuseIo} {first second : Mem}
    (same : plainOutcome request fuseIo first = plainOutcome request fuseIo second) :
    SameReply request.opcode fuseIo first second := by
  rw [plainOutcome, plainOutcome, observe_append, observe_append] at same
  have shown : ∀ mem : Mem, observe request.opcode [.called .sendReply,
      .queued (replyChain fuseIo (scratchReply fuseIo mem)) mem] =
      [.called .sendReply, .queued ((replyChain fuseIo (scratchReply fuseIo mem)).map fun sqe =>
        (sqe, sqe.unpadded request.opcode mem))] := fun _ => rfl
  have last := List.append_cancel_left same
  rw [shown, shown] at last
  have chains := Observed.queued.inj (List.cons.inj (List.cons.inj last).2).1
  obtain ⟨entry, bytes⟩ := Prod.mk.inj (List.cons.inj chains).1
  have len : first.load fuseIo.scratchBuf OutHeader.len =
      second.load fuseIo.scratchBuf OutHeader.len :=
    (Operation.writeFixed.inj (Sqe.mk.inj entry).1).2.2
  refine ⟨len, fun index inside => ?_⟩
  have byte : ∀ mem : Mem, (Sqe.unpadded request.opcode mem ⟨scratchReply fuseIo mem,
      .link⟩)[index]? =
      if index < mem.load fuseIo.scratchBuf OutHeader.len then some (mem.scratchBuf index)
        else none := by
    intro mem
    split
    next small =>
      simp only [Sqe.unpadded, scratchReply]
      refine (slice_getElem _ _ _ _ small).trans (congrArg some ?_)
      rw [Nat.zero_add, inside.2, if_neg Bool.false_ne_true]
      exact congrArg mem.scratchBuf (Nat.zero_add index)
    next large =>
      refine List.getElem?_eq_none ?_
      rw [Sqe.unpadded, scratchReply, length_slice]
      exact not_lt.mp large
  have found := congrArg (·[index]?) bytes
  rw [byte, byte, if_pos inside.1, if_pos (len ▸ inside.1)] at found
  exact Option.some.inj found

/-- The body of an `OPEN`, of an `OPENDIR` and of a `READ` is in `header_buf` if
the message is read at once, and in `scratch_buf` if the header is read first. -/
theorem unobserved_reply (acceptable : Acceptable ring request.message)
    (unobserved : Unobserved ring request)
    (slot : SlotState) (empty : slot.pipe = []) {size : Nat}
    (body : bodyOf request.message = ⟨size, false, false⟩)
    (nonempty : 0 < size) (short : size ≤ WriteIn.size)
    (plain : ∀ buf mem, Received slot.fuseIo request.message request.wild buf mem →
      Plain slot.fuseIo request.opcode buf mem) :
    ∃ mem mem', Received slot.fuseIo request.message request.wild
      (slot.fuseIo.headerBuf.add InHeader.size) mem ∧
      mem.scratchBuf = slot.mem.scratchBuf ∧
      Received slot.fuseIo request.message request.wild slot.fuseIo.scratchBuf mem' ∧
      SameReply request.opcode slot.fuseIo
        (builtReply ring slot.fuseIo request.opcode (slot.fuseIo.headerBuf.add InHeader.size) mem)
        (builtReply ring slot.fuseIo request.opcode slot.fuseIo.scratchBuf mem') := by
  have length : request.message.length = InHeader.size + size := acceptable.length_eq body nonempty
  have bound : scratchBufSize = 4096 := by decide
  have target : bodyTarget slot.fuseIo size false = slot.fuseIo.scratchBuf := by
    refine if_pos ?_
    rw [bound]
    rw [WriteIn.size] at short
    simp only [Bool.false_eq_true, if_false]
    omega
  obtain ⟨buf, mem, received, placed, outcome⟩ := outcome_plain ring (fun _ _ => 0) empty
    acceptable (Nat.le_add_right InHeader.size WriteIn.size) le_rfl plain
  obtain ⟨buf', mem', received', placed', outcome'⟩ := outcome_plain ring (fun _ _ => 0) empty
    acceptable le_rfl (Nat.le_add_right InHeader.size WriteIn.size) plain
  have some' : 0 < (bodyOf request.message).readRbytes := by
    rw [body]
    exact nonempty
  obtain ⟨rfl, kept⟩ := placed.header some' (by rw [body, length]; dsimp only; omega) (by rw [body])
  have moved := placed'.buffer some' (by rw [body, length]; dsimp only; omega)
  rw [body, target] at moved
  subst moved
  refine ⟨mem, mem', received, kept, received', plainOutcome_reply ?_⟩
  rw [← outcome, ← outcome']
  exact unobserved slot _ _ _ empty

/-- The open flags of a reply. -/
theorem SameReply.openFlags {opcode : Option Opcode} {fuseIo : FuseIo} {first second : Mem}
    {value value' : Nat}
    (same : SameReply opcode fuseIo
      (first.store (fuseIo.scratchBuf.add OutHeader.size) OpenOut.openFlags value)
      (second.store (fuseIo.scratchBuf.add OutHeader.size) OpenOut.openFlags value'))
    (headed : ∃ error unique, Headed fuseIo error (OpenOut.size + OutHeader.size) unique second)
    (small : value < 2 ^ 32) (small' : value' < 2 ^ 32)
      (word : paddingOf opcode = some OpenOut.padding) :
    value = value' := by
  obtain ⟨error, unique, headed⟩ := headed
  have total := (headed.assign OpenOut.openFlags value').len
  have start : (fuseIo.scratchBuf.add OutHeader.size).offset = 16 := rfl
  have fields : (first.store (fuseIo.scratchBuf.add OutHeader.size) OpenOut.openFlags value).load
      (fuseIo.scratchBuf.add OutHeader.size) OpenOut.openFlags =
      (second.store (fuseIo.scratchBuf.add OutHeader.size) OpenOut.openFlags value').load
        (fuseIo.scratchBuf.add OutHeader.size) OpenOut.openFlags := by
    refine load_congr fun index inside => same.agree _ ⟨?_, ?_⟩
    · rw [total, start, OpenOut.size, OutHeader.size]
      simp only [OpenOut.openFlags] at inside ⊢
      omega
    · rw [start]
      simp only [OpenOut.openFlags] at inside ⊢
      have front : ¬ OutHeader.size + OpenOut.padding.offset ≤ 16 + 8 + index := by
        show ¬ 16 + 12 ≤ 16 + 8 + index
        omega
      rw [isPadding, word]
      simp only [front, decide_false, Bool.false_and]
  rw [Mem.load_store_same, Mem.load_store_same] at fields
  exact (Nat.mod_eq_of_lt small).symm.trans (fields.trans (Nat.mod_eq_of_lt small'))

/-- An `OPEN` or `OPENDIR` with one outcome is read once. -/
theorem unobserved_open (acceptable : Acceptable ring request.message)
    (unobserved : Unobserved ring request)
    (opens : request.opcode = some .open ∨ request.opcode = some .opendir) {fh extra : Nat}
    (low : extra < 2 ^ 32)
    (built : ∀ buf mem, builtReply ring SlotState.fresh.fuseIo request.opcode buf mem =
      openReply SlotState.fresh.fuseIo buf fh extra mem) :
    32 ||| extra = request.body OpenIn.flags ||| extra := by
  have word : paddingOf request.opcode = some OpenOut.padding := by
    rcases opens with opens | opens <;> rw [opens] <;> rfl
  have plain : ∀ buf mem, Received SlotState.fresh.fuseIo request.message request.wild buf mem →
      Plain SlotState.fresh.fuseIo request.opcode buf mem := by
    intro buf mem _
    rcases opens with opens | opens <;> rw [opens] <;> exact ⟨by decide, by simp, by simp⟩
  obtain ⟨mem, mem', received, -, -, same⟩ :=
    unobserved_reply acceptable unobserved .fresh rfl (openBody rfl opens)
    (by decide) (by decide) plain
  rw [built, built] at same
  have flags := received.openFlags_header opens fh rfl
  have flags' := openFlags_scratch SlotState.fresh.fuseIo fh mem'
  have small : request.body OpenIn.flags < 2 ^ 32 := load_lt _ _ 4
  have shown := same.openFlags
    ⟨0, _, (outHeader_headed (by decide) (requestUnique_lt _ _)).assign _ _⟩ ?_ ?_ word
  · rw [openHandled] at flags flags'
    rw [flags, flags'] at shown
    exact shown.symm
  · rw [openHandled] at flags
    rw [flags]
    exact Nat.or_lt_two_pow small low
  · rw [openHandled] at flags'
    rw [flags']
    exact Nat.or_lt_two_pow (by decide) low

/-- **Only messages that are read once have one outcome.** -/
theorem Unobserved.readOnce (acceptable : Acceptable ring request.message)
    (unobserved : Unobserved ring request) :
    ReadOnce request := by
  refine ⟨fun opens => ?_, fun opens => ?_, fun read => ?_⟩
  · exact unobserved_open acceptable unobserved (Or.inl opens) (by decide)
      fun buf mem => by rw [opens]; rfl
  · exact unobserved_open acceptable unobserved (Or.inr opens) (by decide)
      fun buf mem => by rw [opens]; rfl
  · by_contra other
    have body : bodyOf request.message = ⟨ReadIn.size, false, false⟩ := by
      rw [Request.opcode] at read
      simp only [bodyOf, expectedBody, read]
    have plain : ∀ (slot : SlotState) buf mem,
        Received slot.fuseIo request.message request.wild buf mem →
        Plain slot.fuseIo request.opcode buf mem := by
      intro slot buf mem received
      rw [read]
      exact ⟨by decide, fun _ volume => other (received.nodeid.symm.trans volume), by simp⟩
    -- the length that `handle_read` leaves in place is the slot's, or the first word of the body
    let word := OutHeader.len.load (ofList request.message) InHeader.size
    let buffer := OutHeader.len.store (ofList []) 0 ((word + 1) % 2 ^ 32)
    obtain ⟨mem, mem', received, kept, received', same⟩ := unobserved_reply acceptable unobserved
      ⟨⟨0⟩, ⟨ofList [], buffer, ofList [], 0, ofList []⟩, []⟩ rfl body (by decide)
        (by decide) (plain _)
    have unassigned : ∀ (fuseIo : FuseIo) (mem : Mem),
        (readRefusal fuseIo mem).load fuseIo.scratchBuf OutHeader.len =
        mem.load fuseIo.scratchBuf OutHeader.len := by
      intro fuseIo mem
      rw [readRefusal, Mem.load_store_apart _ (Mem.apart_same (by decide)),
        Mem.load_store_apart _ (Mem.apart_same (by decide)),
        Mem.load_store_apart _ (Mem.apart_same (by decide))]
    have len := same.len
    rw [read] at len
    have shown := (unassigned _ mem).symm.trans (len.trans (unassigned _ mem'))
    have first : mem.load (FuseIo.mk 0).scratchBuf OutHeader.len = (word + 1) % 2 ^ 32 := by
      have held : mem.buffer (FuseIo.mk 0).scratchBuf.region = buffer := kept
      rw [Mem.load, held]
      exact load_store_same_of_lt (Nat.mod_lt _ (by decide))
    have second : mem'.load (FuseIo.mk 0).scratchBuf OutHeader.len = word :=
      received'.load (by rw [body]; decide)
    have small : word < 2 ^ 32 := load_lt _ _ 4
    rw [first, second] at shown
    omega

end Converse

/-- **The outcome does not depend on how the message was read** for exactly the
messages that are read once. -/
theorem fragmentation_unobserved (ring : FuseRing) (request : Request)
    (acceptable : Acceptable ring request.message) : Unobserved ring request ↔ ReadOnce request :=
  ⟨fun unobserved => unobserved.readOnce acceptable,
    fun once => once.unobserved ring request acceptable⟩

/-- An `OPEN` without flags. -/
def openRequest : Request where
  message := sessionMessage .open 7 3 (List.replicate OpenIn.size 0)
  file := ⟨4096, ofList [], 0⟩
  kernel := .full
  wild := ofList []

theorem openRequest_acceptable : Acceptable .small openRequest.message where
  header := by decide +kernel
  fits := by decide +kernel
  body := by decide +kernel
  exact := fun _ _ => by decide +kernel

theorem first_byte_read_unobserved : Unobserved .small (readRequest 3) ↔ ReadOnce (readRequest 3) :=
  fragmentation_unobserved .small (readRequest 3)
    ⟨by decide +kernel, by decide +kernel, by decide +kernel, fun _ _ => by decide +kernel⟩

/-- An `OPEN` whose header is read before its body replies with the length of
the reply among its flags. -/
theorem fragmented_open_shows :
    ¬ ∀ (ring : FuseRing) (request : Request), Acceptable ring request.message →
    Unobserved ring request := by
  intro claim
  have same := claim .small openRequest openRequest_acceptable .fresh (fun _ => 79) (fun _ => 39)
    (fun _ _ => 0) rfl
  exact absurd same (by decide +kernel)

end Fuseuring
