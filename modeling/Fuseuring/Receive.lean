/-
**How a message is received.**

* `exec_readRbytes`: the body of a request, wherever it ends up.
* `BodyPlaced.delivered`: wherever that is, the handler's pointer leads to the message's bytes.
* `exec_queueFuseRead_cases`: the whole of `queue_fuse_read` on an empty pipe
  is a refusal or the second switch on a slot that holds the message.
-/

import Fuseuring.Reading

namespace Fuseuring

open Bytes Interaction

/-! ### The body of a request -/

/-- The buffer `read_rbytes` assembles a body in. -/
def bodyTarget (fuseIo : FuseIo) (rbytes : Nat) (addZero : Bool) : Ptr :=
  if rbytes + (if addZero then 1 else 0) < scratchBufSize then fuseIo.scratchBuf else fuseIo.freeBuf

/-- The memory before a body is assembled: the vector may have been resized. -/
def resized (rbytes : Nat) (addZero : Bool) (mem : Mem) : Mem :=
  if rbytes + (if addZero then 1 else 0) < scratchBufSize then mem
  else mem.resize (rbytes + (if addZero then 1 else 0))

/-- The buffer of a body has room for it and for its zero. -/
theorem bodyTarget_holds {fuseIo : FuseIo} {rbytes : Nat} {addZero : Bool} {mem : Mem} :
    (bodyTarget fuseIo rbytes addZero).Holds (resized rbytes addZero mem).size
    (rbytes + if addZero then 1 else 0) := by
  unfold bodyTarget resized
  by_cases fixed : rbytes + (if addZero then 1 else 0) < scratchBufSize
  · rw [if_pos fixed, if_pos fixed]
    exact (Nat.zero_add _).trans_le fixed.le
  · rw [if_neg fixed, if_neg fixed]
    exact (Nat.zero_add _).le

theorem bodyTarget_place {fuseIo : FuseIo} {rbytes : Nat} {addZero : Bool} :
    bodyTarget fuseIo rbytes addZero = fuseIo.scratchBuf ∨
    bodyTarget fuseIo rbytes addZero = fuseIo.freeBuf := by
  unfold bodyTarget
  by_cases fixed : rbytes + (if addZero then 1 else 0) < scratchBufSize
  · exact Or.inl (if_pos fixed)
  · exact Or.inr (if_neg fixed)

/-- The memory after `read_rbytes` copied what is in `header_buf`. -/
def bodyStart (fuseIo : FuseIo) (rbytes : Nat) (addZero : Bool) (initRead : Nat)
    (mem : Mem) : Mem :=
  (resized rbytes addZero mem).copy (bodyTarget fuseIo rbytes addZero)
    ((resized rbytes addZero mem).bytes (fuseIo.headerBuf.add InHeader.size) initRead)

/-- The memory after `read_rbytes` read `rest` and appended the zero. -/
def bodyMem (fuseIo : FuseIo) (rbytes : Nat) (addZero : Bool) (initRead : Nat) (rest : List UInt8)
    (mem : Mem) : Mem :=
  let filled := (bodyStart fuseIo rbytes addZero initRead mem).copy
    ((bodyTarget fuseIo rbytes addZero).add initRead) rest
  if addZero then filled.copy ((bodyTarget fuseIo rbytes addZero).add rbytes) [0] else filled

/-- The vector keeps the size that `read_rbytes` gave it. -/
theorem bodyMem_size (fuseIo : FuseIo) (rbytes : Nat) (addZero : Bool) (initRead : Nat)
    (rest : List UInt8) (mem : Mem) :
    (bodyMem fuseIo rbytes addZero initRead rest mem).size = (resized rbytes addZero mem).size := by
  unfold bodyMem bodyStart
  cases addZero <;> simp

/-- Where a body is: still in `header_buf`, or in the buffer it was assembled in. -/
inductive BodyPlaced (fuseIo : FuseIo) (rbytes : Nat) (addZero : Bool) (initRead : Nat)
    (rest : List UInt8)
    (mem : Mem) : Ptr → Mem → Prop
  | header (whole : initRead = rbytes) (bare : addZero = false) :
      BodyPlaced fuseIo rbytes addZero initRead rest mem (fuseIo.headerBuf.add InHeader.size) mem
  | buffer (needed : ¬ (initRead = rbytes ∧ addZero = false)) :
      BodyPlaced fuseIo rbytes addZero initRead rest mem (bodyTarget fuseIo rbytes addZero)
        (bodyMem fuseIo rbytes addZero initRead rest mem)

/-- Wherever a body is, its buffer has room for it and for its zero. -/
theorem BodyPlaced.room {fuseIo : FuseIo} {rbytes initRead : Nat} {addZero : Bool}
    {rest : List UInt8} {mem mem' : Mem}
    {rbytesBuf : Ptr} (front : initRead ≤ WriteIn.size)
    (placed : BodyPlaced fuseIo rbytes addZero initRead rest mem rbytesBuf mem') :
    rbytesBuf.Holds mem'.size (rbytes + if addZero then 1 else 0) := by
  cases placed with
  | header full bare =>
    subst bare
    show 0 + InHeader.size + (rbytes + 0) ≤ max (InHeader.size + WriteIn.size)
      (OutHeader.size + WriteOut.size)
    omega
  | buffer needed =>
    rw [bodyMem_size]
    exact bodyTarget_holds

section Body

variable (kernel : Kernel) {world : World} (fuseIo : FuseIo)

/-- The end of `read_rbytes`. -/
def bodyEnd (rbytes : Nat) (addZero complete : Bool) : Coro (Option Ptr) := do
  if complete then
    if addZero then
      let mem ← loadMem fuseIo
      storeMem fuseIo (mem.copy ((bodyTarget fuseIo rbytes addZero).add rbytes) [0])
    return some (bodyTarget fuseIo rbytes addZero)
  else return none

/-- `read_rbytes` behind its early returns. -/
theorem exec_readRbytes_assemble {rbytes initRead : Nat} {addZero : Bool} (nonempty : 0 < rbytes)
    (needed : ¬ (initRead = rbytes ∧ addZero = false)) :
    exec kernel (readRbytes fuseIo rbytes addZero initRead) world =
      exec kernel (if initRead = rbytes then bodyEnd fuseIo rbytes addZero true
        else readRbytesLoop fuseIo (bodyTarget fuseIo rbytes addZero) rbytes initRead >>=
          bodyEnd fuseIo rbytes addZero)
        (world.setMem (bodyStart fuseIo rbytes addZero initRead world.mem)) := by
  have guard : ¬ (initRead = rbytes ∧ (!addZero) = true) := by simpa using needed
  rw [readRbytes, exec_ite, if_neg nonempty.ne']
  dsimp only
  rw [exec_ite, if_neg guard, exec_loadMem, exec_storeMem]
  by_cases same : initRead = rbytes
  · rw [if_pos same, if_neg (by simp [same])]
    rfl
  · rw [if_neg same, if_pos (by simp [same])]
    rfl

theorem exec_bodyEnd (rbytes : Nat) (addZero : Bool) :
    exec kernel (bodyEnd fuseIo rbytes addZero true) world =
      (some (bodyTarget fuseIo rbytes addZero), world.setMem (if addZero then
        world.mem.copy ((bodyTarget fuseIo rbytes addZero).add rbytes) [0] else world.mem)) := by
  cases addZero <;> rfl

/-- A body that came whole with the header stays where it is. -/
theorem exec_readRbytes_inPlace {rbytes : Nat} (nonempty : 0 < rbytes) :
    exec kernel (readRbytes fuseIo rbytes false rbytes) world =
      (some (fuseIo.headerBuf.add InHeader.size), world) := by
  rw [readRbytes, exec_ite, if_neg nonempty.ne']
  simp

/-- **`read_rbytes`**: the body is placed, its rest taken from the pipe, or it gives up. -/
theorem exec_readRbytes (idle : world.Idle) {rbytes initRead : Nat} (addZero : Bool)
    (nonempty : 0 < rbytes)
    (small : rbytes < 2 ^ 32) (within : initRead ≤ rbytes) :
    (∃ rbytesBuf mem events,
      BodyPlaced fuseIo rbytes addZero initRead (world.pipe.take (rbytes - initRead)) world.mem
        rbytesBuf mem ∧
      exec kernel (readRbytes fuseIo rbytes addZero initRead) world =
        (some rbytesBuf, (world.setMem mem).leave
          (world.pipe.drop (rbytes - initRead)) world.file events) ∧
      (∀ event ∈ events, event.ReadsInto fuseIo (bodyTarget fuseIo rbytes addZero) rbytes) ∧
      rbytes - initRead ≤ world.pipe.length) ∨
    ∃ after, exec kernel (readRbytes fuseIo rbytes addZero initRead) world = (none, after) ∧
      world.Refused after ∧ ¬ (kernel.Prompt ∧ rbytes - initRead ≤ world.pipe.length) := by
  by_cases whole : initRead = rbytes ∧ addZero = false
  · obtain ⟨rfl, rfl⟩ := whole
    refine Or.inl ⟨_, _, [], .header rfl rfl, ?_, by simp, by simp⟩
    rw [exec_readRbytes_inPlace kernel fuseIo nonempty]
    simp [World.leave, World.setMem]
  rw [exec_readRbytes_assemble kernel fuseIo nonempty whole]
  by_cases same : initRead = rbytes
  · subst same
    rw [if_pos rfl, exec_bodyEnd]
    refine Or.inl ⟨_, _, [], .buffer whole, ?_, by simp, by simp⟩
    simp [bodyMem, World.leave, World.setMem]
  · have unfinished : initRead < rbytes := by omega
    rw [if_neg same, exec_bind]
    rcases exec_readRbytesLoop kernel fuseIo (bodyTarget fuseIo rbytes addZero)
      (idle.setMem (bodyStart fuseIo rbytes addZero initRead world.mem)) small unfinished
      with ⟨events, ran, receives, enough⟩ | ⟨after, ran, refused, unprompt⟩
    · rw [ran]
      dsimp only
      rw [exec_bodyEnd]
      refine Or.inl ⟨_, _, events, .buffer whole, ?_, receives, enough⟩
      simp [bodyMem, World.taken, World.leave, World.setMem]
    · rw [ran]
      exact Or.inr ⟨after, rfl, refused, unprompt⟩

end Body

/-! ### A slot that holds the message -/

/-- The request's opcode. -/
def opcodeOf (message : List UInt8) : Nat := InHeader.opcode.load (ofList message) 0

/-- The body expected of a message. -/
def bodyOf (message : List UInt8) : Expected := expectedBody (opcodeOf message) message.length

/-- A `LOOKUP` that is only a header. -/
def NamelessLookup (message : List UInt8) : Prop :=
  Opcode.ofCode (opcodeOf message) = some .lookup ∧ message.length = InHeader.size

/-- The messages whose size `queue_fuse_read` accepts. -/
structure Acceptable (ring : FuseRing) (message : List UInt8) : Prop where
  header : InHeader.size ≤ message.length
  fits : message.length ≤ ring.maxBufsize
  body : InHeader.size + (bodyOf message).readRbytes ≤ message.length
  exact : 0 < (bodyOf message).readRbytes → (bodyOf message).allowAddBytes = false →
    (bodyOf message).readRbytes = message.length - InHeader.size

/-- The length of a message that carries no more than its body structure. -/
theorem Acceptable.length_eq {ring : FuseRing} {message : List UInt8}
    (acceptable : Acceptable ring message) {size : Nat}
    (body : bodyOf message = ⟨size, false, false⟩) (nonempty : 0 < size) :
    message.length = InHeader.size + size := by
  have whole := acceptable.exact (by rw [body]; exact nonempty) (by rw [body])
  have inside := acceptable.header
  rw [body] at whole
  dsimp only at whole
  omega

/-- A message without a body is a header. -/
theorem expectedBody_empty {opcode rbytes : Nat}
    (empty : (expectedBody opcode rbytes).readRbytes = 0) :
    rbytes ≤ InHeader.size := by
  unfold expectedBody at empty
  split at empty <;>
    simp [GetattrIn.size, SetattrIn.size, OpenIn.size, ReadIn.size, ReleaseIn.size,
      WriteIn.size] at empty ⊢ <;>
    omega

/-- No body is longer than a structure or the message. -/
theorem expectedBody_le (opcode rbytes : Nat) :
    (expectedBody opcode rbytes).readRbytes ≤ max 128 rbytes := by
  unfold expectedBody
  split <;> simp [GetattrIn.size, SetattrIn.size, OpenIn.size, ReadIn.size,
    ReleaseIn.size, WriteIn.size]

/-- Only the structure of a `WRITE` is read of a longer message. -/
theorem expectedBody_allow {opcode rbytes : Nat}
    (allow : (expectedBody opcode rbytes).allowAddBytes = true) :
    (expectedBody opcode rbytes).readRbytes = WriteIn.size := by
  unfold expectedBody at allow ⊢
  split at allow <;> first | rfl | cases allow

/-- What the handlers find: the header in `header_buf` and the body where the pointer leads. -/
structure Delivered (fuseIo : FuseIo) (message : List UInt8) (rbytesBuf : Ptr)
    (mem : Mem) : Prop where
  header : ∀ index < InHeader.size, mem.headerBuf index = ofList message index
  body : ∀ index < (bodyOf message).readRbytes,
    mem.buffer rbytesBuf.region (rbytesBuf.offset + index) = ofList message (InHeader.size + index)
  zero : 0 < (bodyOf message).readRbytes → (bodyOf message).addZero = true →
    mem.buffer rbytesBuf.region (rbytesBuf.offset + (bodyOf message).readRbytes) = 0
  place : 0 < (bodyOf message).readRbytes →
    rbytesBuf = fuseIo.headerBuf.add InHeader.size ∨
      rbytesBuf = bodyTarget fuseIo (bodyOf message).readRbytes (bodyOf message).addZero

/-- A field of a header that is in `header_buf`. -/
theorem load_header {message : List UInt8} {mem : Mem} (fuseIo : FuseIo)
    (header : ∀ index < InHeader.size, mem.headerBuf index = ofList message index) {field : Field}
    (inside : field.offset + field.width ≤ InHeader.size) :
    mem.load fuseIo.headerBuf field = field.load (ofList message) 0 := by
  refine load_congr fun index small => header _ ?_
  have start : fuseIo.headerBuf.offset = 0 := rfl
  omega

/-- A field of the body. -/
theorem Delivered.load {fuseIo : FuseIo} {message : List UInt8} {rbytesBuf : Ptr} {mem : Mem}
    (delivered : Delivered fuseIo message rbytesBuf mem) {field : Field}
    (inside : field.offset + field.width ≤ (bodyOf message).readRbytes) :
    mem.load rbytesBuf field = field.load (ofList message) InHeader.size := by
  refine load_congr fun index small => ?_
  rw [Nat.add_assoc, delivered.body _ (by omega), Nat.add_assoc]

section Delivery

variable (kernel : Kernel) {world : World} (fuseIo : FuseIo)

theorem bodyTarget_region (rbytes : Nat) (addZero : Bool) :
    Region.header ≠ (bodyTarget fuseIo rbytes addZero).region := by
  unfold bodyTarget
  split_ifs <;> exact Region.noConfusion

theorem resized_headerBuf (rbytes : Nat) (addZero : Bool) (mem : Mem) :
    (resized rbytes addZero mem).headerBuf = mem.headerBuf := by
  unfold resized
  split_ifs <;> rfl

/-- Assembling a body is one copy: what `header_buf` held, the rest and the zero. -/
theorem bodyMem_eq {rbytes initRead : Nat} (addZero : Bool) {rest : List UInt8} (mem : Mem)
    (count : initRead + rest.length = rbytes) :
    bodyMem fuseIo rbytes addZero initRead rest mem =
      (resized rbytes addZero mem).copy (bodyTarget fuseIo rbytes addZero)
        (slice mem.headerBuf InHeader.size initRead ++ rest ++ if addZero then [0] else []) := by
  have first : (resized rbytes addZero mem).bytes (fuseIo.headerBuf.add InHeader.size) initRead =
      slice mem.headerBuf InHeader.size initRead := by
    rw [← resized_headerBuf rbytes addZero mem]
    rfl
  have start : bodyStart fuseIo rbytes addZero initRead mem =
      (resized rbytes addZero mem).copy (bodyTarget fuseIo rbytes addZero)
        (slice mem.headerBuf InHeader.size initRead) := by
    rw [← first]
    rfl
  have filled := Mem.copy_copy (resized rbytes addZero mem) (bodyTarget fuseIo rbytes addZero)
    (slice mem.headerBuf InHeader.size initRead) rest
  have zeroed := Mem.copy_copy (resized rbytes addZero mem) (bodyTarget fuseIo rbytes addZero)
    (slice mem.headerBuf InHeader.size initRead ++ rest) [0]
  rw [length_slice] at filled
  rw [List.length_append, length_slice, count] at zeroed
  rw [bodyMem, start, filled]
  cases addZero with
  | false => simp
  | true => simpa using zeroed

/-- A placed body is the message's, whatever size was asked for. -/
theorem BodyPlaced.holds {message : List UInt8} {rbytes initRead : Nat} {addZero : Bool} {mem : Mem}
    {rbytesBuf : Ptr}
    {mem' : Mem} (within : initRead ≤ rbytes) (enough : InHeader.size + rbytes ≤ message.length)
    (header : ∀ index < InHeader.size + initRead, mem.headerBuf index = ofList message index)
    (placed : BodyPlaced fuseIo rbytes addZero initRead
      ((message.drop (InHeader.size + initRead)).take (rbytes - initRead)) mem rbytesBuf mem') :
    (∀ index < InHeader.size, mem'.headerBuf index = ofList message index) ∧
      (∀ index < rbytes,
        mem'.buffer rbytesBuf.region (rbytesBuf.offset + index) = ofList message
          (InHeader.size + index)) ∧
      (addZero = true → mem'.buffer rbytesBuf.region (rbytesBuf.offset + rbytes) = 0) ∧
      (rbytesBuf = fuseIo.headerBuf.add InHeader.size ∨
        rbytesBuf = bodyTarget fuseIo rbytes addZero) := by
  have front : ∀ index < InHeader.size, mem.headerBuf index = ofList message index :=
    fun index inside => header index (by omega)
  cases placed with
  | header whole bare =>
    refine ⟨front, fun index inside => ?_, ?_, Or.inl rfl⟩
    · exact (congrArg mem.headerBuf (by simp [Ptr.add, FuseIo.headerBuf])).trans
        (header (InHeader.size + index) (by omega))
    · intro zero
      rw [bare] at zero
      cases zero
  | buffer needed =>
    have restLength : ((message.drop (InHeader.size + initRead)).take (rbytes - initRead)).length =
        rbytes - initRead := by
      simp
      omega
    have length : initRead + ((message.drop (InHeader.size + initRead)).take
        (rbytes - initRead)).length =
        rbytes := by omega
    have start : slice mem.headerBuf InHeader.size initRead =
        (message.drop InHeader.size).take initRead := by
      rw [← slice_ofList (by omega)]
      exact slice_congr fun index inside => header _ (by omega)
    have body : slice mem.headerBuf InHeader.size initRead ++
        (message.drop (InHeader.size + initRead)).take (rbytes - initRead) =
          (message.drop InHeader.size).take rbytes := by
      rw [start, ← List.drop_drop, ← List.take_add, Nat.add_sub_cancel' within]
    have bodyLength : ((message.drop InHeader.size).take rbytes).length = rbytes := by
      simp
      omega
    rw [bodyMem_eq fuseIo _ mem length, body]
    refine ⟨fun index inside => ?_, fun index inside => ?_, fun zero => ?_, Or.inr rfl⟩
    · rw [← front index inside, ← resized_headerBuf rbytes addZero mem]
      exact congrFun (Mem.buffer_setBuffer_ne (bodyTarget_region fuseIo rbytes _)) index
    · rw [Mem.copy, Mem.buffer_setBuffer_same,
        write_inside (by rw [List.length_append, bodyLength]; omega),
        List.getD_append _ _ _ _ (by omega)]
      exact (ofList_take inside).trans (ofList_drop _ _ _)
    · rw [Mem.copy, Mem.buffer_setBuffer_same, zero, if_pos rfl,
        write_inside (by rw [List.length_append, bodyLength]; simp),
        List.getD_append_right _ _ _ _ (by omega), bodyLength, Nat.sub_self]
      rfl

/-- **A placed body is the message's.** -/
theorem BodyPlaced.delivered {message : List UInt8} {initRead : Nat} {mem : Mem} {rbytesBuf : Ptr}
    {mem' : Mem} (within : initRead ≤ (bodyOf message).readRbytes)
    (enough : InHeader.size + (bodyOf message).readRbytes ≤ message.length)
    (header : ∀ index < InHeader.size + initRead, mem.headerBuf index = ofList message index)
    (placed : BodyPlaced fuseIo (bodyOf message).readRbytes (bodyOf message).addZero initRead
      ((message.drop (InHeader.size + initRead)).take ((bodyOf message).readRbytes - initRead)) mem
      rbytesBuf mem') :
    Delivered fuseIo message rbytesBuf mem' := by
  obtain ⟨front, body, zero, place⟩ := placed.holds fuseIo within enough header
  exact ⟨front, body, fun _ => zero, fun _ => place⟩

end Delivery

/-! ### Receiving a message -/

namespace World

/-- The world after the session delivered its message into the empty pipe. -/
def arrived (world : World) : World := { world with pipe := world.incoming, incoming := [] }

/-- The world in which a handler starts. -/
def received (world : World) (mem : Mem) (pipe : List UInt8) (events : List Event) : World :=
  (world.arrived.setMem mem).leave pipe world.file events

/-- Nothing was queued: at most an entry was taken. -/
def Unstarted (world after : World) : Prop :=
  after = { world with entries := after.entries, reserved := after.reserved }

theorem arrived_taken (world : World) (buf : Ptr) (count : Nat) (events : List Event) :
    world.arrived.taken buf count events =
      world.received (world.arrived.taken buf count events).mem
        (world.incoming.drop count) events := by
  simp [taken, received, arrived, leave, setMem]

theorem Idle.arrived {world : World} (idle : world.Idle) : world.arrived.Idle :=
  ⟨idle.entries, idle.reserved⟩

theorem Idle.received {world : World} (idle : world.Idle) (mem : Mem) (pipe : List UInt8)
    (events : List Event) : (world.received mem pipe events).Idle :=
  ⟨idle.entries, idle.reserved⟩

end World

/-- How receiving a message fails: before anything is queued, or with only receiving events. -/
def ReceiveFailed (kernel : Kernel) (ring : FuseRing) (world after : World) : Prop :=
  world.Refused after ∧ (world.Unstarted after ∨ after.trace ≠ world.trace) ∧
    ¬ (kernel.Prompt ∧ Acceptable ring world.incoming)

section Receiving

variable (kernel : Kernel) {world : World} (ring : FuseRing) (fuseIo : FuseIo)

/-- The splice of a message into the pipe. -/
def messageSqe : Sqe :=
  ⟨.splice (.fuse fuseIo) (-1) (.pipe1 fuseIo) (-1) ring.maxBufsize, .hardlink⟩

/-- The message arrives whole or not at all. -/
theorem perform_message {world : World} (empty : world.pipe = []) :
    ∃ res event, event.Receives ∧
      ((res < 0 ∧ world.perform kernel (messageSqe ring fuseIo) = (res, world.record event) ∧
          ¬ (kernel.Prompt ∧ world.incoming.length ≤ ring.maxBufsize)) ∨
        (res = world.incoming.length ∧ world.incoming.length ≤ ring.maxBufsize ∧
          world.perform kernel (messageSqe ring fuseIo) = (res, world.arrived.record event))) := by
  have ran : ∀ pipe bytes res, Event.Receives
      (.ran (messageSqe ring fuseIo).operation pipe bytes res) :=
    fun pipe bytes res => .ran pipe bytes res trivial
  by_cases fits : world.incoming.length ≤ ring.maxBufsize
  · have available : world.available (messageSqe ring fuseIo).operation = some world.incoming :=
      if_pos fits
    by_cases failed : kernel.result world (messageSqe ring fuseIo) < 0
    · refine ⟨_, .ran (messageSqe ring fuseIo).operation world.pipe []
        (kernel.result world (messageSqe ring fuseIo)), ran _ _ _, Or.inl ⟨failed, ?_, ?_⟩⟩
      · rw [World.perform, available]
        simp only [if_pos failed]
      · rintro ⟨prompt, -⟩
        have positive := prompt.result world (messageSqe ring fuseIo) trivial
        omega
    · refine ⟨_, .ran (messageSqe ring fuseIo).operation world.pipe world.incoming
        world.incoming.length,
        ran _ _ _, Or.inr ⟨rfl, fits, ?_⟩⟩
      rw [World.perform, available]
      simp only [if_neg failed]
      simp [World.portion, messageSqe, World.transfer, World.arrived, empty]
  · have available : world.available (messageSqe ring fuseIo).operation = none := if_neg fits
    refine ⟨-EINVAL, .ran (messageSqe ring fuseIo).operation world.pipe [] (-EINVAL), ran _ _ _,
      Or.inl ⟨by decide, ?_, fun prompt => fits prompt.2⟩⟩
    rw [World.perform, available]

/-- The first two operations: the message fails to arrive, or is read from the front. -/
theorem submit_first (empty : world.pipe = []) :
    ∃ rbytes initRead after events,
      world.submit kernel [messageSqe ring fuseIo,
        readSqe fuseIo fuseIo.headerBuf (InHeader.size + WriteIn.size)] =
          ([rbytes, initRead], after) ∧
      after.trace = world.trace ++ events ∧ events ≠ [] ∧ (∀ event ∈ events, event.Receives) ∧
      ((rbytes < 0 ∧ ¬ (kernel.Prompt ∧ world.incoming.length ≤ ring.maxBufsize)) ∨
        ∃ amount, rbytes = world.incoming.length ∧ world.incoming.length ≤ ring.maxBufsize ∧
          after = world.arrived.taken fuseIo.headerBuf amount events ∧
          amount ≤ InHeader.size + WriteIn.size ∧ amount ≤ world.incoming.length ∧
          ((0 < initRead ∧ initRead = amount) ∨
            (initRead ≤ 0 ∧ ¬ (kernel.Prompt ∧ 0 < world.incoming.length)))) := by
  let chain :=
    [messageSqe ring fuseIo, readSqe fuseIo fuseIo.headerBuf (InHeader.size + WriteIn.size)]
  let start := world.record (.queued chain world.mem)
  have submitted : world.submit kernel chain =
      ([(start.perform kernel (messageSqe ring fuseIo)).1,
        ((start.perform kernel (messageSqe ring fuseIo)).2.perform kernel
          (readSqe fuseIo fuseIo.headerBuf (InHeader.size + WriteIn.size))).1],
        ((start.perform kernel (messageSqe ring fuseIo)).2.perform kernel
          (readSqe fuseIo fuseIo.headerBuf (InHeader.size + WriteIn.size))).2) := by
    simp [World.submit, World.runChain, messageSqe, readSqe, chain, start]
  have queued : Event.Receives (.queued chain world.mem) := by
    refine .queued _ fun sqe present => ?_
    rcases List.mem_cons.mp present with rfl | present
    · trivial
    · exact List.mem_singleton.mp present ▸ readSqe_receives fuseIo _ _
  obtain ⟨rbytes, arrival, receives, ⟨failed, ran, unprompt⟩ | ⟨whole, fits, ran⟩⟩ :=
    perform_message kernel ring fuseIo (show start.pipe = [] from empty)
  all_goals rw [ran] at submitted
  · obtain ⟨amount, initRead, event, read, receives', -⟩ := perform_read_cases kernel fuseIo
      (start.record arrival) fuseIo.headerBuf (InHeader.size + WriteIn.size)
    rw [read] at submitted
    refine ⟨_, _, _, [.queued chain world.mem, arrival, event], submitted, ?_, by simp, ?_,
      Or.inl ⟨failed, unprompt⟩⟩
    · simp [World.taken, start]
    · simp [queued, receives, receives']
  · obtain ⟨amount, initRead, event, read, receives', -, small, present, progress⟩ :=
      perform_read_cases kernel fuseIo (start.arrived.record arrival) fuseIo.headerBuf
        (InHeader.size + WriteIn.size)
    rw [read] at submitted
    refine ⟨_, _, _, [.queued chain world.mem, arrival, event], submitted, ?_, by simp, ?_,
      Or.inr ⟨amount, whole, fits, ?_, small, present, progress.imp id ?_⟩⟩
    · simp [World.taken, World.arrived, start]
    · simp [queued, receives, receives']
    · simp [World.taken, World.arrived, start, World.leave, World.record, World.setMem]
    · exact fun failed => ⟨failed.1, fun both => failed.2 ⟨both.1, by decide, both.2⟩⟩

/-- A first read that brought nothing is an error. -/
theorem exec_readHeader_stuck (world : World) {initRead : Int} (stuck : initRead ≤ 0) :
    exec kernel (readHeader fuseIo initRead) world = (none, world) := by
  have short : initRead < InHeader.size := lt_of_le_of_lt stuck (by decide)
  rw [readHeader, if_neg (fun both => absurd both.1 (not_lt.mpr stuck)), if_pos short]
  rfl

/-- The header: at least 40 bytes of the message end up in `header_buf`, or it gives up. -/
theorem exec_readHeader {events : List Event} (idle : world.Idle) {amount : Nat} {initRead : Int}
    (receives : ∀ event ∈ events, event.Receives)
    (small : amount ≤ InHeader.size + WriteIn.size) (present : amount ≤ world.incoming.length)
    (progress : (0 < initRead ∧ initRead = amount) ∨
      (initRead ≤ 0 ∧ ¬ (kernel.Prompt ∧ 0 < world.incoming.length))) :
    (∃ count more, exec kernel (readHeader fuseIo initRead)
          (world.arrived.taken fuseIo.headerBuf amount events) =
        (some count, world.arrived.taken fuseIo.headerBuf count (events ++ more)) ∧
      (∀ event ∈ events ++ more, event.Receives) ∧ InHeader.size ≤ count ∧
      count ≤ InHeader.size + WriteIn.size ∧ count ≤ world.incoming.length) ∨
    ∃ after, exec kernel (readHeader fuseIo initRead)
          (world.arrived.taken fuseIo.headerBuf amount events) = (none, after) ∧
      (world.arrived.taken fuseIo.headerBuf amount events).Refused after ∧
      ¬ (kernel.Prompt ∧ InHeader.size ≤ world.incoming.length) := by
  rcases progress with ⟨positive, rfl⟩ | ⟨stuck, unprompt⟩
  · by_cases whole : InHeader.size ≤ amount
    · have long : ¬ ((amount : Int) < InHeader.size) := by omega
      refine Or.inl ⟨amount, [], ?_, by simpa using receives, whole, small, present⟩
      rw [readHeader, if_neg (fun both => long both.2), if_neg long]
      simp
    · have short : (amount : Int) < InHeader.size := by omega
      rw [readHeader, if_pos ⟨positive, short⟩, Int.toNat_natCast]
      rcases exec_readHeaderLoop kernel fuseIo (idle.arrived.taken fuseIo.headerBuf amount events)
        (show amount < InHeader.size by omega)
        with ⟨more, ran, receives', enough⟩ | ⟨after, ran, refused, unprompt⟩
      · have left : (world.arrived.taken fuseIo.headerBuf amount events).pipe.length =
            world.incoming.length - amount := by
          simp [World.taken, World.arrived]
        refine Or.inl ⟨InHeader.size, more, ?_, ?_, le_rfl, Nat.le_add_right _ _, by omega⟩
        · rw [ran, World.taken_taken _ _ (by exact present), Nat.add_sub_cancel' (by omega)]
        · intro event member
          exact (List.mem_append.mp member).elim (receives event)
            fun behind => (receives' event behind).receives
      · refine Or.inr ⟨after, ran, refused, fun both => unprompt ⟨both.1, ?_⟩⟩
        simp only [World.taken, World.leave_pipe, World.arrived, List.length_drop]
        omega
  · rw [exec_readHeader_stuck kernel fuseIo _ stuck]
    refine Or.inr ⟨_, rfl, .refl _, fun both => unprompt ⟨both.1, ?_⟩⟩
    exact lt_of_lt_of_le (by decide) both.2

/-- `header_buf` after `count` bytes of what is in the pipe. -/
theorem taken_header {count index : Nat} (events : List Event) (inside : index < count)
    (present : count ≤ world.pipe.length) :
    (world.taken fuseIo.headerBuf count events).mem.headerBuf index = ofList world.pipe index := by
  have length : (world.pipe.take count).length = count := by simp [present]
  have written := @write_inside world.mem.headerBuf 0 index (world.pipe.take count) (by omega)
  rw [Nat.zero_add] at written
  exact written.trans (ofList_take inside)

/-- The two ways through `serveRequest`. -/
theorem exec_serveRequestWith_eq (handler : Nat → Ptr → Coro Int) (world : World)
    (rbytes initRead : Nat) :
    exec kernel (serveRequestWith fuseIo handler rbytes initRead) world =
      let expected := expectedBody (world.mem.load fuseIo.headerBuf InHeader.opcode) rbytes
      if expected.readRbytes > 0 then
        if !expected.allowAddBytes ∧ expected.readRbytes ≠ rbytes - InHeader.size then (-1, world)
        else match exec kernel (readRbytes fuseIo expected.readRbytes expected.addZero
            (initRead - InHeader.size)) (world.record (.called .readRbytes)) with
          | (none, after) => (-1, after)
          | (some rbytesBuf, after) =>
            exec kernel (handler (after.mem.load fuseIo.headerBuf InHeader.opcode) rbytesBuf) after
      else exec kernel (handler (world.mem.load fuseIo.headerBuf InHeader.opcode)
        fuseIo.wild) world := by
  rw [serveRequestWith, exec_loadMem]
  dsimp only
  rw [exec_ite]
  refine if_congr Iff.rfl ?_ rfl
  rw [exec_ite]
  refine if_congr Iff.rfl rfl ?_
  rw [exec_bind, exec_awaitPointer]
  generalize exec kernel (readRbytes fuseIo _ _ _) _ = read
  rcases read with ⟨_ | rbytesBuf, after⟩ <;> rfl

/-- Where the body is, `count` bytes having been read with the header; `start`
is the memory before. Without a body nothing is assigned. -/
structure PlacedAt (fuseIo : FuseIo) (message : List UInt8) (count : Nat) (start : Mem)
    (rbytesBuf : Ptr)
    (mem : Mem) : Prop where
  header : 0 < (bodyOf message).readRbytes → count = InHeader.size + (bodyOf message).readRbytes →
    (bodyOf message).addZero = false →
      rbytesBuf = fuseIo.headerBuf.add InHeader.size ∧ mem.scratchBuf = start.scratchBuf
  buffer : 0 < (bodyOf message).readRbytes → count ≠ InHeader.size + (bodyOf message).readRbytes →
    rbytesBuf = bodyTarget fuseIo (bodyOf message).readRbytes (bodyOf message).addZero
  bare : (bodyOf message).readRbytes = 0 → rbytesBuf = fuseIo.wild ∧ mem.wild = start.wild

/-- **From the checked header on**: a refusal, or the second switch on a slot
that holds the message. -/
theorem exec_serveRequestWith (idle : world.Idle) {count : Nat} {events : List Event}
    (receives : ∀ event ∈ events, event.Receives) (header : InHeader.size ≤ count)
    (small : count ≤ InHeader.size + WriteIn.size) (present : count ≤ world.incoming.length)
    (fits : world.incoming.length ≤ ring.maxBufsize) :
    (∃ rbytesBuf mem events', Delivered fuseIo world.incoming rbytesBuf mem ∧
      PlacedAt fuseIo world.incoming count world.mem rbytesBuf mem ∧
      (0 < (bodyOf world.incoming).readRbytes →
        rbytesBuf.Holds mem.size
          ((bodyOf world.incoming).readRbytes + if (bodyOf world.incoming).addZero then 1 else 0)) ∧
      (∀ event ∈ events', event.Receives) ∧ Acceptable ring world.incoming ∧
      ∀ handler, exec kernel (serveRequestWith fuseIo handler world.incoming.length count)
          (world.arrived.taken fuseIo.headerBuf count events) =
        exec kernel (handler (opcodeOf world.incoming) rbytesBuf)
          (world.received mem (world.incoming.drop
            (InHeader.size + (bodyOf world.incoming).readRbytes))
            events')) ∨
    ∃ after, (∀ handler, exec kernel (serveRequestWith fuseIo handler world.incoming.length count)
          (world.arrived.taken fuseIo.headerBuf count events) = (-1, after)) ∧
      (world.arrived.taken fuseIo.headerBuf count events).Refused after ∧
      ¬ (kernel.Prompt ∧ Acceptable ring world.incoming) := by
  have front : ∀ index < count,
      (world.arrived.taken fuseIo.headerBuf count events).mem.headerBuf index =
        ofList world.incoming index :=
    fun index inside => taken_header fuseIo events inside present
  have opcode : (world.arrived.taken fuseIo.headerBuf count events).mem.load fuseIo.headerBuf
      InHeader.opcode = opcodeOf world.incoming :=
    load_header fuseIo (fun index inside => front index (lt_of_lt_of_le inside header)) (by decide)
  have pipe : (world.arrived.taken fuseIo.headerBuf count events).pipe =
      world.incoming.drop count := rfl
  have split : InHeader.size + (count - InHeader.size) = count := Nat.add_sub_cancel' header
  have through := fun handler =>
    exec_serveRequestWith_eq kernel fuseIo handler
      (world.arrived.taken fuseIo.headerBuf count events)
      world.incoming.length count
  rw [opcode] at through
  simp only [show expectedBody (opcodeOf world.incoming) world.incoming.length =
    bodyOf world.incoming from rfl] at through
  by_cases nonempty : 0 < (bodyOf world.incoming).readRbytes
  · simp only [if_pos nonempty] at through
    by_cases mismatch : (!(bodyOf world.incoming).allowAddBytes) = true ∧
        (bodyOf world.incoming).readRbytes ≠ world.incoming.length - InHeader.size
    · simp only [if_pos mismatch] at through
      refine Or.inr ⟨_, through, .refl _, fun both => ?_⟩
      exact mismatch.2 (both.2.exact nonempty (by simpa using mismatch.1))
    simp only [if_neg mismatch] at through
    have exact : (bodyOf world.incoming).allowAddBytes = false →
        (bodyOf world.incoming).readRbytes = world.incoming.length - InHeader.size := by
      intro strict
      by_contra other
      exact mismatch ⟨by simp [strict], other⟩
    have within : count - InHeader.size ≤ (bodyOf world.incoming).readRbytes := by
      cases allow : (bodyOf world.incoming).allowAddBytes with
      | false =>
        rw [exact allow]
        exact Nat.sub_le_sub_right present _
      | true =>
        rw [show (bodyOf world.incoming).readRbytes = WriteIn.size from expectedBody_allow allow]
        omega
    have bounded : (bodyOf world.incoming).readRbytes < 2 ^ 32 := by
      have limit := ring.maxBufsize_lt
      have longest : (bodyOf world.incoming).readRbytes ≤ max 128 world.incoming.length :=
        expectedBody_le _ _
      omega
    rcases exec_readRbytes kernel fuseIo
      ((idle.arrived.taken fuseIo.headerBuf count events).record (.called .readRbytes))
      (bodyOf world.incoming).addZero nonempty bounded within
      with ⟨rbytesBuf, mem, more, placed, ran, receives', enough⟩ | ⟨after, ran, refused, unprompt⟩
    · rw [World.record_pipe, pipe, List.length_drop] at enough
      rw [World.record_pipe, pipe, World.record_mem] at placed
      have body : InHeader.size + (bodyOf world.incoming).readRbytes ≤
          world.incoming.length := by omega
      have placed' : BodyPlaced fuseIo (bodyOf world.incoming).readRbytes
          (bodyOf world.incoming).addZero
          (count - InHeader.size)
          ((world.incoming.drop (InHeader.size + (count - InHeader.size))).take
            ((bodyOf world.incoming).readRbytes - (count - InHeader.size)))
          (world.arrived.taken fuseIo.headerBuf count events).mem rbytesBuf mem := by
        rw [split]
        exact placed
      have delivered : Delivered fuseIo world.incoming rbytesBuf mem :=
        placed'.delivered fuseIo within body (by rw [split]; exact front)
      have opcode' : mem.load fuseIo.headerBuf InHeader.opcode = opcodeOf world.incoming :=
        load_header fuseIo delivered.header (by decide)
      have consumed : count + ((bodyOf world.incoming).readRbytes - (count - InHeader.size)) =
          InHeader.size + (bodyOf world.incoming).readRbytes := by omega
      have place : PlacedAt fuseIo world.incoming count world.mem rbytesBuf mem := by
        refine ⟨fun _ whole bare => ?_, fun _ cut => ?_,
          fun none => absurd (none ▸ nonempty) (Nat.lt_irrefl 0)⟩
        · cases placed with
          | header => exact ⟨rfl, rfl⟩
          | buffer needed => exact absurd ⟨by omega, bare⟩ needed
        · cases placed with
          | header whole => exact absurd (by omega) cut
          | buffer => rfl
      refine Or.inl ⟨rbytesBuf, mem, events ++ .called .readRbytes :: more, delivered, place,
        fun _ => placed.room (by omega), ?_, ⟨le_trans header present, fits, body, fun _ => exact⟩,
        fun handler => ?_⟩
      · intro event member
        rcases List.mem_append.mp member with before | behind
        · exact receives event before
        · rcases List.mem_cons.mp behind with rfl | behind
          · exact .called
          · exact (receives' event behind).receives
      · rw [through, ran]
        dsimp only
        rw [World.leave_mem, World.setMem_mem, opcode', World.record_pipe, pipe,
          List.drop_drop, consumed]
        congr 1
        simp [World.taken, World.received, World.leave, World.setMem, World.record, World.arrived]
    · refine Or.inr ⟨after, fun handler => ?_,
        World.Refused.trans ⟨[.called .readRbytes], rfl, ?_⟩ refused, ?_⟩
      · rw [through, ran]
      · intro event member
        rw [List.mem_singleton.mp member]
        exact .called
      · rintro ⟨prompt, acceptable⟩
        refine unprompt ⟨prompt, ?_⟩
        have body := acceptable.body
        rw [World.record_pipe, pipe, List.length_drop]
        omega
  · have bare : world.incoming.length ≤ InHeader.size :=
      expectedBody_empty (Nat.eq_zero_of_not_pos nonempty)
    have whole : count = InHeader.size := by omega
    simp only [if_neg nonempty] at through
    refine Or.inl ⟨fuseIo.wild, (world.arrived.taken fuseIo.headerBuf count events).mem, events, ?_,
      ⟨fun positive => absurd positive nonempty, fun positive => absurd positive nonempty,
        fun _ => ⟨rfl, rfl⟩⟩,
      fun positive => absurd positive nonempty, receives, ?_, fun handler => ?_⟩
    · refine ⟨fun index inside => front index (lt_of_lt_of_le inside header), ?_, ?_, ?_⟩
      · exact fun index inside => absurd (Nat.zero_lt_of_lt inside) nonempty
      · exact fun positive => absurd positive nonempty
      · exact fun positive => absurd positive nonempty
    · refine ⟨le_trans header present, fits, ?_, fun positive => absurd positive nonempty⟩
      rw [Nat.eq_zero_of_not_pos nonempty]
      exact le_trans header present
    · rw [through, Nat.eq_zero_of_not_pos nonempty, Nat.add_zero, ← whole, ← World.arrived_taken]

/-- The same, with the second switch of the source. -/
theorem exec_serveRequest (idle : world.Idle) {count : Nat} {events : List Event}
    (receives : ∀ event ∈ events, event.Receives) (header : InHeader.size ≤ count)
    (small : count ≤ InHeader.size + WriteIn.size) (present : count ≤ world.incoming.length)
    (fits : world.incoming.length ≤ ring.maxBufsize) :
    (∃ rbytesBuf mem events', Delivered fuseIo world.incoming rbytesBuf mem ∧
      PlacedAt fuseIo world.incoming count world.mem rbytesBuf mem ∧
      (∀ event ∈ events', event.Receives) ∧ Acceptable ring world.incoming ∧
      exec kernel (serveRequest ring fuseIo world.incoming.length count)
          (world.arrived.taken fuseIo.headerBuf count events) =
        exec kernel (dispatch ring fuseIo (opcodeOf world.incoming) rbytesBuf)
          (world.received mem (world.incoming.drop
            (InHeader.size + (bodyOf world.incoming).readRbytes))
            events')) ∨
    ∃ after, exec kernel (serveRequest ring fuseIo world.incoming.length count)
          (world.arrived.taken fuseIo.headerBuf count events) = (-1, after) ∧
      (world.arrived.taken fuseIo.headerBuf count events).Refused after ∧
      ¬ (kernel.Prompt ∧ Acceptable ring world.incoming) := by
  rw [serveRequest]
  rcases exec_serveRequestWith kernel ring fuseIo idle receives header small present fits with
    ⟨rbytesBuf, mem, events', delivered, place, -, receives', acceptable, served⟩ | ⟨after,
      served, refused⟩
  · exact Or.inl ⟨rbytesBuf, mem, events', delivered, place, receives', acceptable,
      served (dispatch ring fuseIo)⟩
  · exact Or.inr ⟨after, served (dispatch ring fuseIo), refused⟩

/-- Giving the slot back changes nothing of it. -/
theorem exec_queueFuseRead :
    exec kernel (queueFuseRead ring) world = exec kernel
      (queueFuseReadBody ring world.fuseIo) world := by
  rw [queueFuseRead, exec_getFuseIo, exec_bind, exec_releaseFuseIo]
  rfl

/-- `queue_fuse_read` as its first chain, the header and the rest. -/
theorem exec_queueFuseReadWith (handler : Nat → Ptr → Coro Int) (idle : world.Idle) :
    exec kernel (queueFuseReadWith ring fuseIo handler) world =
      if kernel.sqe world 2 then
        let first := world.submit kernel [messageSqe ring fuseIo,
          readSqe fuseIo fuseIo.headerBuf (InHeader.size + WriteIn.size)]
        let rbytes := first.1.getD 0 (-1)
        let initRead := first.1.getD 1 (-1)
        if rbytes < 0 ∨ rbytes < InHeader.size then (-1, first.2)
        else match exec kernel (readHeader fuseIo initRead) first.2 with
          | (none, after) => (-1, after)
          | (some count, after) =>
            exec kernel (serveRequestWith fuseIo handler rbytes.toNat count) after
      else (-1, if kernel.sqe world 1 then { world with entries := [none], reserved := 0 }
        else world) := by
  rw [queueFuseReadWith, exec_submitPair kernel idle]
  refine if_congr Iff.rfl ?_ rfl
  rw [exec_ite]
  refine if_congr Iff.rfl rfl ?_
  rw [exec_bind]
  simp only [messageSqe, readSqe]
  generalize exec kernel (readHeader fuseIo _) _ = read
  rcases read with ⟨_ | count, after⟩ <;> rfl

/-- Whatever the pipe holds, completing a header only receives. -/
theorem exec_readHeader_refused (world : World) (idle : world.Idle) (initRead : Int) :
    world.Refused (exec kernel (readHeader fuseIo initRead) world).2 ∧
      (exec kernel (readHeader fuseIo initRead) world).2.Idle := by
  unfold readHeader
  split
  · exact readLoop_refused kernel fuseIo fuseIo.headerBuf
      (readHeaderLoop fuseIo) none some InHeader.size
      (fun _ initRead idle => ⟨_, readHeaderLoop_round kernel fuseIo initRead idle⟩) world _ idle
  · exact ⟨.refl world, idle⟩

/-- Whatever the pipe holds, assembling a body only receives. -/
theorem exec_readRbytes_refused (world : World) (idle : world.Idle) (rbytes initRead : Nat)
    (addZero : Bool) :
    world.Refused (exec kernel (readRbytes fuseIo rbytes addZero initRead) world).2 ∧
      (exec kernel (readRbytes fuseIo rbytes addZero initRead) world).2.Idle := by
  by_cases nonempty : 0 < rbytes
  rotate_left
  · rw [readRbytes, exec_ite, if_pos (Nat.eq_zero_of_not_pos nonempty)]
    exact ⟨.refl world, idle⟩
  by_cases whole : initRead = rbytes ∧ addZero = false
  · obtain ⟨rfl, rfl⟩ := whole
    rw [exec_readRbytes_inPlace kernel fuseIo nonempty]
    exact ⟨.refl world, idle⟩
  rw [exec_readRbytes_assemble kernel fuseIo nonempty whole]
  have start := idle.setMem (bodyStart fuseIo rbytes addZero initRead world.mem)
  by_cases same : initRead = rbytes
  · rw [if_pos same, exec_bodyEnd]
    exact ⟨⟨[], by simp, by simp⟩, start.setMem _⟩
  · obtain ⟨refused, last⟩ := readLoop_refused kernel fuseIo (bodyTarget fuseIo rbytes addZero)
      (readRbytesLoop fuseIo (bodyTarget fuseIo rbytes addZero) rbytes) false (fun _ => true) rbytes
      (fun _ readDone idle => ⟨_, readRbytesLoop_round kernel fuseIo _ rbytes readDone idle⟩)
        _ initRead start
    rw [if_neg same, exec_bind]
    generalize exec kernel (readRbytesLoop fuseIo
      (bodyTarget fuseIo rbytes addZero) rbytes initRead)
      (world.setMem (bodyStart fuseIo rbytes addZero initRead world.mem)) = read at refused last ⊢
    obtain ⟨complete, after⟩ := read
    cases complete with
    | false => exact ⟨refused, last⟩
    | true =>
      rw [exec_bodyEnd]
      exact ⟨refused, last.setMem _⟩

/-- A chain that receives only receives. -/
theorem runChain_refused (chain : List Sqe) (receives : ∀ sqe ∈ chain, sqe.operation.Receives) :
    ∀ world : World, world.Refused (World.runChain kernel chain world).2 := by
  refine World.runChain_relates (fun world => .refl world)
    (fun _ _ _ first second => first.trans second) chain ?_
  intro sqe member world
  obtain ⟨bytes, res, added⟩ := World.perform_trace kernel world sqe
  refine ⟨_, added, fun event present => ?_⟩
  rw [List.mem_singleton.mp present]
  exact .ran _ _ _ (receives sqe member)

/-- From the header on, only receiving comes before the second switch. -/
theorem exec_serveRequest_shape (world : World) (idle : world.Idle) (rbytes initRead : Nat) :
    ∃ before, world.Refused before ∧ before.Idle ∧
      (exec kernel (serveRequest ring fuseIo rbytes initRead) world = (-1, before) ∨
        ∃ opcode rbytesBuf, exec kernel (serveRequest ring fuseIo rbytes initRead) world =
          exec kernel (dispatch ring fuseIo opcode rbytesBuf) before) := by
  rw [serveRequest, exec_serveRequestWith_eq]
  generalize world.mem.load fuseIo.headerBuf InHeader.opcode = opcode
  dsimp only
  generalize expectedBody opcode rbytes = expected
  by_cases nonempty : expected.readRbytes > 0
  rotate_left
  · rw [if_neg nonempty]
    exact ⟨world, .refl world, idle, Or.inr ⟨_, _, rfl⟩⟩
  rw [if_pos nonempty]
  by_cases mismatch : (!expected.allowAddBytes) = true ∧
    expected.readRbytes ≠ rbytes - InHeader.size
  · rw [if_pos mismatch]
    exact ⟨world, .refl world, idle, Or.inl rfl⟩
  rw [if_neg mismatch]
  obtain ⟨refused, last⟩ :=
    exec_readRbytes_refused kernel fuseIo (world.record (.called .readRbytes))
    (idle.record _) expected.readRbytes (initRead - InHeader.size) expected.addZero
  have entered : world.Refused (world.record (.called .readRbytes)) :=
    ⟨_, rfl, fun event member => List.mem_singleton.mp member ▸ .called⟩
  generalize exec kernel (readRbytes fuseIo expected.readRbytes expected.addZero
    (initRead - InHeader.size))
    (world.record (.called .readRbytes)) = read at refused last ⊢
  obtain ⟨rbytesBuf | rbytesBuf, after⟩ := read
  · exact ⟨after, entered.trans refused, last, Or.inl rfl⟩
  · exact ⟨after, entered.trans refused, last, Or.inr ⟨_, _, rfl⟩⟩

/-- **Whatever the pipe holds**, `queue_fuse_read` only receives before it
comes to the second switch, if it does. -/
theorem exec_queueFuseRead_shape (idle : world.Idle) :
    ∃ before, world.Refused before ∧
      (exec kernel (queueFuseRead ring) world = (-1, before) ∨
        ∃ opcode rbytesBuf, before.Idle ∧ exec kernel (queueFuseRead ring) world =
          exec kernel (dispatch ring world.fuseIo opcode rbytesBuf) before) := by
  rw [exec_queueFuseRead, queueFuseReadBody,
    exec_queueFuseReadWith kernel ring world.fuseIo _ idle]
  by_cases entry : kernel.sqe world 2 = true
  rotate_left
  · rw [if_neg entry]
    refine ⟨_, ?_, Or.inl rfl⟩
    split <;> exact ⟨[], by simp, by simp⟩
  rw [if_pos entry]
  dsimp only
  have received : ∀ sqe ∈ [messageSqe ring world.fuseIo,
      readSqe world.fuseIo world.fuseIo.headerBuf (InHeader.size + WriteIn.size)],
        sqe.operation.Receives := by
    intro sqe member
    rcases List.mem_cons.mp member with rfl | member
    · trivial
    · exact List.mem_singleton.mp member ▸ readSqe_receives _ _ _
  have queued : world.Refused (world.record (.queued _ world.mem)) :=
    ⟨_, rfl, fun event member => List.mem_singleton.mp member ▸ .queued _ received⟩
  have first := queued.trans (runChain_refused kernel _ received _)
  have idle' := idle.submit kernel [messageSqe ring world.fuseIo,
    readSqe world.fuseIo world.fuseIo.headerBuf (InHeader.size + WriteIn.size)]
  rw [World.submit] at idle' ⊢
  generalize World.runChain kernel _ _ = done at first idle' ⊢
  by_cases short : done.1.getD 0 (-1) < 0 ∨ done.1.getD 0 (-1) < InHeader.size
  · rw [if_pos short]
    exact ⟨_, first, Or.inl rfl⟩
  rw [if_neg short]
  obtain ⟨refused, last⟩ :=
    exec_readHeader_refused kernel world.fuseIo done.2 idle' (done.1.getD 1 (-1))
  generalize exec kernel (readHeader world.fuseIo (done.1.getD 1 (-1))) done.2 = read
    at refused last ⊢
  obtain ⟨count | count, after⟩ := read
  · exact ⟨after, first.trans refused, Or.inl rfl⟩
  · obtain ⟨before, refused', last', served⟩ :=
      exec_serveRequest_shape kernel ring world.fuseIo after last
      (done.1.getD 0 (-1)).toNat count
    refine ⟨before, (first.trans refused).trans refused', served.imp id ?_⟩
    rintro ⟨opcode, rbytesBuf, ran⟩
    exact ⟨opcode, rbytesBuf, last', ran⟩

/-- **Receiving a message.** On an empty pipe, `queue_fuse_read` refuses the message or comes to the
second switch, whatever that does, with the message in the slot and only its payload in the pipe. -/
theorem exec_queueFuseReadWith_placed (idle : world.Idle) (empty : world.pipe = []) :
    (∃ count rbytesBuf mem events, Delivered world.fuseIo world.incoming rbytesBuf mem ∧
      PlacedAt world.fuseIo world.incoming count world.mem rbytesBuf mem ∧
      (0 < (bodyOf world.incoming).readRbytes →
        rbytesBuf.Holds mem.size
          ((bodyOf world.incoming).readRbytes + if (bodyOf world.incoming).addZero then 1 else 0)) ∧
      (∀ event ∈ events, event.Receives) ∧ Acceptable ring world.incoming ∧
      ∀ handler, exec kernel (queueFuseReadWith ring world.fuseIo handler) world =
        exec kernel (handler (opcodeOf world.incoming) rbytesBuf)
          (world.received mem (world.incoming.drop
            (InHeader.size + (bodyOf world.incoming).readRbytes))
            events)) ∨
    ∃ after, (∀ handler, exec kernel
      (queueFuseReadWith ring world.fuseIo handler) world = (-1, after)) ∧
      ReceiveFailed kernel ring world after := by
  have through := fun handler => exec_queueFuseReadWith kernel ring world.fuseIo handler idle
  by_cases entry : kernel.sqe world 2 = true
  rotate_left
  · simp only [if_neg entry] at through
    refine Or.inr ⟨_, through, ?_, Or.inl ?_, fun prompt => entry (prompt.1.sqe world 2)⟩
    · split <;> exact ⟨[], by simp, by simp⟩
    · split <;> rfl
  simp only [if_pos entry] at through
  obtain ⟨rbytes, initRead, after, events, submitted, added, nonempty, receives, outcome⟩ :=
    submit_first kernel ring world.fuseIo empty
  simp only [submitted, List.getD_cons_zero, List.getD_cons_succ] at through
  have queued : ∀ {last : World}, after.Refused last → last.trace ≠ world.trace := by
    rintro last ⟨more, added', -⟩ same
    rw [added', added, List.append_assoc] at same
    exact nonempty (List.append_eq_nil_iff.mp (List.append_right_eq_self.mp same)).1
  have refused : world.Refused after := ⟨events, added, receives⟩
  rcases outcome with ⟨failed, unprompt⟩ | ⟨amount, rfl, fits, rfl, small, present, progress⟩
  · simp only [if_pos (Or.inl failed)] at through
    exact Or.inr ⟨_, through, refused, Or.inr (queued (.refl _)),
      fun both => unprompt ⟨both.1, both.2.fits⟩⟩
  by_cases short : world.incoming.length < InHeader.size
  · have tooShort : (world.incoming.length : Int) < 0 ∨
        (world.incoming.length : Int) < InHeader.size :=
      Or.inr (by omega)
    simp only [if_pos tooShort] at through
    refine Or.inr ⟨_, through, refused, Or.inr (queued (.refl _)), fun both => ?_⟩
    exact absurd both.2.header (not_le.mpr short)
  have long : ¬ ((world.incoming.length : Int) < 0 ∨
      (world.incoming.length : Int) < InHeader.size) := by omega
  simp only [if_neg long, Int.toNat_natCast] at through
  rcases exec_readHeader kernel world.fuseIo idle receives small present progress
    with ⟨count, more, ran, receives', header, small', present'⟩ | ⟨last, ran, refused', unprompt⟩
  · simp only [ran] at through
    rcases exec_serveRequestWith kernel ring world.fuseIo idle receives' header small' present' fits
      with ⟨rbytesBuf, mem, events', delivered, place, room, receives'', acceptable, served⟩ |
        ⟨last, served, refused', unprompt⟩
    · exact Or.inl ⟨count, rbytesBuf, mem, events', delivered, place, room, receives'', acceptable,
        fun handler => (through handler).trans (served handler)⟩
    · refine Or.inr ⟨last, fun handler => (through handler).trans (served handler), ?_,
        Or.inr ?_, unprompt⟩
      · exact World.Refused.trans ⟨_, rfl, receives'⟩ refused'
      · refine queued (World.Refused.trans ⟨more, ?_, fun event member => ?_⟩ refused')
        · simp [World.taken, World.arrived]
        · exact receives' event (List.mem_append_right _ member)
  · simp only [ran] at through
    exact Or.inr ⟨last, through, refused.trans refused', Or.inr (queued refused'),
      fun both => unprompt ⟨both.1, both.2.header⟩⟩

/-- The same, with the second switch of the source. -/
theorem exec_queueFuseRead_placed (idle : world.Idle) (empty : world.pipe = []) :
    (∃ count rbytesBuf mem events, Delivered world.fuseIo world.incoming rbytesBuf mem ∧
      PlacedAt world.fuseIo world.incoming count world.mem rbytesBuf mem ∧
      (∀ event ∈ events, event.Receives) ∧ Acceptable ring world.incoming ∧
      exec kernel (queueFuseRead ring) world =
        exec kernel (dispatch ring world.fuseIo (opcodeOf world.incoming) rbytesBuf)
          (world.received mem (world.incoming.drop
            (InHeader.size + (bodyOf world.incoming).readRbytes))
            events)) ∨
    ∃ after, exec kernel (queueFuseRead ring) world = (-1, after) ∧
      ReceiveFailed kernel ring world after := by
  rw [exec_queueFuseRead, queueFuseReadBody]
  rcases exec_queueFuseReadWith_placed kernel ring idle empty with
    ⟨count, rbytesBuf, mem, events, delivered, place, -, receives, acceptable,
      ran⟩ | ⟨after, ran, failed⟩
  · exact Or.inl ⟨count, rbytesBuf, mem, events, delivered, place, receives, acceptable,
      ran (dispatch ring world.fuseIo)⟩
  · exact Or.inr ⟨after, ran (dispatch ring world.fuseIo), failed⟩

/-- The same, wherever the body is. -/
theorem exec_queueFuseRead_cases (idle : world.Idle) (empty : world.pipe = []) :
    (∃ rbytesBuf mem events, Delivered world.fuseIo world.incoming rbytesBuf mem ∧
      (∀ event ∈ events, event.Receives) ∧ Acceptable ring world.incoming ∧
      exec kernel (queueFuseRead ring) world =
        exec kernel (dispatch ring world.fuseIo (opcodeOf world.incoming) rbytesBuf)
          (world.received mem (world.incoming.drop
            (InHeader.size + (bodyOf world.incoming).readRbytes))
            events)) ∨
    ∃ after, exec kernel (queueFuseRead ring) world = (-1, after) ∧
      ReceiveFailed kernel ring world after := by
  rcases exec_queueFuseRead_placed kernel ring idle empty with
    ⟨count, rbytesBuf, mem, events, delivered, -, rest⟩ | failed
  · exact Or.inl ⟨rbytesBuf, mem, events, delivered, rest⟩
  · exact Or.inr failed

end Receiving

end Fuseuring
