/-
**The attributes of the volume against the backing file.**

`LOOKUP`, `GETATTR` and `SETATTR` report the volume. `DescribesFile` is what such a reply
owes the kernel: the one `fuse_attr` of the ring, with the size of the backing file and
its number of 512-byte units. The handlers agree with each other, but `blocks` is the
size rounded up and not divided, so that it counts the units of an empty file only.
-/

import Fuseuring.SizeChange

namespace Fuseuring

open Bytes Interaction

/-! ### The law -/

/-- Where the reply to a request has its `fuse_attr`. -/
def attrPtr (fuseIo : FuseIo) : Opcode → Ptr
  | .lookup => entryAttrPtr fuseIo
  | _ => attrOutPtr fuseIo

/-- The requests that are answered with the attributes of the volume: its name,
its node or its handle, and a change of attributes whatever it asks for. -/
inductive AttrRequest (fuseIo : FuseIo) (rbytesBuf : Ptr) (mem : Mem) : Opcode → Prop
  | lookup : isVolume mem rbytesBuf = true → AttrRequest fuseIo rbytesBuf mem .lookup
  | getattr : getattrNodeid mem fuseIo rbytesBuf = 3 → AttrRequest fuseIo rbytesBuf mem .getattr
  | setattr : requestNodeid mem fuseIo = 3 ∨ mem.load rbytesBuf SetattrIn.fh = 3 →
      AttrRequest fuseIo rbytesBuf mem .setattr

/-- The `fuse_attr` of the volume, as the handlers fill it. -/
def volumeAttr (ring : FuseRing) : List UInt8 :=
  let base : Ptr := ⟨⟨0⟩, .scratch, 0⟩
  (fillAttr ring ⟨ofList [], ofList [], ofList [], 0, ofList []⟩ base true).bytes base Attr.size

/-- **What a report of the volume owes the kernel.** -/
structure DescribesFile (ring : FuseRing) (reply : Mem) (attr : Ptr) : Prop where
  same : reply.bytes attr Attr.size = volumeAttr ring
  ino : reply.load attr Attr.ino = 3
  size : reply.load attr Attr.fileSize = ring.backingFSize
  covers : ring.backingFSize ≤ 512 * reply.load attr Attr.blocks
  tight : 512 * reply.load attr Attr.blocks < ring.backingFSize + 512

/-! ### The structure -/

namespace Mem

/-- Two structures of the same bytes, in two places. -/
def SameBlock (mem : Mem) (base : Ptr) (mem' : Mem) (base' : Ptr) (count : Nat) : Prop :=
  ∀ index < count, mem.buffer base.region (base.offset + index) = mem'.buffer base'.region
    (base'.offset + index)

variable {mem mem' : Mem} {base base' : Ptr} {count : Nat}

theorem SameBlock.bytes (same : SameBlock mem base mem' base' count) :
    mem.bytes base count = mem'.bytes base' count :=
  slice_congr same

/-- Both are cleared. -/
theorem sameBlock_clear (mem : Mem) (base : Ptr) (mem' : Mem) (base' : Ptr) (count : Nat) :
    SameBlock (mem.copy base (List.replicate count 0)) base
      (mem'.copy base' (List.replicate count 0)) base' count := by
  intro index inside
  rw [copy, copy, buffer_setBuffer_same, buffer_setBuffer_same,
    write_inside (by simpa using inside),
    write_inside (by simpa using inside)]

/-- Both are assigned the same. -/
theorem SameBlock.store (same : SameBlock mem base mem' base' count) (field : Field) (value : Nat) :
    SameBlock (mem.store base field value) base (mem'.store base' field value) base' count := by
  intro index inside
  rw [Mem.store, Mem.store, buffer_setBuffer_same, buffer_setBuffer_same]
  unfold Field.store Bytes.store
  by_cases assigned : field.offset ≤ index ∧ index < field.offset + field.width
  · rw [if_pos (by omega), if_pos (by omega), Nat.add_sub_add_left, Nat.add_sub_add_left]
  · rw [if_neg (by omega), if_neg (by omega)]
    exact same index inside

end Mem

section Structure

variable (ring : FuseRing) {mem : Mem} {base : Ptr} {fuseIo : FuseIo} {rbytesBuf : Ptr}

/-- **Every `fuse_attr` of the volume is the same**, wherever it is filled. -/
theorem fillAttr_bytes (mem : Mem) (base : Ptr) :
    (fillAttr ring mem base true).bytes base Attr.size = volumeAttr ring := by
  refine Mem.SameBlock.bytes ?_
  simp only [fillAttr, if_true, Mem.load_store_same]
  exact (((((Mem.sameBlock_clear mem base _ _ Attr.size).store _ _).store _ _).store _
    _).store _ _).store _ _

/-- The `fuse_attr` of a lookup of the volume. -/
theorem lookupReply_volume (named : isVolume mem rbytesBuf = true) :
    ∃ built, lookupReply ring fuseIo rbytesBuf mem = fillAttr ring built
      (entryAttrPtr fuseIo) true := by
  unfold lookupReply
  rw [named]
  exact ⟨_, rfl⟩

theorem attrReply_three (unique : Nat) :
    ∃ built, attrReply ring fuseIo unique 3 mem = fillAttr ring built (attrOutPtr fuseIo) true := by
  unfold attrReply
  rw [if_neg (by decide), if_pos rfl]
  exact ⟨_, rfl⟩

/-- Another node has another inode number. -/
theorem attrReply_other {unique nodeid : Nat} (other : nodeid ≠ 3) :
    (attrReply ring fuseIo unique nodeid mem).load (attrOutPtr fuseIo) Attr.ino ≠ 3 := by
  by_cases root : nodeid = 1
  · subst root
    have ino := congrArg Attributes.ino (@attrReply_root ring fuseIo unique mem)
    exact fun three => absurd (three.symm.trans ino) (by decide)
  · unfold attrReply
    rw [if_neg root, if_neg other]
    have behind : ∀ field : Field, field.offset + field.width ≤ OutHeader.size →
        Mem.Apart fuseIo.scratchBuf field (attrOutPtr fuseIo) Attr.ino := by
      intro field inside
      refine Or.inr (Or.inl ?_)
      show 0 + field.offset + field.width ≤ 0 + OutHeader.size + AttrOut.attr + 0
      omega
    rw [Mem.load_store_apart _ (behind _ (by decide)),
      Mem.load_store_apart _ (behind _ (by decide))]
    refine fun three => absurd (three.symm.trans (Mem.load_copy_zeros ?_)) (by decide)
    decide

end Structure

/-! ### The number of blocks -/

theorem roundUp_le {size : Nat} : roundUp size 512 ≤ size + 511 := by
  unfold roundUp
  omega

theorem le_roundUp {size : Nat} : size ≤ roundUp size 512 := by
  unfold roundUp
  omega

/-- **A rounded size is a number of units for the empty file only.** -/
theorem units_iff {size : Nat} : 512 * roundUp size 512 < size + 512 ↔ size = 0 := by
  unfold roundUp
  omega

/-- A filled `fuse_attr` describes the file exactly where it is empty. -/
theorem fillAttr_describes_iff {ring : FuseRing} (small : ring.backingFSize < 2 ^ 63 - 511)
    (mem : Mem) (base : Ptr) :
    DescribesFile ring (fillAttr ring mem base true) base ↔ ring.backingFSize = 0 := by
  have attributes := fillAttr_attributes ring mem base true
  rw [if_pos rfl] at attributes
  have ino : (fillAttr ring mem base true).load base Attr.ino = 3 :=
    congrArg Attributes.ino attributes
  have size : (fillAttr ring mem base true).load base Attr.fileSize = ring.backingFSize :=
    congrArg Attributes.fileSize attributes
  have blocks : (fillAttr ring mem base true).load base Attr.blocks =
      roundUp ring.backingFSize 512 := by
    refine (congrArg Attributes.blocks attributes).trans (Nat.mod_eq_of_lt ?_)
    have most := @roundUp_le ring.backingFSize
    omega
  constructor
  · intro describes
    have tight := describes.tight
    rw [blocks] at tight
    exact units_iff.mp tight
  · intro empty
    refine ⟨fillAttr_bytes ring mem base, ino, size, ?_, ?_⟩
    · rw [blocks]
      have least := @le_roundUp ring.backingFSize
      omega
    · rw [blocks]
      exact units_iff.mpr empty

/-! ### The replies -/

section Requests

variable {ring : FuseRing} {kernel : Kernel} {world : World} {fuseIo : FuseIo} {rbytesBuf : Ptr}
  {opcode : Opcode}

/-- These requests are answered from `scratch_buf`. -/
theorem exec_attrRequest (idle : world.Idle)
    (request : AttrRequest fuseIo rbytesBuf world.mem opcode) :
    (exec kernel (dispatch ring fuseIo opcode.code rbytesBuf) world).2.mem =
      builtReply ring fuseIo (some opcode) rbytesBuf world.mem := by
  have decoded : Opcode.ofCode opcode.code = some opcode := by
    cases request <;> rfl
  obtain ⟨rc, events, mem, pipe, file, outcome, ran⟩ :=
    exec_dispatch_outcome kernel ring fuseIo rbytesBuf idle opcode.code
  rw [ran]
  rw [decoded] at outcome
  cases outcome with
  | built plain reply => rfl
  | listed readdir reply => cases request <;> cases readdir
  | read read volume outcome => cases request <;> cases read
  | written write volume framed outcome => cases request <;> cases write

/-- The node of a change of attributes of the volume. -/
theorem setattrNodeid_iff (request : requestNodeid world.mem fuseIo = 3 ∨
    world.mem.load rbytesBuf SetattrIn.fh = 3) :
    setattrNodeid world.mem fuseIo rbytesBuf = 3 ↔
      world.mem.load rbytesBuf SetattrIn.fh = 0 ∨ world.mem.load rbytesBuf SetattrIn.fh = 3 := by
  unfold setattrNodeid
  split_ifs with handle <;> omega

/-- **A report of the volume describes the backing file exactly where that is empty**
(and a change of attributes was not sent with the handle of another node). -/
theorem attributes_describe_iff (small : ring.backingFSize < 2 ^ 63 - 511) (idle : world.Idle)
    (request : AttrRequest fuseIo rbytesBuf world.mem opcode) :
    DescribesFile ring (exec kernel (dispatch ring fuseIo opcode.code rbytesBuf) world).2.mem
      (attrPtr fuseIo opcode) ↔
      ring.backingFSize = 0 ∧ (opcode = .setattr →
        world.mem.load rbytesBuf SetattrIn.fh = 0 ∨ world.mem.load rbytesBuf SetattrIn.fh = 3) := by
  rw [exec_attrRequest idle request]
  cases request with
  | lookup named =>
    obtain ⟨built, filled⟩ := @lookupReply_volume ring world.mem fuseIo rbytesBuf named
    have reply : builtReply ring fuseIo (some .lookup) rbytesBuf world.mem =
        fillAttr ring built (entryAttrPtr fuseIo) true := filled
    rw [reply, attrPtr, fillAttr_describes_iff small, iff_self_and]
    exact fun _ setattr => by cases setattr
  | getattr volume =>
    have reply : builtReply ring fuseIo (some .getattr) rbytesBuf world.mem =
        attrReply ring fuseIo (requestUnique world.mem fuseIo) 3 world.mem := by
      rw [← volume]
      rfl
    obtain ⟨built, filled⟩ :=
      @attrReply_three ring world.mem fuseIo (requestUnique world.mem fuseIo)
    rw [reply, filled]
    show DescribesFile ring _ (attrOutPtr fuseIo) ↔ _
    rw [fillAttr_describes_iff small, iff_self_and]
    exact fun _ setattr => by cases setattr
  | setattr addressed =>
    have reply : builtReply ring fuseIo (some .setattr) rbytesBuf world.mem =
        attrReply ring fuseIo (requestUnique world.mem fuseIo)
          (setattrNodeid world.mem fuseIo rbytesBuf)
          world.mem := rfl
    rw [reply, ← setattrNodeid_iff addressed]
    show DescribesFile ring _ (attrOutPtr fuseIo) ↔ _
    by_cases volume : setattrNodeid world.mem fuseIo rbytesBuf = 3
    · obtain ⟨built, filled⟩ :=
        @attrReply_three ring world.mem fuseIo (requestUnique world.mem fuseIo)
      rw [volume, filled, fillAttr_describes_iff small, iff_self_and]
      exact fun _ _ => rfl
    · refine iff_of_false (fun describes => attrReply_other ring volume describes.ino)
        fun both => ?_
      exact volume (both.2 rfl)

end Requests

/-- A ring over an empty backing file. -/
def FuseRing.empty : FuseRing :=
  { FuseRing.small with backingFSize := 0, backingFSize_lt := by decide }

/-- A lookup of the volume. -/
def lookupSlot : World := handlerSlot (sessionMessage .lookup 7 1 (volumeName ++ [0]))

/-- The empty file. -/
theorem empty_file_described :
    DescribesFile FuseRing.empty
      (exec Kernel.full (dispatch FuseRing.empty ⟨0⟩ Opcode.lookup.code
        (FuseIo.scratchBuf ⟨0⟩)) lookupSlot).2.mem
      (attrPtr ⟨0⟩ .lookup) :=
  (attributes_describe_iff (by decide) ⟨rfl, rfl⟩ (.lookup (by decide +kernel))).mpr
    ⟨rfl, fun setattr => by cases setattr⟩

/-- **A file of 4096 bytes is reported with 4096 blocks.** -/
theorem blocks_not_units :
    AttrRequest ⟨0⟩ (FuseIo.scratchBuf ⟨0⟩) lookupSlot.mem .lookup ∧
      ¬ DescribesFile FuseRing.small
        (exec Kernel.full (dispatch FuseRing.small ⟨0⟩ Opcode.lookup.code
          (FuseIo.scratchBuf ⟨0⟩)) lookupSlot).2.mem
        (attrPtr ⟨0⟩ .lookup) := by
  refine ⟨.lookup (by decide +kernel), fun describes => ?_⟩
  have blocks : (exec Kernel.full (dispatch FuseRing.small ⟨0⟩ Opcode.lookup.code
      (FuseIo.scratchBuf ⟨0⟩))
      lookupSlot).2.mem.load (attrPtr ⟨0⟩ .lookup) Attr.blocks = 4096 := by decide +kernel
  have tight := describes.tight
  rw [blocks] at tight
  exact absurd tight (by decide)

end Fuseuring
