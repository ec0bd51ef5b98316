/-
**The attributes in a reply.**

`GETATTR`, `SETATTR` and `LOOKUP` report a `fuse_attr`. Whatever the slot's buffers held before,
it is the attributes of the root or those of the volume, and `builtReply_getattr`,
`builtReply_setattr` and `builtReply_lookup` say which, with the error and the node of the reply.
-/

import Fuseuring.Framing

namespace Fuseuring

open Bytes Interaction

/-- The fields of a `fuse_attr` that a reply assigns. -/
structure Attributes where
  ino : Nat
  fileSize : Nat
  blocks : Nat
  mode : Nat
  blksize : Nat
deriving DecidableEq, Repr

/-- The `fuse_attr` at `base`. -/
def Mem.attributes (mem : Mem) (base : Ptr) : Attributes where
  ino := mem.load base Attr.ino
  fileSize := mem.load base Attr.fileSize
  blocks := mem.load base Attr.blocks
  mode := mem.load base Attr.mode
  blksize := mem.load base Attr.blksize

/-- The root directory. -/
def rootAttributes : Attributes := ⟨1, 0, 0, modeDirectory, 0⟩

/-- The volume. -/
def volumeAttributes (ring : FuseRing) : Attributes where
  ino := 3
  fileSize := ring.backingFSize
  blocks := roundUp ring.backingFSize 512 % 2 ^ 64
  mode := modeRegular
  blksize := ring.pageSize % 2 ^ 32

/-! ### Filling a structure -/

section Fill

variable {mem : Mem} {base : Ptr} {field field' : Field} {value : Nat}

/-- Another field of the same structure. -/
theorem Mem.load_store_field (disjoint : field.offset + field.width ≤ field'.offset ∨
    field'.offset + field'.width ≤ field.offset) :
    (mem.store base field value).load base field' = mem.load base field' :=
  Mem.load_store_apart value (Mem.apart_same disjoint)

/-- A field of a structure that was cleared. -/
theorem Mem.load_copy_zeros {count : Nat} (inside : field.offset + field.width ≤ count) :
    (mem.copy base (List.replicate count 0)).load base field = 0 := by
  rw [Mem.load, Mem.copy, Mem.buffer_setBuffer_same, Field.load,
    load_write (by rw [List.length_replicate]; omega)]
  refine load_zero fun index _ => ?_
  rw [ofList, List.getD_eq_getElem?_getD, List.getElem?_replicate]
  split <;> rfl

/-- **What `attr` is filled with**, whatever was there. -/
theorem fillAttr_attributes (ring : FuseRing) (mem : Mem) (base : Ptr) (volume : Bool) :
    (fillAttr ring mem base volume).attributes base = if volume then volumeAttributes ring
      else rootAttributes := by
  have small : ring.backingFSize % 256 ^ Attr.fileSize.width = ring.backingFSize :=
    Nat.mod_eq_of_lt (lt_trans ring.backingFSize_lt (by decide))
  cases volume with
  | true =>
    simp (disch := decide) only [Mem.attributes, fillAttr, if_true, Mem.load_store_field,
      Mem.load_store_same, small,
      volumeAttributes]
    rfl
  | false =>
    simp (disch := decide) only [Mem.attributes, fillAttr, Bool.false_eq_true, if_false,
      Mem.load_store_field,
      Mem.load_store_same, Mem.load_copy_zeros, rootAttributes]
    rfl

/-- Filling `attr` leaves what stands in front of it. -/
theorem fillAttr_front (ring : FuseRing) {pointer : Ptr} (volume : Bool)
    (front : pointer.region = base.region → pointer.offset + field.offset +
      field.width ≤ base.offset) :
    (fillAttr ring mem base volume).load pointer field = mem.load pointer field := by
  have apart : ∀ other : Field, Mem.Apart base other pointer field := by
    intro other
    by_cases same : base.region = pointer.region
    · have room := front same.symm
      exact Or.inr (Or.inr (by omega))
    · exact Or.inl same
  have clear : Mem.Clear base (List.replicate Attr.size (0 : UInt8)).length pointer field := by
    by_cases same : base.region = pointer.region
    · have room := front same.symm
      exact Or.inr (Or.inr room)
    · exact Or.inl same
  unfold fillAttr
  cases volume with
  | true =>
    simp only [if_true]
    rw [Mem.load_store_apart _ (apart _), Mem.load_store_apart _ (apart _),
      Mem.load_store_apart _ (apart _),
      Mem.load_store_apart _ (apart _), Mem.load_store_apart _ (apart _), Mem.load_copy_clear clear]
  | false =>
    simp only [Bool.false_eq_true, if_false]
    rw [Mem.load_store_apart _ (apart _), Mem.load_store_apart _ (apart _),
      Mem.load_copy_clear clear]

end Fill

/-! ### The replies -/

section Replies

variable (ring : FuseRing) (fuseIo : FuseIo)

/-- `attr` of a `fuse_attr_out`. -/
def attrOutPtr : Ptr := (fuseIo.scratchBuf.add OutHeader.size).add AttrOut.attr

/-- `attr` of a `fuse_entry_out`. -/
def entryAttrPtr : Ptr := (fuseIo.scratchBuf.add OutHeader.size).add EntryOut.attr

/-- The error of the reply in `scratch_buf`, as it is stored. -/
def replyError (reply : Mem) : Nat := reply.load fuseIo.scratchBuf OutHeader.error

/-- `nodeid` of the `fuse_entry_out` in `scratch_buf`. -/
def entryNodeid (reply : Mem) : Nat :=
  reply.load (fuseIo.scratchBuf.add OutHeader.size) EntryOut.nodeid

variable {unique nodeid : Nat} {mem : Mem}

theorem attrReply_root : (attrReply ring fuseIo unique 1 mem).attributes
    (attrOutPtr fuseIo) = rootAttributes := by
  rw [attrReply, if_pos rfl]
  exact fillAttr_attributes ring _ (attrOutPtr fuseIo) false

theorem attrReply_volume :
    (attrReply ring fuseIo unique 3 mem).attributes (attrOutPtr fuseIo) =
      volumeAttributes ring := by
  rw [attrReply, if_neg (by decide), if_pos rfl]
  exact fillAttr_attributes ring _ (attrOutPtr fuseIo) true

/-- **The error of an attribute reply**: there are two nodes. -/
theorem attrReply_error (small : unique < 2 ^ 64) :
    replyError fuseIo (attrReply ring fuseIo unique nodeid mem) = 0 ↔ nodeid = 1 ∨ nodeid = 3 := by
  have headed : Headed fuseIo 0 (AttrOut.size + OutHeader.size) unique
      (outHeader mem fuseIo 0 (AttrOut.size + OutHeader.size) unique) :=
        outHeader_headed (by decide) small
  have valid := (headed.assign AttrOut.attrValid 3600).assign AttrOut.attrValidNsec 0
  have behind : OutHeader.size ≤ ((fuseIo.scratchBuf.add OutHeader.size).add AttrOut.attr).offset :=
    attr_behind _
  have none : word32 0 = 0 := by decide
  have refused : word32 (-EACCES) ≠ 0 := by decide
  unfold attrReply replyError
  dsimp only
  by_cases root : nodeid = 1
  · rw [if_pos root, (fillAttr_headed ring valid behind false).error]
    exact iff_of_true none (Or.inl root)
  · rw [if_neg root]
    by_cases volume : nodeid = 3
    · rw [if_pos volume, (fillAttr_headed ring valid behind true).error]
      exact iff_of_true none (Or.inr volume)
    · rw [if_neg volume, ((valid.copy _ (Or.inr behind)).restate (-EACCES) (by decide)).error]
      exact iff_of_false refused (not_or.mpr ⟨root, volume⟩)

/-- **Every lookup succeeds**: it names the volume, or else the root. -/
theorem lookupReply_found (rbytesBuf : Ptr) :
    replyError fuseIo (lookupReply ring fuseIo rbytesBuf mem) = 0 ∧
      entryNodeid fuseIo (lookupReply ring fuseIo rbytesBuf mem) =
        (if isVolume mem rbytesBuf then 3 else 1) ∧
      (lookupReply ring fuseIo rbytesBuf mem).attributes (entryAttrPtr fuseIo) =
        if isVolume mem rbytesBuf then volumeAttributes ring else rootAttributes := by
  have headed : Headed fuseIo 0 (EntryOut.size + OutHeader.size) (requestUnique mem fuseIo)
      (outHeader mem fuseIo 0 (EntryOut.size + OutHeader.size) (requestUnique mem fuseIo)) :=
    outHeader_headed (by decide) (requestUnique_lt mem fuseIo)
  have valid := ((((headed.assign EntryOut.generation 0).assign EntryOut.entryValid 3600).assign
    EntryOut.entryValidNsec 0).assign EntryOut.attrValid 3600).assign EntryOut.attrValidNsec 0
  have named := valid.assign EntryOut.nodeid (if isVolume mem rbytesBuf then 3 else 1)
  refine ⟨(fillAttr_headed ring named (attr_behind _) _).error.trans (by decide), ?_,
    fillAttr_attributes ring _ _ _⟩
  have front : (fuseIo.scratchBuf.add OutHeader.size).offset + EntryOut.nodeid.offset +
      EntryOut.nodeid.width ≤
      (entryAttrPtr fuseIo).offset := by
    have start : fuseIo.scratchBuf.offset = 0 := rfl
    simp only [entryAttrPtr, Ptr.add, start]
    decide
  refine (fillAttr_front ring _ (fun _ => front)).trans ?_
  rw [Mem.load_store_same]
  split <;> rfl

end Replies

end Fuseuring
