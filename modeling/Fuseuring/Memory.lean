/-
**Assignments in a request's memory.**

The fields of the structures in a slot's buffers: a field reads back what was assigned
to it modulo its width, and is left alone by assignments and copies apart from it.
`Ptr.Holds` says that a pointer's buffer has room. `Headed` is a reply header in
`scratch_buf`, which assignments behind it keep.
-/

import Fuseuring.Handlers

namespace Fuseuring

open Bytes

namespace Mem

@[simp] theorem setBuffer_buffer (mem : Mem) (region : Region) :
    mem.setBuffer region (mem.buffer region) = mem := by
  cases region <;> rfl

@[simp] theorem buffer_setBuffer_same (mem : Mem) (region : Region) (buffer : Buffer) :
    (mem.setBuffer region buffer).buffer region = buffer := by
  cases region <;> rfl

theorem buffer_setBuffer_ne {mem : Mem} {region region' : Region} {buffer : Buffer}
    (other : region' ≠ region) :
    (mem.setBuffer region buffer).buffer region' = mem.buffer region' := by
  cases region <;> cases region' <;> first | rfl | exact absurd rfl other

theorem setBuffer_setBuffer (mem : Mem) (region : Region) (first second : Buffer) :
    (mem.setBuffer region first).setBuffer region second = mem.setBuffer region second := by
  cases region <;> rfl

@[simp] theorem copy_nil (mem : Mem) (pointer : Ptr) : mem.copy pointer [] = mem := by
  simp [copy]

/-- Copies to adjacent places are one copy. -/
theorem copy_copy (mem : Mem) (pointer : Ptr) (first second : List UInt8) :
    (mem.copy pointer first).copy (pointer.add first.length) second = mem.copy pointer
      (first ++ second) := by
  simp only [copy, Ptr.add, buffer_setBuffer_same, setBuffer_setBuffer, write_append]

/-! ### Fields -/

variable {mem : Mem} {pointer pointer' : Ptr} {field field' : Field}

/-- Two fields do not overlap. -/
def Apart (pointer : Ptr) (field : Field) (pointer' : Ptr) (field' : Field) : Prop :=
  pointer.region ≠ pointer'.region ∨
    pointer.offset + field.offset + field.width ≤ pointer'.offset + field'.offset ∨
    pointer'.offset + field'.offset + field'.width ≤ pointer.offset + field.offset

/-- A field does not overlap a block. -/
def Clear (pointer : Ptr) (count : Nat) (pointer' : Ptr) (field' : Field) : Prop :=
  pointer.region ≠ pointer'.region ∨ pointer.offset + count ≤ pointer'.offset + field'.offset ∨
    pointer'.offset + field'.offset + field'.width ≤ pointer.offset

/-- Two fields of one structure. -/
theorem apart_same (disjoint : field.offset + field.width ≤ field'.offset ∨
    field'.offset + field'.width ≤ field.offset) : Apart pointer field pointer field' := by
  right
  omega

@[simp] theorem load_store_same (value : Nat) :
    (mem.store pointer field value).load pointer field = value % 256 ^ field.width := by
  rw [load, store, buffer_setBuffer_same]
  exact Bytes.load_store_same _ _ _ _

theorem load_store_apart (value : Nat) (apart : Apart pointer field pointer' field') :
    (mem.store pointer field value).load pointer' field' = mem.load pointer' field' := by
  by_cases same : pointer'.region = pointer.region
  · rw [load, store, same, buffer_setBuffer_same, load, same]
    refine load_store_disjoint ?_
    rcases apart with other | below | above
    · exact absurd same.symm other
    · exact Or.inr below
    · exact Or.inl above
  · rw [load, store, buffer_setBuffer_ne same, load]

theorem load_copy_clear {bytes : List UInt8} (clear : Clear pointer bytes.length pointer' field') :
    (mem.copy pointer bytes).load pointer' field' = mem.load pointer' field' := by
  by_cases same : pointer'.region = pointer.region
  · rw [load, copy, same, buffer_setBuffer_same, load, same]
    refine load_write_disjoint ?_
    rcases clear with other | below | above
    · exact absurd same.symm other
    · exact Or.inr below
    · exact Or.inl above
  · rw [load, copy, buffer_setBuffer_ne same, load]

/-- Assignments to another buffer leave `header_buf` alone. -/
theorem store_headerBuf (value : Nat) (other : pointer.region ≠ .header) :
    (mem.store pointer field value).headerBuf = mem.headerBuf :=
  buffer_setBuffer_ne other.symm

theorem copy_headerBuf (bytes : List UInt8) (other : pointer.region ≠ .header) :
    (mem.copy pointer bytes).headerBuf = mem.headerBuf :=
  buffer_setBuffer_ne other.symm

/-! ### Sizes -/

/-- The sizes of the buffers; nothing is sure to be behind an unassigned pointer. -/
def size (mem : Mem) : Region → Nat
  | .header => headerBufSize
  | .scratch => scratchBufSize
  | .free => mem.freeSize
  | .wild => 0

@[simp] theorem size_setBuffer (mem : Mem) (region : Region) (buffer : Buffer) :
    (mem.setBuffer region buffer).size = mem.size := by
  cases region <;> rfl

@[simp] theorem size_copy (mem : Mem) (pointer : Ptr) (bytes : List UInt8) :
    (mem.copy pointer bytes).size = mem.size := size_setBuffer _ _ _

@[simp] theorem freeSize_copy (mem : Mem) (pointer : Ptr) (bytes : List UInt8) :
    (mem.copy pointer bytes).freeSize = mem.freeSize :=
  congrFun (mem.size_copy pointer bytes) .free

/-- Giving the vector a size leaves the other buffers alone. -/
theorem buffer_resize {mem : Mem} {region : Region} (count : Nat) (fixed : region ≠ .free) :
    (mem.resize count).buffer region = mem.buffer region := by
  cases region with
  | free => exact absurd rfl fixed
  | _ => rfl

end Mem

/-- `count` bytes behind a pointer lie in its buffer. -/
def Ptr.Holds (size : Region → Nat) (buf : Ptr) (count : Nat) : Prop :=
  buf.offset + count ≤ size buf.region

/-! ### Reply headers -/

/-- `scratch_buf` starts with this reply header. -/
structure Headed (fuseIo : FuseIo) (error : Int) (len unique : Nat) (mem : Mem) : Prop where
  len : mem.load fuseIo.scratchBuf OutHeader.len = len
  error : mem.load fuseIo.scratchBuf OutHeader.error = word32 error
  unique : mem.load fuseIo.scratchBuf OutHeader.unique = unique

section Headers

variable {fuseIo : FuseIo} {error : Int} {len unique : Nat} {mem : Mem}

/-- **The three assignments make a header.** -/
theorem outHeader_headed (smallLen : len < 2 ^ 32) (smallUnique : unique < 2 ^ 64) :
    Headed fuseIo error len unique (outHeader mem fuseIo error len unique) := by
  refine ⟨?_, ?_, ?_⟩
  · rw [outHeader, Mem.load_store_apart _ (Mem.apart_same (by decide)), Mem.load_store_same]
    exact Nat.mod_eq_of_lt smallLen
  · rw [outHeader, Mem.load_store_apart _ (Mem.apart_same (by decide)),
      Mem.load_store_apart _ (Mem.apart_same (by decide)), Mem.load_store_same]
    exact Nat.mod_eq_of_lt (word32_lt error)
  · rw [outHeader, Mem.load_store_same]
    exact Nat.mod_eq_of_lt smallUnique

/-- Assignments behind a header keep it. -/
theorem Headed.store (headed : Headed fuseIo error len unique mem) {pointer : Ptr}
    {field : Field} (value : Nat)
    (behind : pointer.region ≠ .scratch ∨ OutHeader.size ≤ pointer.offset + field.offset) :
    Headed fuseIo error len unique (mem.store pointer field value) := by
  have apart : ∀ {field' : Field}, field'.offset + field'.width ≤ OutHeader.size →
      Mem.Apart pointer field fuseIo.scratchBuf field' := by
    intro field' inside
    have start : fuseIo.scratchBuf.offset = 0 := rfl
    rcases behind with other | behind
    · exact Or.inl other
    · exact Or.inr (Or.inr (by omega))
  refine ⟨?_, ?_, ?_⟩
  · rw [Mem.load_store_apart _ (apart (by decide)), headed.len]
  · rw [Mem.load_store_apart _ (apart (by decide)), headed.error]
  · rw [Mem.load_store_apart _ (apart (by decide)), headed.unique]

theorem Headed.copy (headed : Headed fuseIo error len unique mem) {pointer : Ptr}
    (bytes : List UInt8)
    (behind : pointer.region ≠ .scratch ∨ OutHeader.size ≤ pointer.offset) :
    Headed fuseIo error len unique (mem.copy pointer bytes) := by
  have clear : ∀ {field' : Field}, field'.offset + field'.width ≤ OutHeader.size →
      Mem.Clear pointer bytes.length fuseIo.scratchBuf field' := by
    intro field' inside
    have start : fuseIo.scratchBuf.offset = 0 := rfl
    rcases behind with other | behind
    · exact Or.inl other
    · exact Or.inr (Or.inr (by omega))
  refine ⟨?_, ?_, ?_⟩
  · rw [Mem.load_copy_clear (clear (by decide)), headed.len]
  · rw [Mem.load_copy_clear (clear (by decide)), headed.error]
  · rw [Mem.load_copy_clear (clear (by decide)), headed.unique]

end Headers

end Fuseuring
