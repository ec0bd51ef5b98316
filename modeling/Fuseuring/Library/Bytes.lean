/-
**Byte buffers and little-endian fields.**

A buffer is a function from offsets to bytes: memory from some address on. `load` and `store` are
the little-endian integer accesses of a given width, `slice` and `write` the block transfers.

* `load_store_same`, `load_store_disjoint`: a stored integer reads back modulo
  its width, and a store leaves disjoint integers alone.
* `write_append`: two adjacent block writes are one, which is what a loop of short reads adds up to.
* `load_ofList`: an integer in a written block is the integer at that place of the bytes.
-/

import Mathlib.Data.List.GetD
import Mathlib.Data.Nat.ModEq
import Mathlib.Algebra.Order.Ring.Nat

namespace Bytes

/-- Memory from some address on. -/
abbrev Buffer := Nat → UInt8

/-- The bytes of a list, zeros after it. -/
def ofList (bytes : List UInt8) : Buffer := fun index => bytes.getD index 0

/-- The little-endian integer of `width` bytes at `offset`. -/
def load (buffer : Buffer) (offset : Nat) : Nat → Nat
  | 0 => 0
  | width + 1 => (buffer offset).toNat + 256 * load buffer (offset + 1) width

/-- Store the low `width` bytes of `value` at `offset`. -/
def store (buffer : Buffer) (offset width value : Nat) : Buffer := fun index =>
  if offset ≤ index ∧ index < offset + width then UInt8.ofNat (value / 256 ^ (index - offset))
  else buffer index

/-- The `count` bytes at `offset`. -/
def slice (buffer : Buffer) (offset count : Nat) : List UInt8 :=
  (List.range count).map fun index => buffer (offset + index)

/-- Write a block of bytes at `offset`. -/
def write (buffer : Buffer) (offset : Nat) (bytes : List UInt8) : Buffer := fun index =>
  if offset ≤ index ∧ index < offset + bytes.length then bytes.getD (index - offset) 0
  else buffer index

/-! ### Integers -/

theorem load_congr {first second : Buffer} {offset offset' width : Nat}
    (same : ∀ index < width, first (offset + index) = second (offset' + index)) :
    load first offset width = load second offset' width := by
  induction width generalizing offset offset' with
  | zero => rfl
  | succ width ih =>
    have head : first offset = second offset' := same 0 (Nat.succ_pos width)
    have tail : load first (offset + 1) width = load second (offset' + 1) width := by
      refine ih fun index inside => ?_
      have step := same (index + 1) (by omega)
      rwa [show offset + (index + 1) = offset + 1 + index by omega,
        show offset' + (index + 1) = offset' + 1 + index by omega] at step
    rw [load, load, head, tail]

theorem load_lt (buffer : Buffer) (offset width : Nat) :
    load buffer offset width < 256 ^ width := by
  induction width generalizing offset with
  | zero => simp [load]
  | succ width ih =>
    have head : (buffer offset).toNat < 256 := (buffer offset).toNat_lt
    have tail := ih (offset + 1)
    rw [load, pow_succ]
    omega

theorem load_zero {buffer : Buffer} {offset width : Nat}
    (zero : ∀ index < width, buffer (offset + index) = 0) :
    load buffer offset width = 0 := by
  induction width generalizing offset with
  | zero => rfl
  | succ width ih =>
    have head : buffer offset = 0 := zero 0 (Nat.succ_pos width)
    have tail : load buffer (offset + 1) width = 0 := by
      refine ih fun index inside => ?_
      have step := zero (index + 1) (by omega)
      rwa [show offset + (index + 1) = offset + 1 + index by omega] at step
    rw [load, head, tail]
    rfl

theorem store_outside {buffer : Buffer} {offset width value index : Nat}
    (outside : index < offset ∨ offset + width ≤ index) :
    store buffer offset width value index = buffer index := by
  unfold store
  rw [if_neg (by omega)]

theorem load_store_disjoint {buffer : Buffer} {offset width value offset' width' : Nat}
    (apart : offset' + width' ≤ offset ∨ offset + width ≤ offset') :
    load (store buffer offset width value) offset' width' = load buffer offset' width' :=
  load_congr fun _ _ => store_outside (by omega)

theorem load_store_same (buffer : Buffer) (offset width value : Nat) :
    load (store buffer offset width value) offset width = value % 256 ^ width := by
  induction width generalizing buffer offset value with
  | zero => simp [load, Nat.mod_one]
  | succ width ih =>
    have head : store buffer offset (width + 1) value offset = UInt8.ofNat value := by
      simp [store]
    have tail : load (store buffer offset (width + 1) value) (offset + 1) width =
        load (store buffer (offset + 1) width (value / 256)) (offset + 1) width := by
      refine load_congr fun index inside => ?_
      have exponent : offset + 1 + index - offset = index + 1 := by omega
      have exponent' : offset + 1 + index - (offset + 1) = index := by omega
      unfold store
      rw [if_pos (by omega), if_pos (by omega), exponent, exponent', pow_succ',
        Nat.div_div_eq_div_mul]
    rw [load, head, tail, ih, pow_succ', Nat.mod_mul, UInt8.toNat_ofNat']

theorem load_store_same_of_lt {buffer : Buffer} {offset width value : Nat}
    (small : value < 256 ^ width) :
    load (store buffer offset width value) offset width = value := by
  rw [load_store_same, Nat.mod_eq_of_lt small]

/-! ### Blocks -/

@[simp] theorem length_slice (buffer : Buffer) (offset count : Nat) :
    (slice buffer offset count).length = count := by
  simp [slice]

theorem slice_congr {first second : Buffer} {offset offset' count : Nat}
    (same : ∀ index < count, first (offset + index) = second (offset' + index)) :
    slice first offset count = slice second offset' count :=
  List.map_congr_left fun index inside => same index (List.mem_range.mp inside)

theorem slice_getElem (buffer : Buffer) (offset count index : Nat) (inside : index < count) :
    (slice buffer offset count)[index]? = some (buffer (offset + index)) := by
  simp [slice, inside]

theorem write_inside {buffer : Buffer} {offset index : Nat} {bytes : List UInt8}
    (inside : index < bytes.length) :
    write buffer offset bytes (offset + index) = bytes.getD index 0 := by
  unfold write
  rw [if_pos (by omega), Nat.add_sub_cancel_left]

theorem write_outside {buffer : Buffer} {offset index : Nat} {bytes : List UInt8}
    (outside : index < offset ∨ offset + bytes.length ≤ index) :
    write buffer offset bytes index = buffer index := by
  unfold write
  rw [if_neg (by omega)]

@[simp] theorem write_nil (buffer : Buffer) (offset : Nat) : write buffer offset [] = buffer :=
  funext fun _ => write_outside (by simp; omega)

/-- **Two adjacent block writes are one.** -/
theorem write_append (buffer : Buffer) (offset : Nat) (first second : List UInt8) :
    write (write buffer offset first) (offset + first.length) second =
      write buffer offset (first ++ second) := by
  funext index
  unfold write
  simp only [List.length_append]
  by_cases inSecond : offset + first.length ≤ index ∧ index < offset + first.length + second.length
  · have past : first.length ≤ index - offset := by omega
    have shift : index - offset - first.length = index - (offset + first.length) := by omega
    rw [if_pos inSecond, if_pos (by omega), List.getD_append_right _ _ _ _ past, shift]
  · by_cases inFirst : offset ≤ index ∧ index < offset + first.length
    · rw [if_neg inSecond, if_pos inFirst, if_pos (by omega), List.getD_append _ _ _ _ (by omega)]
    · rw [if_neg inSecond, if_neg inFirst, if_neg (by omega)]

/-- A block over zeros is the list's buffer. -/
theorem write_ofList_nil (bytes : List UInt8) : write (ofList []) 0 bytes = ofList bytes := by
  funext index
  by_cases inside : index < bytes.length
  · have same := @write_inside (ofList []) 0 index bytes inside
    rwa [Nat.zero_add] at same
  · rw [write_outside (Or.inr (by omega)), ofList, ofList, List.getD_eq_default _ _ (by simp),
      List.getD_eq_default _ _ (by omega)]

/-- A slice of a list's buffer is the part of the list. -/
theorem slice_ofList {bytes : List UInt8} {offset count : Nat}
    (inside : offset + count ≤ bytes.length) :
    slice (ofList bytes) offset count = (bytes.drop offset).take count := by
  refine List.ext_getElem? fun index => ?_
  by_cases small : index < count
  · have bound : offset + index < bytes.length := by omega
    rw [slice_getElem _ _ _ _ small, List.getElem?_take_of_lt small, List.getElem?_drop,
      List.getElem?_eq_getElem bound, ofList, List.getD_eq_getElem _ _ bound]
  · rw [List.getElem?_eq_none (by simp; omega), List.getElem?_eq_none (by simp; omega)]

/-- **A block's integers are the bytes' integers.** -/
theorem load_write {buffer : Buffer} {base offset width : Nat} {bytes : List UInt8}
    (inside : offset + width ≤ bytes.length) :
    load (write buffer base bytes) (base + offset) width = load (ofList bytes) offset width := by
  refine load_congr fun index small => ?_
  rw [Nat.add_assoc, write_inside (by omega), ofList]

theorem load_write_disjoint {buffer : Buffer} {base offset width : Nat} {bytes : List UInt8}
    (apart : offset + width ≤ base ∨ base + bytes.length ≤ offset) :
    load (write buffer base bytes) offset width = load buffer offset width :=
  load_congr fun _ _ => write_outside (by omega)

theorem ofList_take {bytes : List UInt8} {count index : Nat} (inside : index < count) :
    ofList (bytes.take count) index = ofList bytes index := by
  simp only [ofList, List.getD_eq_getElem?_getD, List.getElem?_take_of_lt inside]

theorem ofList_drop (bytes : List UInt8) (count index : Nat) :
    ofList (bytes.drop count) index = ofList bytes (count + index) := by
  simp only [ofList, List.getD_eq_getElem?_getD, List.getElem?_drop]

theorem ofList_replicate (count index : Nat) : ofList (List.replicate count 0) index = 0 := by
  simp [ofList]

theorem ofList_append {first second : List UInt8} {index : Nat} (inside : index < first.length) :
    ofList (first ++ second) index = ofList first index := by
  simp only [ofList, List.getD_append _ _ _ _ inside]

theorem ofList_slice {buffer : Buffer} {offset count index : Nat} (inside : index < count) :
    ofList (slice buffer offset count) index = buffer (offset + index) := by
  rw [ofList, List.getD_eq_getElem?_getD, slice_getElem _ _ _ _ inside, Option.getD_some]

/-- An integer below a cut is the integer of the whole. -/
theorem load_ofList_take {bytes : List UInt8} {count offset width : Nat}
    (inside : offset + width ≤ count) :
    load (ofList (bytes.take count)) offset width = load (ofList bytes) offset width :=
  load_congr fun _ _ => ofList_take (by omega)

theorem load_ofList_drop (bytes : List UInt8) (count offset width : Nat) :
    load (ofList (bytes.drop count)) offset width = load (ofList bytes) (count + offset) width :=
  load_congr fun _ _ => by rw [ofList_drop, Nat.add_assoc]

/-- An integer inside a slice is the buffer's integer. -/
theorem load_slice {buffer : Buffer} {base count offset width : Nat}
    (inside : offset + width ≤ count) :
    load (ofList (slice buffer base count)) offset width = load buffer (base + offset) width := by
  refine load_congr fun index small => ?_
  rw [ofList_slice (by omega), Nat.add_assoc]

end Bytes
