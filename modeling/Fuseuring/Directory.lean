/-
**Directory entries (`add_dir`).**

`walk` reads a list of entries the way a reader of the reply does: header, name, and
on by `FUSE_DIRENT_SIZE`. An entry that `add_dir` appends is one `Written` block,
and the blocks of a list of entries decode to that list, wherever they start.
-/

import Fuseuring.Handlers

namespace Fuseuring

open Bytes

/-! ### Reading entries -/

/-- `FUSE_DIRENT_SIZE`. -/
def direntSize (namelen : Nat) : Nat := fuseDirentAlign (Dirent.name + namelen)

/-- An entry as it is read, with the bytes that fill it up. -/
structure Decoded where
  start : Nat
  ino : Nat
  off : Nat
  type : Nat
  name : List UInt8
  padding : List UInt8
deriving DecidableEq, Repr

/-- The entry at `start`. -/
def decodeAt (bytes : List UInt8) (start : Nat) : Decoded :=
  let memory := ofList bytes
  let namelen := Dirent.namelen.load memory start
  { start := start
    ino := Dirent.ino.load memory start
    off := Dirent.off.load memory start
    type := Dirent.type.load memory start
    name := slice memory (start + Dirent.name) namelen
    padding :=
      slice memory (start + Dirent.name + namelen) (direntSize namelen - Dirent.name - namelen) }

/-- The size of the entry at `start`. -/
def sizeAt (bytes : List UInt8) (start : Nat) : Nat :=
  direntSize (Dirent.namelen.load (ofList bytes) start)

theorem le_direntSize (namelen : Nat) : Dirent.name + namelen ≤ direntSize namelen := by
  unfold direntSize fuseDirentAlign
  omega

theorem direntSize_mod (namelen : Nat) : direntSize namelen % 8 = 0 := by
  unfold direntSize fuseDirentAlign
  omega

/-- The entries from `start` on, if they end exactly at the end of the bytes. -/
def walk (bytes : List UInt8) (start : Nat) : Option (List Decoded) :=
  if start = bytes.length then some []
  else if _fits : start + Dirent.name ≤ bytes.length ∧
    start + sizeAt bytes start ≤ bytes.length then
    (walk bytes (start + sizeAt bytes start)).map (decodeAt bytes start :: ·)
  else none
termination_by bytes.length - start
decreasing_by
  have positive := le_direntSize (Dirent.namelen.load (ofList bytes) start)
  have step : Dirent.name = 24 := rfl
  unfold sizeAt
  omega

/-! ### One entry -/

/-- What an entry says: `S_IFMT` of its mode is its type. -/
structure Listing where
  name : List UInt8
  off : UInt64
  ino : UInt64
  mode : UInt32
  named : 1 ≤ name.length ∧ name.length < 2 ^ 32

namespace Listing

/-- `add_dir` for an entry. -/
def append (buf : List UInt8) (entry : Listing) : List UInt8 :=
  addDir buf entry.name entry.off.toNat entry.ino.toNat entry.mode.toNat

/-- The type an entry gets. -/
def type (entry : Listing) : Nat := (entry.mode.toNat &&& modeFormat) >>> 12

end Listing

/-- `add_dir` for a list of entries. -/
def addDirs (buf : List UInt8) (entries : List Listing) : List UInt8 :=
  entries.foldl Listing.append buf

section Entry

variable {name : List UInt8} {off ino mode : Nat}

theorem addDir_append (buf name : List UInt8) (off ino mode : Nat) :
    addDir buf name off ino mode = buf ++ addDir [] name off ino mode := by
  simp only [addDir, List.nil_append]

/-- The header that `add_dir` assigns. -/
def direntHeader (name : List UInt8) (off ino mode : Nat) : Buffer :=
  Dirent.type.store (Dirent.off.store (Dirent.namelen.store (Dirent.ino.store
    (ofList (List.replicate (direntSize name.length) 0)) 0 ino) 0 name.length) 0 off) 0
      ((mode &&& modeFormat) >>> 12)

/-- **`memcpy` and `memset` fill the entry exactly.** -/
theorem addDir_nil (name : List UInt8) (off ino mode : Nat) :
    addDir [] name off ino mode = slice (write (direntHeader name off ino mode) Dirent.name
      (name ++ List.replicate (direntSize name.length - Dirent.name - name.length) 0)) 0
        (direntSize name.length) := by
  rw [← write_append]
  rfl

theorem length_addDir (name : List UInt8) (off ino mode : Nat) :
    (addDir [] name off ino mode).length = direntSize name.length := by
  rw [addDir_nil, length_slice]

/-- A field of the header reads back. -/
theorem load_addDir {field : Field} (inside : field.offset + field.width ≤ Dirent.name) :
    field.load (ofList (addDir [] name off ino mode)) 0 = field.load
      (direntHeader name off ino mode) 0 := by
  have room := le_direntSize name.length
  rw [Field.load, addDir_nil, load_slice (by omega), load_write_disjoint (by omega), Nat.zero_add]
  rfl

theorem addDir_ino (small : ino < 2 ^ 64) : Dirent.ino.load
    (ofList (addDir [] name off ino mode)) 0 = ino := by
  rw [load_addDir (by decide), direntHeader, Field.load, Field.store,
    load_store_disjoint (by decide), Field.store,
    load_store_disjoint (by decide), Field.store, load_store_disjoint (by decide), Field.store]
  exact load_store_same_of_lt small

theorem addDir_namelen (small : name.length < 2 ^ 32) :
    Dirent.namelen.load (ofList (addDir [] name off ino mode)) 0 = name.length := by
  rw [load_addDir (by decide), direntHeader, Field.load, Field.store,
    load_store_disjoint (by decide), Field.store,
    load_store_disjoint (by decide), Field.store]
  exact load_store_same_of_lt small

theorem addDir_off (small : off < 2 ^ 64) : Dirent.off.load
    (ofList (addDir [] name off ino mode)) 0 = off := by
  rw [load_addDir (by decide), direntHeader, Field.load, Field.store,
    load_store_disjoint (by decide), Field.store]
  exact load_store_same_of_lt small

theorem modeType_lt (mode : Nat) : (mode &&& modeFormat) >>> 12 < 2 ^ 32 := by
  have bound : mode &&& modeFormat ≤ modeFormat := Nat.and_le_right
  rw [Nat.shiftRight_eq_div_pow]
  unfold modeFormat at *
  omega

theorem addDir_type : Dirent.type.load (ofList (addDir [] name off ino mode)) 0 =
    (mode &&& modeFormat) >>> 12 := by
  rw [load_addDir (by decide), direntHeader, Field.load, Field.store]
  exact load_store_same_of_lt (modeType_lt mode)

/-- Behind its header an entry is its name and zeros. -/
theorem addDir_tail :
    (addDir [] name off ino mode).drop Dirent.name =
      name ++ List.replicate (direntSize name.length - Dirent.name - name.length) 0 := by
  have room := le_direntSize name.length
  refine List.ext_getElem? fun index => ?_
  rw [List.getElem?_drop, addDir_nil]
  by_cases inside : index < direntSize name.length - Dirent.name
  · have covered : index < (name ++ List.replicate
        (direntSize name.length - Dirent.name - name.length) 0).length := by
      rw [List.length_append, List.length_replicate]
      omega
    rw [slice_getElem _ _ _ _ (by omega), Nat.zero_add, write_inside covered,
      List.getD_eq_getElem _ _ covered,
      List.getElem?_eq_getElem covered]
  · rw [List.getElem?_eq_none, List.getElem?_eq_none]
    · rw [List.length_append, List.length_replicate]
      omega
    · rw [length_slice]
      omega

end Entry

/-! ### An entry in its place -/

section Place

variable {memory : Buffer} {origOff : Nat} {name : List UInt8} {off ino mode : Nat}

/-- The assignments of `add_dir` in the vector's memory, the entry starting at `origOff`. -/
def addDirAt (memory : Buffer) (origOff : Nat) (name : List UInt8) (off ino mode : Nat) : Buffer :=
  let entry := Dirent.ino.store memory origOff ino
  let entry := Dirent.namelen.store entry origOff name.length
  let entry := Dirent.off.store entry origOff off
  let entry := Dirent.type.store entry origOff ((mode &&& modeFormat) >>> 12)
  let entry := write entry (origOff + Dirent.name) name
  write entry (origOff + Dirent.name + name.length)
    (List.replicate (direntSize name.length - Dirent.name - name.length) 0)

theorem field_store_outside {field : Field} {value index : Nat}
    (inside : field.offset + field.width ≤ Dirent.name)
    (outside : index < origOff ∨ origOff + Dirent.name ≤ index) :
    field.store memory origOff value index = memory index :=
  store_outside (by omega)

/-- **No assignment leaves the entry.** -/
theorem addDirAt_outside {index : Nat} (outside : index < origOff ∨
    origOff + direntSize name.length ≤ index) :
    addDirAt memory origOff name off ino mode index = memory index := by
  have room := le_direntSize name.length
  have header : index < origOff ∨ origOff + Dirent.name ≤ index := by omega
  rw [addDirAt, write_outside (by rw [List.length_replicate]; omega), write_outside (by omega),
    field_store_outside (by decide) header, field_store_outside (by decide) header,
    field_store_outside (by decide) header, field_store_outside (by decide) header]

theorem field_store_shift {field : Field} {other : Buffer} {value index : Nat}
    (same : memory (origOff + index) = other index) :
    field.store memory origOff value (origOff + index) = field.store other 0 value index := by
  have shift : origOff + index - (origOff + field.offset) = index - (0 + field.offset) := by omega
  unfold Field.store store
  rw [shift, same]
  exact if_congr (by omega) rfl rfl

theorem write_shift {other : Buffer} {start index : Nat} {bytes : List UInt8}
    (same : memory (origOff + index) = other index) :
    write memory (origOff + start) bytes (origOff + index) = write other start bytes index := by
  have shift : origOff + index - (origOff + start) = index - start := by omega
  unfold write
  rw [shift, same]
  exact if_congr (by omega) rfl rfl

theorem addDirAt_inside {other : Buffer} {index : Nat}
    (same : memory (origOff + index) = other index) :
    addDirAt memory origOff name off ino mode (origOff + index) =
      addDirAt other 0 name off ino mode index := by
  unfold addDirAt
  rw [Nat.add_assoc, write_shift]
  · rw [Nat.zero_add]
  · exact write_shift (field_store_shift
      (field_store_shift (field_store_shift (field_store_shift same))))

/-- **`addDir` is `add_dir` in the vector**: after `resize`, the assignments at the old end. -/
theorem addDir_eq_addDirAt (buf name : List UInt8) (off ino mode : Nat) :
    addDir buf name off ino mode =
      slice (addDirAt (ofList (buf ++ List.replicate (direntSize name.length) 0)) buf.length name
        off ino mode) 0
        (buf.length + direntSize name.length) := by
  have entry : addDir [] name off ino mode =
      slice (addDirAt (ofList (List.replicate (direntSize name.length) 0)) 0 name off ino mode) 0
        (direntSize name.length) := by
    simp only [addDir, addDirAt, List.nil_append, Nat.zero_add]
    rfl
  rw [addDir_append, entry]
  refine List.ext_getElem? fun index => ?_
  by_cases early : index < buf.length
  · rw [List.getElem?_append_left early, slice_getElem _ _ _ _ (by omega), Nat.zero_add,
      addDirAt_outside (Or.inl early), ofList_append early, ofList, List.getD_eq_getElem _ _ early,
      List.getElem?_eq_getElem early]
  · obtain ⟨place, rfl⟩ := Nat.exists_eq_add_of_le (Nat.not_lt.mp early)
    rw [List.getElem?_append_right (Nat.le_add_right _ _), Nat.add_sub_cancel_left]
    by_cases inside : place < direntSize name.length
    · rw [slice_getElem _ _ _ _ inside, slice_getElem _ _ _ _ (by omega),
        Nat.zero_add, Nat.zero_add,
        addDirAt_inside]
      rw [← ofList_drop, List.drop_left]
    · rw [List.getElem?_eq_none (by rw [length_slice]; omega),
        List.getElem?_eq_none (by rw [length_slice]; omega)]

end Place

section Walk

variable {before after : List UInt8}

/-- A field of a block in the middle of the bytes. -/
theorem load_middle {block : List UInt8} {field : Field}
    (inside : field.offset + field.width ≤ block.length) :
    field.load (ofList (before ++ (block ++ after))) before.length = field.load
      (ofList block) 0 := by
  refine load_congr fun index small => ?_
  have bound : field.offset + index < block.length := by omega
  rw [Nat.zero_add, Nat.add_assoc, ← ofList_drop, List.drop_left, ofList_append bound]

/-- A slice of a block in the middle of the bytes. -/
theorem slice_middle {block : List UInt8} {offset count : Nat}
    (inside : offset + count ≤ block.length) :
    slice (ofList (before ++ (block ++ after))) (before.length + offset) count =
      (block.drop offset).take count := by
  rw [← slice_ofList inside]
  refine slice_congr fun index small => ?_
  have bound : offset + index < block.length := by omega
  rw [Nat.add_assoc, ← ofList_drop, List.drop_left, ofList_append bound]

/-- The entry of a `Listing` that starts at `start`. -/
def Listing.decoded (entry : Listing) (start : Nat) : Decoded where
  start := start
  ino := entry.ino.toNat
  off := entry.off.toNat
  type := entry.type
  name := entry.name
  padding := List.replicate (direntSize entry.name.length - Dirent.name - entry.name.length) 0

/-- A field of an entry's header. -/
theorem load_append {entry : Listing} {field : Field}
    (inside : field.offset + field.width ≤ Dirent.name) :
    field.load (ofList (before ++ (entry.append [] ++ after))) before.length =
      field.load (ofList (entry.append [])) 0 := by
  have length : (entry.append []).length = direntSize entry.name.length := length_addDir _ _ _ _
  have room := le_direntSize entry.name.length
  exact load_middle (by omega)

theorem sizeAt_append (entry : Listing) :
    sizeAt (before ++ (entry.append [] ++ after)) before.length = direntSize entry.name.length := by
  rw [sizeAt, load_append (by decide)]
  exact congrArg direntSize (addDir_namelen entry.named.2)

/-- **An entry decodes to what was appended.** -/
theorem decodeAt_append (entry : Listing) :
    decodeAt (before ++ (entry.append [] ++ after)) before.length =
      entry.decoded before.length := by
  have length : (entry.append []).length = direntSize entry.name.length := length_addDir _ _ _ _
  have room := le_direntSize entry.name.length
  have namelen : Dirent.namelen.load (ofList (before ++ (entry.append [] ++ after))) before.length =
      entry.name.length := by
    rw [load_append (by decide)]
    exact addDir_namelen entry.named.2
  have ino : Dirent.ino.load (ofList (before ++ (entry.append [] ++ after))) before.length =
      entry.ino.toNat := by
    rw [load_append (by decide)]
    exact addDir_ino entry.ino.toNat_lt
  have off : Dirent.off.load (ofList (before ++ (entry.append [] ++ after))) before.length =
      entry.off.toNat := by
    rw [load_append (by decide)]
    exact addDir_off entry.off.toNat_lt
  have type : Dirent.type.load (ofList (before ++ (entry.append [] ++ after))) before.length =
      entry.type := by
    rw [load_append (by decide)]
    exact addDir_type
  have tail : (entry.append []).drop Dirent.name = entry.name ++
      List.replicate (direntSize entry.name.length - Dirent.name - entry.name.length) 0 :=
        addDir_tail
  have name : slice (ofList (before ++ (entry.append [] ++ after))) (before.length + Dirent.name)
      entry.name.length = entry.name := by
    rw [slice_middle (by omega), tail, List.take_left]
  have padding : slice (ofList (before ++ (entry.append [] ++ after)))
      (before.length + Dirent.name + entry.name.length)
      (direntSize entry.name.length - Dirent.name - entry.name.length) =
      List.replicate (direntSize entry.name.length - Dirent.name - entry.name.length) 0 := by
    rw [Nat.add_assoc, slice_middle (by omega), ← List.drop_drop, tail, List.drop_left,
      List.take_of_length_le (by rw [List.length_replicate])]
  simp only [decodeAt, namelen, ino, off, type, name, padding, Listing.decoded]

/-- The blocks of a list of entries. -/
def blocks (entries : List Listing) : List UInt8 := entries.flatMap (Listing.append [])

theorem addDirs_eq (buf : List UInt8) (entries : List Listing) :
    addDirs buf entries = buf ++ blocks entries := by
  induction entries generalizing buf with
  | nil => exact (List.append_nil buf).symm
  | cons entry rest ih =>
    have step : addDirs buf (entry :: rest) = addDirs (entry.append buf) rest := rfl
    rw [step, ih, Listing.append, addDir_append, List.append_assoc]
    rfl

/-- Where the entries of a list start and what they decode to. -/
def decodedFrom : Nat → List Listing → List Decoded
  | _, [] => []
  | start, entry :: rest =>
    entry.decoded start :: decodedFrom (start + direntSize entry.name.length) rest

/-- **The entries of a list, one after the other**, from wherever they start to the end. -/
theorem walk_blocks (entries : List Listing) :
    ∀ before : List UInt8, walk (before ++ blocks entries) before.length = some
      (decodedFrom before.length entries) := by
  induction entries with
  | nil =>
    intro before
    have empty : before ++ blocks [] = before := List.append_nil before
    rw [empty, walk, if_pos rfl]
    rfl
  | cons entry rest ih =>
    intro before
    have split : blocks (entry :: rest) = entry.append [] ++ blocks rest := rfl
    have length : (entry.append []).length = direntSize entry.name.length := length_addDir _ _ _ _
    have room := le_direntSize entry.name.length
    have header : Dirent.name = 24 := rfl
    have size := @sizeAt_append before (blocks rest) entry
    rw [split, walk, size, if_neg, dif_pos, decodeAt_append, ← List.append_assoc, ← length,
      ← List.length_append, ih]
    · rw [List.length_append, length]
      rfl
    · simp only [List.length_append, length]
      omega
    · simp only [List.length_append, length]
      omega

end Walk

/-! ### The round trip -/

theorem decodedFrom_listed (entries : List Listing) :
    ∀ start, (decodedFrom start entries).map (fun entry => (entry.name, entry.off,
      entry.ino, entry.type)) =
      entries.map fun entry => (entry.name, entry.off.toNat, entry.ino.toNat, entry.type) := by
  induction entries with
  | nil => exact fun _ => rfl
  | cons entry rest ih =>
    intro start
    rw [decodedFrom, List.map_cons, List.map_cons, ih]
    rfl

theorem decodedFrom_aligned (entries : List Listing) :
    ∀ start, start % 8 = 0 →
      ∀ entry ∈ decodedFrom start entries, entry.start % 8 = 0 ∧
      ∀ byte ∈ entry.padding, byte = 0 := by
  induction entries with
  | nil =>
    intro start _ entry member
    exact absurd member List.not_mem_nil
  | cons listed rest ih =>
    intro start aligned entry member
    rw [decodedFrom, List.mem_cons] at member
    rcases member with rfl | later
    · exact ⟨aligned, fun byte inside => List.eq_of_mem_replicate inside⟩
    · refine ih _ ?_ entry later
      have step := direntSize_mod listed.name.length
      omega

/-- **Directory entries round-trip**: what `add_dir` appends keeps the earlier
bytes, and a walk from the old end reads the entries back, each at a multiple
of eight and filled up with zeros, and ends at the end. -/
theorem addDirs_round_trip {buf : List UInt8} (aligned : buf.length % 8 = 0)
    (entries : List Listing) :
    (addDirs buf entries).take buf.length = buf ∧
      ∃ decoded, walk (addDirs buf entries) buf.length = some decoded ∧
        decoded.map (fun entry => (entry.name, entry.off, entry.ino, entry.type)) =
          entries.map (fun entry => (entry.name, entry.off.toNat, entry.ino.toNat,
            (entry.mode.toNat &&& modeFormat) >>> 12)) ∧
        ∀ entry ∈ decoded, entry.start % 8 = 0 ∧ ∀ byte ∈ entry.padding, byte = 0 := by
  rw [addDirs_eq, List.take_left]
  refine ⟨rfl, decodedFrom buf.length entries, walk_blocks entries buf, ?_, ?_⟩
  · exact decodedFrom_listed entries buf.length
  · exact decodedFrom_aligned entries buf.length aligned

/-- The entries that `handle_readdir` lists. -/
def rootListing : List Listing :=
  [⟨[46], 1, 2, 0o040777, by decide⟩, ⟨[46, 46], 2, 3, 0o040777, by decide⟩,
    ⟨volumeName, 3, 4, 0o040777, by decide⟩]

theorem rootListing_round_trip :
    (addDirs (List.replicate 16 0) rootListing).take (List.replicate 16 (0 : UInt8)).length =
      List.replicate 16 0 ∧
      ∃ decoded, walk (addDirs (List.replicate 16 0) rootListing)
      (List.replicate 16 (0 : UInt8)).length =
          some decoded ∧
        decoded.map (fun entry => (entry.name, entry.off, entry.ino, entry.type)) =
          rootListing.map (fun entry => (entry.name, entry.off.toNat, entry.ino.toNat,
            (entry.mode.toNat &&& modeFormat) >>> 12)) ∧
        ∀ entry ∈ decoded, entry.start % 8 = 0 ∧ ∀ byte ∈ entry.padding, byte = 0 :=
  addDirs_round_trip (by decide) rootListing

end Fuseuring
