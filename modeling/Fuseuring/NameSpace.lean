/-
**The name space.**

`LOOKUP` and `READDIR` describe one directory. `NameConsistent` is what they owe each other
on one name: a lookup succeeds exactly for the entries that are listed, and an entry's inode
number and type are those of the lookup and of `GETATTR` on the node it returned. No name
satisfies it: every lookup succeeds, and every listed entry has an inode number of its own.
-/

import Fuseuring.Attributes
import Fuseuring.Paging

namespace Fuseuring

open Bytes

/-- A lookup as its handler finds it: `name`, ended by a zero, where `rbytes_buf` points. -/
structure Lookup (name : List UInt8) where
  fuseIo : FuseIo
  rbytesBuf : Ptr
  mem : Mem
  named : mem.bytes rbytesBuf (name.length + 1) = name ++ [0]

namespace Lookup

variable {name : List UInt8} (lookup : Lookup name) (ring : FuseRing)

/-- The reply of `handle_lookup`. -/
def reply : Mem := builtReply ring lookup.fuseIo (some .lookup) lookup.rbytesBuf lookup.mem

/-- No error, and a node. -/
def Succeeds : Prop :=
  replyError lookup.fuseIo (lookup.reply ring) = 0 ∧
    entryNodeid lookup.fuseIo (lookup.reply ring) ≠ 0

/-- The attributes in the reply. -/
def attributes : Attributes := (lookup.reply ring).attributes (entryAttrPtr lookup.fuseIo)

end Lookup

/-- The file type of a mode, as a directory entry has it. -/
def modeType (mode : Nat) : Nat := (mode &&& modeFormat) >>> 12

/-- **One name, consistently**: looked up as it is listed, with the same inode
number and type everywhere. -/
structure NameConsistent {name : List UInt8} (ring : FuseRing) (lookup : Lookup name) : Prop where
  found : ∀ unique entries, listing unique 0 = some entries →
    (lookup.Succeeds ring ↔ ∃ entry ∈ entries, entry.name = name)
  looked : ∀ unique entries, listing unique 0 = some entries →
    ∀ entry ∈ entries, entry.name = name →
    entry.ino = (lookup.attributes ring).ino ∧ entry.type = modeType (lookup.attributes ring).mode
  node : ∀ unique entries, listing unique 0 = some entries → ∀ entry ∈ entries, entry.name = name →
    ∀ unique mem,
      let reply :=
        attrReply ring lookup.fuseIo unique (entryNodeid lookup.fuseIo (lookup.reply ring)) mem
      (lookup.attributes ring).ino = (reply.attributes (attrOutPtr lookup.fuseIo)).ino ∧
        modeType (lookup.attributes ring).mode = modeType
          (reply.attributes (attrOutPtr lookup.fuseIo)).mode

section Names

variable {name : List UInt8} (ring : FuseRing) (lookup : Lookup name)

/-- Every lookup succeeds. -/
theorem Lookup.succeeds : lookup.Succeeds ring := by
  obtain ⟨error, nodeid, -⟩ := @lookupReply_found ring lookup.fuseIo lookup.mem lookup.rbytesBuf
  refine ⟨error, ?_⟩
  have node : entryNodeid lookup.fuseIo (lookup.reply ring) =
      if isVolume lookup.mem lookup.rbytesBuf then 3 else 1 :=
    nodeid
  rw [node]
  split <;> decide

theorem Lookup.attributes_eq :
    lookup.attributes ring =
      if isVolume lookup.mem lookup.rbytesBuf then volumeAttributes ring else rootAttributes :=
  (lookupReply_found ring lookup.fuseIo lookup.rbytesBuf).2.2

/-- The name `".."` is not the volume's. -/
theorem Lookup.parent (parent : name = [46, 46]) :
    isVolume lookup.mem lookup.rbytesBuf = false := by
  have first : lookup.mem.buffer lookup.rbytesBuf.region lookup.rbytesBuf.offset = 46 := by
    have named := congrArg (fun bytes => bytes[0]?) lookup.named
    subst parent
    have read := slice_getElem (lookup.mem.buffer lookup.rbytesBuf.region) lookup.rbytesBuf.offset
      3 0 (by decide)
    exact Option.some.inj (read.symm.trans named)
  rw [isVolume, beq_eq_false_iff_ne]
  intro same
  have head := congrArg (fun bytes => bytes[0]?) same
  have read := slice_getElem (lookup.mem.buffer lookup.rbytesBuf.region) lookup.rbytesBuf.offset 7 0
    (by decide)
  have letter : some (46 : UInt8) = some 118 := by
    rw [← first]
    exact read.symm.trans head
  exact absurd letter (by decide)

/-- **No listed entry has the inode number of its lookup.** -/
theorem Lookup.ino_ne {entry : Decoded} (listed : entry ∈ decodedFrom OutHeader.size rootListing)
    (named : entry.name = name) : entry.ino ≠ (lookup.attributes ring).ino := by
  have entries : entry = Listing.decoded ⟨[46], 1, 2, 0o040777, by decide⟩ 16 ∨
      entry = Listing.decoded ⟨[46, 46], 2, 3, 0o040777, by decide⟩ 48 ∨
      entry = Listing.decoded ⟨volumeName, 3, 4, 0o040777, by decide⟩ 80 := by
    simpa using (show entry ∈ [Listing.decoded ⟨[46], 1, 2, 0o040777, by decide⟩ 16,
      Listing.decoded ⟨[46, 46], 2, 3, 0o040777, by decide⟩ 48,
      Listing.decoded ⟨volumeName, 3, 4, 0o040777, by decide⟩ 80] from listed)
  have volume : (volumeAttributes ring).ino = 3 := rfl
  have root : rootAttributes.ino = 1 := rfl
  rw [lookup.attributes_eq ring]
  rcases entries with rfl | rfl | rfl
  · have ino : (Listing.decoded ⟨[46], 1, 2, 0o040777, by decide⟩ 16).ino = 2 := rfl
    rw [ino]
    split
    · rw [volume]
      decide
    · rw [root]
      decide
  · have ino : (Listing.decoded ⟨[46, 46], 2, 3, 0o040777, by decide⟩ 48).ino = 3 := rfl
    rw [ino, lookup.parent named.symm, if_neg Bool.false_ne_true, root]
    decide
  · have ino : (Listing.decoded ⟨volumeName, 3, 4, 0o040777, by decide⟩ 80).ino = 4 := rfl
    rw [ino]
    split
    · rw [volume]
      decide
    · rw [root]
      decide

/-- **The name space is consistent on no name**: a name that is not listed is
found all the same, and one that is listed has another inode number there. -/
theorem lookup_inconsistent : ¬ NameConsistent ring lookup := by
  intro consistent
  have listed : listing 0 0 = some (decodedFrom OutHeader.size rootListing) := listing_eq 0 0
  obtain ⟨entry, member, named⟩ := (consistent.found 0 _ listed).mp (lookup.succeeds ring)
  exact lookup.ino_ne ring member named (consistent.looked 0 _ listed entry member named).1

end Names

/-- A lookup of `"x"`. -/
def lookupOther : Lookup [120] where
  fuseIo := ⟨0⟩
  rbytesBuf := FuseIo.scratchBuf ⟨0⟩
  mem := ⟨ofList [], ofList [120], ofList [], 0, ofList []⟩
  named := rfl

/-- **A name that is not listed is found.** -/
theorem unlisted_name_is_found : ¬ NameConsistent FuseRing.small lookupOther := by
  intro consistent
  have listed : listing 0 0 = some (decodedFrom OutHeader.size rootListing) := listing_eq 0 0
  obtain ⟨entry, member, named⟩ :=
    (consistent.found 0 _ listed).mp (lookupOther.succeeds FuseRing.small)
  have unlisted : ∀ entry ∈ decodedFrom OutHeader.size rootListing, entry.name ≠ [120] := by decide
  exact unlisted entry member named

end Fuseuring
