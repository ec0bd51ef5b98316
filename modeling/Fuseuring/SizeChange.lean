/-
**Changing the size of the volume.**

`SETATTR` with `FATTR_SIZE` and `OPEN` with `O_TRUNC` ask for a size. `SizeHonest` is what
the reply owes the session: an acknowledged size is the one that `GETATTR` and `LOOKUP`
report and `READ` is cut at from then on, and a refusal leaves the volume as it was. The
server's size never changes, so that only the size it has already may be acknowledged.
-/

import Fuseuring.Attributes
import Fuseuring.ReadRange

namespace Fuseuring

open Bytes Interaction

/-- `FATTR_SIZE`. -/
def fattrSize : Nat := 8

/-- `O_TRUNC`. -/
def oTrunc : Nat := 0o1000

/-- The size a request asks for: `SETATTR` on the volume, by its node or by its
handle, or `OPEN` of it. -/
def sizeAsked (fuseIo : FuseIo) (request : Option Opcode) (rbytesBuf : Ptr)
    (mem : Mem) : Option Nat :=
  match request with
  | some .setattr =>
      if mem.load rbytesBuf SetattrIn.valid &&& fattrSize ≠ 0 ∧
          (requestNodeid mem fuseIo = 3 ∨ mem.load rbytesBuf SetattrIn.fh = 3) then
        some (mem.load rbytesBuf SetattrIn.newSize)
      else none
  | some .open =>
      if requestNodeid mem fuseIo = 3 ∧ mem.load rbytesBuf OpenIn.flags &&& oTrunc ≠ 0
        then some 0 else none
  | _ => none

/-- Every later `GETATTR` and `LOOKUP` of the volume reports this size. -/
structure SizeReported (ring : FuseRing) (size : Nat) : Prop where
  getattr : ∀ fuseIo rbytesBuf mem, getattrNodeid mem fuseIo rbytesBuf = 3 →
    ((builtReply ring fuseIo (some .getattr) rbytesBuf mem).attributes
      (attrOutPtr fuseIo)).fileSize = size
  lookup : ∀ fuseIo rbytesBuf mem, isVolume mem rbytesBuf = true →
    ((builtReply ring fuseIo (some .lookup) rbytesBuf mem).attributes
      (entryAttrPtr fuseIo)).fileSize = size

/-- What the reply to a change of the size owes, with a later `READ` of `count`
bytes at `offset`. -/
structure SizeHonest (ring : FuseRing) (fuseIo : FuseIo) (before after : World)
    (size offset count : Nat) : Prop where
  acknowledged : replyError fuseIo after.mem = 0 →
    SizeReported ring size ∧ clampedSize ring offset count ≤ size - min offset size
  refused : replyError fuseIo after.mem ≠ 0 → SizeReported ring ring.backingFSize ∧
    after.file = before.file

/-- Where a `READ` is cut at the size of the backing file. -/
def ReadCut (ring : FuseRing) (offset count : Nat) : Prop :=
  offset ≤ ring.backingFSize ∨
    ring.backingFSize < (offset + count) % 2 ^ 64 ∧ (offset - ring.backingFSize) % 2 ^ 32 = 0

/-! ### The reported size -/

section Reported

variable {ring : FuseRing} {size : Nat}

/-- The size of the backing file is reported. -/
theorem sizeReported_backing : SizeReported ring ring.backingFSize := by
  refine ⟨fun fuseIo rbytesBuf mem volume => ?_, fun fuseIo rbytesBuf mem named => ?_⟩
  · have reply : builtReply ring fuseIo (some .getattr) rbytesBuf mem =
        attrReply ring fuseIo (requestUnique mem fuseIo) 3 mem := by
      rw [← volume]
      rfl
    rw [reply, attrReply_volume]
    rfl
  · have reply : builtReply ring fuseIo (some .lookup) rbytesBuf mem =
        lookupReply ring fuseIo rbytesBuf mem := rfl
    rw [reply, (lookupReply_found ring fuseIo rbytesBuf).2.2, named, if_pos rfl]
    rfl

/-- **No other size is ever reported.** -/
theorem sizeReported_iff : SizeReported ring size ↔ size = ring.backingFSize := by
  constructor
  · intro reported
    have named : isVolume ⟨ofList (volumeName ++ [0]), ofList [], ofList [], 0, ofList []⟩
        (FuseIo.headerBuf ⟨0⟩) = true := by
      decide
    have backing : SizeReported ring ring.backingFSize := sizeReported_backing
    rw [← reported.lookup ⟨0⟩ _ _ named, backing.lookup ⟨0⟩ _ _ named]
  · rintro rfl
    exact sizeReported_backing

/-- Where a `READ` keeps within the backing file. -/
theorem readCut_iff {offset count : Nat} (word : offset < 2 ^ 64) (small : count < 2 ^ 32) :
    ReadCut ring offset count ↔ clampedSize ring offset count ≤
      ring.backingFSize - min offset ring.backingFSize := by
  by_cases inside : offset ≤ ring.backingFSize
  · refine iff_of_true (Or.inl inside) ?_
    rw [clampedSize_inside ring inside small]
    exact Nat.min_le_right _ _
  · have beyond : ring.backingFSize < offset := Nat.not_le.mp inside
    rw [ReadCut, or_iff_right inside, ← clampedSize_beyond ring beyond word small,
      Nat.min_eq_right beyond.le,
      Nat.sub_self, Nat.le_zero]

end Reported

/-! ### The replies -/

section Requests

variable (kernel : Kernel) {world : World} (ring : FuseRing) (fuseIo : FuseIo) (rbytesBuf : Ptr)

/-- `OPEN` is always acknowledged. -/
theorem openReply_error (fh extraFlags : Nat) :
    replyError fuseIo (openReply fuseIo rbytesBuf fh extraFlags world.mem) = 0 := by
  have headed : Headed fuseIo 0 (OpenOut.size + OutHeader.size) (requestUnique world.mem fuseIo)
      (outHeader world.mem fuseIo 0 (OpenOut.size + OutHeader.size)
        (requestUnique world.mem fuseIo)) :=
    outHeader_headed (by decide) (requestUnique_lt world.mem fuseIo)
  have filled := (headed.assign OpenOut.fh fh).assign OpenOut.openFlags
    ((((outHeader world.mem fuseIo 0 (OpenOut.size + OutHeader.size)
      (requestUnique world.mem fuseIo)).store
      (fuseIo.scratchBuf.add OutHeader.size) OpenOut.fh fh).load rbytesBuf OpenIn.flags)
        ||| extraFlags)
  exact filled.error.trans (by decide)

theorem sizeAsked_request {request : Option Opcode} {size : Nat} {mem : Mem}
    (asked : sizeAsked fuseIo request rbytesBuf mem = some size) :
    request = some .setattr ∨ request = some .open := by
  unfold sizeAsked at asked
  split at asked
  · exact Or.inl rfl
  · exact Or.inr rfl
  · cases asked

/-- The requests that ask for a size are answered from `scratch_buf` and leave the file alone. -/
theorem exec_sizeAsked (idle : world.Idle) {opcode size : Nat}
    (asked : sizeAsked fuseIo (Opcode.ofCode opcode) rbytesBuf world.mem = some size) :
    (exec kernel (dispatch ring fuseIo opcode rbytesBuf) world).2.mem =
        builtReply ring fuseIo (Opcode.ofCode opcode) rbytesBuf world.mem ∧
      (exec kernel (dispatch ring fuseIo opcode rbytesBuf) world).2.file = world.file := by
  have either := sizeAsked_request fuseIo rbytesBuf asked
  obtain ⟨rc, events, mem, pipe, file, outcome, ran⟩ :=
    exec_dispatch_outcome kernel ring fuseIo rbytesBuf idle opcode
  rw [ran]
  cases outcome with
  | built plain reply => exact ⟨rfl, rfl⟩
  | listed readdir reply => simp [readdir] at either
  | read read volume outcome => simp [read] at either
  | written write volume framed outcome => simp [write] at either

/-- **Which changes of the size are acknowledged**: all but a `SETATTR` through
the handle of neither node. -/
theorem sizeAsked_error {request : Option Opcode} {size : Nat}
    (asked : sizeAsked fuseIo request rbytesBuf world.mem = some size) :
    replyError fuseIo (builtReply ring fuseIo request rbytesBuf world.mem) ≠ 0 ↔
      request = some .setattr ∧ setattrNodeid world.mem fuseIo rbytesBuf ≠ 1 ∧
        setattrNodeid world.mem fuseIo rbytesBuf ≠ 3 := by
  rcases sizeAsked_request fuseIo rbytesBuf asked with rfl | rfl
  · have reply : builtReply ring fuseIo (some .setattr) rbytesBuf world.mem =
        attrReply ring fuseIo (requestUnique world.mem fuseIo)
          (setattrNodeid world.mem fuseIo rbytesBuf)
          world.mem := rfl
    rw [reply, Ne, attrReply_error ring fuseIo (requestUnique_lt _ _), not_or, and_iff_right rfl]
  · have reply : builtReply ring fuseIo (some .open) rbytesBuf world.mem =
        openReply fuseIo rbytesBuf 3 (fopenKeepCache ||| fopenDirectIo) world.mem := rfl
    rw [reply, openReply_error]
    simp

/-- **A change of the size is answered honestly exactly where it is refused, or
asks for the size there is** (and the later `READ` is cut at the size at all). -/
theorem size_change_honest_iff (idle : world.Idle) {opcode size : Nat}
    (asked : sizeAsked fuseIo (Opcode.ofCode opcode) rbytesBuf world.mem = some size)
    {offset count : Nat}
    (word : offset < 2 ^ 64) (small : count < 2 ^ 32) :
    SizeHonest ring fuseIo world
      (exec kernel (dispatch ring fuseIo opcode rbytesBuf) world).2 size offset count ↔
      (Opcode.ofCode opcode = some .setattr ∧ setattrNodeid world.mem fuseIo rbytesBuf ≠ 1 ∧
          setattrNodeid world.mem fuseIo rbytesBuf ≠ 3) ∨
        size = ring.backingFSize ∧ ReadCut ring offset count := by
  obtain ⟨mem, file⟩ := exec_sizeAsked kernel ring fuseIo rbytesBuf idle asked
  rw [← sizeAsked_error ring fuseIo rbytesBuf asked, ← mem]
  constructor
  · intro honest
    by_cases error : replyError fuseIo
      (exec kernel (dispatch ring fuseIo opcode rbytesBuf) world).2.mem = 0
    · obtain ⟨reported, cut⟩ := honest.acknowledged error
      have size := sizeReported_iff.mp reported
      subst size
      exact Or.inr ⟨rfl, (readCut_iff word small).mpr cut⟩
    · exact Or.inl error
  · intro condition
    refine ⟨fun error => ?_, fun _ => ⟨sizeReported_backing, file⟩⟩
    obtain ⟨rfl, cut⟩ := condition.resolve_left (not_not.mpr error)
    exact ⟨sizeReported_backing, (readCut_iff word small).mp cut⟩

/-! ### Two requests -/

/-- The body of a `SETATTR` of the size. -/
def setattrBody (fh newSize : Nat) : List UInt8 :=
  slice (SetattrIn.newSize.store
    (SetattrIn.fh.store (SetattrIn.valid.store (ofList []) 0 fattrSize) 0 fh) 0 newSize) 0
    SetattrIn.size

/-- A slot in which `handle_setattr` finds a new size for the volume. -/
def sizeSlot (newSize : Nat) : World :=
  handlerSlot (sessionMessage .setattr 7 3 (setattrBody 0 newSize))

/-- Setting the size there is. -/
theorem same_size_honest :
    SizeHonest FuseRing.small ⟨0⟩ (sizeSlot 4096)
      (exec Kernel.full (dispatch FuseRing.small ⟨0⟩ Opcode.setattr.code (FuseIo.scratchBuf ⟨0⟩))
        (sizeSlot 4096)).2
      4096 4000 100 :=
  (size_change_honest_iff Kernel.full FuseRing.small ⟨0⟩ (FuseIo.scratchBuf ⟨0⟩) ⟨rfl, rfl⟩
    (show sizeAsked ⟨0⟩ (Opcode.ofCode Opcode.setattr.code) (FuseIo.scratchBuf ⟨0⟩)
      (sizeSlot 4096).mem = some 4096 by
      decide +kernel) (by decide) (by decide)).mpr (Or.inr ⟨rfl, Or.inl (by decide)⟩)

/-- **A truncation that is acknowledged and not made**: `SETATTR` of the size 0
has error 0, and a lookup of the volume reports 4096 bytes. -/
theorem truncation_acknowledged :
    sizeAsked ⟨0⟩ (some .setattr) (FuseIo.scratchBuf ⟨0⟩) (sizeSlot 0).mem = some 0 ∧
      ¬ SizeHonest FuseRing.small ⟨0⟩ (sizeSlot 0)
        (exec Kernel.full (dispatch FuseRing.small ⟨0⟩ Opcode.setattr.code (FuseIo.scratchBuf ⟨0⟩))
          (sizeSlot 0)).2
        0 4000 100 := by
  refine ⟨by decide +kernel, fun honest => ?_⟩
  have error : replyError ⟨0⟩ (exec Kernel.full (dispatch FuseRing.small ⟨0⟩ Opcode.setattr.code
      (FuseIo.scratchBuf ⟨0⟩)) (sizeSlot 0)).2.mem = 0 := by decide +kernel
  have size := sizeReported_iff.mp (honest.acknowledged error).1
  exact absurd size (by decide)

end Requests

end Fuseuring
