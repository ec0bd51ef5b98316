/-
**The capabilities of the `INIT` handshake.**

The start-up tests the flags that the kernel offers and answers with a word of its own.
`CapabilitiesSound` asks that the answer claims nothing that was not offered, and that a kernel
without one of the features meant is refused with 8 and no answer. Two bits are wrong:
`FUSE_BIG_WRITES` is answered and never tested, and the bit tested for directory ioctls is
`FUSE_IOCTL_DIR`, which is one of the flags of an ioctl and has the value of `FUSE_EXPORT_SUPPORT`.
-/

import Fuseuring.Handshake
import Mathlib.Data.Nat.Bitwise

namespace Fuseuring

open Bytes Interaction

/-- `FUSE_HAS_IOCTL_DIR`. -/
def fuseHasIoctlDir : Nat := 2 ^ 11

/-- The flags of the features that the test names. -/
def meantFlags : List Nat :=
  [fuseAsyncRead, fuseParallelDirops, fuseAutoInvalData, fuseHandleKillpriv, fuseAsyncDio,
    fuseHasIoctlDir,
    fuseAtomicOTrunc, fuseSpliceRead, fuseSpliceWrite, fuseMaxPagesFlag, fuseWritebackCache,
    fuseExportSupport,
    fuseSpliceMove]

/-- The flags that an `INIT` offers. -/
def offeredFlags (message : List UInt8) : Nat := InitIn.flags.load (ofList message) InHeader.size

/-- The flags of a reply to an `INIT`. -/
def replyFlags (reply : List UInt8) : Nat := InitOut.flags.load (ofList reply) OutHeader.size

/-- **What a start owes the kernel's offer.** -/
structure CapabilitiesSound (offered : Nat) (run : Started × List StartEvent) : Prop where
  answered : ∀ reply, StartEvent.wrote reply ∈ run.2 →
    ∀ bit, (replyFlags reply).testBit bit = true →
    offered.testBit bit = true
  required : ∀ reply, StartEvent.wrote reply ∈ run.2 → ∀ flag ∈ meantFlags, offered &&& flag ≠ 0
  refused : (∃ flag ∈ meantFlags, offered &&& flag = 0) →
    run.1 = .exit 8 ∧ ∀ reply, StartEvent.wrote reply ∉ run.2

/-! ### Words and bits -/

section Bits

variable {offered bit : Nat}

theorem and_two_pow_ne_zero : offered &&& 2 ^ bit ≠ 0 ↔ offered.testBit bit = true := by
  rw [Nat.and_two_pow]
  cases offered.testBit bit with
  | true => simp
  | false => simp

/-- The bits that are tested. -/
def requiredBits : List Nat := [0, 18, 12, 19, 15, 4, 3, 9, 7, 22, 16, 4, 8]

theorem offersRequired_iff : offersRequired offered = true ↔
    ∀ bit ∈ requiredBits, offered.testBit bit = true := by
  have flags : requiredFlags = requiredBits.map (2 ^ ·) := rfl
  rw [offersRequired, flags, List.all_map, List.all_eq_true]
  refine forall₂_congr fun bit _ => ?_
  rw [← and_two_pow_ne_zero]
  exact bne_iff_ne

/-- The bits of the answer: one is not tested. -/
theorem testBit_initOutFlags (claimed : initOutFlags.testBit bit = true) : bit = 5 ∨
    bit ∈ requiredBits := by
  by_cases word : bit < 32
  · have all : ∀ place : Fin 32, initOutFlags.testBit place = true → place.val = 5 ∨
        place.val ∈ requiredBits := by
      decide
    exact all ⟨bit, word⟩ claimed
  · have small : initOutFlags < 2 ^ bit := by
      refine lt_of_lt_of_le (show initOutFlags < 2 ^ 32 by decide) ?_
      exact Nat.pow_le_pow_right (by decide) (Nat.not_lt.mp word)
    rw [Nat.testBit_lt_two_pow small] at claimed
    cases claimed

/-- **The answer claims what was offered** where big writes were offered too. -/
theorem answer_offered_iff (offers : offersRequired offered = true) :
    (∀ bit, initOutFlags.testBit bit = true → offered.testBit bit = true) ↔
    offered &&& fuseBigWrites ≠ 0 := by
  have big : fuseBigWrites = 2 ^ 5 := rfl
  rw [big, and_two_pow_ne_zero]
  constructor
  · intro claims
    exact claims 5 (by decide)
  · intro writes bit claimed
    rcases testBit_initOutFlags claimed with rfl | tested
    · exact writes
    · exact offersRequired_iff.mp offers bit tested

/-- **The features meant are offered** where directory ioctls are. -/
theorem meant_offered_iff (offers : offersRequired offered = true) :
    (∀ flag ∈ meantFlags, offered &&& flag ≠ 0) ↔ offered &&& fuseHasIoctlDir ≠ 0 := by
  constructor
  · intro meant
    exact meant fuseHasIoctlDir (by decide)
  · intro directories flag member
    have either : ∀ flag ∈ meantFlags, flag = fuseHasIoctlDir ∨ flag ∈ requiredFlags := by decide
    rcases either flag member with rfl | tested
    · exact directories
    · exact bne_iff_ne.mp (List.all_eq_true.mp offers flag tested)

end Bits

/-! ### The start -/

section Start

variable {kernel : StartKernel} {args : StartArgs} {stack : Buffer}

/-- The flags of the final reply. -/
theorem replyFlags_parameterReply (initOut : Buffer) :
    replyFlags (slice (parameterReply args initOut) 0 initOutMsgSize) = initOutFlags := by
  have apart : ∀ (buffer : Buffer) (field : Field) (value : Nat), InitOut.flags.offset +
      InitOut.flags.width ≤ field.offset →
      InitOut.flags.load (field.store buffer OutHeader.size value) OutHeader.size =
        InitOut.flags.load buffer OutHeader.size := by
    intro buffer field value behind
    exact load_store_disjoint (Or.inl (by omega))
  rw [replyFlags, Field.load, load_slice (by decide), Nat.zero_add]
  show InitOut.flags.load (parameterReply args initOut) OutHeader.size = initOutFlags
  unfold parameterReply
  rw [apart _ _ _ (by decide), apart _ _ _ (by decide), apart _ _ _ (by decide),
    apart _ _ _ (by decide),
    apart _ _ _ (by decide)]
  exact load_store_same_of_lt (by decide)

/-- The start behind an `INIT` of the server's version. -/
theorem start_valid {first : Delivery} (mounted : Mounted kernel)
    (opens : kernel.message 0 = some first)
    (valid : ValidInit first.bytes) :
    kernel.start args stack =
      ((Program.run kernel.handler (finishInit args (ofList first.bytes)
        (versionReply stack (uniqueOf first.bytes)))
          ⟨1, 0, [.read first.bytes]⟩).1,
        (Program.run kernel.handler (finishInit args (ofList first.bytes)
          (versionReply stack (uniqueOf first.bytes)))
          ⟨1, 0, [.read first.bytes]⟩).2.events) := by
  have checked : negotiate args stack (ofList first.bytes) =
      finishInit args (ofList first.bytes) (versionReply stack (uniqueOf first.bytes)) := by
    have tests : negotiate args stack (ofList first.bytes) =
        if opcodeOf first.bytes ≠ Opcode.init.code then .ret (.exit 5)
        else if lenOf first.bytes ≠ initInMsgSize then .ret (.exit 5)
        else if majorOf first.bytes < fuseKernelVersion then .ret (.exit 5)
        else if majorOf first.bytes > fuseKernelVersion then
          secondRound args (ofList first.bytes) (versionReply stack (uniqueOf first.bytes))
        else finishInit args (ofList first.bytes) (versionReply stack (uniqueOf first.bytes)) := rfl
    rw [tests, if_neg (not_not.mpr valid.opcode), if_neg (not_not.mpr valid.len),
      if_neg valid.major.ge.not_gt,
      if_neg valid.major.le.not_gt]
  rw [← checked]
  unfold StartKernel.start fuseuringMain
  simp only [Program.run_bind, run_statMountpoint, mounted.stat, run_openDevice,
    mounted.openDevice, run_mountFuse,
    mounted.mount, run_readSession, opens, write_ofList_nil, Bool.not_true,
    Bool.false_eq_true, if_false]
  rfl

/-- The workers do not end the start with 8. -/
theorem startWorkers_ne (state : StartState) :
    (Program.run kernel.handler (startWorkers args) state).1 ≠ .exit 8 := by
  intro ended
  unfold startWorkers at ended
  by_cases single : args.nThreads ≤ 1
  · rw [if_pos single] at ended
    cases ended
  · rw [if_neg single, Program.run_bind, run_queueInit] at ended
    cases ready : kernel.queueInit with
    | true =>
      rw [ready] at ended
      cases ended
    | false =>
      rw [ready] at ended
      cases ended

/-- **What the start comes to**: refused with 8 for a flag that is tested, else
answered if the kernel takes the answer. -/
theorem start_valid_cases {first : Delivery} (mounted : Mounted kernel)
    (opens : kernel.message 0 = some first)
    (valid : ValidInit first.bytes) :
    (offersRequired (offeredFlags first.bytes) = false ∧
        kernel.start args stack = (.exit 8, [.read first.bytes])) ∨
      (offersRequired (offeredFlags first.bytes) = true ∧ (kernel.start args stack).1 ≠ .exit 8 ∧
        ((kernel.accepts 0 = true ∧ ∃ reply, replyFlags reply = initOutFlags ∧
            (kernel.start args stack).2 = [.read first.bytes, .wrote reply]) ∨
          kernel.accepts 0 = false ∧ (kernel.start args stack).2 = [.read first.bytes])) := by
  rw [start_valid mounted opens valid]
  unfold finishInit
  cases offers : offersRequired (offeredFlags first.bytes) with
  | false =>
    have same : offersRequired (InitIn.flags.load (ofList first.bytes) InHeader.size) = false :=
      offers
    simp only [same, Bool.not_false, if_true]
    exact Or.inl ⟨trivial, rfl⟩
  | true =>
    have same : offersRequired (InitIn.flags.load (ofList first.bytes) InHeader.size) = true :=
      offers
    simp only [same, Bool.not_true, Bool.false_eq_true, if_false, Program.run_bind,
      run_writeSession]
    refine Or.inr ⟨trivial, ?_⟩
    by_cases answered : kernel.accepts 0 = true
    rotate_left
    · have refused := Bool.eq_false_of_not_eq_true answered
      simp only [refused, Bool.not_false, if_true]
      exact ⟨fun impossible => Started.noConfusion impossible fun code => absurd code (by decide),
        Or.inr ⟨trivial, rfl⟩⟩
    · simp only [answered, Bool.not_true, Bool.false_eq_true, if_false, if_true]
      let initOut :=
        InitOut.maxReadahead.store (versionReply stack (uniqueOf first.bytes)) OutHeader.size
        (InitIn.maxReadahead.load (ofList first.bytes) InHeader.size)
      refine ⟨startWorkers_ne _, Or.inl ⟨trivial,
        slice (parameterReply args initOut) 0 initOutMsgSize,
        replyFlags_parameterReply initOut, ?_⟩⟩
      rw [(run_startWorkers kernel args _).1]
      rfl

/-- **The capabilities are sound exactly where the start refuses, or where
directory ioctls and big writes are offered beside the flags that are tested**
(the latter only for an answer that goes out). -/
theorem capabilities_sound_iff {first : Delivery} (mounted : Mounted kernel)
    (opens : kernel.message 0 = some first)
    (valid : ValidInit first.bytes) :
    CapabilitiesSound (offeredFlags first.bytes) (kernel.start args stack) ↔
      offersRequired (offeredFlags first.bytes) = false ∨
        offeredFlags first.bytes &&& fuseHasIoctlDir ≠ 0 ∧
          (offeredFlags first.bytes &&& fuseBigWrites ≠ 0 ∨ kernel.accepts 0 = false) := by
  rcases @start_valid_cases kernel args stack first mounted opens valid with
    ⟨refused, start⟩ | ⟨offers, stays, ⟨answered, reply, flags, events⟩ | ⟨unanswered, events⟩⟩
  · refine iff_of_true ?_ (Or.inl refused)
    rw [start]
    exact ⟨fun reply member => by simp at member, fun reply member => by simp at member,
      fun _ => ⟨rfl, fun reply member => by simp at member⟩⟩
  · rw [or_iff_right (by rw [offers]; exact Bool.noConfusion),
      or_iff_left (by rw [answered]; exact Bool.noConfusion)]
    rw [← meant_offered_iff offers, ← answer_offered_iff offers]
    constructor
    · intro sound
      have written : StartEvent.wrote reply ∈ (kernel.start args stack).2 := by
        rw [events]
        simp
      exact ⟨sound.required reply written, flags ▸ sound.answered reply written⟩
    · rintro ⟨meant, claims⟩
      refine ⟨fun other member => ?_, fun _ _ => meant, fun missing => ?_⟩
      · obtain rfl : other = reply := by
          rw [events] at member
          simpa using member
        rw [flags]
        exact claims
      · obtain ⟨flag, member, absent⟩ := missing
        exact absurd absent (meant flag member)
  · rw [or_iff_right (by rw [offers]; exact Bool.noConfusion), and_iff_left (Or.inr unanswered)]
    rw [← meant_offered_iff offers]
    have silent : ∀ reply, StartEvent.wrote reply ∉ (kernel.start args stack).2 := by
      intro reply member
      rw [events] at member
      simp at member
    constructor
    · intro sound flag member absent
      exact stays (sound.refused ⟨flag, member, absent⟩).1
    · intro meant
      refine ⟨fun reply member => absurd member (silent reply),
        fun reply member => absurd member (silent reply), ?_⟩
      rintro ⟨flag, member, absent⟩
      exact absurd absent (meant flag member)

end Start

/-! ### Two offers -/

/-- An `INIT` of the server's version with these flags. -/
def offer (flags : Nat) : Delivery where
  bytes := initMessage 1 7 flags
  nonempty := by simp [initMessage, sessionMessage, InHeader.size]
  fits := by simp [initMessage, sessionMessage, InHeader.size, InitIn.size, initBufSize]

/-- A kernel that offers these flags and goes along with everything. -/
def offeringKernel (flags : Nat) : StartKernel where
  stat := true
  openDevice := true
  mount := true
  queueInit := true
  message _ := some (offer flags)
  accepts _ := true

/-- Every flag is offered. -/
theorem full_offer_sound : CapabilitiesSound (offeredFlags (offer (2 ^ 32 - 1)).bytes)
    ((offeringKernel (2 ^ 32 - 1)).start ⟨16, 16, 16, 1, 4096⟩ (ofList [])) := by
  have valid : ValidInit (offer (2 ^ 32 - 1)).bytes := ⟨⟨by decide, by decide⟩, by decide⟩
  exact (@capabilities_sound_iff (offeringKernel (2 ^ 32 - 1)) ⟨16, 16, 16, 1, 4096⟩ (ofList [])
    (offer (2 ^ 32 - 1))
    ⟨rfl, rfl, rfl⟩ rfl valid).mpr
    (Or.inr ⟨by decide, Or.inl (by decide)⟩)

/-- The flags that are tested. -/
def testedFlags : Nat := requiredFlags.foldl (· ||| ·) 0

/-- **Directory ioctls are required and not offered, and big writes are claimed and not
offered**: the kernel that offers exactly the flags that are tested is answered. -/
theorem tested_offer_unsound : ¬ CapabilitiesSound (offeredFlags (offer testedFlags).bytes)
    ((offeringKernel testedFlags).start ⟨16, 16, 16, 1, 4096⟩ (ofList [])) := by
  intro sound
  have valid : ValidInit (offer testedFlags).bytes := ⟨⟨by decide, by decide⟩, by decide⟩
  have offers : offersRequired (offeredFlags (offer testedFlags).bytes) = true := by decide
  rcases @start_valid_cases (offeringKernel testedFlags) ⟨16, 16, 16, 1, 4096⟩ (ofList [])
    (offer testedFlags)
    ⟨rfl, rfl, rfl⟩ rfl valid with
    ⟨refused, -⟩ | ⟨-, -, ⟨-, reply, flags, events⟩ | ⟨unanswered, -⟩⟩
  · exact absurd (refused.symm.trans offers) Bool.false_ne_true
  · have written : StartEvent.wrote reply ∈ ((offeringKernel testedFlags).start
        ⟨16, 16, 16, 1, 4096⟩ (ofList [])).2 := by
      rw [events]
      simp
    exact absurd (sound.required reply written fuseHasIoctlDir (by decide)) (by decide)
  · exact absurd unanswered (by decide)

end Fuseuring
