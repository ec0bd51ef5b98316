/-
**Handlers only see a body that exists.**

The handlers of `bodyStructure` read through `rbytes_buf`. `Dispatches` says that a run
of `queue_fuse_read` comes to its second switch with a pointer, whatever the switch does
with it, and `BodyExists` what that pointer owes the handlers: it was assigned in this
request and leads to the structure, or to a name with its end. Only a `LOOKUP` without a
name is dispatched otherwise: no body is asked for, and the pointer is never assigned.
-/

import Fuseuring.Reassembly

namespace Fuseuring

open Bytes Interaction

/-- How many bytes of a structure a handler reads through `rbytes_buf`, if it
does; `handle_lookup` reads a name. -/
def bodyStructure : Option Opcode → Option Nat
  | some .getattr => some GetattrIn.size
  | some .setattr => some SetattrIn.size
  | some .lookup => some 0
  | some .opendir => some OpenIn.size
  | some .open => some OpenIn.size
  | some .read => some ReadIn.size
  | some .write => some WriteIn.size
  | some .readdir => some ReadIn.size
  | _ => none

/-- `queue_fuse_read` comes to its second switch, with this pointer and in this world. -/
def Dispatches (kernel : Kernel) (ring : FuseRing) (world : World) (opcode : Nat) (rbytesBuf : Ptr)
    (before : World) :
    Prop :=
  ∀ handler : Nat → Ptr → Coro Int,
    exec kernel (queueFuseReadWith ring world.fuseIo handler) world = exec kernel
      (handler opcode rbytesBuf) before

/-- **The body behind `rbytes_buf`**: assigned, the message's, large enough,
and a name that ends in its buffer. -/
structure BodyExists (fuseIo : FuseIo) (message : List UInt8) (rbytesBuf : Ptr)
    (mem : Mem) : Prop where
  assigned : rbytesBuf = fuseIo.headerBuf.add InHeader.size ∨ rbytesBuf = fuseIo.scratchBuf ∨
    rbytesBuf = fuseIo.freeBuf
  body : mem.bytes rbytesBuf (bodyOf message).readRbytes =
    (message.drop InHeader.size).take (bodyOf message).readRbytes
  whole : ∀ size, bodyStructure (Opcode.ofCode (opcodeOf message)) = some size →
    size ≤ (bodyOf message).readRbytes ∧
      rbytesBuf.Holds mem.size size
  name : Opcode.ofCode (opcodeOf message) = some .lookup → ∃ length,
    rbytesBuf.Holds mem.size (length + 1) ∧
      mem.bytes (rbytesBuf.add length) 1 = [0]

section Bodies

variable {message : List UInt8}

/-- Only a `LOOKUP` may ask for no body, of the messages whose handlers read one. -/
theorem bodyOf_nonempty (read : bodyStructure (Opcode.ofCode (opcodeOf message)) ≠ none)
    (header : InHeader.size ≤ message.length) (named : ¬ NamelessLookup message) :
    0 < (bodyOf message).readRbytes := by
  by_contra empty
  have bare := expectedBody_empty (Nat.eq_zero_of_not_pos empty)
  refine named ⟨?_, le_antisymm bare header⟩
  have none : (expectedBody (opcodeOf message) message.length).readRbytes = 0 :=
    Nat.eq_zero_of_not_pos empty
  unfold expectedBody at none
  generalize Opcode.ofCode (opcodeOf message) = request at read none ⊢
  cases request with
  | none => exact absurd rfl read
  | some code =>
    cases code with
    | lookup => rfl
    | getattr | setattr | opendir | «open» | read | write | readdir =>
      exact absurd none (Nat.succ_ne_zero _)
    | _ => exact absurd rfl read

/-- The body that is asked for holds the structure. -/
theorem bodyStructure_le {size : Nat}
    (read : bodyStructure (Opcode.ofCode (opcodeOf message)) = some size) :
    size ≤ (bodyOf message).readRbytes := by
  unfold bodyOf expectedBody
  generalize Opcode.ofCode (opcodeOf message) = request at read ⊢
  unfold bodyStructure at read
  split at read <;> cases read <;> first | exact le_rfl | exact Nat.zero_le _

theorem bodyOf_lookup (lookup : Opcode.ofCode (opcodeOf message) = some .lookup) :
    (bodyOf message).addZero = true := by
  unfold bodyOf expectedBody
  rw [lookup]

end Bodies

section Dispatching

variable {kernel : Kernel} {ring : FuseRing} {world before before' : World} {opcode opcode' : Nat}
  {rbytesBuf rbytesBuf' : Ptr}

/-- What a run dispatches is one thing. -/
theorem Dispatches.unique (first : Dispatches kernel ring world opcode rbytesBuf before)
    (second : Dispatches kernel ring world opcode' rbytesBuf' before') :
    opcode = opcode' ∧ rbytesBuf = rbytesBuf' ∧ before = before' := by
  -- a handler that tells the second one apart
  have told :=
    second fun code pointer => .ret (if code = opcode' ∧ pointer = rbytesBuf' then 0 else 1)
  rw [exec_ret, if_pos ⟨rfl, rfl⟩, first, exec_ret, Prod.mk.injEq] at told
  by_cases both : opcode = opcode' ∧ rbytesBuf = rbytesBuf'
  · exact ⟨both.1, both.2, told.2⟩
  · rw [if_neg both] at told
    exact absurd told.1 (by decide)

/-- **Handlers see a body that exists, unless they look up no name.** -/
theorem dispatched_body_exists (idle : world.Idle) (empty : world.pipe = [])
    (dispatched : Dispatches kernel ring world opcode rbytesBuf before)
    (reads : bodyStructure (Opcode.ofCode opcode) ≠ none) :
    BodyExists world.fuseIo world.incoming rbytesBuf before.mem ↔
    ¬ NamelessLookup world.incoming := by
  rcases exec_queueFuseReadWith_placed kernel ring idle empty with
    ⟨count, found, mem, events, delivered, place, room, -, acceptable, ran⟩ | ⟨after, ran, -⟩
  rotate_left
  · have refused := (dispatched fun _ _ => .ret 0).symm.trans (ran _)
    rw [exec_ret, Prod.mk.injEq] at refused
    exact absurd refused.1 (by decide)
  obtain ⟨rfl, rfl, rfl⟩ := dispatched.unique ran
  constructor
  · rintro exists' ⟨lookup, bare⟩
    have none : (bodyOf world.incoming).readRbytes = 0 := by
      simp only [bodyOf, expectedBody, lookup, bare, Nat.sub_self]
    rw [(place.bare none).1] at exists'
    rcases exists'.assigned with header | scratch | free
    · exact Region.noConfusion (congrArg Ptr.region header)
    · exact Region.noConfusion (congrArg Ptr.region scratch)
    · exact Region.noConfusion (congrArg Ptr.region free)
  · intro named
    have nonempty := bodyOf_nonempty reads acceptable.header named
    have holds := room nonempty
    rw [Ptr.Holds] at holds
    refine ⟨?_, (slice_congr delivered.body).trans (slice_ofList acceptable.body),
      fun size structure' => ?_,
      fun lookup => ⟨(bodyOf world.incoming).readRbytes, ?_, ?_⟩⟩
    · rcases delivered.place nonempty with header | target
      · exact Or.inl header
      · exact Or.inr (target ▸ bodyTarget_place)
    · have enough := bodyStructure_le structure'
      refine ⟨enough, ?_⟩
      show rbytesBuf.offset + size ≤ mem.size rbytesBuf.region
      omega
    · rw [bodyOf_lookup lookup, if_pos rfl] at holds
      exact holds
    · have zero := delivered.zero nonempty (bodyOf_lookup lookup)
      exact congrArg (fun byte => [byte]) ((congrArg _ (Nat.add_zero _)).trans zero)

end Dispatching

/-! ### Two lookups -/

/-- A message that arrives in a fresh slot. -/
def arriving (message : List UInt8) : World :=
  SlotState.fresh.world ⟨message, ⟨4096, ofList [], 0⟩, Kernel.full, ofList []⟩

/-- A `LOOKUP` of `"volume"` finds its name. -/
theorem lookup_name_exists :
    ∃ rbytesBuf before, Dispatches Kernel.full FuseRing.small
      (arriving (sessionMessage .lookup 7 1 (volumeName ++ [0])))
        Opcode.lookup.code rbytesBuf before ∧
      BodyExists ⟨0⟩ (sessionMessage .lookup 7 1 (volumeName ++ [0])) rbytesBuf before.mem := by
  have idle : (arriving (sessionMessage .lookup 7 1 (volumeName ++ [0]))).Idle :=
    SlotState.world_idle _ _
  have acceptable : Acceptable FuseRing.small (sessionMessage .lookup 7 1 (volumeName ++ [0])) :=
    ⟨by decide, by decide, by decide, fun _ _ => by decide⟩
  rcases exec_queueFuseReadWith_placed Kernel.full FuseRing.small idle rfl with
    ⟨count, rbytesBuf, mem, events, -, -, -, -, -, ran⟩ | ⟨after, -, -, -, unprompt⟩
  · have named : ¬ NamelessLookup (sessionMessage .lookup 7 1 (volumeName ++ [0])) :=
      fun nameless => absurd nameless.2 (by decide)
    exact ⟨rbytesBuf, _, ran, (dispatched_body_exists idle rfl ran (by decide)).mpr named⟩
  · exact absurd ⟨Kernel.full_prompt, acceptable⟩ unprompt

/-- **A `LOOKUP` without a name is dispatched with a pointer nobody assigned.** -/
theorem nameless_lookup_dispatched :
    ∃ rbytesBuf before,
      Dispatches Kernel.full FuseRing.small
        (arriving (sessionMessage .lookup 7 1 [])) Opcode.lookup.code rbytesBuf before ∧
        rbytesBuf = FuseIo.wild ⟨0⟩ ∧
        ¬ BodyExists ⟨0⟩ (sessionMessage .lookup 7 1 []) rbytesBuf before.mem := by
  have idle : (arriving (sessionMessage .lookup 7 1 [])).Idle := SlotState.world_idle _ _
  have acceptable : Acceptable FuseRing.small (sessionMessage .lookup 7 1 []) :=
    ⟨by decide, by decide, by decide, fun _ _ => by decide⟩
  rcases exec_queueFuseReadWith_placed Kernel.full FuseRing.small idle rfl with
    ⟨count, rbytesBuf, mem, events, -, place, -, -, -, ran⟩ | ⟨after, -, -, -, unprompt⟩
  · have wild : rbytesBuf = FuseIo.wild ⟨0⟩ := (place.bare (by decide)).1
    refine ⟨rbytesBuf, _, ran, wild, fun found => ?_⟩
    rw [wild] at found
    exact absurd found.assigned (by decide)
  · exact absurd ⟨Kernel.full_prompt, acceptable⟩ unprompt

end Fuseuring
