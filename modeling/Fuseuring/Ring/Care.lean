/-
**What the coroutines take care of, whatever the ring does.**

`care` asks less of a coroutine than the discipline does, and nothing of the ring: a
`get_sqe` may be answered with `nullptr` whenever no entry is reserved. What it comes to is

* the slot that is given back is the one that was taken, and a coroutine waits
  only while it has one;
* a null entry is used, if at all, by the operation behind the `get_sqe()` of the loop that
  completes a short header; it is never awaited.

That loop is the one place where the contract trusts a `get_sqe` that no earlier one reserved
an entry for.
-/

import Fuseuring.Ring.System
import Fuseuring.Library.Places

namespace Fuseuring

open Interaction

/-- What a coroutine relies on: its slot, the entries that are sure to be free
for it, and whether the last operation was a trusted `get_sqe()` that gave up. -/
structure Grip where
  fuseIo : Option FuseIo
  reserved : Nat
  missed : Bool

namespace Grip

/-- A slot, and nothing reserved. -/
def on (fuseIo : FuseIo) : Grip := ⟨some fuseIo, 0, false⟩

/-- A coroutine before its first operation, and behind its last. -/
def none : Grip := ⟨Option.none, 0, false⟩

/-- An operation that takes no entry. -/
def next (grip : Grip) : Grip := { grip with missed := false }

end Grip

/-- What may be done, and what it may be answered with. Only behind a trusted `get_sqe()` may a
null entry be used. -/
def Grip.Allows (trusting : Bool) : (op : Effect) → Grip → (op.Answer → Grip → Prop) → Prop
  | .getFuseIo, grip, post => grip.fuseIo = Option.none ∧ ∀ fuseIo, post fuseIo (Grip.on fuseIo)
  | .releaseFuseIo fuseIo, grip, post => grip.fuseIo = some fuseIo ∧ post () Grip.none
  | .load _, grip, post => ∀ mem, post mem grip.next
  | .store _ _, grip, post => post () grip.next
  | .getSqe peek, grip, post =>
      if 0 < grip.reserved then
        peek = 1 ∧ ∀ index, post (some index)
          { grip with reserved := grip.reserved - 1, missed := false }
      else post Option.none { grip with missed := trusting && decide (peek ≤ 1) } ∧
        ∀ index, post (some index) { grip with reserved := peek - 1, missed := false }
  | .prep Option.none _, grip, _ => grip.missed = true
  | .prep (some _) _, grip, post => post () grip.next
  | .complete refs, grip, post =>
      Option.none ∉ refs ∧ ∃ fuseIo, grip.fuseIo = some fuseIo ∧
        ∀ results, post results (Grip.on fuseIo)
  | .setLastRc _, grip, post => post () grip.next

/-- **The contract.** -/
def care (trusting : Bool) : Contract coroutines Grip where
  allows := Grip.Allows trusting
  returns := fun _ => True
  mono := by
    intro op grip post post' weaker allowed
    cases op with
    | getFuseIo => exact ⟨allowed.1, fun fuseIo => weaker _ _ (allowed.2 fuseIo)⟩
    | releaseFuseIo fuseIo => exact ⟨allowed.1, weaker _ _ allowed.2⟩
    | load fuseIo => exact fun mem => weaker _ _ (allowed mem)
    | store fuseIo mem => exact weaker _ _ allowed
    | getSqe peek =>
      simp only [Grip.Allows] at allowed ⊢
      split_ifs at allowed ⊢ with reserved
      · exact ⟨allowed.1, fun index => weaker _ _ (allowed.2 index)⟩
      · exact ⟨weaker _ _ allowed.1, fun index => weaker _ _ (allowed.2 index)⟩
    | prep ref entry =>
      cases ref with
      | none => exact allowed
      | some index => exact weaker _ _ allowed
    | complete refs =>
      obtain ⟨all, fuseIo, slot, holds⟩ := allowed
      exact ⟨all, fuseIo, slot, fun results => weaker _ _ (holds results)⟩
    | setLastRc rc => exact weaker _ _ allowed

/-- The loop that completes a short header, before its `get_sqe()`. -/
def headerLoop : Place coroutines where
  here := fun program => ∃ fuseIo initRead rest, program = readHeaderLoop fuseIo initRead >>= rest
  bind := by
    rintro α β program next ⟨fuseIo, initRead, rest, rfl⟩
    exact ⟨fuseIo, initRead, fun read => rest read >>= next, Program.bind_assoc _ rest next⟩

/-- **The terms of the coroutines**: no trust but in that loop. -/
def cares : Terms coroutines Grip := ⟨care false, headerLoop, care true⟩

/-- The last frame returns without a slot. -/
def Grip.Ended (grip : Grip) : Prop := grip.fuseIo = Option.none

/-- A coroutine that still has its slot. -/
def Grip.Has (fuseIo : FuseIo) (grip : Grip) : Prop := grip.fuseIo = some fuseIo

/-- Nothing is reserved, and the slot is still there. -/
structure Grip.Rests (fuseIo : FuseIo) (grip : Grip) : Prop where
  has : grip.Has fuseIo
  reserved : grip.reserved = 0

/-! ### The operations one by one -/

section Operations

open Program

variable {α : Type} {fuseIo : FuseIo} {grip : Grip} {post : α → Grip → Prop}

theorem care_loadMem {slot : FuseIo} {next : Mem → Coro α}
    (rest : ∀ mem, wpAt cares (next mem) grip.next post) :
    wpAt cares (loadMem slot >>= next) grip post := by
  exact wpAt_ask_bind rest

theorem care_storeMem {slot : FuseIo} {next : Unit → Coro α} {mem : Mem}
    (rest : wpAt cares (next ()) grip.next post) :
    wpAt cares (storeMem slot mem >>= next) grip post :=
  wpAt_ask_bind rest

/-- A `get_sqe` that may give up. -/
theorem care_getSqe {next : SqeRef → Coro α} {peek : Nat} (unreserved : grip.reserved = 0)
    (missing : wpAt cares (next Option.none) grip.next post)
    (taken : ∀ index, wpAt cares (next (some index))
      { grip with reserved := peek - 1, missed := false } post) :
    wpAt cares (getSqe peek >>= next) grip post := by
  have allowed : Grip.Allows false (.getSqe peek) grip fun answer after => wpAt cares
      (next answer) after post := by
    rw [Grip.Allows, if_neg (by omega), Bool.false_and]
    exact ⟨missing, taken⟩
  exact wpAt_ask_bind allowed

/-- A `get_sqe` for a reserved entry. -/
theorem care_getSqe_reserved {next : SqeRef → Coro α} {reserved : Nat} {missed : Bool}
    (taken : ∀ index, wpAt cares (next (some index)) ⟨some fuseIo, reserved, false⟩ post) :
    wpAt cares (getSqe 1 >>= next) ⟨some fuseIo, reserved + 1, missed⟩ post := by
  have allowed : Grip.Allows false (.getSqe 1) ⟨some fuseIo, reserved + 1, missed⟩
      fun answer after => wpAt cares (next answer) after post := by
    rw [Grip.Allows, if_pos (Nat.succ_pos reserved)]
    exact ⟨rfl, taken⟩
  exact wpAt_ask_bind allowed

theorem care_prep {next : Unit → Coro α} {index : Nat} {operation : Operation} {flag : Link}
    (rest : wpAt cares (next ()) grip.next post) :
    wpAt cares (prep (some index) operation flag >>= next) grip post :=
  wpAt_ask_bind rest

/-- The `get_sqe()` of the loop that completes a short header, in any program that begins so:
its null entry is used. -/
theorem care_getSqe_trusted {next : SqeRef → Coro α}
    (here : headerLoop.here (getSqe 1 >>= next)) (unreserved : grip.reserved = 0)
    (missing : wpAt cares (next Option.none) { grip with missed := true } post)
    (taken : ∀ index, wpAt cares (next (some index))
      { grip with reserved := 0, missed := false } post) :
    wpAt cares (getSqe 1 >>= next) grip post := by
  have allowed : Grip.Allows true (.getSqe 1) grip fun answer after => wpAt cares
      (next answer) after post := by
    rw [Grip.Allows, if_neg (by omega)]
    exact ⟨missing, taken⟩
  exact wpAt_here here allowed

/-- A null entry that is used. -/
theorem care_prep_none {next : Unit → Coro α} {operation : Operation} {flag : Link}
    (missed : grip.missed = true) :
    wpAt cares (prep Option.none operation flag >>= next) grip post :=
  wpAt_ask_bind missed

theorem care_complete {next : List Int → Coro α} {refs : List SqeRef} (all : Option.none ∉ refs)
    (has : grip.Has fuseIo)
    (rest : ∀ results, wpAt cares (next results) (.on fuseIo) post) :
    wpAt cares (complete refs >>= next) grip post :=
  wpAt_ask_bind ⟨all, fuseIo, has, rest⟩

/-- One entry. -/
theorem care_one {operation : Operation} {flag : Link} {index : Nat} {next : Int → Coro α}
    (has : grip.Has fuseIo)
    (rest : ∀ rc, wpAt cares (next rc) (.on fuseIo) post) :
    wpAt cares (do
      prep (some index) operation flag
      let rc ← completeOne (some index)
      next rc) grip post := by
  have all : Option.none ∉ [(some index : SqeRef)] := by simp
  exact care_prep (care_complete all has fun results => rest _)

/-- The last entry of two, and the await. -/
theorem care_last {operation : Operation} {flag : Link} {index index' : Nat}
    {next : Int × Int → Coro α}
    (has : grip.Has fuseIo) (rest : ∀ rcs, wpAt cares (next rcs) (.on fuseIo) post) :
    wpAt cares (do
      prep (some index') operation flag
      let rcs ← completePair (some index) (some index')
      next rcs) grip post := by
  have all : Option.none ∉ [(some index : SqeRef), some index'] := by simp
  exact care_prep (care_complete all has fun results => rest _)

/-- Three entries. -/
theorem care_triple {first second third : Operation} {next : List Int → Coro α} {missing : Coro α}
    (rests : grip.Rests fuseIo) (refused : wpAt cares missing grip.next post)
    (rest : ∀ rcs, wpAt cares (next rcs) (.on fuseIo) post) :
    wpAt cares (do
      let sqe1 ← getSqe 3
      if sqe1 = Option.none then missing
      else
        prep sqe1 first .link
        let sqe2 ← getSqe 1
        if sqe2 = Option.none then missing
        else
          prep sqe2 second .link
          let sqe3 ← getSqe 1
          if sqe3 = Option.none then missing
          else
            prep sqe3 third .none
            let rcs ← complete [sqe1, sqe2, sqe3]
            next rcs) grip post := by
  obtain ⟨slot, reserved, missed⟩ := grip
  obtain rfl : slot = some fuseIo := rests.has
  refine care_getSqe rests.reserved refused fun index => care_prep ?_
  refine care_getSqe_reserved fun index' => care_prep ?_
  refine care_getSqe_reserved fun index'' => care_prep ?_
  exact care_complete (by simp) rfl fun results => rest _

end Operations

/-! ### The reply functions and the handlers -/

section Functions

open Program

variable {fuseIo : FuseIo} {grip : Grip}

/-- A call whose coroutine keeps the slot. -/
theorem care_awaitInt {function : Function} {task : Coro Int} {post : Grip → Prop}
    (holds : wpAt cares task grip fun _ => post) :
    wpAt cares (awaitInt function task) grip fun _ => post := by
  rw [awaitInt, wpAt_await]
  exact wpAt_mono task (fun _ _ held => ⟨trivial, held⟩) holds

theorem care_sendReply (rests : grip.Rests fuseIo) :
    wpAt cares (sendReply fuseIo) grip fun _ after => after.Has fuseIo := by
  obtain ⟨slot, reserved, missed⟩ := grip
  obtain rfl : slot = some fuseIo := rests.has
  refine care_getSqe rests.reserved (wpAt_pure rfl) fun index =>
    care_loadMem fun mem => care_prep ?_
  refine care_getSqe_reserved fun index' => care_last rfl fun rcs => ?_
  exact wpAt_ite (fun _ => wpAt_pure rfl) fun _ => wpAt_pure rfl

theorem care_sendReplyBuf (buf : List UInt8) (rests : grip.Rests fuseIo) :
    wpAt cares (sendReplyBuf fuseIo buf) grip fun _ after => after.Has fuseIo := by
  obtain ⟨slot, reserved, missed⟩ := grip
  obtain rfl : slot = some fuseIo := rests.has
  refine care_getSqe rests.reserved (wpAt_pure rfl) fun index => care_prep ?_
  refine care_getSqe_reserved fun index' => care_last rfl fun rcs => ?_
  exact wpAt_ite (fun _ => wpAt_pure rfl) fun _ => wpAt_pure rfl

/-- An operation without an entry leaves everything reserved. -/
theorem Grip.Rests.next (rests : grip.Rests fuseIo) : grip.next.Rests fuseIo :=
  ⟨rests.has, rests.reserved⟩

theorem care_replyWith (build : Mem → Mem) (rests : grip.Rests fuseIo) :
    wpAt cares (replyWith fuseIo build) grip fun _ after => after.Has fuseIo :=
  care_loadMem fun _ => care_storeMem (care_awaitInt (care_sendReply rests.next.next))

theorem care_handleRead (ring : FuseRing) (rbytesBuf : Ptr) (rests : grip.Rests fuseIo) :
    wpAt cares (handleRead ring fuseIo rbytesBuf) grip fun _ after => after.Has fuseIo := by
  refine care_loadMem fun mem => wpAt_ite (fun _ => care_replyWith _ rests.next)
    fun _ => care_storeMem ?_
  refine care_triple rests.next.next (wpAt_pure rests.has) fun rcs => ?_
  split_ifs <;> exact wpAt_pure rfl

theorem care_handleWrite (rbytesBuf : Ptr) (rests : grip.Rests fuseIo) :
    wpAt cares (handleWrite fuseIo rbytesBuf) grip fun _ after => after.Has fuseIo := by
  refine care_loadMem fun mem => wpAt_ite (fun _ => care_replyWith _ rests.next) fun _ => ?_
  refine wpAt_ite (fun _ => care_replyWith _ rests.next) fun _ => care_storeMem ?_
  refine care_triple rests.next.next (wpAt_pure rests.has) fun rcs => ?_
  refine wpAt_ite (fun _ => care_replyWith _ ⟨rfl, rfl⟩) fun _ => wpAt_ite
    (fun _ => care_replyWith _ ⟨rfl, rfl⟩) fun _ => ?_
  exact wpAt_ite (fun _ => wpAt_pure rfl) fun _ => wpAt_pure rfl

theorem care_dispatch (ring : FuseRing) (opcode : Nat) (rbytesBuf : Ptr)
    (rests : grip.Rests fuseIo) :
    wpAt cares (dispatch ring fuseIo opcode rbytesBuf) grip
      fun _ after => after.Has fuseIo := by
  unfold dispatch
  split
  · exact care_awaitInt (care_loadMem fun _ => care_awaitInt (care_replyWith _ rests.next))
  · exact care_awaitInt (care_loadMem fun _ => care_awaitInt (care_replyWith _ rests.next))
  · exact care_awaitInt (care_replyWith _ rests)
  · exact care_awaitInt (care_loadMem fun _ => care_awaitInt (care_sendReplyBuf _ rests.next))
  · exact care_awaitInt (care_replyWith _ rests)
  · exact care_awaitInt (care_replyWith _ rests)
  · exact care_awaitInt (care_replyWith _ rests)
  · exact care_awaitInt (care_handleRead ring rbytesBuf rests)
  · exact care_awaitInt (care_replyWith _ rests)
  · exact care_awaitInt (care_handleWrite rbytesBuf rests)
  · exact care_awaitInt (care_replyWith _ rests)

/-! ### Reading a request -/

/-- What an optional result says of the grip behind it. -/
def Grip.Carries {β : Type} (fuseIo : FuseIo) (result : Option β) (after : Grip) : Prop :=
  after.Has fuseIo ∧ (result ≠ Option.none → after.reserved = 0)

theorem Grip.carries_none {β : Type} {after : Grip} (has : after.Has fuseIo) :
    Grip.Carries fuseIo (Option.none : Option β) after :=
  ⟨has, fun impossible => absurd rfl impossible⟩

theorem Grip.Rests.carries {β : Type} (result : Option β) (rests : grip.Rests fuseIo) :
    Grip.Carries fuseIo result grip :=
  ⟨rests.has, fun _ => rests.reserved⟩

theorem Grip.Carries.rests {β : Type} {result : β} {after : Grip}
    (carries : Grip.Carries fuseIo (some result) after) :
    after.Rests fuseIo := ⟨carries.1, carries.2 (Option.some_ne_none _)⟩

theorem Grip.rests_on (fuseIo : FuseIo) : (Grip.on fuseIo).Rests fuseIo := ⟨rfl, rfl⟩

/-- The loop of `read_rbytes`, by the bytes that are missing. -/
theorem care_readRbytesLoop (target : Ptr) (rbytes missing : Nat) :
    ∀ readDone grip, rbytes - readDone = missing → Grip.Rests fuseIo grip →
      wpAt cares (readRbytesLoop fuseIo target rbytes readDone) grip
        fun complete after => after.Has fuseIo ∧ (complete = true → after.Rests fuseIo) := by
  induction missing using Nat.strong_induction_on with
  | _ missing ih =>
    intro readDone grip left rests
    rw [readRbytesLoop]
    refine care_getSqe rests.reserved
      (wpAt_pure ⟨rests.has, fun impossible => absurd impossible Bool.false_ne_true⟩)
      fun index => care_one rests.has fun rc => ?_
    split
    case isTrue => exact wpAt_pure ⟨rfl, fun impossible => absurd impossible Bool.false_ne_true⟩
    case isFalse positive =>
      split
      case isTrue more =>
        exact ih (rbytes - (readDone + rc.toNat)) (by omega) _ _ rfl (Grip.rests_on fuseIo)
      case isFalse => exact wpAt_pure ⟨rfl, fun _ => Grip.rests_on fuseIo⟩

theorem care_readRbytes (rbytes : Nat) (addZero : Bool) (initRead : Nat)
    (rests : grip.Rests fuseIo) :
    wpAt cares (readRbytes fuseIo rbytes addZero initRead) grip
      fun buf after => Grip.Carries fuseIo buf after := by
  unfold readRbytes
  split
  · exact wpAt_pure (rests.carries _)
  dsimp only
  split
  · exact wpAt_pure (rests.carries _)
  refine care_loadMem fun mem => care_storeMem ?_
  have ending : ∀ (target : Ptr) (complete : Bool) (after : Grip),
      after.Has fuseIo ∧ (complete = true → after.Rests fuseIo) →
      wpAt cares (if complete then do
          if addZero then
            let mem ← loadMem fuseIo
            storeMem fuseIo (mem.copy (target.add rbytes) [0])
          return some target
        else return none) after fun buf after => Grip.Carries fuseIo buf after := by
    intro target complete after holds
    cases complete with
    | false => exact wpAt_pure (Grip.carries_none holds.1)
    | true =>
      have kept := holds.2 rfl
      cases addZero with
      | false => exact wpAt_pure (kept.carries _)
      | true => exact care_loadMem fun mem => care_storeMem (wpAt_pure (kept.next.next.carries _))
  split
  · exact wpAt_seq _ (care_readRbytesLoop _ rbytes _ initRead _ rfl rests.next.next) (ending _)
  · exact ending _ true _ ⟨rests.has, fun _ => rests.next.next⟩

/-- The loop that completes a short header, by the bytes that are missing: every round of it is
the trusted place. -/
theorem care_readHeaderLoop (missing : Nat) :
    ∀ initRead grip, InHeader.size - initRead = missing → Grip.Rests fuseIo grip →
      wpAt cares (readHeaderLoop fuseIo initRead) grip
        fun read after => Grip.Carries fuseIo read after := by
  induction missing using Nat.strong_induction_on with
  | _ missing ih =>
    intro initRead grip left rests
    have here : headerLoop.here (readHeaderLoop fuseIo initRead) :=
      ⟨fuseIo, initRead, .ret, (Program.bind_ret_right _).symm⟩
    rw [readHeaderLoop] at here ⊢
    refine care_getSqe_trusted here rests.reserved (care_prep_none rfl)
      fun index => care_one rests.has fun rc => ?_
    split
    case isTrue => exact wpAt_pure (Grip.carries_none rfl)
    case isFalse positive =>
      split
      case isTrue more =>
        exact ih (InHeader.size - (initRead + rc.toNat)) (by omega) _ _ rfl (Grip.rests_on fuseIo)
      case isFalse => exact wpAt_pure ((Grip.rests_on fuseIo).carries _)

theorem care_readHeader (initRead : Int) (rests : grip.Rests fuseIo) :
    wpAt cares (readHeader fuseIo initRead) grip
      fun read after => Grip.Carries fuseIo read after := by
  unfold readHeader
  exact wpAt_ite (fun _ => care_readHeaderLoop _ _ _ rfl rests)
    fun _ => wpAt_pure (rests.carries _)

theorem care_awaitPointer {function : Function} {task : Coro (Option Ptr)}
    {post : Option Ptr → Grip → Prop}
    (holds : wpAt cares task grip post) :
    wpAt cares (awaitPointer function task) grip post := by
  rw [awaitPointer, wpAt_await]
  exact wpAt_mono task (fun _ _ held => ⟨trivial, held⟩) holds

theorem care_serveRequest (ring : FuseRing) (rbytes initRead : Nat) (rests : grip.Rests fuseIo) :
    wpAt cares (serveRequest ring fuseIo rbytes initRead) grip
      fun _ after => after.Has fuseIo := by
  refine care_loadMem fun mem => ?_
  dsimp only
  split
  · split
    · exact wpAt_pure rests.has
    · refine wpAt_seq (Grip.Carries fuseIo) (care_awaitPointer (care_readRbytes _ _ _ rests.next))
        fun buf after holds => ?_
      cases buf with
      | none => exact wpAt_pure holds.1
      | some rbytesBuf =>
        exact care_loadMem fun mem => care_dispatch ring _ rbytesBuf holds.rests.next
  · exact care_dispatch ring _ _ rests.next

/-- Behind a header: the coroutine ends, or serves the request. -/
theorem care_behindHeader (ring : FuseRing) {rbytes : Nat} {rest : Option Nat → Coro Int}
    (ends : rest none = pure (-1)) (serves : ∀ initRead, rest
      (some initRead) = serveRequest ring fuseIo rbytes initRead) :
    ∀ (read : Option Nat) (after : Grip), Grip.Carries fuseIo read after →
      wpAt cares (rest read) after fun _ after => after.Has fuseIo := by
  intro read after holds
  cases read with
  | none =>
    rw [ends]
    exact wpAt_pure holds.1
  | some initRead =>
    rw [serves]
    exact care_serveRequest ring _ _ holds.rests

/-- `queue_fuse_read` with its slot. Where the first `get_sqe` gave up, the
second one may still take an entry. -/
theorem care_queueFuseReadBody (ring : FuseRing) :
    wpAt cares (queueFuseReadBody ring fuseIo) (.on fuseIo)
    fun _ after => after.Has fuseIo := by
  refine care_getSqe rfl ?_ fun index => ?_
  · exact care_getSqe rfl (wpAt_pure rfl) fun index' => wpAt_ite (fun _ => wpAt_pure rfl)
      fun both => absurd (Or.inl rfl) both
  refine care_getSqe_reserved fun index' => ?_
  rw [if_neg (by simp)]
  refine care_prep (care_last rfl fun rcs => ?_)
  dsimp only
  split
  · exact wpAt_pure rfl
  exact wpAt_seq _ (care_readHeader _ (Grip.rests_on fuseIo))
    (care_behindHeader ring rfl fun _ => rfl)

theorem care_queueFuseRead (ring : FuseRing) :
    wpAt cares (queueFuseRead ring) .none fun _ after => after.Ended := by
  have body : ∀ fuseIo, wpAt cares (do
      let rc ← queueFuseReadBody ring fuseIo
      releaseFuseIo fuseIo
      pure rc) (.on fuseIo) fun _ after => after.Ended := by
    intro fuseIo
    refine wpAt_seq (fun _ after => Grip.Has fuseIo after) (care_queueFuseReadBody ring)
      fun rc after has => ?_
    exact wpAt_ask_bind ⟨has, wpAt_pure rfl⟩
  exact wpAt_ask_bind ⟨rfl, body⟩

/-- **The care of `queue_read_set_rc`.** -/
theorem care_queueReadSetRc (ring : FuseRing) :
    wpAt cares (queueReadSetRc ring) .none fun _ after => after.Ended := by
  refine wpAt_seq (fun _ after => after.Ended) (care_awaitInt (care_queueFuseRead ring))
    fun rc after ended => ?_
  split
  · exact wpAt_ask_bind (wpAt_pure ended)
  · exact wpAt_pure ended

end Functions

end Fuseuring
