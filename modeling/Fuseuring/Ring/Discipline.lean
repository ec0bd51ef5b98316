/-
**How the coroutines use the ring.**

A `Hand` is what a running coroutine has in hand: its slot, the entries it took
and has not awaited, and how many entries it may still take. `discipline` says
how each operation may be used; what it comes to is

* entries are taken only with a slot and with none in hand, one chain of a stage at a time;
* every entry of a chain is prepared, for the coroutine's own slot, and awaited with the others;
* a coroutine returns with nothing in hand.

`wp_queueReadSetRc` puts the specifications of all functions together. What the
discipline forbids is an entry taken behind a `get_sqe` that gave up.
-/

import Fuseuring.Ring.System

namespace Fuseuring

open Interaction

/-! ### The slots an operation names -/

/-- The slot of a registered file. -/
def Fd.fuseIos : Fd → List FuseIo
  | .backing => []
  | .fuse fuseIo => [fuseIo]
  | .pipe0 fuseIo => [fuseIo]
  | .pipe1 fuseIo => [fuseIo]

/-- The slots whose pipe, session or buffers an operation uses. -/
def Operation.fuseIos : Operation → List FuseIo
  | .splice fdIn _ fdOut _ _ => fdIn.fuseIos ++ fdOut.fuseIos
  | .read fd buf _ => buf.fuseIo :: fd.fuseIos
  | .writeFixed fd buf _ => buf.fuseIo :: fd.fuseIos
  | .write fd _ => fd.fuseIos

/-! ### The discipline -/

/-- How far a request is: no slot yet, about to read its message, about to be
answered, a write that may still be answered with an error, and done. -/
inductive Stage
  | entering
  | fresh
  | reading
  | writing
  | served
deriving DecidableEq, Repr

namespace Stage

/-- The chain that may be taken at a stage, and the stage behind it. -/
def take : Stage → Nat → Option Stage
  | .fresh, 2 => some .reading
  | .reading, 1 => some .reading
  | .reading, 2 => some .served
  | .reading, 3 => some .writing
  | .writing, 2 => some .served
  | _, _ => none

/-- The longest chain that may be taken at once behind the first one. -/
def pot : Stage → Nat
  | .entering => 0
  | .fresh => 0
  | .reading => 3
  | .writing => 2
  | .served => 0

/-- A chain of this length may lead to the stage: no chain is longer than three
entries, and none together with the longest that may follow it longer than five. -/
structure Follows (stage : Stage) (count : Nat) : Prop where
  three : count ≤ 3
  five : count + stage.pot ≤ 5
  entered : stage ≠ .entering
  begun : stage ≠ .fresh

theorem take_follows {stage stage' : Stage} {peek : Nat} (taken : stage.take peek = some stage') :
    1 ≤ peek ∧ stage'.Follows peek := by
  unfold take at taken
  split at taken
  case h_6 => cases taken
  all_goals
    obtain rfl := Option.some.inj taken
    exact ⟨by decide, by decide, by decide, by decide, by decide⟩

end Stage

/-- What a running coroutine has in hand. `reserved` is how many entries are sure to be free
for it, `gaveUp` whether a `get_sqe` was answered with `nullptr` since it last ran on. -/
structure Hand where
  fuseIo : Option FuseIo
  own : List (Nat × Option Sqe)
  reserved : Nat
  gaveUp : Bool
  stage : Stage

namespace Hand

/-- A slot at a stage, and nothing else. -/
def holding (fuseIo : FuseIo) (stage : Stage) : Hand := ⟨some fuseIo, [], 0, false, stage⟩

/-- A coroutine before its first operation. -/
def empty : Hand := ⟨none, [], 0, false, .entering⟩

/-- No entries in hand. -/
structure Idle (hand : Hand) : Prop where
  own : hand.own = []
  reserved : hand.reserved = 0

/-- Only this slot in hand. -/
structure Holds (fuseIo : FuseIo) (hand : Hand) : Prop extends hand.Idle where
  slot : hand.fuseIo = some fuseIo

/-- An entry is prepared. -/
def prepare (hand : Hand) (index : Nat) (sqe : Sqe) : Hand :=
  { hand with
    own := hand.own.map fun entry => if entry.1 = index then (index, some sqe) else entry }

theorem holds_holding (fuseIo : FuseIo) (stage : Stage) : (holding fuseIo stage).Holds fuseIo :=
  ⟨⟨rfl, rfl⟩, rfl⟩

end Hand

/-- What may be done with what is in hand. -/
def Hand.Allows : (op : Effect) → Hand → (op.Answer → Hand → Prop) → Prop
  | .getFuseIo, hand, post =>
      hand.stage = .entering ∧ hand.fuseIo = none ∧ hand.Idle ∧
      ∀ fuseIo, post fuseIo { hand with fuseIo := some fuseIo, stage := .fresh }
  | .releaseFuseIo fuseIo, hand, post =>
      hand.Holds fuseIo ∧ post () { hand with fuseIo := none, stage := .served }
  | .load fuseIo, hand, post => hand.fuseIo = some fuseIo ∧ ∀ mem, post mem hand
  | .store fuseIo _, hand, post => hand.fuseIo = some fuseIo ∧ post () hand
  | .getSqe peek, hand, post =>
      if 0 < hand.reserved then
        peek = 1 ∧ ∀ index, index ∉ hand.own.map Prod.fst →
          post (some index)
            { hand with own := hand.own ++ [(index, none)], reserved := hand.reserved - 1 }
      else hand.own = [] ∧ hand.fuseIo ≠ none ∧ post none { hand with gaveUp := true } ∧
        (hand.gaveUp = false → ∃ stage, hand.stage.take peek = some stage ∧ ∀ index,
          post (some index)
            { hand with own := [(index, none)], reserved := peek - 1, stage := stage })
  | .prep none _, hand, _ => hand.gaveUp = true
  | .prep (some index) entry, hand, post =>
      index ∈ hand.own.map Prod.fst ∧
        (∀ fuseIo ∈ entry.operation.fuseIos, hand.fuseIo = some fuseIo) ∧
      post () (hand.prepare index entry)
  | .complete refs, hand, post =>
      refs = hand.own.map (fun entry => some entry.1) ∧ hand.own ≠ [] ∧ hand.fuseIo ≠ none ∧
      (∀ entry ∈ hand.own, entry.2 ≠ none) ∧ hand.reserved = 0 ∧
      ∀ results, post results { hand with own := [], gaveUp := false }
  | .setLastRc _, hand, post => hand.fuseIo = none ∧ post () hand

/-- **The discipline.** -/
def discipline : Contract coroutines Hand where
  allows := Hand.Allows
  returns := Hand.Idle
  mono := by
    intro op hand post post' weaker allowed
    cases op with
    | getFuseIo =>
      obtain ⟨stage, slot, idle, holds⟩ := allowed
      exact ⟨stage, slot, idle, fun fuseIo => weaker _ _ (holds fuseIo)⟩
    | releaseFuseIo fuseIo => exact ⟨allowed.1, weaker _ _ allowed.2⟩
    | load fuseIo => exact ⟨allowed.1, fun mem => weaker _ _ (allowed.2 mem)⟩
    | store fuseIo mem => exact ⟨allowed.1, weaker _ _ allowed.2⟩
    | getSqe peek =>
      simp only [Hand.Allows] at allowed ⊢
      split_ifs at allowed ⊢ with reserved
      · exact ⟨allowed.1, fun index other => weaker _ _ (allowed.2 index other)⟩
      · obtain ⟨own, slot, missing, taken⟩ := allowed
        refine ⟨own, slot, weaker _ _ missing, fun first => ?_⟩
        obtain ⟨stage, may, holds⟩ := taken first
        exact ⟨stage, may, fun index => weaker _ _ (holds index)⟩
    | prep ref entry =>
      cases ref with
      | none => exact allowed
      | some index => exact ⟨allowed.1, allowed.2.1, weaker _ _ allowed.2.2⟩
    | complete refs =>
      obtain ⟨all, nonempty, slot, prepared, reserved, holds⟩ := allowed
      exact ⟨all, nonempty, slot, prepared, reserved, fun results => weaker _ _ (holds results)⟩
    | setLastRc rc => exact ⟨allowed.1, weaker _ _ allowed.2⟩

/-- The last frame returns without a slot. -/
def Hand.Ended (hand : Hand) : Prop := hand.fuseIo = none

/-! ### The operations one by one -/

section Operations

open Program

variable {α : Type} {fuseIo : FuseIo} {hand : Hand} {stage stage' : Stage} {post : α → Hand → Prop}

theorem wp_loadMem {next : Mem → Coro α} (slot : hand.fuseIo = some fuseIo)
    (rest : ∀ mem, wp discipline (next mem) hand post) :
    wp discipline (loadMem fuseIo >>= next) hand post := by
  rw [loadMem, wp_ask_bind]
  exact ⟨slot, rest⟩

theorem wp_storeMem {next : Unit → Coro α} {mem : Mem} (slot : hand.fuseIo = some fuseIo)
    (rest : wp discipline (next ()) hand post) :
    wp discipline (storeMem fuseIo mem >>= next) hand post := by
  rw [storeMem, wp_ask_bind]
  exact ⟨slot, rest⟩

/-- The first entry of a chain. -/
theorem wp_getSqe {next : SqeRef → Coro α} {peek : Nat} (may : stage.take peek = some stage')
    (missing : wp discipline (next none) { Hand.holding fuseIo stage with gaveUp := true } post)
    (taken : ∀ index, wp discipline (next (some index)) ⟨some fuseIo, [(index, none)], peek - 1,
      false, stage'⟩ post) :
    wp discipline (getSqe peek >>= next) (.holding fuseIo stage) post := by
  rw [getSqe, wp_ask_bind]
  exact ⟨rfl, Option.some_ne_none _, missing, fun _ => ⟨stage', may, taken⟩⟩

/-- A further entry of a chain. -/
theorem wp_getSqe_next {next : SqeRef → Coro α} {own : List (Nat × Option Sqe)} {reserved : Nat}
    (taken : ∀ index, index ∉ own.map Prod.fst →
      wp discipline (next (some index)) ⟨some fuseIo, own ++ [(index, none)], reserved,
        false, stage⟩ post) :
    wp discipline (getSqe 1 >>= next) ⟨some fuseIo, own, reserved + 1, false, stage⟩ post := by
  rw [getSqe, wp_ask_bind]
  have allowed : Hand.Allows (.getSqe 1) ⟨some fuseIo, own, reserved + 1, false, stage⟩
      fun answer after => wp discipline (next answer) after post := by
    rw [Hand.Allows, if_pos (Nat.succ_pos reserved)]
    exact ⟨rfl, taken⟩
  exact allowed

/-- A `get_sqe` behind one that gave up. -/
theorem wp_getSqe_again {next : SqeRef → Coro α} {peek : Nat}
    (missing : wp discipline (next none) { Hand.holding fuseIo stage with gaveUp := true } post) :
    wp discipline (getSqe peek >>= next)
      { Hand.holding fuseIo stage with gaveUp := true } post := by
  rw [getSqe, wp_ask_bind]
  exact ⟨rfl, Option.some_ne_none _, missing,
    fun impossible => absurd impossible Bool.false_ne_true.symm⟩

theorem wp_prep {next : Unit → Coro α} {index : Nat} {operation : Operation} {flag : Link}
    (own : index ∈ hand.own.map Prod.fst)
    (names : ∀ named ∈ operation.fuseIos, hand.fuseIo = some named)
    (rest : wp discipline (next ()) (hand.prepare index ⟨operation, flag⟩) post) :
    wp discipline (prep (some index) operation flag >>= next) hand post := by
  rw [prep, wp_ask_bind]
  exact ⟨own, names, rest⟩

/-- A null entry that is used ends the program. -/
theorem wp_prep_none {next : Unit → Coro α} {operation : Operation} {flag : Link}
    (gaveUp : hand.gaveUp = true) :
    wp discipline (prep none operation flag >>= next) hand post := by
  rw [prep, wp_ask_bind]
  exact gaveUp

theorem wp_releaseFuseIo {next : Unit → Coro α} (holds : hand.Holds fuseIo)
    (rest : wp discipline (next ()) { hand with fuseIo := none, stage := .served } post) :
    wp discipline (releaseFuseIo fuseIo >>= next) hand post := by
  rw [releaseFuseIo, wp_ask_bind]
  exact ⟨holds, rest⟩

theorem wp_setLastRc {next : Unit → Coro α} {rc : Int} (ended : hand.Ended)
    (rest : wp discipline (next ()) hand post) :
    wp discipline (setLastRc rc >>= next) hand post := by
  rw [setLastRc, wp_ask_bind]
  exact ⟨ended, rest⟩

/-- The whole chain is awaited. -/
theorem wp_complete {next : List Int → Coro α} (own : List (Nat × Option Sqe)) (nonempty : own ≠ [])
    (prepared : ∀ entry ∈ own, entry.2 ≠ none)
    (rest : ∀ results, wp discipline (next results) (.holding fuseIo stage) post) :
    wp discipline (complete (own.map fun entry => some entry.1) >>= next)
    ⟨some fuseIo, own, 0, false, stage⟩ post := by
  rw [complete, wp_ask_bind]
  exact ⟨rfl, nonempty, Option.some_ne_none _, prepared, rfl, rest⟩

end Operations

/-! ### Chains -/

section Chains

open Program

variable {α : Type} {fuseIo : FuseIo} {stage stage' : Stage} {post : α → Hand → Prop}

/-- One entry. -/
theorem wp_one {operation : Operation} {index : Nat} {next : Int → Coro α}
    (names : ∀ named ∈ operation.fuseIos, some fuseIo = some named)
    (rest : ∀ rc, wp discipline (next rc) (.holding fuseIo stage) post) :
    wp discipline (do
      prep (some index) operation .none
      let rc ← completeOne (some index)
      next rc) ⟨some fuseIo, [(index, none)], 0, false, stage⟩ post := by
  refine wp_prep List.mem_cons_self names ?_
  rw [Hand.prepare, List.map_singleton, if_pos rfl]
  exact wp_complete [(index, some ⟨operation, .none⟩)] (by simp) (by simp) fun results => rest _

/-- The second entry of two, and the await. -/
theorem wp_last {operation : Operation} {index index' : Nat} {sqe : Sqe} {next : Int × Int → Coro α}
    (different : index ≠ index') (names : ∀ named ∈ operation.fuseIos, some fuseIo = some named)
    (rest : ∀ rcs, wp discipline (next rcs) (.holding fuseIo stage) post) :
    wp discipline (do
      prep (some index') operation .none
      let rcs ← completePair (some index) (some index')
      next rcs) ⟨some fuseIo, [(index, some sqe), (index', none)], 0, false, stage⟩ post := by
  refine wp_prep (by simp) names ?_
  simp only [Hand.prepare, List.map_cons, List.map_nil, if_pos, if_neg different]
  exact wp_complete [(index, some sqe), (index', some ⟨operation, .none⟩)] (by simp) (by simp)
    fun results => rest _

/-- Two entries, both taken before the first is prepared. -/
theorem wp_two {first second : Operation} {index index' : Nat}
    {next : Int × Int → Coro α} {flag : Link}
    (different : index ≠ index') (names : ∀ named ∈ first.fuseIos, some fuseIo = some named)
    (names' : ∀ named ∈ second.fuseIos, some fuseIo = some named)
    (rest : ∀ rcs, wp discipline (next rcs) (.holding fuseIo stage) post) :
    wp discipline (do
      prep (some index) first flag
      prep (some index') second .none
      let rcs ← completePair (some index) (some index')
      next rcs) ⟨some fuseIo, [(index, none), (index', none)], 0, false, stage⟩ post := by
  refine wp_prep List.mem_cons_self names ?_
  simp only [Hand.prepare, List.map_cons, List.map_nil, if_pos, if_neg different.symm]
  exact wp_last different names' rest

/-- Three entries. -/
theorem wp_triple {first second third : Operation} {next : List Int → Coro α} {missing : Coro α}
    (may : stage.take 3 = some stage') (names : ∀ named ∈ first.fuseIos, some fuseIo = some named)
    (names' : ∀ named ∈ second.fuseIos, some fuseIo = some named)
    (names'' : ∀ named ∈ third.fuseIos, some fuseIo = some named)
    (refused : wp discipline missing { Hand.holding fuseIo stage with gaveUp := true } post)
    (rest : ∀ rcs, wp discipline (next rcs) (.holding fuseIo stage') post) :
    wp discipline (do
      let sqe1 ← getSqe 3
      if sqe1 = none then missing
      else
        prep sqe1 first .link
        let sqe2 ← getSqe 1
        if sqe2 = none then missing
        else
          prep sqe2 second .link
          let sqe3 ← getSqe 1
          if sqe3 = none then missing
          else
            prep sqe3 third .none
            let rcs ← complete [sqe1, sqe2, sqe3]
            next rcs) (.holding fuseIo stage) post := by
  refine wp_getSqe may refused fun index => wp_prep List.mem_cons_self names ?_
  rw [Hand.prepare, List.map_singleton, if_pos rfl]
  refine wp_getSqe_next fun index' other => wp_prep (by simp) names' ?_
  have different : index ≠ index' := by simpa [eq_comm] using other
  simp only [Hand.prepare, List.cons_append, List.nil_append, List.map_cons, List.map_nil, if_pos,
    if_neg different]
  refine wp_getSqe_next fun index'' others => wp_prep (by simp) names'' ?_
  obtain ⟨different', different''⟩ : index ≠ index'' ∧
    index' ≠ index'' := by simpa [eq_comm] using others
  simp only [Hand.prepare, List.cons_append, List.nil_append, List.map_cons, List.map_nil, if_pos,
    if_neg different',
    if_neg different'']
  exact wp_complete [(index, some ⟨first, .link⟩), (index', some ⟨second, .link⟩),
    (index'', some ⟨third, .none⟩)]
    (by simp) (by simp) fun results => rest _

end Chains

/-! ### The reply functions and the handlers -/

section Functions

open Program

variable {α : Type} {fuseIo : FuseIo} {stage : Stage}

/-- Giving up a chain leaves nothing in hand. -/
theorem Hand.holds_gaveUp (fuseIo : FuseIo) (stage : Stage) :
    Hand.Holds fuseIo { Hand.holding fuseIo stage with gaveUp := true } := ⟨⟨rfl, rfl⟩, rfl⟩

/-- A call whose coroutine keeps the slot. -/
theorem wp_awaitInt {function : Function} {task : Coro Int} {hand : Hand}
    (holds : wp discipline task hand fun _ after => after.Holds fuseIo) :
    wp discipline (awaitInt function task) hand fun _ after => after.Holds fuseIo := by
  rw [awaitInt, wp_await]
  exact wp_mono task (fun _ _ held => ⟨held.toIdle, held⟩) holds

/-- What an optional result says of the hand behind it: the slot is kept, and a
result leaves everything else as it is. -/
def Hand.Carries {β : Type} (fuseIo : FuseIo) (result : Option β) (after : Hand) : Prop :=
  after.Holds fuseIo ∧ (result ≠ none → after = .holding fuseIo .reading)

theorem Hand.carries_none {β : Type} {after : Hand} (holds : after.Holds fuseIo) :
    Hand.Carries fuseIo (none : Option β) after := ⟨holds, fun impossible => absurd rfl impossible⟩

theorem Hand.carries_holding {β : Type} (result : Option β) :
    Hand.Carries fuseIo result (.holding fuseIo .reading) :=
  ⟨Hand.holds_holding fuseIo _, fun _ => rfl⟩

/-- A verdict on the results. -/
theorem wp_verdict {post : Int → Hand → Prop} {hand : Hand} {test : Prop}
    [Decidable test] {yes no : Int}
    (holds : ∀ rc, post rc hand) : wp discipline (if test then pure yes else pure no) hand post :=
  wp_ite (fun _ => wp_pure (holds yes)) fun _ => wp_pure (holds no)

theorem wp_awaitPointer {function : Function} {task : Coro (Option Ptr)} {hand : Hand}
    (holds : wp discipline task hand (Hand.Carries fuseIo)) :
    wp discipline (awaitPointer function task) hand (Hand.Carries fuseIo) := by
  rw [awaitPointer, wp_await]
  exact wp_mono task (fun _ _ held => ⟨held.1.toIdle, held⟩) holds

theorem wp_sendReply (may : stage.take 2 = some .served) :
    wp discipline (sendReply fuseIo) (.holding fuseIo stage) fun _ after => after.Holds fuseIo := by
  refine wp_getSqe may (wp_pure (Hand.holds_gaveUp fuseIo stage))
    fun index => wp_loadMem rfl fun mem => ?_
  refine wp_prep List.mem_cons_self (by simp [Operation.fuseIos, Fd.fuseIos, FuseIo.scratchBuf]) ?_
  rw [Hand.prepare, List.map_singleton, if_pos rfl]
  refine wp_getSqe_next fun index' other => ?_
  have different : index ≠ index' := by simpa [eq_comm] using other
  exact wp_last different (by simp [Operation.fuseIos, Fd.fuseIos])
    fun rcs => wp_verdict fun _ => Hand.holds_holding fuseIo .served

theorem wp_sendReplyBuf (buf : List UInt8) (may : stage.take 2 = some .served) :
    wp discipline (sendReplyBuf fuseIo buf) (.holding fuseIo stage)
    fun _ after => after.Holds fuseIo := by
  refine wp_getSqe may (wp_pure (Hand.holds_gaveUp fuseIo stage)) fun index => ?_
  refine wp_prep List.mem_cons_self (by simp [Operation.fuseIos, Fd.fuseIos]) ?_
  rw [Hand.prepare, List.map_singleton, if_pos rfl]
  refine wp_getSqe_next fun index' other => ?_
  have different : index ≠ index' := by simpa [eq_comm] using other
  exact wp_last different (by simp [Operation.fuseIos, Fd.fuseIos])
    fun rcs => wp_verdict fun _ => Hand.holds_holding fuseIo .served

theorem wp_replyWith (build : Mem → Mem) (may : stage.take 2 = some .served) :
    wp discipline (replyWith fuseIo build) (.holding fuseIo stage)
    fun _ after => after.Holds fuseIo :=
  wp_loadMem rfl fun _ => wp_storeMem rfl (wp_awaitInt (wp_sendReply may))

theorem wp_handleRead (ring : FuseRing) (rbytesBuf : Ptr) :
    wp discipline (handleRead ring fuseIo rbytesBuf) (.holding fuseIo .reading)
    fun _ after => after.Holds fuseIo := by
  refine wp_loadMem rfl fun mem => wp_ite (fun _ => wp_replyWith _ rfl) fun _ => wp_storeMem rfl ?_
  refine wp_triple rfl ?_ ?_ ?_ (wp_pure (Hand.holds_gaveUp fuseIo _)) fun rcs => ?_
  · simp [Operation.fuseIos, Fd.fuseIos, FuseIo.scratchBuf]
  · simp [Operation.fuseIos, Fd.fuseIos]
  · simp [Operation.fuseIos, Fd.fuseIos]
  · split_ifs <;> exact wp_pure (Hand.holds_holding fuseIo .writing)

theorem wp_handleWrite (rbytesBuf : Ptr) :
    wp discipline (handleWrite fuseIo rbytesBuf) (.holding fuseIo .reading)
    fun _ after => after.Holds fuseIo := by
  refine wp_loadMem rfl fun mem => wp_ite (fun _ => wp_replyWith _ rfl) fun _ => ?_
  refine wp_ite (fun _ => wp_replyWith _ rfl) fun _ => wp_storeMem rfl ?_
  refine wp_triple rfl ?_ ?_ ?_ (wp_pure (Hand.holds_gaveUp fuseIo _)) fun rcs => ?_
  · simp [Operation.fuseIos, Fd.fuseIos]
  · simp [Operation.fuseIos, Fd.fuseIos, FuseIo.scratchBuf]
  · simp [Operation.fuseIos, Fd.fuseIos]
  -- the replies to a write that failed and to one that was short
  · refine wp_ite (fun _ => wp_replyWith _ rfl) fun _ => wp_ite
      (fun _ => wp_replyWith _ rfl) fun _ => ?_
    exact wp_verdict fun _ => Hand.holds_holding fuseIo .writing

theorem wp_dispatch (ring : FuseRing) (opcode : Nat) (rbytesBuf : Ptr) :
    wp discipline (dispatch ring fuseIo opcode rbytesBuf) (.holding fuseIo .reading)
      fun _ after => after.Holds fuseIo := by
  unfold dispatch
  split
  · exact wp_awaitInt (wp_loadMem rfl fun _ => wp_awaitInt (wp_replyWith _ rfl))
  · exact wp_awaitInt (wp_loadMem rfl fun _ => wp_awaitInt (wp_replyWith _ rfl))
  · exact wp_awaitInt (wp_replyWith _ rfl)
  · exact wp_awaitInt (wp_loadMem rfl fun _ => wp_awaitInt (wp_sendReplyBuf _ rfl))
  · exact wp_awaitInt (wp_replyWith _ rfl)
  · exact wp_awaitInt (wp_replyWith _ rfl)
  · exact wp_awaitInt (wp_replyWith _ rfl)
  · exact wp_awaitInt (wp_handleRead ring rbytesBuf)
  · exact wp_awaitInt (wp_replyWith _ rfl)
  · exact wp_awaitInt (wp_handleWrite rbytesBuf)
  · exact wp_awaitInt (wp_replyWith _ rfl)

/-! ### Reading a request -/

/-- The loop of `read_rbytes`, by the bytes that are missing. -/
theorem wp_readRbytesLoop (target : Ptr) (own : target.fuseIo = fuseIo) (rbytes : Nat)
    (missing : Nat) :
    ∀ readDone, rbytes - readDone = missing →
      wp discipline (readRbytesLoop fuseIo target rbytes readDone) (.holding fuseIo .reading)
        fun complete after => after.Holds fuseIo ∧
        (complete = true → after = .holding fuseIo .reading) := by
  induction missing using Nat.strong_induction_on with
  | _ missing ih =>
    intro readDone left
    rw [readRbytesLoop]
    refine wp_getSqe rfl (wp_pure ⟨Hand.holds_gaveUp fuseIo _,
      fun impossible => absurd impossible Bool.false_ne_true⟩)
      fun index => wp_one (by simp [Operation.fuseIos, Fd.fuseIos, Ptr.add, own]) fun rc => ?_
    split
    case isTrue =>
      exact wp_pure ⟨Hand.holds_holding fuseIo _,
        fun impossible => absurd impossible Bool.false_ne_true⟩
    case isFalse positive =>
      split
      case isTrue more => exact ih (rbytes - (readDone + rc.toNat)) (by omega) _ rfl
      case isFalse => exact wp_pure ⟨Hand.holds_holding fuseIo _, fun _ => rfl⟩

theorem wp_readRbytes (rbytes : Nat) (addZero : Bool) (initRead : Nat) :
    wp discipline (readRbytes fuseIo rbytes addZero initRead) (.holding fuseIo .reading)
      fun buf after => Hand.Carries fuseIo buf after := by
  unfold readRbytes
  split
  · exact wp_pure (Hand.carries_holding _)
  dsimp only
  split
  · exact wp_pure (Hand.carries_holding _)
  refine wp_loadMem rfl fun mem => wp_storeMem rfl ?_
  have ending : ∀ (target : Ptr) (complete : Bool) (after : Hand),
      after.Holds fuseIo ∧ (complete = true → after = .holding fuseIo .reading) →
      wp discipline (if complete then do
          if addZero then
            let mem ← loadMem fuseIo
            storeMem fuseIo (mem.copy (target.add rbytes) [0])
          return some target
        else return none) after fun buf after => Hand.Carries fuseIo buf after := by
    intro target complete after holds
    cases complete with
    | false => exact wp_pure (Hand.carries_none holds.1)
    | true =>
      obtain rfl := holds.2 rfl
      cases addZero with
      | false => exact wp_pure (Hand.carries_holding _)
      | true => exact wp_loadMem rfl fun mem => wp_storeMem rfl (wp_pure (Hand.carries_holding _))
  split
  · exact wp_seq _ (wp_readRbytesLoop _ (by split_ifs <;> rfl) rbytes _ initRead rfl) (ending _)
  · exact ending _ true _ ⟨Hand.holds_holding fuseIo _, fun _ => rfl⟩

/-- The loop that completes a short header, by the bytes that are missing. -/
theorem wp_readHeaderLoop (missing : Nat) :
    ∀ initRead, InHeader.size - initRead = missing →
      wp discipline (readHeaderLoop fuseIo initRead) (.holding fuseIo .reading)
        fun read after => Hand.Carries fuseIo read after := by
  induction missing using Nat.strong_induction_on with
  | _ missing ih =>
    intro initRead left
    rw [readHeaderLoop]
    refine wp_getSqe rfl (wp_prep_none rfl)
      fun index => wp_one (by simp [Operation.fuseIos, Fd.fuseIos, Ptr.add,
        FuseIo.headerBuf]) fun rc => ?_
    split
    case isTrue => exact wp_pure (Hand.carries_none (Hand.holds_holding fuseIo _))
    case isFalse positive =>
      split
      case isTrue more => exact ih (InHeader.size - (initRead + rc.toNat)) (by omega) _ rfl
      case isFalse => exact wp_pure (Hand.carries_holding _)

theorem wp_readHeader (initRead : Int) :
    wp discipline (readHeader fuseIo initRead) (.holding fuseIo .reading)
      fun read after => Hand.Carries fuseIo read after := by
  unfold readHeader
  exact wp_ite (fun _ => wp_readHeaderLoop _ _ rfl) fun _ => wp_pure (Hand.carries_holding _)

theorem wp_serveRequest (ring : FuseRing) (rbytes initRead : Nat) :
    wp discipline (serveRequest ring fuseIo rbytes initRead) (.holding fuseIo .reading)
      fun _ after => after.Holds fuseIo := by
  refine wp_loadMem rfl fun mem => ?_
  dsimp only
  split
  · split
    · exact wp_pure (Hand.holds_holding fuseIo _)
    · refine wp_seq (Hand.Carries fuseIo) (wp_awaitPointer (wp_readRbytes _ _ _))
        fun buf after holds => ?_
      cases buf with
      | none => exact wp_pure holds.1
      | some rbytesBuf =>
        obtain rfl := holds.2 (Option.some_ne_none _)
        exact wp_loadMem rfl fun mem => wp_dispatch ring _ rbytesBuf
  · exact wp_dispatch ring _ _

/-- Behind a header: the coroutine ends, or serves the request. -/
theorem wp_behindHeader (ring : FuseRing) {rbytes : Nat} {rest : Option Nat → Coro Int}
    (ends : rest none = pure (-1)) (serves : ∀ initRead, rest
      (some initRead) = serveRequest ring fuseIo rbytes initRead) :
    ∀ (read : Option Nat) (after : Hand), Hand.Carries fuseIo read after →
      wp discipline (rest read) after fun _ after => after.Holds fuseIo := by
  intro read after holds
  cases read with
  | none =>
    rw [ends]
    exact wp_pure holds.1
  | some initRead =>
    rw [serves]
    obtain rfl := holds.2 (Option.some_ne_none _)
    exact wp_serveRequest ring _ _

/-- `queue_fuse_read` with its slot. The second `get_sqe` runs even where the
first one gave up, and is then answered with `nullptr` as well. -/
theorem wp_queueFuseReadBody (ring : FuseRing) :
    wp discipline (queueFuseReadBody ring fuseIo) (.holding fuseIo .fresh)
    fun _ after => after.Holds fuseIo := by
  refine wp_getSqe rfl ?_ fun index => ?_
  · exact wp_getSqe_again (wp_pure (Hand.holds_gaveUp fuseIo _))
  refine wp_getSqe_next fun index' other => ?_
  have different : index ≠ index' := by simpa [eq_comm] using other
  rw [if_neg (by simp)]
  refine wp_two different (by simp [Operation.fuseIos, Fd.fuseIos])
    (by simp [Operation.fuseIos, Fd.fuseIos, FuseIo.headerBuf]) fun rcs => ?_
  dsimp only
  split
  · exact wp_pure (Hand.holds_holding fuseIo _)
  exact wp_seq _ (wp_readHeader _) (wp_behindHeader ring rfl fun _ => rfl)

theorem wp_queueFuseRead (ring : FuseRing) :
    wp discipline (queueFuseRead ring) .empty fun _ after => after.Idle ∧ after.Ended := by
  have body : ∀ fuseIo, wp discipline (do
      let rc ← queueFuseReadBody ring fuseIo
      releaseFuseIo fuseIo
      pure rc) (.holding fuseIo .fresh) fun _ after => after.Idle ∧ after.Ended := by
    intro fuseIo
    refine wp_seq (fun _ after => Hand.Holds fuseIo after) (wp_queueFuseReadBody ring)
      fun rc after holds => ?_
    exact wp_releaseFuseIo holds (wp_pure ⟨⟨holds.own, holds.reserved⟩, rfl⟩)
  rw [queueFuseRead, getFuseIo, wp_ask_bind]
  exact ⟨rfl, rfl, ⟨rfl, rfl⟩, body⟩

/-- **The discipline of `queue_read_set_rc`**: from nothing in hand to nothing in hand. -/
theorem wp_queueReadSetRc (ring : FuseRing) :
    wp discipline (queueReadSetRc ring) .empty fun _ after => after.Idle ∧ after.Ended := by
  refine wp_seq (fun _ after => Hand.Idle after ∧ Hand.Ended after) ?_ fun rc after holds => ?_
  · rw [awaitInt, wp_await]
    exact wp_mono _ (fun _ _ ended => ⟨ended.1, ended⟩) (wp_queueFuseRead ring)
  · split
    · exact wp_setLastRc holds.2 (wp_pure holds)
    · exact wp_pure holds

end Functions

end Fuseuring
