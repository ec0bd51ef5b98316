/-
**The coroutines never look into an entry.**

`get_sqe` answers with an entry of the ring; in the slot's own world it answers with the place that
the entry takes in the chain. A coroutine only tests the answer for `nullptr`, prepares the
entry and awaits it, so that with either answer it does the same. `InStep` says which operations are
performed together, and `Dues` which entry of the ring stands for which place.

The dues also counts what a request may still ask for: its message once, and the backing
file once.

* `inStep_loadMem` to `inStep_triple` — the rules for the operations.
* `inStep_queueFuseReadBody` — a request in the ring and in the slot's own world.
-/

import Fuseuring.Library.Twin
import Fuseuring.Fifo

namespace Fuseuring

open Interaction Program

/-- An operation on the backing file. -/
def Operation.files : Operation → Bool
  | .splice .backing _ _ _ _ => true
  | .splice _ _ .backing _ _ => true
  | _ => false

/-- The entries that are taken and not awaited, each at its place, how many messages may
still be read, and how often the backing file may still be used. -/
structure Dues where
  own : List (Nat × Option Sqe)
  messages : Nat
  uses : Nat

namespace Dues

/-- No entry is taken. -/
def idle (messages uses : Nat) : Dues := ⟨[], messages, uses⟩

def take (dues : Dues) (index : Nat) : Dues :=
  { dues with own := dues.own ++ [(index, none)] }

def prepare (dues : Dues) (place index : Nat) (sqe : Sqe) : Dues :=
  { dues with own := dues.own.set place (index, some sqe) }

/-- The entries are prepared and about to be awaited. -/
def awaiting (own : List (Nat × Sqe)) (messages uses : Nat) : Dues where
  own := own.map fun entry => (entry.1, some entry.2)
  messages := (own.map Prod.snd).countP (fun sqe => sqe.operation.arrives) + messages
  uses := (own.map Prod.snd).countP (fun sqe => sqe.operation.files) + uses

end Dues

/-- **Operations in step**: the first on the entries of the ring, the second on their places. -/
inductive InStep : Pairing coroutines Dues
  | load {fuseIo : FuseIo} {dues : Dues} {post : Mem → Mem → Dues → Prop} :
      (∀ mem, post mem mem dues) → InStep (.load fuseIo) (.load fuseIo) dues post
  | store {fuseIo : FuseIo} {mem : Mem} {dues : Dues} {post : Unit → Unit → Dues → Prop} :
      post () () dues → InStep (.store fuseIo mem) (.store fuseIo mem) dues post
  | taken {peek : Nat} {dues : Dues} {post : SqeRef → SqeRef → Dues → Prop} :
      (∀ index, index ∉ dues.own.map Prod.fst →
        post (some index) (some dues.own.length) (dues.take index)) →
      InStep (.getSqe peek) (.getSqe peek) dues post
  | prepared {index place : Nat} {sqe : Sqe} {dues : Dues} {post : Unit → Unit → Dues → Prop} :
      dues.own[place]?.map Prod.fst = some index → post () () (dues.prepare place index sqe) →
      InStep (.prep (some index) sqe) (.prep (some place) sqe) dues post
  | awaits {own : List (Nat × Sqe)} {refs : List SqeRef} {dues : Dues} {messages uses : Nat}
      {post : List Int → List Int → Dues → Prop} :
      (refs = own.map fun entry => some entry.1) → dues = .awaiting own messages uses →
      (∀ results, post results results (.idle messages uses)) →
      InStep (.complete refs) (.complete ((List.range own.length).map some)) dues post

/-! ### The operations one by one -/

section Rules

variable {α : Type} {fuseIo : FuseIo} {dues : Dues} {messages uses : Nat} {post : α → Dues → Prop}

theorem inStep_loadMem {next next' : Mem → Coro α}
    (rest : ∀ mem, Twin InStep (next mem) (next' mem) dues post) :
    Twin InStep (loadMem fuseIo >>= next) (loadMem fuseIo >>= next') dues post := by
  refine twin_ask_bind (fun mem mem' after => mem' = mem ∧ after = dues)
    (.load fun mem => ⟨rfl, rfl⟩) ?_
  rintro _ mem _ ⟨rfl, rfl⟩
  exact rest mem

theorem inStep_storeMem {next next' : Unit → Coro α} {mem : Mem}
    (rest : Twin InStep (next ()) (next' ()) dues post) :
    Twin InStep (storeMem fuseIo mem >>= next) (storeMem fuseIo mem >>= next') dues post := by
  refine twin_ask_bind (fun _ _ after => after = dues) (.store rfl) ?_
  rintro _ _ _ rfl
  exact rest

theorem inStep_getSqe {next next' : SqeRef → Coro α} {peek : Nat}
    (rest : ∀ index, index ∉ dues.own.map Prod.fst →
      Twin InStep (next (some index)) (next' (some dues.own.length)) (dues.take index) post) :
    Twin InStep (getSqe peek >>= next) (getSqe peek >>= next') dues post := by
  refine twin_ask_bind (fun ref ref' after => ∃ index, index ∉ dues.own.map Prod.fst ∧
    ref = some index ∧ ref' = some dues.own.length ∧ after = dues.take index)
    (.taken fun index fresh => ⟨index, fresh, rfl, rfl, rfl⟩) ?_
  rintro _ _ _ ⟨index, fresh, rfl, rfl, rfl⟩
  exact rest index fresh

theorem inStep_prep {next next' : Unit → Coro α} {index place : Nat} {operation : Operation}
    {flag : Link} (here : dues.own[place]?.map Prod.fst = some index)
    (rest : Twin InStep (next ()) (next' ()) (dues.prepare place index ⟨operation, flag⟩) post) :
    Twin InStep (prep (some index) operation flag >>= next)
      (prep (some place) operation flag >>= next') dues post := by
  refine twin_ask_bind (fun _ _ after => after = dues.prepare place index ⟨operation, flag⟩)
    (.prepared here rfl) ?_
  rintro _ _ _ rfl
  exact rest

theorem inStep_complete {next next' : List Int → Coro α} (own : List (Nat × Sqe))
    (rest : ∀ results, Twin InStep (next results) (next' results) (.idle messages uses) post) :
    Twin InStep (complete (own.map fun entry => some entry.1) >>= next)
      (complete ((List.range own.length).map some) >>= next') (.awaiting own messages uses)
      post := by
  refine twin_ask_bind (fun results results' after => results' = results ∧
    after = .idle messages uses) (.awaits rfl rfl fun results => ⟨rfl, rfl⟩) ?_
  rintro _ results _ ⟨rfl, rfl⟩
  exact rest results

/-- One entry. -/
theorem inStep_one {operation : Operation} {index : Nat} {next next' : Int → Coro α}
    (silent : operation.arrives = false) (away : operation.files = false)
    (rest : ∀ rc, Twin InStep (next rc) (next' rc) (.idle messages uses) post) :
    Twin InStep (do
      prep (some index) operation .none
      let rc ← completeOne (some index)
      next rc) (do
      prep (some 0) operation .none
      let rc ← completeOne (some 0)
      next' rc) ((Dues.idle messages uses).take index) post := by
  refine inStep_prep rfl ?_
  have asks : ((Dues.idle messages uses).take index).prepare 0 index ⟨operation, .none⟩ =
      .awaiting [(index, ⟨operation, .none⟩)] messages uses := by
    simp [Dues.awaiting, Dues.prepare, Dues.take, Dues.idle, silent, away]
  rw [asks]
  exact inStep_complete [(index, ⟨operation, .none⟩)] fun results => rest _

/-- The last entry of two. -/
theorem inStep_last {sqe : Sqe} {operation : Operation} {index index' total : Nat}
    {next next' : Int × Int → Coro α} (first : sqe.operation.files = false)
    (silent : operation.arrives = false) (away : operation.files = false)
    (counted : total = sqe.operation.arrives.toNat + messages)
    (rest : ∀ rcs, Twin InStep (next rcs) (next' rcs) (.idle messages uses) post) :
    Twin InStep (do
      prep (some index') operation .none
      let rcs ← completePair (some index) (some index')
      next rcs) (do
      prep (some 1) operation .none
      let rcs ← completePair (some 0) (some 1)
      next' rcs) ⟨[(index, some sqe), (index', none)], total, uses⟩ post := by
  refine inStep_prep rfl ?_
  have asks : Dues.prepare ⟨[(index, some sqe), (index', none)], total, uses⟩ 1 index'
      ⟨operation, .none⟩ =
        .awaiting [(index, sqe), (index', ⟨operation, .none⟩)] messages uses := by
    cases arrives : sqe.operation.arrives <;>
      simp [Dues.awaiting, Dues.prepare, first, silent, away, arrives, counted]
  rw [asks]
  exact inStep_complete [(index, sqe), (index', ⟨operation, .none⟩)] fun results => rest _

/-- Three entries, one of them on the backing file. -/
theorem inStep_triple {first second third : Operation} {next next' : List Int → Coro α}
    {missing : Coro α} (silent : ∀ operation ∈ [first, second, third], operation.arrives = false)
    (used : [first, second, third].countP Operation.files = 1)
    (rest : ∀ rcs, Twin InStep (next rcs) (next' rcs) (.idle messages uses) post) :
    Twin InStep (do
      let sqe1 ← getSqe 3
      if sqe1 = none then missing
      else
        prep sqe1 first .link
        let sqe2 ← getSqe 1
        if sqe2 = none then missing
        else
          prep sqe2 second .link
          let sqe3 ← getSqe 1
          if sqe3 = none then missing
          else
            prep sqe3 third .none
            let rcs ← complete [sqe1, sqe2, sqe3]
            next rcs) (do
      let sqe1 ← getSqe 3
      if sqe1 = none then missing
      else
        prep sqe1 first .link
        let sqe2 ← getSqe 1
        if sqe2 = none then missing
        else
          prep sqe2 second .link
          let sqe3 ← getSqe 1
          if sqe3 = none then missing
          else
            prep sqe3 third .none
            let rcs ← complete [sqe1, sqe2, sqe3]
            next' rcs) (.idle messages (uses + 1)) post := by
  refine inStep_getSqe fun index _ => inStep_prep rfl ?_
  refine inStep_getSqe fun index' _ => inStep_prep rfl ?_
  refine inStep_getSqe fun index'' _ => inStep_prep rfl ?_
  have asks : ∀ dues : Dues, dues = .awaiting [(index, ⟨first, .link⟩),
      (index', ⟨second, .link⟩), (index'', ⟨third, .none⟩)] messages uses →
      Twin InStep (complete [some index, some index', some index''] >>= next)
        (complete [some 0, some 1, some 2] >>= next') dues post := by
    rintro _ rfl
    exact inStep_complete [(index, ⟨first, .link⟩), (index', ⟨second, .link⟩),
      (index'', ⟨third, .none⟩)] fun results => rest results
  refine asks _ ?_
  simp only [List.forall_mem_cons, List.not_mem_nil, false_imp_iff, implies_true,
    and_true] at silent
  simp only [List.countP_cons, List.countP_nil] at used
  simp [Dues.awaiting, Dues.prepare, Dues.take, Dues.idle, List.countP_cons, silent]
  omega

end Rules

/-! ### The reply functions and the handlers -/

section Functions

variable {fuseIo : FuseIo} {messages uses : Nat}

/-- No entry is left over. -/
def Dues.Idle (dues : Dues) : Prop := dues.own = []

theorem inStep_awaitInt {function : Function} {task task' : Coro Int} {dues : Dues}
    {post : Int → Dues → Prop} (holds : Twin InStep task task' dues post) :
    Twin InStep (awaitInt function task) (awaitInt function task') dues post := twin_await holds

theorem inStep_sendReply :
    Twin InStep (sendReply fuseIo) (sendReply fuseIo) (.idle messages uses)
      fun _ after => after.Idle := by
  refine inStep_getSqe fun index _ => inStep_loadMem fun mem => inStep_prep rfl ?_
  refine inStep_getSqe fun index' _ => inStep_last rfl rfl rfl (Nat.zero_add _).symm fun rcs => ?_
  exact twin_ite (fun _ => twin_pure rfl) fun _ => twin_pure rfl

theorem inStep_sendReplyBuf (buf : List UInt8) :
    Twin InStep (sendReplyBuf fuseIo buf) (sendReplyBuf fuseIo buf) (.idle messages uses)
      fun _ after => after.Idle := by
  refine inStep_getSqe fun index _ => inStep_prep rfl ?_
  refine inStep_getSqe fun index' _ => inStep_last rfl rfl rfl (Nat.zero_add _).symm fun rcs => ?_
  exact twin_ite (fun _ => twin_pure rfl) fun _ => twin_pure rfl

theorem inStep_replyWith (build : Mem → Mem) :
    Twin InStep (replyWith fuseIo build) (replyWith fuseIo build) (.idle messages uses)
      fun _ after => after.Idle :=
  inStep_loadMem fun _ => inStep_storeMem (inStep_awaitInt inStep_sendReply)

theorem inStep_handleRead (ring : FuseRing) (rbytesBuf : Ptr) :
    Twin InStep (handleRead ring fuseIo rbytesBuf) (handleRead ring fuseIo rbytesBuf)
      (.idle messages (uses + 1)) fun _ after => after.Idle := by
  refine inStep_loadMem fun mem => twin_ite (fun _ => inStep_replyWith _) fun _ => ?_
  refine inStep_storeMem (inStep_triple (by simp [Operation.arrives]) rfl fun rcs => ?_)
  split_ifs <;> exact twin_pure rfl

theorem inStep_handleWrite (rbytesBuf : Ptr) :
    Twin InStep (handleWrite fuseIo rbytesBuf) (handleWrite fuseIo rbytesBuf)
      (.idle messages (uses + 1)) fun _ after => after.Idle := by
  refine inStep_loadMem fun mem => twin_ite (fun _ => inStep_replyWith _) fun _ => ?_
  refine twin_ite (fun _ => inStep_replyWith _) fun _ => ?_
  refine inStep_storeMem (inStep_triple (by simp [Operation.arrives]) rfl fun rcs => ?_)
  -- the replies to a write that failed and to one that was short
  refine twin_ite (fun _ => inStep_replyWith _) fun _ => ?_
  refine twin_ite (fun _ => inStep_replyWith _) fun _ => ?_
  exact twin_ite (fun _ => twin_pure rfl) fun _ => twin_pure rfl

theorem inStep_dispatch (ring : FuseRing) (opcode : Nat) (rbytesBuf : Ptr) :
    Twin InStep (dispatch ring fuseIo opcode rbytesBuf) (dispatch ring fuseIo opcode rbytesBuf)
      (.idle messages (uses + 1)) fun _ after => after.Idle := by
  unfold dispatch
  split
  · exact inStep_awaitInt (inStep_loadMem fun _ => inStep_awaitInt (inStep_replyWith _))
  · exact inStep_awaitInt (inStep_loadMem fun _ => inStep_awaitInt (inStep_replyWith _))
  · exact inStep_awaitInt (inStep_replyWith _)
  · exact inStep_awaitInt (inStep_loadMem fun _ => inStep_awaitInt (inStep_sendReplyBuf _))
  · exact inStep_awaitInt (inStep_replyWith _)
  · exact inStep_awaitInt (inStep_replyWith _)
  · exact inStep_awaitInt (inStep_replyWith _)
  · exact inStep_awaitInt (inStep_handleRead ring rbytesBuf)
  · exact inStep_awaitInt (inStep_replyWith _)
  · exact inStep_awaitInt (inStep_handleWrite rbytesBuf)
  · exact inStep_awaitInt (inStep_replyWith _)

/-! ### Reading a request -/

/-- The loop of `read_rbytes`, by the bytes that are missing. -/
theorem inStep_readRbytesLoop (target : Ptr) (rbytes missing : Nat) :
    ∀ readDone, rbytes - readDone = missing →
      Twin InStep (readRbytesLoop fuseIo target rbytes readDone)
        (readRbytesLoop fuseIo target rbytes readDone) (.idle messages uses)
        fun _ after => after = .idle messages uses := by
  induction missing using Nat.strong_induction_on with
  | _ missing ih =>
    intro readDone left
    rw [readRbytesLoop]
    refine inStep_getSqe fun index _ => inStep_one rfl rfl fun rc => ?_
    split
    case isTrue => exact twin_pure rfl
    case isFalse positive =>
      split
      case isTrue more => exact ih (rbytes - (readDone + rc.toNat)) (by omega) _ rfl
      case isFalse => exact twin_pure rfl

theorem inStep_readRbytes (rbytes : Nat) (addZero : Bool) (initRead : Nat) :
    Twin InStep (readRbytes fuseIo rbytes addZero initRead)
      (readRbytes fuseIo rbytes addZero initRead) (.idle messages uses)
      fun _ after => after = .idle messages uses := by
  have ending : ∀ (target : Ptr) (complete : Bool) (after : Dues), after = .idle messages uses →
      Twin InStep (if complete then do
          if addZero then
            let mem ← loadMem fuseIo
            storeMem fuseIo (mem.copy (target.add rbytes) [0])
          return some target
        else return none) (if complete then do
          if addZero then
            let mem ← loadMem fuseIo
            storeMem fuseIo (mem.copy (target.add rbytes) [0])
          return some target
        else return none) after fun _ after => after = .idle messages uses := by
    rintro target complete _ rfl
    cases complete with
    | false => exact twin_pure rfl
    | true =>
      cases addZero with
      | false => exact twin_pure rfl
      | true => exact inStep_loadMem fun mem => inStep_storeMem (twin_pure rfl)
  unfold readRbytes
  split
  · exact twin_pure rfl
  dsimp only
  split
  · exact twin_pure rfl
  refine inStep_loadMem fun mem => inStep_storeMem ?_
  split
  · exact twin_seq (inStep_readRbytesLoop _ rbytes _ initRead rfl) (ending _)
  · exact ending _ true _ rfl

/-- The loop that completes a short header, by the bytes that are missing. -/
theorem inStep_readHeaderLoop (missing : Nat) :
    ∀ initRead, InHeader.size - initRead = missing →
      Twin InStep (readHeaderLoop fuseIo initRead) (readHeaderLoop fuseIo initRead)
        (.idle messages uses) fun _ after => after = .idle messages uses := by
  induction missing using Nat.strong_induction_on with
  | _ missing ih =>
    intro initRead left
    rw [readHeaderLoop]
    refine inStep_getSqe fun index _ => inStep_one rfl rfl fun rc => ?_
    split
    case isTrue => exact twin_pure rfl
    case isFalse positive =>
      split
      case isTrue more => exact ih (InHeader.size - (initRead + rc.toNat)) (by omega) _ rfl
      case isFalse => exact twin_pure rfl

theorem inStep_readHeader (initRead : Int) :
    Twin InStep (readHeader fuseIo initRead) (readHeader fuseIo initRead) (.idle messages uses)
      fun _ after => after = .idle messages uses := by
  unfold readHeader
  exact twin_ite (fun _ => inStep_readHeaderLoop _ _ rfl) fun _ => twin_pure rfl

theorem inStep_serveRequest (ring : FuseRing) (rbytes initRead : Nat) :
    Twin InStep (serveRequest ring fuseIo rbytes initRead)
      (serveRequest ring fuseIo rbytes initRead) (.idle messages (uses + 1))
      fun _ after => after.Idle := by
  refine inStep_loadMem fun mem => ?_
  dsimp only
  split
  · split
    · exact twin_pure rfl
    · refine twin_seq (twin_await (inStep_readRbytes _ _ _)) ?_
      rintro buf _ rfl
      cases buf with
      | none => exact twin_pure rfl
      | some rbytesBuf => exact inStep_loadMem fun mem => inStep_dispatch ring _ rbytesBuf
  · exact inStep_dispatch ring _ _

/-- Behind a header: the coroutine ends, or serves the request. -/
theorem inStep_behindHeader (ring : FuseRing) {rbytes : Nat} {rest : Option Nat → Coro Int}
    (ends : rest none = pure (-1)) (serves : ∀ initRead, rest
      (some initRead) = serveRequest ring fuseIo rbytes initRead) :
    ∀ (read : Option Nat) (after : Dues), after = .idle messages (uses + 1) →
      Twin InStep (rest read) (rest read) after fun _ after => after.Idle := by
  rintro read _ rfl
  cases read with
  | none =>
    rw [ends]
    exact twin_pure rfl
  | some initRead =>
    rw [serves]
    exact inStep_serveRequest ring _ _

/-- **A request in the ring and in the slot's own world**: it reads one message, and uses the
backing file at most once. -/
theorem inStep_queueFuseReadBody (ring : FuseRing) :
    Twin InStep (queueFuseReadBody ring fuseIo) (queueFuseReadBody ring fuseIo) (.idle 1 1)
      fun _ after => after.Idle := by
  refine inStep_getSqe fun index _ => inStep_getSqe fun index' _ => ?_
  rw [if_neg (by simp), if_neg (by simp)]
  have once : 1 = true.toNat + 0 := rfl
  refine inStep_prep rfl (inStep_last rfl rfl rfl once fun rcs => ?_)
  dsimp only
  split
  · exact twin_pure rfl
  exact twin_seq (inStep_readHeader _) (inStep_behindHeader ring rfl fun _ => rfl)

end Functions

end Fuseuring
