/-
**The chains of the coroutines.**

`Proper` is what a chain that is awaited has to be, for the slot of its coroutine and the memory
the slot then has: it is linked up to its last entry, a reply in it carries the number of the
request in `header_buf`, and nothing is read into the slot beside a reply. The request's
header itself is never assigned to.

* `alone_loadMem` to `alone_triple` — the rules of the contract for the operations.
* `proper_queueReadSetRc` — `queue_read_set_rc` behaves so, whatever the memory of the slot is
  when it is taken and whatever comes with the results.
-/

import Fuseuring.Ring.Alone
import Fuseuring.Framing

namespace Fuseuring

open Bytes Interaction

/-! ### Proper chains -/

/-- Linked up to the last entry, and no further. -/
def LinkedUp : List Sqe → Prop
  | [] => False
  | [last] => last.link = .none
  | sqe :: next :: rest => sqe.link ≠ .none ∧ LinkedUp (next :: rest)

/-- The operation puts bytes from memory into the pipe. -/
def Operation.replies : Operation → Bool
  | .writeFixed _ _ _ => true
  | .write _ _ => true
  | _ => false

/-- A reply carries the number of the request in `header_buf`. -/
def Operation.Carries (fuseIo : FuseIo) (mem : Mem) : Operation → Prop
  | .writeFixed _ buf _ =>
    buf = fuseIo.scratchBuf ∧ mem.load buf OutHeader.unique = requestUnique mem fuseIo
  | .write _ buf => OutHeader.unique.load (ofList buf) 0 = requestUnique mem fuseIo
  | _ => True

/-- **A proper chain.** -/
structure Proper (fuseIo : FuseIo) (mem : Mem) (sqes : List Sqe) : Prop where
  linked : LinkedUp sqes
  carries : ∀ sqe ∈ sqes, sqe.operation.Carries fuseIo mem
  quiet : (∃ sqe ∈ sqes, sqe.operation.replies = true) →
    ∀ sqe ∈ sqes, sqe.operation.reads = false

/-- The header of the request is left as it was. -/
def SameHeader (old new : Mem) : Prop :=
  ∀ index < InHeader.size, new.headerBuf index = old.headerBuf index

/-- How a coroutine is to behave. -/
def proper : Conduct := ⟨Proper, fun _ => SameHeader⟩

theorem SameHeader.of_eq {old new : Mem} (same : new.headerBuf = old.headerBuf) :
    SameHeader old new := fun _ _ => by rw [same]

/-- A reply that is alone with the splice behind it. -/
theorem Proper.reply {fuseIo : FuseIo} {mem : Mem} {operation : Operation} {nbytes : Nat}
    (carries : operation.Carries fuseIo mem) (replies : operation.replies = true) :
    Proper fuseIo mem
      [⟨operation, .link⟩, ⟨.splice (.pipe0 fuseIo) (-1) (.fuse fuseIo) (-1) nbytes, .none⟩] := by
  have still : operation.reads = false := by
    cases operation with
    | writeFixed fd buf nbytes => rfl
    | write fd buf => rfl
    | _ => cases replies
  refine ⟨⟨Link.noConfusion, rfl⟩, fun sqe member => ?_, fun _ sqe member => ?_⟩
  · rcases List.mem_pair.mp member with rfl | rfl
    · exact carries
    · trivial
  · rcases List.mem_pair.mp member with rfl | rfl
    · exact still
    · rfl

/-- One read. -/
theorem Proper.one_read {fuseIo : FuseIo} {mem : Mem} {fd : Fd} {buf : Ptr} {nbytes : Nat} :
    Proper fuseIo mem [⟨.read fd buf nbytes, .none⟩] := by
  refine ⟨rfl, fun sqe member => ?_, fun ⟨sqe, member, replies⟩ => ?_⟩
  · rw [List.mem_singleton.mp member]
    trivial
  · rw [List.mem_singleton.mp member] at replies
    cases replies

/-! ### The operations one by one -/

section Rules

open Program

variable {conduct : Conduct} {α : Type} {fuseIo slot : FuseIo} {mem : Mem}
  {own : List (Nat × Option Sqe)} {hold : Hold} {post : α → Hold → Prop}

/-- The slot is held, whatever its memory. -/
def Hold.On (fuseIo : FuseIo) (hold : Hold) : Prop := ∃ mem, hold.slot = some (fuseIo, mem)

theorem Hold.on (fuseIo : FuseIo) (mem : Mem) (own : List (Nat × Option Sqe)) :
    Hold.On fuseIo ⟨some (fuseIo, mem), own⟩ := ⟨mem, rfl⟩

theorem alone_loadMem {next : Mem → Coro α}
    (rest : wp (alone conduct) (next mem) ⟨some (fuseIo, mem), own⟩ post) :
    wp (alone conduct) (loadMem slot >>= next) ⟨some (fuseIo, mem), own⟩ post := by
  rw [loadMem, wp_ask_bind]
  intro answer after answers
  cases answers with
  | load held =>
    cases held
    exact rest

theorem alone_storeMem {next : Unit → Coro α} {stored : Mem}
    (fine : conduct.store fuseIo mem stored)
    (rest : wp (alone conduct) (next ()) ⟨some (fuseIo, stored), own⟩ post) :
    wp (alone conduct) (storeMem slot stored >>= next) ⟨some (fuseIo, mem), own⟩ post := by
  rw [storeMem, wp_ask_bind]
  intro old held
  cases held
  exact ⟨fine, rest⟩

/-- A `get_sqe` may give up, or take any entry that is not taken. -/
theorem alone_getSqe {next : SqeRef → Coro α} {peek : Nat}
    (missing : wp (alone conduct) (next none) hold post)
    (taken : ∀ index, index ∉ hold.own.map Prod.fst →
      wp (alone conduct) (next (some index))
        { hold with own := hold.own ++ [(index, none)] } post) :
    wp (alone conduct) (getSqe peek >>= next) hold post := by
  rw [getSqe, wp_ask_bind]
  refine ⟨missing, fun sqe after answers => ?_⟩
  cases answers with
  | taken _ index fresh => exact taken index fresh

theorem alone_prep {next : Unit → Coro α} {index : Nat} {operation : Operation} {flag : Link}
    (rest : wp (alone conduct) (next ()) (hold.prepare index ⟨operation, flag⟩) post) :
    wp (alone conduct) (prep (some index) operation flag >>= next) hold post := by
  rw [prep, wp_ask_bind]
  intro after answers
  cases answers with
  | prepared _ _ => exact rest

/-- Behind a null entry that is used nothing is owed. -/
theorem alone_prep_none {next : Unit → Coro α} {operation : Operation} {flag : Link} :
    wp (alone conduct) (prep none operation flag >>= next) hold post := by
  rw [prep, wp_ask_bind]
  intro after answers
  cases answers

/-- The entry that was taken last. -/
theorem Hold.prepare_last {index : Nat} {sqe : Sqe} {held : Option (FuseIo × Mem)}
    (fresh : index ∉ own.map Prod.fst) :
    Hold.prepare ⟨held, own ++ [(index, none)]⟩ index sqe =
      ⟨held, own ++ [(index, some sqe)]⟩ := by
  have others : (own.map fun entry => if entry.1 = index then (index, some sqe) else entry) =
      own := by
    refine (List.map_congr_left fun entry member => if_neg ?_).trans (List.map_id own)
    rintro rfl
    exact fresh (List.mem_map_of_mem member)
  rw [Hold.prepare, List.map_append, others, List.map_singleton, if_pos rfl]

theorem alone_prep_last {next : Unit → Coro α} {index : Nat} {operation : Operation} {flag : Link}
    {held : Option (FuseIo × Mem)} (fresh : index ∉ own.map Prod.fst)
    (rest : wp (alone conduct) (next ()) ⟨held, own ++ [(index, some ⟨operation, flag⟩)]⟩ post) :
    wp (alone conduct) (prep (some index) operation flag >>= next) ⟨held, own ++ [(index, none)]⟩
      post := by
  refine alone_prep ?_
  rw [Hold.prepare_last fresh]
  exact rest

/-- The first of two entries that have both been taken. -/
theorem alone_prep_first {next : Unit → Coro α} {index index' : Nat} {operation : Operation}
    {flag : Link} {held : Option (FuseIo × Mem)} (different : index' ≠ index)
    (rest : wp (alone conduct) (next ())
      ⟨held, [(index, some ⟨operation, flag⟩)] ++ [(index', none)]⟩ post) :
    wp (alone conduct) (prep (some index) operation flag >>= next)
      ⟨held, [(index, none)] ++ [(index', none)]⟩ post := by
  have prepared : Hold.prepare ⟨held, [(index, none)] ++ [(index', none)]⟩ index ⟨operation, flag⟩ =
      ⟨held, [(index, some ⟨operation, flag⟩)] ++ [(index', none)]⟩ := by
    simp [Hold.prepare, different]
  refine alone_prep ?_
  rw [prepared]
  exact rest

/-- The await of what was prepared. -/
theorem alone_complete {next : List Int → Coro α} {refs : List SqeRef} {sqes : List Sqe}
    (prepared : own.map Prod.snd = sqes.map some) (fine : conduct.chain fuseIo mem sqes)
    (rest : ∀ results mem', Receives sqes mem mem' →
      wp (alone conduct) (next results) ⟨some (fuseIo, mem'), []⟩ post) :
    wp (alone conduct) (complete refs >>= next) ⟨some (fuseIo, mem), own⟩ post := by
  rw [complete, wp_ask_bind]
  refine ⟨fuseIo, mem, rfl, fun others same => ?_⟩
  obtain rfl : sqes = others :=
    List.map_injective_iff.mpr (Option.some_injective Sqe) (prepared.symm.trans same)
  exact ⟨fine, rest⟩

/-- One entry. -/
theorem alone_one {index : Nat} {operation : Operation} {flag : Link} {next : Int → Coro α}
    (fine : conduct.chain fuseIo mem [⟨operation, flag⟩])
    (rest : ∀ rc mem', Receives [⟨operation, flag⟩] mem mem' →
      wp (alone conduct) (next rc) ⟨some (fuseIo, mem'), []⟩ post) :
    wp (alone conduct) (do
      prep (some index) operation flag
      let rc ← completeOne (some index)
      next rc) ⟨some (fuseIo, mem), [] ++ [(index, none)]⟩ post := by
  have prepared : ([] ++ [(index, some ⟨operation, flag⟩)] : List (Nat × Option Sqe)).map Prod.snd =
      [(⟨operation, flag⟩ : Sqe)].map some := rfl
  refine alone_prep_last List.not_mem_nil ?_
  have awaited : (completeOne (some index) >>= next) =
      (complete [some index] >>= fun results => next (results.getD 0 (-1))) := rfl
  rw [awaited]
  exact alone_complete prepared fine fun results mem' receives => rest _ mem' receives

/-- The last entry of two. -/
theorem alone_pair {index index' : Nat} {first : Sqe} {operation : Operation} {flag : Link}
    {next : Int × Int → Coro α} (apart : index' ∉ [(index, some first)].map Prod.fst)
    (fine : conduct.chain fuseIo mem [first, ⟨operation, flag⟩])
    (rest : ∀ rcs mem', Receives [first, ⟨operation, flag⟩] mem mem' →
      wp (alone conduct) (next rcs) ⟨some (fuseIo, mem'), []⟩ post) :
    wp (alone conduct) (do
      prep (some index') operation flag
      let rcs ← completePair (some index) (some index')
      next rcs) ⟨some (fuseIo, mem), [(index, some first)] ++ [(index', none)]⟩ post := by
  have prepared : ([(index, some first)] ++ [(index', some ⟨operation, flag⟩)] :
      List (Nat × Option Sqe)).map Prod.snd = [first, ⟨operation, flag⟩].map some := rfl
  refine alone_prep_last apart ?_
  have awaited : (completePair (some index) (some index') >>= next) =
      (complete [some index, some index'] >>= fun results =>
        next (results.getD 0 (-1), results.getD 1 (-1))) := rfl
  rw [awaited]
  exact alone_complete prepared fine fun results mem' receives => rest _ mem' receives

/-- Three entries. -/
theorem alone_triple {first second third : Operation} {next : List Int → Coro α}
    {missing : Coro α}
    (fine : conduct.chain fuseIo mem [⟨first, .link⟩, ⟨second, .link⟩, ⟨third, .none⟩])
    (refused : ∀ own, wp (alone conduct) missing ⟨some (fuseIo, mem), own⟩ post)
    (rest : ∀ rcs mem', Receives [⟨first, .link⟩, ⟨second, .link⟩, ⟨third, .none⟩] mem mem' →
      wp (alone conduct) (next rcs) ⟨some (fuseIo, mem'), []⟩ post) :
    wp (alone conduct) (do
      let sqe1 ← getSqe 3
      if sqe1 = none then missing
      else
        prep sqe1 first .link
        let sqe2 ← getSqe 1
        if sqe2 = none then missing
        else
          prep sqe2 second .link
          let sqe3 ← getSqe 1
          if sqe3 = none then missing
          else
            prep sqe3 third .none
            let rcs ← complete [sqe1, sqe2, sqe3]
            next rcs) ⟨some (fuseIo, mem), []⟩ post := by
  refine alone_getSqe (refused _) fun index fresh => alone_prep_last fresh ?_
  refine alone_getSqe (refused _) fun index' fresh' => alone_prep_last fresh' ?_
  refine alone_getSqe (refused _) fun index'' fresh'' => alone_prep_last fresh'' ?_
  have prepared : ([(index, some ⟨first, .link⟩), (index', some ⟨second, .link⟩),
      (index'', some ⟨third, .none⟩)] : List (Nat × Option Sqe)).map Prod.snd =
      ([⟨first, .link⟩, ⟨second, .link⟩, ⟨third, .none⟩] : List Sqe).map some := rfl
  exact alone_complete prepared fine fun results mem' receives => rest _ mem' receives

end Rules

/-! ### Replies in `scratch_buf` -/

/-- The header in `scratch_buf` carries the number of the request. -/
def Matches (fuseIo : FuseIo) (mem : Mem) : Prop :=
  mem.load fuseIo.scratchBuf OutHeader.unique = requestUnique mem fuseIo

/-- A reply to the request, which is left as it was. -/
structure Builds (fuseIo : FuseIo) (mem built : Mem) : Prop where
  carries : Matches fuseIo built
  header : SameHeader mem built

section Builds

variable {fuseIo : FuseIo} {mem built : Mem} {error : Int} {len size : Nat}

theorem SameHeader.requestUnique (same : SameHeader mem built) :
    requestUnique built fuseIo = requestUnique mem fuseIo := by
  refine load_congr fun index inside => same _ ?_
  have bound : InHeader.unique.offset + InHeader.unique.width ≤ InHeader.size := by decide
  have start : fuseIo.headerBuf.offset = 0 := rfl
  omega

theorem SameHeader.trans {first second third : Mem} (before : SameHeader first second)
    (behind : SameHeader second third) : SameHeader first third :=
  fun index inside => (behind index inside).trans (before index inside)

theorem builds_of_unique (unique : built.load fuseIo.scratchBuf OutHeader.unique =
    requestUnique mem fuseIo) (same : built.headerBuf = mem.headerBuf) :
    Builds fuseIo mem built :=
  ⟨unique.trans (SameHeader.of_eq same).requestUnique.symm, .of_eq same⟩

theorem Headed.builds (headed : Headed fuseIo error len (requestUnique mem fuseIo) built)
    (same : built.headerBuf = mem.headerBuf) : Builds fuseIo mem built :=
  builds_of_unique headed.unique same

theorem HoldsReply.builds (holds : HoldsReply fuseIo (requestUnique mem fuseIo) size built)
    (same : built.headerBuf = mem.headerBuf) : Builds fuseIo mem built := by
  cases holds with
  | failure error nonzero low high headed => exact headed.builds same
  | success headed => exact headed.builds same

theorem bareReply_builds (error : Int) : Builds fuseIo mem (bareReply fuseIo error mem) :=
  (bareReply_headed error).builds rfl

theorem fillAttr_headerBuf (ring : FuseRing) {base : Ptr} (scratch : base.region = .scratch)
    (volume : Bool) : (fillAttr ring mem base volume).headerBuf = mem.headerBuf := by
  obtain ⟨slot, region, offset⟩ := base
  obtain rfl : region = .scratch := scratch
  cases volume <;> rfl

theorem attrReply_builds (ring : FuseRing) (nodeid : Nat) :
    Builds fuseIo mem (attrReply ring fuseIo (requestUnique mem fuseIo) nodeid mem) := by
  refine (attrReply_holds ring (requestUnique_lt mem fuseIo) nodeid).builds ?_
  unfold attrReply
  dsimp only
  split
  · exact fillAttr_headerBuf ring rfl false
  split
  · exact fillAttr_headerBuf ring rfl true
  · rfl

theorem openReply_builds (rbytesBuf : Ptr) (fh extraFlags : Nat) :
    Builds fuseIo mem (openReply fuseIo rbytesBuf fh extraFlags mem) :=
  (openReply_holds rbytesBuf fh extraFlags).builds rfl

theorem lookupReply_builds (ring : FuseRing) (rbytesBuf : Ptr) :
    Builds fuseIo mem (lookupReply ring fuseIo rbytesBuf mem) :=
  (lookupReply_holds ring rbytesBuf).builds (fillAttr_headerBuf ring rfl _)

theorem readRefusal_builds : Builds fuseIo mem (readRefusal fuseIo mem) := by
  refine builds_of_unique ?_ rfl
  rw [readRefusal, Mem.load_store_apart _ (Mem.apart_same (by decide)), Mem.load_store_same]
  exact Nat.mod_eq_of_lt (requestUnique_lt mem fuseIo)

/-- A pointer that is not into the header of the request. -/
def Ptr.Outside (pointer : Ptr) : Prop := pointer.region ≠ .header ∨ InHeader.size ≤ pointer.offset

/-- The clamp is assigned behind the header of the request. -/
theorem readHeaded_builds (ring : FuseRing) {rbytesBuf : Ptr} (outside : rbytesBuf.Outside) :
    Builds fuseIo mem (readHeaded ring fuseIo rbytesBuf mem) := by
  have clamped : SameHeader mem (readClamped ring rbytesBuf mem) := by
    by_cases other : rbytesBuf.region = .header
    · have behind := outside.resolve_left (not_not.mpr other)
      intro index inside
      rw [readClamped, Mem.store, other]
      exact store_outside (Or.inl (by omega))
    · exact .of_eq (Mem.store_headerBuf _ other)
  have replied : Builds fuseIo (readClamped ring rbytesBuf mem)
      (readHeaded ring fuseIo rbytesBuf mem) := by
    refine builds_of_unique ?_ rfl
    rw [readHeaded, readReply, outHeader, Mem.load_store_same]
    exact Nat.mod_eq_of_lt (requestUnique_lt _ fuseIo)
  exact ⟨replied.carries, clamped.trans replied.header⟩

theorem writeFilled_builds (rbytesBuf : Ptr) :
    Builds fuseIo mem (writeFilled fuseIo rbytesBuf mem) :=
  (writeFilled_headed fuseIo rbytesBuf mem).builds rfl

/-- The fallback reply of a write keeps the number of its success reply. -/
theorem writeFailed_builds (rc : Int) (carries : Matches fuseIo mem) :
    Builds fuseIo mem (writeFailed fuseIo rc mem) := by
  refine builds_of_unique (Eq.trans ?_ carries) rfl
  rw [writeFailed, Mem.load_store_apart _ (Mem.apart_same (by decide)),
    Mem.load_store_apart _ (Mem.apart_same (by decide))]

theorem writeShort_builds (rc : Int) (carries : Matches fuseIo mem) :
    Builds fuseIo mem (writeShort fuseIo rc mem) := by
  refine builds_of_unique (Eq.trans ?_ carries) rfl
  have start : (fuseIo.scratchBuf.add OutHeader.size).offset = OutHeader.size := Nat.zero_add _
  have front : OutHeader.unique.offset + OutHeader.unique.width = OutHeader.size := rfl
  have zero : fuseIo.scratchBuf.offset = 0 := rfl
  rw [writeShort, Mem.load_store_apart _ (Or.inr (Or.inr (by omega)))]

/-- The number in a listing. -/
theorem readdirReply_unique (unique offset : Nat) (small : unique < 2 ^ 64) :
    OutHeader.unique.load (ofList (readdirReply unique offset)) 0 = unique := by
  let header : Buffer := OutHeader.unique.store
    (OutHeader.error.store (ofList (List.replicate OutHeader.size 0)) 0 0) 0 unique
  obtain ⟨listing, outBuf⟩ : ∃ listing, (if offset = 0 then
      rootEntries (slice header 0 OutHeader.size) else slice header 0 OutHeader.size) =
        slice header 0 OutHeader.size ++ listing := by
    split
    · exact ⟨rootEntries [], rootEntries_append _⟩
    · exact ⟨[], (List.append_nil _).symm⟩
  have reply : readdirReply unique offset =
      slice (OutHeader.len.store (ofList (slice header 0 OutHeader.size ++ listing)) 0
        (slice header 0 OutHeader.size ++ listing).length) 0
        (slice header 0 OutHeader.size ++ listing).length := by
    rw [← outBuf]
    rfl
  have length : OutHeader.size ≤ (slice header 0 OutHeader.size ++ listing).length := by
    rw [List.length_append, length_slice]
    exact Nat.le_add_right _ _
  have inside : ∀ {index}, index < 8 → 8 + index < OutHeader.size := by
    intro index small
    rw [OutHeader.size]
    omega
  calc OutHeader.unique.load (ofList (readdirReply unique offset)) 0
      = load (OutHeader.len.store (ofList (slice header 0 OutHeader.size ++ listing)) 0
          (slice header 0 OutHeader.size ++ listing).length) 8 8 := by
        have front : 0 + OutHeader.unique.offset + OutHeader.unique.width ≤ OutHeader.size := by
          decide
        rw [reply]
        exact load_slice (front.trans length)
    _ = load (ofList (slice header 0 OutHeader.size ++ listing)) 8 8 :=
        load_store_disjoint (by decide)
    _ = load (ofList (slice header 0 OutHeader.size)) 8 8 := by
        refine load_congr fun index small => ofList_append ?_
        rw [length_slice]
        exact inside small
    _ = load header 8 8 := load_slice (by decide)
    _ = unique := load_store_same_of_lt small

end Builds

/-! ### The functions -/

section Functions

open Program

variable {fuseIo : FuseIo} {mem : Mem} {own : List (Nat × Option Sqe)} {hold : Hold}

/-- A call. -/
theorem alone_awaitInt {conduct : Conduct} {function : Function} {task : Coro Int}
    {post : Hold → Prop} (holds : wp (alone conduct) task hold fun _ => post) :
    wp (alone conduct) (awaitInt function task) hold fun _ => post := by
  rw [awaitInt, wp_await]
  exact wp_mono task (fun _ _ held => ⟨trivial, held⟩) holds

theorem alone_awaitPointer {conduct : Conduct} {function : Function} {task : Coro (Option Ptr)}
    {post : Option Ptr → Hold → Prop} (holds : wp (alone conduct) task hold post) :
    wp (alone conduct) (awaitPointer function task) hold post := by
  rw [awaitPointer, wp_await]
  exact wp_mono task (fun _ _ held => ⟨trivial, held⟩) holds

theorem proper_sendReply (carries : Matches fuseIo mem) :
    wp (alone proper) (sendReply fuseIo) ⟨some (fuseIo, mem), []⟩
      fun _ after => after.On fuseIo := by
  refine alone_getSqe (wp_pure (Hold.on fuseIo mem _)) fun index fresh => alone_loadMem ?_
  refine alone_prep_last fresh (alone_getSqe alone_prep_none fun index' fresh' => ?_)
  refine alone_pair fresh' (Proper.reply ⟨rfl, carries⟩ rfl) fun rcs mem' _ => ?_
  exact wp_ite (fun _ => wp_pure (Hold.on fuseIo mem' _)) fun _ => wp_pure (Hold.on fuseIo mem' _)

theorem proper_sendReplyBuf {buf : List UInt8}
    (carries : OutHeader.unique.load (ofList buf) 0 = requestUnique mem fuseIo) :
    wp (alone proper) (sendReplyBuf fuseIo buf) ⟨some (fuseIo, mem), []⟩
      fun _ after => after.On fuseIo := by
  refine alone_getSqe (wp_pure (Hold.on fuseIo mem _)) fun index fresh => alone_prep_last fresh ?_
  refine alone_getSqe (wp_pure (Hold.on fuseIo mem _)) fun index' fresh' => ?_
  have proper : Proper fuseIo mem [⟨.write (.pipe1 fuseIo) buf, .link⟩,
      ⟨.splice (.pipe0 fuseIo) (-1) (.fuse fuseIo) (-1) buf.length, .none⟩] :=
    .reply carries rfl
  refine alone_pair fresh' proper fun rcs mem' _ => ?_
  exact wp_ite (fun _ => wp_pure (Hold.on fuseIo mem' _)) fun _ => wp_pure (Hold.on fuseIo mem' _)

theorem proper_replyWith {build : Mem → Mem} (builds : Builds fuseIo mem (build mem)) :
    wp (alone proper) (replyWith fuseIo build) ⟨some (fuseIo, mem), []⟩
      fun _ after => after.On fuseIo :=
  alone_loadMem (alone_storeMem builds.header (alone_awaitInt (proper_sendReply builds.carries)))

/-- The chain of a read: the header is a reply. -/
theorem Proper.volume_read (readOffset readSize len : Nat) (carries : Matches fuseIo mem) :
    Proper fuseIo mem
      [⟨.writeFixed (.pipe1 fuseIo) fuseIo.scratchBuf OutHeader.size, .link⟩,
        ⟨.splice .backing (int64 readOffset) (.pipe1 fuseIo) (-1) readSize, .link⟩,
        ⟨.splice (.pipe0 fuseIo) (-1) (.fuse fuseIo) (-1) len, .none⟩] := by
  refine ⟨⟨Link.noConfusion, Link.noConfusion, rfl⟩, ?_, fun _ => ?_⟩
  · simp only [List.forall_mem_cons, List.not_mem_nil, false_imp_iff, implies_true, and_true]
    exact ⟨⟨rfl, carries⟩, trivial, trivial⟩
  · simp only [List.forall_mem_cons, List.not_mem_nil, false_imp_iff, implies_true, and_true]
    exact ⟨rfl, rfl, rfl⟩

/-- The chain of a write: the reply is sent behind the data. -/
theorem Proper.volume_write (writeOffset writeSize len : Nat) (carries : Matches fuseIo mem) :
    Proper fuseIo mem
      [⟨.splice (.pipe0 fuseIo) (-1) .backing (int64 writeOffset) writeSize, .link⟩,
        ⟨.writeFixed (.pipe1 fuseIo) fuseIo.scratchBuf len, .link⟩,
        ⟨.splice (.pipe0 fuseIo) (-1) (.fuse fuseIo) (-1) len, .none⟩] := by
  refine ⟨⟨Link.noConfusion, Link.noConfusion, rfl⟩, ?_, fun _ => ?_⟩
  · simp only [List.forall_mem_cons, List.not_mem_nil, false_imp_iff, implies_true, and_true]
    exact ⟨trivial, ⟨rfl, carries⟩, trivial⟩
  · simp only [List.forall_mem_cons, List.not_mem_nil, false_imp_iff, implies_true, and_true]
    exact ⟨rfl, rfl, rfl⟩

theorem proper_handleRead (ring : FuseRing) {rbytesBuf : Ptr} (outside : rbytesBuf.Outside) :
    wp (alone proper) (handleRead ring fuseIo rbytesBuf) ⟨some (fuseIo, mem), []⟩
      fun _ after => after.On fuseIo := by
  refine alone_loadMem (wp_ite (fun _ => proper_replyWith readRefusal_builds) fun _ => ?_)
  have builds : Builds fuseIo mem (readHeaded ring fuseIo rbytesBuf mem) :=
    readHeaded_builds ring outside
  refine alone_storeMem builds.header (alone_triple (Proper.volume_read _ _ _ builds.carries)
    (fun _ => wp_pure (Hold.on fuseIo _ _)) fun rcs mem' _ => ?_)
  split_ifs <;> exact wp_pure (Hold.on fuseIo mem' _)

theorem proper_handleWrite (rbytesBuf : Ptr) :
    wp (alone proper) (handleWrite fuseIo rbytesBuf) ⟨some (fuseIo, mem), []⟩
      fun _ after => after.On fuseIo := by
  refine alone_loadMem (wp_ite (fun _ => proper_replyWith (bareReply_builds _)) fun _ => ?_)
  refine wp_ite (fun _ => proper_replyWith (bareReply_builds _)) fun _ => ?_
  have builds : Builds fuseIo mem (writeFilled fuseIo rbytesBuf mem) := writeFilled_builds rbytesBuf
  have chain := Proper.volume_write (mem.load rbytesBuf WriteIn.offset)
    (mem.load rbytesBuf WriteIn.count)
    ((writeFilled fuseIo rbytesBuf mem).load fuseIo.scratchBuf OutHeader.len) builds.carries
  refine alone_storeMem builds.header (alone_triple chain
    (fun _ => wp_pure (Hold.on fuseIo _ _)) fun rcs mem' receives => ?_)
  have still := receives.still (chain.quiet ⟨_, List.mem_cons_of_mem _ List.mem_cons_self, rfl⟩)
  have carries : Matches fuseIo mem' := still ▸ builds.carries
  refine wp_ite (fun _ => proper_replyWith (writeFailed_builds _ carries)) fun _ => ?_
  refine wp_ite (fun _ => proper_replyWith (writeShort_builds _ carries)) fun _ => ?_
  exact wp_ite (fun _ => wp_pure (Hold.on fuseIo mem' _)) fun _ => wp_pure (Hold.on fuseIo mem' _)

theorem proper_dispatch (ring : FuseRing) (opcode : Nat) {rbytesBuf : Ptr}
    (outside : rbytesBuf.Outside) :
    wp (alone proper) (dispatch ring fuseIo opcode rbytesBuf) ⟨some (fuseIo, mem), []⟩
      fun _ after => after.On fuseIo := by
  unfold dispatch
  split
  · exact alone_awaitInt (alone_loadMem (alone_awaitInt
      (proper_replyWith (attrReply_builds ring _))))
  · exact alone_awaitInt (alone_loadMem (alone_awaitInt
      (proper_replyWith (attrReply_builds ring _))))
  · exact alone_awaitInt (proper_replyWith (openReply_builds rbytesBuf _ _))
  · exact alone_awaitInt (alone_loadMem (alone_awaitInt
      (proper_sendReplyBuf (readdirReply_unique _ _ (requestUnique_lt mem fuseIo)))))
  · exact alone_awaitInt (proper_replyWith (bareReply_builds _))
  · exact alone_awaitInt (proper_replyWith (lookupReply_builds ring rbytesBuf))
  · exact alone_awaitInt (proper_replyWith (openReply_builds rbytesBuf _ _))
  · exact alone_awaitInt (proper_handleRead ring outside)
  · exact alone_awaitInt (proper_replyWith (bareReply_builds _))
  · exact alone_awaitInt (proper_handleWrite rbytesBuf)
  · exact alone_awaitInt (proper_replyWith (bareReply_builds _))

/-! ### Reading a request -/

/-- The slot is held, and with a result no entry is left over. -/
def Hold.Clear (fuseIo : FuseIo) (after : Hold) (goesOn : Prop) : Prop :=
  after.On fuseIo ∧ (goesOn → after.own = [])

theorem Hold.clear (fuseIo : FuseIo) (mem : Mem) (goesOn : Prop) :
    Hold.Clear fuseIo ⟨some (fuseIo, mem), []⟩ goesOn := ⟨Hold.on fuseIo mem [], fun _ => rfl⟩

theorem Hold.clear_of_not {goesOn : Prop} (ends : ¬ goesOn) :
    Hold.Clear fuseIo ⟨some (fuseIo, mem), own⟩ goesOn :=
  ⟨Hold.on fuseIo mem own, fun holds => absurd holds ends⟩

/-- Nothing but the slot is held. -/
theorem Hold.Clear.bare {after : Hold} {goesOn : Prop} (clear : after.Clear fuseIo goesOn)
    (holds : goesOn) : ∃ mem, after = ⟨some (fuseIo, mem), []⟩ := by
  obtain ⟨⟨mem, slot⟩, none⟩ := clear
  obtain ⟨held, own⟩ := after
  obtain rfl : held = some (fuseIo, mem) := slot
  obtain rfl : own = [] := none holds
  exact ⟨mem, rfl⟩

/-- The loop of `read_rbytes`, by the bytes that are missing. -/
theorem proper_readRbytesLoop (target : Ptr) (rbytes missing : Nat) :
    ∀ readDone mem, rbytes - readDone = missing →
      wp (alone proper) (readRbytesLoop fuseIo target rbytes readDone) ⟨some (fuseIo, mem), []⟩
        fun complete after => after.Clear fuseIo (complete = true) := by
  induction missing using Nat.strong_induction_on with
  | _ missing ih =>
    intro readDone mem left
    rw [readRbytesLoop]
    refine alone_getSqe (wp_pure (Hold.clear_of_not Bool.false_ne_true)) fun index _ => ?_
    refine alone_one Proper.one_read fun rc mem' _ => ?_
    split
    case isTrue => exact wp_pure (Hold.clear_of_not Bool.false_ne_true)
    case isFalse positive =>
      split
      case isTrue more => exact ih (rbytes - (readDone + rc.toNat)) (by omega) _ _ rfl
      case isFalse => exact wp_pure (Hold.clear fuseIo mem' _)

/-- What `read_rbytes` returns. -/
def Hold.Handed (fuseIo : FuseIo) (buf : Option Ptr) (after : Hold) : Prop :=
  after.Clear fuseIo (buf ≠ none) ∧ ∀ pointer ∈ buf, pointer.Outside

theorem Hold.handed {pointer : Ptr} (outside : pointer.Outside) :
    Hold.Handed fuseIo (some pointer) ⟨some (fuseIo, mem), []⟩ := by
  refine ⟨Hold.clear fuseIo mem _, fun other same => ?_⟩
  cases same
  exact outside

theorem Hold.handed_none {after : Hold} (held : after.On fuseIo) :
    Hold.Handed fuseIo none after :=
  ⟨⟨held, fun impossible => absurd rfl impossible⟩, fun _ same => by cases same⟩

theorem proper_readRbytes (rbytes : Nat) (addZero : Bool) (initRead : Nat) :
    wp (alone proper) (readRbytes fuseIo rbytes addZero initRead) ⟨some (fuseIo, mem), []⟩
      fun buf after => after.Handed fuseIo buf := by
  have scratch : fuseIo.scratchBuf.Outside := Or.inl Region.noConfusion
  unfold readRbytes
  split
  · exact wp_pure (Hold.handed scratch)
  dsimp only
  split
  · exact wp_pure (Hold.handed (Or.inr (Nat.le_add_left _ _)))
  have region := (bodyTarget_region fuseIo rbytes addZero).symm
  refine alone_loadMem (alone_storeMem
    (.of_eq ((Mem.copy_headerBuf _ region).trans (resized_headerBuf rbytes addZero mem))) ?_)
  have ending : ∀ (complete : Bool) (after : Hold), after.Clear fuseIo (complete = true) →
      wp (alone proper) (if complete then do
          if addZero then
            let mem ← loadMem fuseIo
            storeMem fuseIo (mem.copy ((bodyTarget fuseIo rbytes addZero).add rbytes) [0])
          return some (bodyTarget fuseIo rbytes addZero)
        else return none) after fun buf after => after.Handed fuseIo buf := by
    intro complete after holds
    cases complete with
    | false => exact wp_pure (Hold.handed_none holds.1)
    | true =>
      obtain ⟨mem, rfl⟩ := holds.bare rfl
      cases addZero with
      | false => exact wp_pure (Hold.handed (Or.inl region))
      | true =>
        refine alone_loadMem (alone_storeMem (.of_eq (Mem.copy_headerBuf _ region)) ?_)
        exact wp_pure (Hold.handed (Or.inl region))
  split
  · exact wp_seq _ (proper_readRbytesLoop _ rbytes _ initRead _ rfl) ending
  · exact ending true _ (Hold.clear fuseIo _ _)

/-- The loop that completes a short header, by the bytes that are missing. -/
theorem proper_readHeaderLoop (missing : Nat) :
    ∀ initRead mem, InHeader.size - initRead = missing →
      wp (alone proper) (readHeaderLoop fuseIo initRead) ⟨some (fuseIo, mem), []⟩
        fun read after => after.Clear fuseIo (read ≠ none) := by
  induction missing using Nat.strong_induction_on with
  | _ missing ih =>
    intro initRead mem left
    rw [readHeaderLoop]
    refine alone_getSqe alone_prep_none fun index _ => alone_one Proper.one_read fun rc mem' _ => ?_
    split
    case isTrue => exact wp_pure (Hold.clear_of_not (not_not.mpr rfl))
    case isFalse positive =>
      split
      case isTrue more => exact ih (InHeader.size - (initRead + rc.toNat)) (by omega) _ _ rfl
      case isFalse => exact wp_pure (Hold.clear fuseIo mem' _)

theorem proper_readHeader (initRead : Int) :
    wp (alone proper) (readHeader fuseIo initRead) ⟨some (fuseIo, mem), []⟩
      fun read after => after.Clear fuseIo (read ≠ none) := by
  unfold readHeader
  exact wp_ite (fun _ => proper_readHeaderLoop _ _ _ rfl)
    fun _ => wp_pure (Hold.clear fuseIo mem _)

theorem proper_serveRequest (ring : FuseRing) (rbytes initRead : Nat) :
    wp (alone proper) (serveRequest ring fuseIo rbytes initRead) ⟨some (fuseIo, mem), []⟩
      fun _ after => after.On fuseIo := by
  refine alone_loadMem ?_
  dsimp only
  split
  · split
    · exact wp_pure (Hold.on fuseIo mem _)
    · refine wp_seq (fun buf after => after.Handed fuseIo buf)
        (alone_awaitPointer (proper_readRbytes _ _ _)) fun buf after handed => ?_
      cases buf with
      | none => exact wp_pure handed.1.1
      | some rbytesBuf =>
        obtain ⟨mem, rfl⟩ := handed.1.bare (Option.some_ne_none _)
        exact alone_loadMem (proper_dispatch ring _ (handed.2 rbytesBuf rfl))
  · exact proper_dispatch ring _ (Or.inl Region.noConfusion)

/-- Behind a header: the coroutine ends, or serves the request. -/
theorem proper_behindHeader (ring : FuseRing) {rbytes : Nat} {rest : Option Nat → Coro Int}
    (ends : rest none = pure (-1)) (serves : ∀ initRead, rest
      (some initRead) = serveRequest ring fuseIo rbytes initRead) :
    ∀ (read : Option Nat) (after : Hold), after.Clear fuseIo (read ≠ none) →
      wp (alone proper) (rest read) after fun _ after => after.On fuseIo := by
  intro read after clear
  cases read with
  | none =>
    rw [ends]
    exact wp_pure clear.1
  | some initRead =>
    obtain ⟨mem, rfl⟩ := clear.bare (Option.some_ne_none _)
    rw [serves]
    exact proper_serveRequest ring _ _

/-- The chain that takes a request. -/
theorem Proper.request (nbytes nbytes' : Nat) : Proper fuseIo mem
    [⟨.splice (.fuse fuseIo) (-1) (.pipe1 fuseIo) (-1) nbytes, .hardlink⟩,
      ⟨.read (.pipe0 fuseIo) fuseIo.headerBuf nbytes', .none⟩] := by
  refine ⟨⟨Link.noConfusion, rfl⟩, fun sqe member => ?_, fun ⟨sqe, member, replies⟩ => ?_⟩
  · rcases List.mem_pair.mp member with rfl | rfl <;> trivial
  · rcases List.mem_pair.mp member with rfl | rfl <;> cases replies

theorem proper_queueFuseReadBody (ring : FuseRing) :
    wp (alone proper) (queueFuseReadBody ring fuseIo) ⟨some (fuseIo, mem), []⟩
      fun _ after => after.On fuseIo := by
  refine alone_getSqe ?_ fun index fresh => ?_
  · exact alone_getSqe (wp_pure (Hold.on fuseIo mem _)) fun index' _ =>
      wp_ite (fun _ => wp_pure (Hold.on fuseIo mem _)) fun both => absurd (Or.inl rfl) both
  refine alone_getSqe (wp_ite (fun _ => wp_pure (Hold.on fuseIo mem _))
    fun both => absurd (Or.inr rfl) both) fun index' fresh' => ?_
  rw [if_neg (by simp)]
  have different : index' ≠ index := fun same => fresh' (same ▸ List.mem_singleton_self _)
  refine alone_prep_first different ?_
  refine alone_pair fresh' (Proper.request _ _) fun rcs mem' _ => ?_
  dsimp only
  split
  · exact wp_pure (Hold.on fuseIo mem' _)
  exact wp_seq _ (proper_readHeader _) (proper_behindHeader ring rfl fun _ => rfl)

theorem proper_queueFuseRead (ring : FuseRing) :
    wp (alone proper) (queueFuseRead ring) .nothing fun _ _ => True := by
  rw [queueFuseRead, getFuseIo, wp_ask_bind]
  intro fuseIo mem
  refine wp_seq (fun _ after => Hold.On fuseIo after) (proper_queueFuseReadBody ring)
    fun rc after _ => ?_
  rw [releaseFuseIo, wp_ask_bind]
  exact wp_pure trivial

/-- **Every coroutine of the program is proper.** -/
theorem proper_queueReadSetRc (ring : FuseRing) : Proved proper ring := by
  refine wp_seq (fun _ _ => True) (alone_awaitInt (proper_queueFuseRead ring)) fun rc after _ => ?_
  split
  · rw [setLastRc, wp_ask_bind]
    exact wp_pure trivial
  · exact wp_pure trivial

end Functions

end Fuseuring
