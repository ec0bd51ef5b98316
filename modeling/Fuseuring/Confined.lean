/-
**Programs that stay inside the buffers.**

A coroutine loads and stores the memory of its slot as a whole, and does not say which bytes of it
it touches. Two of its runs show that: they start from memories that agree inside the buffers
and are answered alike. What is written outside of a buffer changes there, and what is read outside
differs between the two. `Confining` excludes both at every store, and it asks of every entry that
its read fits its buffer. The sizes are those of the memory at that moment, the vector's that of its
last `resize`.

* `Mem.Agrees.copy` to `Mem.keepsTo_copy` — what `memcpy`, an assignment and `resize` do.
* `memcpy_inside` — a copy between two buffers that goes past the end of either is seen.
* `confined_loadMem` to `confined_one` — the rules for the operations.
* `confined_readHeader`, `confined_readRbytes` — reading a request, whatever the kernel answers.
-/

import Fuseuring.Library.Twin
import Fuseuring.Receive

namespace Fuseuring

open Bytes Interaction Program

/-! ### Memories -/

/-- The vectors have one size, and the buffers hold the same bytes. -/
structure Mem.Agrees (mem mem' : Mem) : Prop where
  freeSize : mem.freeSize = mem'.freeSize
  bytes : ∀ region, ∀ index < mem.size region, mem.buffer region index = mem'.buffer region index

/-- From one memory to the next the vector may be given a size, and then nothing changes but inside
the buffers. -/
def Mem.KeepsTo (mem after : Mem) : Prop :=
  ∃ base, (base = mem ∨ ∃ count, base = mem.resize count) ∧ after.freeSize = base.freeSize ∧
    ∀ region index, base.size region ≤ index → after.buffer region index = base.buffer region index

section Memories

variable {mem mem' : Mem} {pointer : Ptr} {count : Nat}

theorem Mem.Agrees.size_eq (agrees : mem.Agrees mem') : mem.size = mem'.size := by
  funext region
  cases region with
  | free => exact agrees.freeSize
  | _ => rfl

theorem Mem.Agrees.copy (agrees : mem.Agrees mem') (pointer : Ptr) (bytes : List UInt8) :
    (mem.copy pointer bytes).Agrees (mem'.copy pointer bytes) := by
  refine ⟨by simpa using agrees.freeSize, fun region index inside => ?_⟩
  rw [Mem.size_copy] at inside
  by_cases same : region = pointer.region
  · subst same
    rw [Mem.copy, Mem.copy, Mem.buffer_setBuffer_same, Mem.buffer_setBuffer_same, write, write,
      agrees.bytes _ index inside]
  · rw [Mem.copy, Mem.copy, Mem.buffer_setBuffer_ne same, Mem.buffer_setBuffer_ne same]
    exact agrees.bytes region index inside

theorem Mem.Agrees.resize (agrees : mem.Agrees mem') (count : Nat) :
    (mem.resize count).Agrees (mem'.resize count) := by
  refine ⟨rfl, fun region index inside => ?_⟩
  cases region with
  | free => rfl
  | header => exact agrees.bytes .header index inside
  | scratch => exact agrees.bytes .scratch index inside
  | wild => exact agrees.bytes .wild index inside

/-- What is read inside a buffer is the same. -/
theorem Mem.Agrees.bytes_eq (agrees : mem.Agrees mem') (holds : pointer.Holds mem.size count) :
    mem.bytes pointer count = mem'.bytes pointer count := by
  rw [Ptr.Holds] at holds
  exact slice_congr fun index inside => agrees.bytes _ _ (by omega)

/-- `memcpy` into a buffer, behind a `resize` or not. -/
theorem Mem.keepsTo_copy {base : Mem} (sized : base = mem ∨ ∃ count, base = mem.resize count)
    {bytes : List UInt8} (holds : pointer.Holds base.size bytes.length) :
    mem.KeepsTo (base.copy pointer bytes) := by
  refine ⟨base, sized, Mem.freeSize_copy base pointer bytes, fun region index outside => ?_⟩
  rw [Ptr.Holds] at holds
  by_cases same : region = pointer.region
  · subst same
    rw [Mem.copy, Mem.buffer_setBuffer_same, write_outside (Or.inr (by omega))]
  · rw [Mem.copy, Mem.buffer_setBuffer_ne same]

end Memories

/-! ### Two runs -/

/-- The memories of two runs of one program, and the read that they have prepared: its entry, its
buffer and how many bytes it asks for. -/
structure Sides where
  mem : Mem
  mem' : Mem
  asked : Option (Nat × Ptr × Nat)

/-- **Two runs inside the buffers.** The completion of a read may leave any bytes in the part of the
buffer that was asked for; a null entry that is prepared ends them. -/
inductive Confining : Pairing coroutines Sides
  | load {fuseIo : FuseIo} {sides : Sides} {post : Mem → Mem → Sides → Prop} :
      post sides.mem sides.mem' sides → Confining (.load fuseIo) (.load fuseIo) sides post
  | store {fuseIo : FuseIo} {mem mem' : Mem} {sides : Sides} {post : Unit → Unit → Sides → Prop} :
      mem.Agrees mem' → sides.mem.KeepsTo mem → sides.mem'.KeepsTo mem' →
      post () () { sides with mem := mem, mem' := mem' } →
      Confining (.store fuseIo mem) (.store fuseIo mem') sides post
  | getSqe {peek : Nat} {sides : Sides} {post : SqeRef → SqeRef → Sides → Prop} :
      (∀ ref, post ref ref sides) → Confining (.getSqe peek) (.getSqe peek) sides post
  | null {entry : Sqe} {sides : Sides} {post : Unit → Unit → Sides → Prop} :
      Confining (.prep none entry) (.prep none entry) sides post
  | read {index : Nat} {fd : Fd} {buf : Ptr} {nbytes : Nat} {flag : Link} {sides : Sides}
      {post : Unit → Unit → Sides → Prop} :
      buf.Holds sides.mem.size nbytes →
      post () () { sides with asked := some (index, buf, nbytes) } →
      Confining (.prep (some index) ⟨.read fd buf nbytes, flag⟩)
        (.prep (some index) ⟨.read fd buf nbytes, flag⟩) sides post
  | complete {index : Nat} {buf : Ptr} {nbytes : Nat} {sides : Sides}
      {post : List Int → List Int → Sides → Prop} :
      sides.asked = some (index, buf, nbytes) →
      (∀ (rc : Int) (bytes : List UInt8), rc ≤ nbytes → bytes.length ≤ nbytes →
        post [rc] [rc] ⟨sides.mem.copy buf bytes, sides.mem'.copy buf bytes, none⟩) →
      Confining (.complete [some index]) (.complete [some index]) sides post

/-- **The program stays inside the buffers**, from any memory. -/
def Confined {α : Type} (program : Coro α) : Prop :=
  ∀ mem mem' : Mem, mem.Agrees mem' → Twin Confining program program ⟨mem, mem', none⟩
    fun _ after => after.mem.Agrees after.mem'

/-! ### What the notion sees -/

/-- `memcpy`. -/
def memcpy (fuseIo : FuseIo) (target source : Ptr) (count : Nat) : Coro Unit := do
  let mem ← loadMem fuseIo
  storeMem fuseIo (mem.copy target (mem.bytes source count))

section Adequacy

variable {fuseIo : FuseIo} {target source : Ptr} {count : Nat}

theorem Confined.memcpy (confined : Confined (memcpy fuseIo target source count))
    {mem mem' : Mem} (agrees : mem.Agrees mem') :
    (mem.copy target (mem.bytes source count)).Agrees
      (mem'.copy target (mem'.bytes source count)) ∧
    mem.KeepsTo (mem.copy target (mem.bytes source count)) := by
  have twins := confined mem mem' agrees
  cases twins with
  | perform middle loaded rest =>
    cases loaded with
    | load held =>
      have stores := rest _ _ _ held
      cases stores with
      | perform middle' stored rest' =>
        cases stored with
        | store agrees' keeps keeps' _ => exact ⟨agrees', keeps⟩

/-- The last byte that is copied. -/
theorem copied_last (mem : Mem) (some : 0 < count) :
    (mem.copy target (mem.bytes source count)).buffer target.region (target.offset + (count - 1)) =
      mem.buffer source.region (source.offset + (count - 1)) := by
  have within : count - 1 < (mem.bytes source count).length := by
    rw [Mem.bytes, length_slice]
    omega
  rw [Mem.copy, Mem.buffer_setBuffer_same, write_inside within, Mem.bytes,
    List.getD_eq_getElem?_getD, slice_getElem _ _ _ _ (by omega), Option.getD_some]

/-- **A `memcpy` between two buffers that is confined stays inside both.** -/
theorem memcpy_inside (apart : source.region ≠ target.region) (some : 0 < count)
    (confined : Confined (memcpy fuseIo target source count)) (mem : Mem) :
    source.Holds mem.size count ∧ target.Holds mem.size count := by
  -- ones where the copy reads, twos where it writes
  let marked := (mem.setBuffer source.region fun _ => 1).setBuffer target.region fun _ => 2
  have size : marked.size = mem.size := by simp [marked]
  have ones : ∀ index, marked.buffer source.region index = 1 := by
    intro index
    rw [Mem.buffer_setBuffer_ne apart, Mem.buffer_setBuffer_same]
  have twos : ∀ index, marked.buffer target.region index = 2 := by
    intro index
    rw [Mem.buffer_setBuffer_same]
  have last := (@copied_last target source count marked some).trans (ones _)
  have inside : target.Holds mem.size count := by
    by_contra outside
    rw [Ptr.Holds] at outside
    obtain ⟨base, sized, freeSize, kept⟩ := (confined.memcpy ⟨rfl, fun _ _ _ => rfl⟩).2
    have sizes : base.size = marked.size := by
      funext region
      cases region with
      | free => exact freeSize.symm.trans (Mem.freeSize_copy _ _ _)
      | _ => rfl
    have found := (kept target.region (target.offset + (count - 1))
      (by rw [sizes, size]; omega)).symm.trans last
    rcases sized with rfl | ⟨count', rfl⟩
    · rw [twos] at found
      exact absurd found (by decide)
    · by_cases free : target.region = .free
      · have cleared : (marked.resize count').buffer .free = ofList (List.replicate count' 0) := rfl
        rw [free, cleared, ofList_replicate] at found
        exact absurd found (by decide)
      · rw [Mem.buffer_resize _ free, twos] at found
        exact absurd found (by decide)
  refine ⟨?_, inside⟩
  by_contra outside
  rw [Ptr.Holds] at outside inside
  -- the same inside the buffers, with another byte where the copy reads past the end
  let other := marked.setBuffer source.region
    (Function.update (fun _ => 1) (source.offset + (count - 1)) 3)
  have agrees : marked.Agrees other := by
    refine ⟨(congrFun (Mem.size_setBuffer _ _ _) .free).symm, fun region index within => ?_⟩
    rw [size] at within
    by_cases same : region = source.region
    · subst same
      rw [Mem.buffer_setBuffer_same, Function.update_of_ne (by omega), ones]
    · rw [Mem.buffer_setBuffer_ne same]
  have alike := (confined.memcpy agrees).1.bytes target.region
    (target.offset + (count - 1)) (by rw [Mem.size_copy, size]; omega)
  rw [last, copied_last other some, Mem.buffer_setBuffer_same, Function.update_self] at alike
  exact absurd alike (by decide)

end Adequacy

/-! ### The operations one by one -/

/-- Nothing is prepared, the memories agree, and these are the sizes of their buffers. -/
structure Sides.Fit (size : Region → Nat) (sides : Sides) : Prop where
  agrees : sides.mem.Agrees sides.mem'
  size : sides.mem.size = size
  asked : sides.asked = none

section Rules

variable {α : Type} {fuseIo : FuseIo} {sides : Sides} {size : Region → Nat}
  {post : α → Sides → Prop}

theorem confined_loadMem {next next' : Mem → Coro α}
    (rest : Twin Confining (next sides.mem) (next' sides.mem') sides post) :
    Twin Confining (loadMem fuseIo >>= next) (loadMem fuseIo >>= next') sides post := by
  refine twin_ask_bind (fun mem mem' after => mem = sides.mem ∧ mem' = sides.mem' ∧ after = sides)
    (.load ⟨rfl, rfl, rfl⟩) ?_
  rintro _ _ _ ⟨rfl, rfl, rfl⟩
  exact rest

theorem confined_storeMem {next next' : Unit → Coro α} {mem mem' : Mem}
    (agrees : mem.Agrees mem') (keeps : sides.mem.KeepsTo mem) (keeps' : sides.mem'.KeepsTo mem')
    (rest : Twin Confining (next ()) (next' ()) { sides with mem := mem, mem' := mem' } post) :
    Twin Confining (storeMem fuseIo mem >>= next) (storeMem fuseIo mem' >>= next') sides post := by
  refine twin_ask_bind (fun _ _ after => after = { sides with mem := mem, mem' := mem' })
    (.store agrees keeps keeps' rfl) ?_
  rintro _ _ _ rfl
  exact rest

theorem confined_getSqe {next : SqeRef → Coro α} {peek : Nat}
    (missing : Twin Confining (next none) (next none) sides post)
    (taken : ∀ index, Twin Confining (next (some index)) (next (some index)) sides post) :
    Twin Confining (getSqe peek >>= next) (getSqe peek >>= next) sides post := by
  refine twin_ask_bind (fun ref ref' after => ref = ref' ∧ after = sides)
    (.getSqe fun ref => ⟨rfl, rfl⟩) ?_
  rintro ref _ _ ⟨rfl, rfl⟩
  cases ref with
  | none => exact missing
  | some index => exact taken index

theorem confined_prep_none {next : Unit → Coro α} {operation : Operation} {flag : Link} :
    Twin Confining (prep none operation flag >>= next) (prep none operation flag >>= next)
      sides post :=
  twin_ask_bind (fun _ _ _ => False) .null fun _ _ _ never => never.elim

/-- One read, and what it returned. -/
theorem confined_one {fd : Fd} {buf : Ptr} {nbytes index : Nat} {flag : Link}
    {next : Int → Coro α} (fit : sides.Fit size) (holds : buf.Holds size nbytes)
    (rest : ∀ (rc : Int) after, rc ≤ nbytes → after.Fit size →
      Twin Confining (next rc) (next rc) after post) :
    Twin Confining (do
      prep (some index) (.read fd buf nbytes) flag
      let rc ← completeOne (some index)
      next rc) (do
      prep (some index) (.read fd buf nbytes) flag
      let rc ← completeOne (some index)
      next rc) sides post := by
  have inside : buf.Holds sides.mem.size nbytes := fit.size.symm ▸ holds
  refine twin_ask_bind (fun _ _ after => after = { sides with asked := some (index, buf, nbytes) })
    (.read inside rfl) ?_
  rintro _ _ _ rfl
  have completed : Confining (.complete [some index]) (.complete [some index])
      { sides with asked := some (index, buf, nbytes) } fun results results' after => ∃ rc : Int,
        rc ≤ nbytes ∧ results = [rc] ∧ results' = [rc] ∧ after.Fit size := by
    refine .complete rfl fun rc bytes bound _ => ⟨rc, bound, rfl, rfl, ?_⟩
    exact ⟨fit.agrees.copy buf bytes, (Mem.size_copy _ _ _).trans fit.size, rfl⟩
  refine twin_ask_bind _ completed ?_
  rintro _ _ after ⟨rc, bound, rfl, rfl, fit'⟩
  exact rest rc after bound fit'

end Rules

/-! ### Reading a request -/

section Reading

variable {fuseIo : FuseIo} {sides : Sides} {size : Region → Nat}

/-- A part of a buffer. -/
theorem Ptr.Holds.part {buf : Ptr} {total start count : Nat} (holds : buf.Holds size total)
    (inside : start + count ≤ total) : (buf.add start).Holds size count := by
  rw [Ptr.Holds] at holds ⊢
  show buf.offset + start + count ≤ size buf.region
  omega

/-- The loop of `read_rbytes`, by the bytes that are missing. -/
theorem confined_readRbytesLoop {target : Ptr} {rbytes : Nat} (small : rbytes < 2 ^ 32)
    (holds : target.Holds size rbytes) (missing : Nat) :
    ∀ readDone sides, readDone ≤ rbytes → rbytes - readDone = missing → Sides.Fit size sides →
      Twin Confining (readRbytesLoop fuseIo target rbytes readDone)
        (readRbytesLoop fuseIo target rbytes readDone) sides fun _ after => after.Fit size := by
  induction missing using Nat.strong_induction_on with
  | _ missing ih =>
    intro readDone sides within left fit
    rw [readRbytesLoop]
    have whole : readDone + readLeft rbytes readDone ≤ rbytes := by
      rw [readLeft_eq small within]
      omega
    refine confined_getSqe (twin_pure fit) fun index =>
      confined_one fit (holds.part whole) fun rc after bound fit' => ?_
    split
    case isTrue => exact twin_pure fit'
    case isFalse positive =>
      split
      case isTrue more =>
        exact ih (rbytes - (readDone + rc.toNat)) (by omega) _ _ more.le rfl fit'
      case isFalse => exact twin_pure fit'

/-- The loop that completes a short header, by the bytes that are missing. It never reads more. -/
theorem confined_readHeaderLoop (front : fuseIo.headerBuf.Holds size InHeader.size)
    (missing : Nat) :
    ∀ initRead sides, initRead ≤ InHeader.size → InHeader.size - initRead = missing →
      Sides.Fit size sides →
      Twin Confining (readHeaderLoop fuseIo initRead) (readHeaderLoop fuseIo initRead) sides
        fun read after => after.Fit size ∧ ∀ count, read = some count → count = InHeader.size := by
  induction missing using Nat.strong_induction_on with
  | _ missing ih =>
    intro initRead sides within left fit
    rw [readHeaderLoop]
    have whole : initRead + (InHeader.size - initRead) ≤ InHeader.size := by omega
    refine confined_getSqe confined_prep_none fun index =>
      confined_one fit (front.part whole) fun rc after bound fit' => ?_
    split
    case isTrue =>
      exact twin_pure ⟨fit', fun _ impossible => absurd impossible.symm (Option.some_ne_none _)⟩
    case isFalse positive =>
      split
      case isTrue more =>
        exact ih (InHeader.size - (initRead + rc.toNat)) (by omega) _ _ more.le rfl fit'
      case isFalse all =>
        refine twin_pure ⟨fit', fun count same => ?_⟩
        obtain rfl := Option.some.inj same
        omega

/-- **The header** is read inside `header_buf`. -/
theorem confined_readHeader {initRead : Int} (front : fuseIo.headerBuf.Holds size InHeader.size)
    (fit : sides.Fit size) :
    Twin Confining (readHeader fuseIo initRead) (readHeader fuseIo initRead) sides
      fun read after => after.Fit size ∧
        ∀ count, read = some count → (count : Int) = max initRead InHeader.size := by
  unfold readHeader
  refine twin_ite (fun short => ?_) fun other => twin_pure ⟨fit, fun count same => ?_⟩
  · refine twin_mono (confined_readHeaderLoop front _ initRead.toNat sides (by omega) rfl fit)
      fun read after holds => ⟨holds.1, fun count same => ?_⟩
    have found := holds.2 count same
    omega
  · by_cases few : initRead < InHeader.size
    · rw [if_pos few] at same
      cases same
    · rw [if_neg few] at same
      obtain rfl := Option.some.inj same
      omega

/-- Giving the vector a size keeps memories alike. -/
theorem Mem.Agrees.resized {mem mem' : Mem} (agrees : mem.Agrees mem') (rbytes : Nat)
    (addZero : Bool) : (resized rbytes addZero mem).Agrees (resized rbytes addZero mem') := by
  unfold Fuseuring.resized
  by_cases fixed : rbytes + (if addZero then 1 else 0) < scratchBufSize
  · rw [if_pos fixed, if_pos fixed]
    exact agrees
  · rw [if_neg fixed, if_neg fixed]
    exact agrees.resize _

theorem resized_cases (rbytes : Nat) (addZero : Bool) (mem : Mem) :
    resized rbytes addZero mem = mem ∨ ∃ count, resized rbytes addZero mem = mem.resize count := by
  unfold resized
  by_cases fixed : rbytes + (if addZero then 1 else 0) < scratchBufSize
  · exact Or.inl (if_pos fixed)
  · exact Or.inr ⟨_, if_neg fixed⟩

/-- **The body** is copied and read inside its buffer. -/
theorem confined_readRbytes {rbytes initRead : Nat} {addZero : Bool} (small : rbytes < 2 ^ 32)
    (within : initRead ≤ rbytes) (front : initRead ≤ WriteIn.size)
    (fit : sides.Fit size) :
    Twin Confining (readRbytes fuseIo rbytes addZero initRead)
      (readRbytes fuseIo rbytes addZero initRead) sides
      fun _ after => after.mem.Agrees after.mem' := by
  unfold readRbytes
  split
  · exact twin_pure fit.agrees
  dsimp only
  split
  · exact twin_pure fit.agrees
  have alike := fit.agrees.resized rbytes addZero
  have target := @bodyTarget_holds fuseIo rbytes addZero sides.mem
  have target' := @bodyTarget_holds fuseIo rbytes addZero sides.mem'
  have source : (fuseIo.headerBuf.add InHeader.size).Holds (resized rbytes addZero sides.mem).size
      initRead := by
    show 0 + InHeader.size + initRead ≤ headerBufSize
    rw [headerBufSize]
    omega
  -- `memcpy` from `header_buf`, behind the `resize`
  have copied :
      ((resized rbytes addZero sides.mem).copy (bodyTarget fuseIo rbytes addZero)
        ((resized rbytes addZero sides.mem).bytes
          (fuseIo.headerBuf.add InHeader.size) initRead)).Agrees
      ((resized rbytes addZero sides.mem').copy (bodyTarget fuseIo rbytes addZero)
        ((resized rbytes addZero sides.mem').bytes
          (fuseIo.headerBuf.add InHeader.size) initRead)) := by
    rw [← alike.bytes_eq source]
    exact alike.copy _ _
  have start : Sides.Fit (resized rbytes addZero sides.mem).size ⟨_, _, sides.asked⟩ :=
    ⟨copied, Mem.size_copy _ _ _, fit.asked⟩
  have keeps : ∀ {mem : Mem}, (bodyTarget fuseIo rbytes addZero).Holds
      (resized rbytes addZero mem).size (rbytes + if addZero then 1 else 0) →
      mem.KeepsTo ((resized rbytes addZero mem).copy (bodyTarget fuseIo rbytes addZero)
        ((resized rbytes addZero mem).bytes (fuseIo.headerBuf.add InHeader.size) initRead)) := by
    intro mem holds
    refine Mem.keepsTo_copy (resized_cases rbytes addZero mem) ?_
    rw [Ptr.Holds] at holds ⊢
    rw [Mem.bytes, length_slice]
    omega
  have ending : ∀ (complete : Bool) (after : Sides),
      after.Fit (resized rbytes addZero sides.mem).size →
      Twin Confining (bodyEnd fuseIo rbytes addZero complete)
        (bodyEnd fuseIo rbytes addZero complete) after fun _ last => last.mem.Agrees last.mem' := by
    intro complete after fit'
    cases complete with
    | false => exact twin_pure fit'.agrees
    | true =>
      cases addZero with
      | false => exact twin_pure fit'.agrees
      | true =>
        have zero : ((bodyTarget fuseIo rbytes true).add rbytes).Holds
            (resized rbytes true sides.mem).size 1 := target.part le_rfl
        have zero' := zero
        rw [← fit'.size] at zero
        rw [← fit'.size, fit'.agrees.size_eq] at zero'
        have same := fit'.agrees.copy ((bodyTarget fuseIo rbytes true).add rbytes) [0]
        exact confined_loadMem (confined_storeMem same (Mem.keepsTo_copy (Or.inl rfl) zero)
          (Mem.keepsTo_copy (Or.inl rfl) zero') (twin_pure same))
  refine confined_loadMem (confined_storeMem copied (keeps target) (keeps target') ?_)
  split
  · have room : (bodyTarget fuseIo rbytes addZero).Holds (resized rbytes addZero sides.mem).size
        rbytes := (Nat.add_le_add_left (Nat.le_add_right _ _) _).trans target
    exact twin_seq (confined_readRbytesLoop small room _ initRead _ within rfl start) ending
  · exact ending true _ start

end Reading

end Fuseuring
