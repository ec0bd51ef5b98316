/-
**Requests are reassembled exactly.**

`reassemble` is `queue_fuse_read` from its first read of the pipe on: the header
loop, `read_rbytes` for a body of any size, and the handler. `Reassembled` is what a
handler then finds: the header and the body of the message in their buffers, nothing
written outside of them, and the rest of the message still in the pipe. Any other
run ends without the handler: those whose first read brought nothing, and no others where every
read brings something. In all of them the program stays inside the buffers.
-/

import Fuseuring.Confined
import Fuseuring.Requests

namespace Fuseuring

open Bytes Interaction Program

/-! ### Buffers and reads -/

/-- A read stays in its buffer. -/
def Operation.Inside (size : Region → Nat) : Operation → Prop
  | .read _ buf nbytes => buf.Holds size nbytes
  | _ => True

/-- What is queued and what runs stays in its buffers. -/
def Event.Inside (size : Region → Nat) : Event → Prop
  | .called _ => True
  | .queued chain _ => ∀ sqe ∈ chain, sqe.operation.Inside size
  | .ran operation _ _ _ => operation.Inside size

/-- A read returns 0 or an error. -/
def Event.Stalls : Event → Prop
  | .ran (.read _ _ _) _ _ res => res ≤ 0
  | _ => False

/-! ### Reassembly -/

/-- The header loop and `read_rbytes`, behind a first read that returned `initRead`. -/
def assemble (fuseIo : FuseIo) (rbytes : Nat) (addZero : Bool) (initRead : Int) :
    Coro (Option Ptr) := do
  let headerRead ← readHeader fuseIo initRead
  match headerRead with
  | none => return none
  | some initRead =>
    awaitPointer .readRbytes (readRbytes fuseIo rbytes addZero (initRead - InHeader.size))

/-- `queue_fuse_read` from its first read on, with the body its first switch
asked for and a handler. -/
def reassemble (fuseIo : FuseIo) (rbytes : Nat) (addZero : Bool) (initRead : Int)
    (handler : Ptr → Coro Int) :
    Coro Int := do
  let rbytesBuf ← assemble fuseIo rbytes addZero initRead
  match rbytesBuf with
  | none => return -1
  | some rbytesBuf => handler rbytesBuf

/-- **What a handler finds** of a message. The sizes are those of its memory, the vector's
included. -/
structure Reassembled (fuseIo : FuseIo) (message : List UInt8) (rbytes : Nat) (addZero : Bool)
    (before : World) (rbytesBuf : Ptr) (after : World) (events : List Event) : Prop where
  header : after.mem.bytes fuseIo.headerBuf InHeader.size = message.take InHeader.size
  place : rbytesBuf = fuseIo.headerBuf.add InHeader.size ∨ rbytesBuf = fuseIo.scratchBuf ∨
    rbytesBuf = fuseIo.freeBuf
  body : after.mem.bytes rbytesBuf rbytes = (message.drop InHeader.size).take rbytes
  zero : addZero = true → after.mem.bytes (rbytesBuf.add rbytes) 1 = [0]
  room : rbytesBuf.Holds after.mem.size (rbytes + if addZero then 1 else 0)
  front : fuseIo.headerBuf.Holds after.mem.size (InHeader.size + WriteIn.size)
  trace : after.trace = before.trace ++ events
  reads : ∀ event ∈ events, event.Inside after.mem.size
  flowing : ∀ event ∈ events, ¬ event.Stalls
  untouched : ∀ region ≠ .free, ∀ index, after.mem.size region ≤ index →
    after.mem.buffer region index = before.mem.buffer region index
  left : after.pipe = message.drop (InHeader.size + rbytes)

section Accesses

variable {fuseIo : FuseIo} {target : Ptr} {total rbytes : Nat} {addZero : Bool} {event : Event}

/-- Reads into a part of a buffer stay in the buffer. -/
theorem Event.ReadsInto.inside {size : Region → Nat} (reads : event.ReadsInto fuseIo target total)
    (holds : target.Holds size total) : event.Inside size := by
  cases reads with
  | queued mem inside =>
    intro sqe present
    rw [List.mem_singleton.mp present]
    exact holds.part inside
  | ran pipe bytes inside some => exact holds.part inside

theorem Event.ReadsInto.flowing (reads : event.ReadsInto fuseIo target total) : ¬ event.Stalls := by
  cases reads with
  | queued mem inside => exact id
  | ran pipe bytes inside some => exact not_le.mpr some

/-- A copy leaves what lies behind its end. -/
theorem Mem.copy_behind {mem : Mem} {pointer : Ptr} {bytes : List UInt8}
    {region : Region} {index : Nat}
    (behind : region = pointer.region → pointer.offset + bytes.length ≤ index) :
    (mem.copy pointer bytes).buffer region index = mem.buffer region index := by
  by_cases same : region = pointer.region
  · subst same
    rw [Mem.copy, Mem.buffer_setBuffer_same, write_outside (Or.inr (behind rfl))]
  · rw [Mem.copy, Mem.buffer_setBuffer_ne same]

/-- Placing a body writes nothing outside of the buffers. -/
theorem BodyPlaced.untouched {initRead : Nat} {rest : List UInt8} {mem mem' : Mem} {rbytesBuf : Ptr}
    (count : initRead + rest.length = rbytes)
    (placed : BodyPlaced fuseIo rbytes addZero initRead rest mem rbytesBuf mem') {region : Region}
    (fixed : region ≠ .free) {index : Nat} (outside : mem'.size region ≤ index) :
    mem'.buffer region index = mem.buffer region index := by
  cases placed with
  | header whole bare => rfl
  | buffer needed =>
    have same : (resized rbytes addZero mem).buffer region = mem.buffer region := by
      rcases resized_cases rbytes addZero mem with unchanged | ⟨size, sized⟩
      · rw [unchanged]
      · rw [sized, Mem.buffer_resize size fixed]
    have holds := @bodyTarget_holds fuseIo rbytes addZero mem
    rw [Ptr.Holds] at holds
    rw [bodyMem_size] at outside
    rw [bodyMem_eq fuseIo addZero mem count, Mem.copy_behind, same]
    rintro rfl
    have zeros : (if addZero then [0] else [] : List UInt8).length = if addZero then 1 else 0 := by
      cases addZero <;> rfl
    rw [List.length_append, List.length_append, length_slice, zeros, count]
    exact holds.trans outside

/-- The buffer a body would be assembled in has room for it, also where the body stays in
`header_buf`. -/
theorem BodyPlaced.holds_target {initRead : Nat} {rest : List UInt8} {mem mem' : Mem}
    {rbytesBuf : Ptr}
    (front : initRead ≤ WriteIn.size)
    (placed : BodyPlaced fuseIo rbytes addZero initRead rest mem rbytesBuf mem') :
    (bodyTarget fuseIo rbytes addZero).Holds mem'.size rbytes := by
  cases placed with
  | header whole bare =>
    subst whole bare
    have small : initRead < scratchBufSize := lt_of_le_of_lt front (by decide)
    have target : bodyTarget fuseIo initRead false = fuseIo.scratchBuf := if_pos small
    rw [target]
    exact (Nat.zero_add _).trans_le small.le
  | buffer needed =>
    rw [bodyMem_size]
    exact (Nat.add_le_add_left (Nat.le_add_right _ _) _).trans bodyTarget_holds

end Accesses

/-! ### Inside the buffers -/

/-- **Assembling a request stays inside the buffers**, whatever the reads return. -/
theorem confined_assemble (fuseIo : FuseIo) {rbytes : Nat} {initRead : Int} (addZero : Bool)
    (small : rbytes < 2 ^ 32)
    (front : initRead ≤ InHeader.size + WriteIn.size) (wanted : initRead ≤ InHeader.size + rbytes) :
    Confined (assemble fuseIo rbytes addZero initRead) := by
  intro mem mem' agrees
  have header : fuseIo.headerBuf.Holds mem.size InHeader.size :=
    show 0 + InHeader.size ≤ headerBufSize by decide
  refine twin_seq (confined_readHeader header ⟨agrees, rfl, rfl⟩) ?_
  rintro read after ⟨fit, count⟩
  cases read with
  | none => exact twin_pure fit.agrees
  | some taken =>
    have total := count taken rfl
    exact twin_await (confined_readRbytes small (by omega) (by omega) fit)

section Reassembly

variable (kernel : Kernel) {world : World} (fuseIo : FuseIo)

/-- `reassemble` is its header loop, `read_rbytes` and the handler. -/
theorem exec_reassemble (world : World) (rbytes : Nat) (addZero : Bool) (initRead : Int)
    (handler : Ptr → Coro Int) :
    exec kernel (reassemble fuseIo rbytes addZero initRead handler) world =
      match exec kernel (readHeader fuseIo initRead) world with
      | (none, after) => (-1, after)
      | (some count, after) =>
        match exec kernel (readRbytes fuseIo rbytes addZero (count - InHeader.size))
            (after.record (.called .readRbytes)) with
        | (none, last) => (-1, last)
        | (some rbytesBuf, last) => exec kernel (handler rbytesBuf) last := by
  rw [reassemble, exec_bind, assemble, exec_bind]
  generalize exec kernel (readHeader fuseIo initRead) world = read
  obtain ⟨_ | count, after⟩ := read
  · rfl
  · dsimp only
    rw [exec_awaitPointer]
    generalize exec kernel (readRbytes fuseIo rbytes addZero (count - InHeader.size))
      (after.record (.called .readRbytes)) = placed
    obtain ⟨_ | rbytesBuf, last⟩ := placed <;> rfl

/-- **The header loop**, with what it reads: it completes the header, or gives up. -/
theorem exec_readHeader_reads (idle : world.Idle) {amount : Nat} (first : 0 < amount)
    (present : max amount InHeader.size ≤ world.pipe.length) (events : List Event) :
    (∃ more, exec kernel (readHeader fuseIo amount) (world.taken fuseIo.headerBuf amount events) =
        (some (max amount InHeader.size),
          world.taken fuseIo.headerBuf (max amount InHeader.size) (events ++ more)) ∧
      ∀ event ∈ more, event.ReadsInto fuseIo fuseIo.headerBuf InHeader.size) ∨
    ∃ after, exec kernel (readHeader fuseIo amount) (world.taken fuseIo.headerBuf amount events) =
      (none, after) ∧
      (world.taken fuseIo.headerBuf amount events).Refused after ∧ ¬ kernel.Prompt := by
  by_cases whole : InHeader.size ≤ amount
  · have long : ¬ ((amount : Int) < InHeader.size) := by omega
    refine Or.inl ⟨[], ?_, fun event member => absurd member List.not_mem_nil⟩
    rw [readHeader, if_neg (fun both => long both.2), if_neg long, max_eq_left whole,
      List.append_nil]
    rfl
  · have short : (amount : Int) < InHeader.size := by omega
    have unfinished : amount < InHeader.size := Nat.not_le.mp whole
    rw [max_eq_right unfinished.le] at present ⊢
    rw [readHeader, if_pos ⟨by omega, short⟩, Int.toNat_natCast]
    have left : (world.taken fuseIo.headerBuf amount events).pipe = world.pipe.drop amount := rfl
    rcases exec_readHeaderLoop kernel fuseIo (idle.taken fuseIo.headerBuf amount events) unfinished
      with ⟨more, ran, reads, -⟩ | ⟨after, ran, refused, unprompt⟩
    · refine Or.inl ⟨more, ?_, reads⟩
      rw [ran, World.taken_taken _ _ (by omega), Nat.add_sub_cancel' unfinished.le]
    · refine Or.inr ⟨after, ran, refused, fun prompt => unprompt ⟨prompt, ?_⟩⟩
      rw [left, List.length_drop]
      omega

/-- **`queue_fuse_read` reassembles** what its first switch asks for, for the
handler its second switch selects. -/
theorem exec_serve_reassemble (ring : FuseRing) (idle : world.Idle) {amount : Nat}
    {initRead : Int} (first : 0 < initRead → initRead = amount)
    (front : amount ≤ InHeader.size + WriteIn.size) (whole : amount ≤ world.pipe.length)
    (acceptable : Acceptable ring world.pipe) (nonempty : 0 < (bodyOf world.pipe).readRbytes)
    (events : List Event)
    (handler : Nat → Ptr → Coro Int) :
    (match exec kernel (readHeader fuseIo initRead)
        (world.taken fuseIo.headerBuf amount events) with
      | (none, after) => (-1, after)
      | (some count, after) =>
        exec kernel (serveRequestWith fuseIo handler world.pipe.length count) after) =
      exec kernel (reassemble fuseIo (bodyOf world.pipe).readRbytes
        (bodyOf world.pipe).addZero initRead
        (handler (opcodeOf world.pipe))) (world.taken fuseIo.headerBuf amount events) := by
  rw [exec_reassemble]
  by_cases stuck : initRead ≤ 0
  · rw [exec_readHeader_stuck kernel fuseIo _ stuck]
  have positive : 0 < initRead := not_le.mp stuck
  obtain rfl := first positive
  have header := acceptable.header
  have present : max amount InHeader.size ≤ world.pipe.length := by omega
  have split : InHeader.size + (max amount InHeader.size - InHeader.size) =
      max amount InHeader.size := by omega
  have accepted : ¬ ((!(bodyOf world.pipe).allowAddBytes) = true ∧
      (bodyOf world.pipe).readRbytes ≠ world.pipe.length - InHeader.size) :=
    fun both => both.2 (acceptable.exact nonempty (by simpa using both.1))
  have within : max amount InHeader.size - InHeader.size ≤ (bodyOf world.pipe).readRbytes := by
    cases allow : (bodyOf world.pipe).allowAddBytes with
    | false =>
      rw [acceptable.exact nonempty allow]
      exact Nat.sub_le_sub_right present _
    | true =>
      rw [show (bodyOf world.pipe).readRbytes = WriteIn.size from expectedBody_allow allow]
      omega
  have bounded : (bodyOf world.pipe).readRbytes < 2 ^ 32 := by
    have limit := ring.maxBufsize_lt
    have fits := acceptable.fits
    have body := acceptable.body
    omega
  rcases exec_readHeader_reads kernel fuseIo idle (by omega) present events with
    ⟨more, ran, -⟩ | ⟨after, ran, -⟩
  rotate_left
  · rw [ran]
  have held : ∀ index < max amount InHeader.size,
      (world.taken fuseIo.headerBuf (max amount InHeader.size)
        (events ++ more)).mem.headerBuf index =
        ofList world.pipe index :=
          fun index inside => taken_header fuseIo (events ++ more) inside present
  have opcode : (world.taken fuseIo.headerBuf (max amount InHeader.size)
      (events ++ more)).mem.load fuseIo.headerBuf
      InHeader.opcode = opcodeOf world.pipe :=
    load_header fuseIo (fun index inside => held index (lt_of_lt_of_le inside (le_max_right _ _)))
      (by decide)
  rw [ran]
  dsimp only
  rw [exec_serveRequestWith_eq, opcode]
  dsimp only
  rw [show expectedBody (opcodeOf world.pipe) world.pipe.length = bodyOf world.pipe from rfl,
    if_pos nonempty,
    if_neg accepted]
  rcases exec_readRbytes kernel fuseIo
    ((idle.taken fuseIo.headerBuf (max amount InHeader.size) (events ++ more)).record
      (.called .readRbytes))
    (bodyOf world.pipe).addZero nonempty bounded within with ⟨rbytesBuf, mem, more', placed, ran',
      -⟩ | ⟨after, ran', -⟩
  rotate_left
  · rw [ran']
  have pipe : (world.taken fuseIo.headerBuf (max amount InHeader.size) (events ++ more)).pipe =
      world.pipe.drop (InHeader.size + (max amount InHeader.size - InHeader.size)) := by
    rw [split]
    rfl
  rw [World.record_pipe, pipe, World.record_mem] at placed
  obtain ⟨front', -⟩ :=
    placed.holds fuseIo within acceptable.body fun index inside => held index (by omega)
  rw [ran']
  dsimp only
  rw [World.leave_mem, World.setMem_mem, load_header fuseIo front' (by decide)]
  rfl

/-- The world in which the handler starts: `count` bytes read with the header, then the body. -/
def reassembledWorld (world : World) (fuseIo : FuseIo) (rbytes count : Nat) (mem : Mem)
    (header body : List Event) :
    World :=
  ((world.taken fuseIo.headerBuf count header).setMem mem).leave
    (world.pipe.drop (InHeader.size + rbytes)) world.file
    (.called .readRbytes :: body)

/-- **A placed body is a reassembled request.** -/
theorem BodyPlaced.reassembled {rbytes amount : Nat} {addZero : Bool} {mem : Mem} {rbytesBuf : Ptr}
    {events more more' : List Event} (body : InHeader.size + rbytes ≤ world.pipe.length)
    (front : amount ≤ InHeader.size + WriteIn.size) (wanted : amount ≤ InHeader.size + rbytes)
    (reads : ∀ event ∈ more, event.ReadsInto fuseIo fuseIo.headerBuf InHeader.size)
    (reads' : ∀ event ∈ more', event.ReadsInto fuseIo (bodyTarget fuseIo rbytes addZero) rbytes)
    (placed : BodyPlaced fuseIo rbytes addZero (max amount InHeader.size - InHeader.size)
      ((world.pipe.drop (max amount InHeader.size)).take
        (rbytes - (max amount InHeader.size - InHeader.size)))
      (world.taken fuseIo.headerBuf (max amount InHeader.size)
        (events ++ more)).mem rbytesBuf mem) :
    Reassembled fuseIo world.pipe rbytes addZero
      (world.taken fuseIo.headerBuf amount events) rbytesBuf
      (reassembledWorld world fuseIo rbytes (max amount InHeader.size) mem (events ++ more) more')
      (more ++ .called .readRbytes :: more') := by
  have present : max amount InHeader.size ≤ world.pipe.length := by omega
  have within : max amount InHeader.size - InHeader.size ≤ rbytes := by omega
  have split : InHeader.size + (max amount InHeader.size - InHeader.size) =
      max amount InHeader.size := by omega
  have held : ∀ index < InHeader.size + (max amount InHeader.size - InHeader.size),
      (world.taken fuseIo.headerBuf (max amount InHeader.size)
        (events ++ more)).mem.headerBuf index =
        ofList world.pipe index := by
    rw [split]
    exact fun index inside => taken_header fuseIo (events ++ more) inside present
  have placed' : BodyPlaced fuseIo rbytes addZero (max amount InHeader.size - InHeader.size)
      ((world.pipe.drop (InHeader.size + (max amount InHeader.size - InHeader.size))).take
        (rbytes - (max amount InHeader.size - InHeader.size)))
      (world.taken fuseIo.headerBuf (max amount InHeader.size)
        (events ++ more)).mem rbytesBuf mem := by
    rw [split]
    exact placed
  obtain ⟨header, bytes, zero, -⟩ := placed'.holds fuseIo within body held
  have rest : (max amount InHeader.size - InHeader.size) +
      ((world.pipe.drop (max amount InHeader.size)).take
      (rbytes - (max amount InHeader.size - InHeader.size))).length = rbytes := by
    rw [List.length_take, List.length_drop]
    omega
  have whole := placed.holds_target (by omega)
  refine ⟨?_, ?_, ?_, fun add => ?_, ?_, ?_, ?_, fun event member => ?_,
    fun event member => ?_, fun region fixed index outside => ?_, rfl⟩
  · refine (slice_congr fun index inside => ?_).trans
      (@slice_ofList world.pipe 0 InHeader.size (by omega))
    rw [Nat.zero_add]
    exact (congrArg mem.headerBuf (Nat.zero_add index)).trans (header index inside)
  · cases placed with
    | header whole bare => exact Or.inl rfl
    | buffer needed => exact Or.inr bodyTarget_place
  · exact (slice_congr bytes).trans (slice_ofList body)
  · exact congrArg (fun byte => [byte])
      ((congrArg (mem.buffer rbytesBuf.region) (Nat.add_zero _)).trans (zero add))
  · exact placed.room (by omega)
  · show 0 + (InHeader.size + WriteIn.size) ≤ headerBufSize
    decide
  · simp [reassembledWorld, World.taken]
  · rcases List.mem_append.mp member with member | member
    · exact (reads event member).inside (show 0 + InHeader.size ≤ headerBufSize by decide)
    · rcases List.mem_cons.mp member with rfl | member
      · trivial
      · exact (reads' event member).inside whole
  · rcases List.mem_append.mp member with member | member
    · exact (reads event member).flowing
    · rcases List.mem_cons.mp member with rfl | member
      · exact id
      · exact (reads' event member).flowing
  · have behind : ∀ count ≤ InHeader.size + WriteIn.size, region = fuseIo.headerBuf.region →
        fuseIo.headerBuf.offset + (world.pipe.take count).length ≤ index := by
      rintro count small rfl
      have room : headerBufSize ≤ index := outside
      rw [headerBufSize] at room
      show 0 + (world.pipe.take count).length ≤ index
      rw [List.length_take]
      omega
    refine (placed.untouched rest fixed outside).trans ?_
    exact (Mem.copy_behind (behind _ (by omega))).trans (Mem.copy_behind (behind _ front)).symm

/-- **Requests are reassembled exactly.** The first read took `amount` bytes and returned their
number, or it returned 0 or an error. Every reassembly of a message that holds the body asked
for stays inside the buffers. It ends with the handler on the reassembled request, or without
it: so where the first read brought nothing, and otherwise only where a later one does not. -/
theorem reassembly_exact (idle : world.Idle) {rbytes amount : Nat} {initRead : Int}
    (nonempty : 0 < rbytes)
    (body : InHeader.size + rbytes ≤ world.pipe.length) (word : world.pipe.length < 2 ^ 31)
    (addZero : Bool)
    (first : 0 < initRead → initRead = amount) (front : amount ≤ InHeader.size + WriteIn.size)
    (wanted : amount ≤ InHeader.size + rbytes)
    (events : List Event) :
    Confined (assemble fuseIo rbytes addZero initRead) ∧
    ((0 < initRead ∧ ∃ rbytesBuf after more,
      Reassembled fuseIo world.pipe rbytes addZero
        (world.taken fuseIo.headerBuf amount events) rbytesBuf
        after more ∧
      ∀ handler, exec kernel (reassemble fuseIo rbytes addZero initRead handler)
          (world.taken fuseIo.headerBuf amount events) = exec kernel (handler rbytesBuf) after) ∨
    (initRead ≤ 0 ∨ ¬ kernel.Prompt) ∧ ∃ after,
      (world.taken fuseIo.headerBuf amount events).Refused after ∧
      ∀ handler, exec kernel (reassemble fuseIo rbytes addZero initRead handler)
        (world.taken fuseIo.headerBuf amount events) = (-1, after)) := by
  have asked : initRead ≤ amount := (le_or_gt initRead 0).elim (fun stuck => by omega)
    fun positive => (first positive).le
  refine ⟨confined_assemble fuseIo addZero (by omega) (by omega) (by omega), ?_⟩
  by_cases stuck : initRead ≤ 0
  · refine Or.inr ⟨Or.inl stuck, _, .refl _, fun handler => ?_⟩
    rw [exec_reassemble, exec_readHeader_stuck kernel fuseIo _ stuck]
  have positive : 0 < initRead := not_le.mp stuck
  obtain rfl := first positive
  have present : max amount InHeader.size ≤ world.pipe.length := by omega
  rcases exec_readHeader_reads kernel fuseIo idle (by omega) present events with
    ⟨more, ran, reads⟩ | ⟨after, ran, refused, unprompt⟩
  rotate_left
  · refine Or.inr ⟨Or.inr unprompt, after, refused, fun handler => ?_⟩
    rw [exec_reassemble, ran]
  have within : max amount InHeader.size - InHeader.size ≤ rbytes := by omega
  have pipe : (world.taken fuseIo.headerBuf (max amount InHeader.size) (events ++ more)).pipe =
      world.pipe.drop (max amount InHeader.size) := rfl
  rcases exec_readRbytes kernel fuseIo
    ((idle.taken fuseIo.headerBuf (max amount InHeader.size) (events ++ more)).record
      (.called .readRbytes)) addZero
    nonempty (by omega) within with ⟨rbytesBuf, mem, more', placed, ran', reads', -⟩ | ⟨after, ran',
      refused, unprompt⟩
  rotate_left
  · refine Or.inr ⟨Or.inr fun prompt => unprompt ⟨prompt, ?_⟩, after, ?_, fun handler => ?_⟩
    · rw [World.record_pipe, pipe, List.length_drop]
      omega
    · refine World.Refused.trans ⟨more ++ [.called .readRbytes], ?_, fun event member => ?_⟩ refused
      · simp [World.taken]
      · rcases List.mem_append.mp member with member | member
        · exact (reads event member).receives
        · rw [List.mem_singleton.mp member]
          exact .called
    · rw [exec_reassemble, ran]
      dsimp only
      rw [ran']
  · rw [World.record_pipe, pipe, World.record_mem] at placed
    refine Or.inl ⟨positive, rbytesBuf, _, _,
      placed.reassembled fuseIo body front wanted reads reads', fun handler => ?_⟩
    have consumed : max amount InHeader.size +
        (rbytes - (max amount InHeader.size - InHeader.size)) =
        InHeader.size + rbytes := by omega
    rw [exec_reassemble, ran]
    dsimp only
    rw [ran']
    dsimp only
    rw [World.record_pipe, pipe, List.drop_drop, consumed]
    congr 1
    simp [reassembledWorld, World.taken, World.leave, World.setMem, World.record]

/-! ### One request -/

/-- A slot whose pipe holds a `LOOKUP` of `"volume"`. -/
def lookupArrived : World :=
  { handlerSlot (sessionMessage .lookup 7 1 (volumeName ++ [0])) with
    pipe := sessionMessage .lookup 7 1 (volumeName ++ [0]) }

/-- Its 47 bytes, the first of which came alone, are reassembled. -/
theorem lookup_reassembled :
    ∃ rbytesBuf after more,
      Reassembled ⟨0⟩ (sessionMessage .lookup 7 1 (volumeName ++ [0])) 7 true
        (lookupArrived.taken (FuseIo.headerBuf ⟨0⟩) 1 []) rbytesBuf after more := by
  have idle : lookupArrived.Idle := ⟨rfl, rfl⟩
  rcases (@reassembly_exact Kernel.full lookupArrived ⟨0⟩ idle 7 1 1 (by decide) (by decide)
    (by decide) true (fun _ => rfl) (by decide) (by decide) []).2 with
    ⟨-, rbytesBuf, after, more, reassembled, -⟩ | ⟨stuck | unprompt, -⟩
  · exact ⟨rbytesBuf, after, more, reassembled⟩
  · exact absurd stuck (by decide)
  · exact absurd Kernel.full_prompt unprompt

end Reassembly

end Fuseuring
