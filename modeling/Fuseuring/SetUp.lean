/-
**The set-up of a worker (`fuseuring_run`): the slots, the registered buffers
and the registered files.**

`fuseuringRun` makes the ring it was not given, lays the slots out in one pass and registers the two
buffers and the table of files. The loop keeps two pointers into the buffers and takes the indices
of a slot from the size of the table before or after a push. `SlotsApart` is the law of the layout:
as many slots as the pool has, apart in memory, with indices that lead to their own descriptors.
-/

import Mathlib.Data.Fintype.Card
import Mathlib.Data.List.MinMax
import Fuseuring.Handshake
import Fuseuring.Library.Thread

namespace Fuseuring

open Bytes Interaction

/-! ### The program -/

/-- A descriptor: an `int` that is not negative. -/
abbrev Descriptor := Fin (2 ^ 31)

/-- `struct iovec`, and any range of addresses. -/
structure IoVec where
  iovBase : Nat
  iovLen : Nat
deriving DecidableEq, Repr

/-- `FuseIo` as the loop fills it: the indices into the registered files and
buffers, and the pointers. -/
structure FuseIoFields where
  fuseFd : Int
  pipe0 : Int
  pipe1 : Int
  headerBuf : Nat
  headerBufIdx : Nat
  scratchBuf : Nat
  scratchBufIdx : Nat
deriving DecidableEq, Repr

/-- The system calls of the set-up, and the allocation of a `std::vector<char>`. -/
inductive SetUpOp
  | queueInit (entries : Int)
  | allocate (bytes : Nat)
  | pipe2
  | setPipeSize (pipe : Descriptor) (bytes : Nat)
  | openDevice
  | cloneDevice (device session : Descriptor)
  | registerFiles (files : List Descriptor)
  | registerBuffers (buffers : List IoVec)
  | fstat

/-- What a call gives, or whether it succeeds. -/
def SetUpOp.Answer : SetUpOp → Type
  | .allocate _ => Nat
  | .pipe2 => Option (Descriptor × Descriptor)
  | .openDevice => Option Descriptor
  | .fstat => Option Nat
  | _ => Bool

/-- The set-up calls no coroutines. -/
def setUp : Signature := ⟨SetUpOp, SetUpOp.Answer, Empty, Empty, Empty.elim⟩

namespace SetUpOp

def askQueueInit (entries : Int) : Program setUp Bool :=
  Program.ask (S := setUp) (.queueInit entries)
def askAllocate (bytes : Nat) : Program setUp Nat := Program.ask (S := setUp) (.allocate bytes)
def askPipe2 : Program setUp (Option (Descriptor × Descriptor)) := Program.ask (S := setUp) .pipe2
def askSetPipeSize (pipe : Descriptor) (bytes : Nat) : Program setUp Bool :=
  Program.ask (S := setUp) (.setPipeSize pipe bytes)
def askOpenDevice : Program setUp (Option Descriptor) := Program.ask (S := setUp) .openDevice
def askCloneDevice (device session : Descriptor) : Program setUp Bool :=
  Program.ask (S := setUp) (.cloneDevice device session)
def askRegisterFiles (files : List Descriptor) : Program setUp Bool :=
  Program.ask (S := setUp) (.registerFiles files)
def askRegisterBuffers (buffers : List IoVec) : Program setUp Bool :=
  Program.ask (S := setUp) (.registerBuffers buffers)
def askFstat : Program setUp (Option Nat) := Program.ask (S := setUp) .fstat

end SetUpOp

open SetUpOp

/-- A `size_t` assigned to an `int`. -/
def sizeToInt (size : Nat) : Int := int32 (size % 4294967296)

/-- An `int` converted to `size_t`. -/
def intToSize (value : Int) : Nat := (value % 18446744073709551616).toNat

/-- `clone_fuse_fd`: a further descriptor of the session, or -1. -/
def cloneFuseFd (fuseFd : Descriptor) : Program setUp (Option Descriptor) := do
  let opened ← askOpenDevice
  match opened with
  | none => return none
  | some sessionFd =>
    let joined ← askCloneDevice sessionFd fuseFd
    if !joined then return none
    return some sessionFd

/-- The variables of the loop. -/
structure SetUpState where
  fixedFds : List Descriptor
  ios : List FuseIoFields
  headerBuf : Nat
  scratchBuf : Nat

/-- The variables that the loop leaves alone. -/
structure SetUpConstants where
  fuseFd : Descriptor
  maxBufsize : Nat
  headerBufIdx : Nat
  scratchBufIdx : Nat

/-- One pass of the loop: a slot, or the exit code. -/
def setUpIo (constants : SetUpConstants) (state : SetUpState) :
    Program setUp (Except Nat SetUpState) := do
  let made ← askPipe2
  match made with
  | none => return .error 11
  | some (readEnd, writeEnd) =>
    let sized ← askSetPipeSize readEnd constants.maxBufsize
    if !sized then return .error 12
    -- the two ends are pushed first, the session after its index is taken
    let fixedFds := state.fixedFds ++ [readEnd]
    let pipe0 := sizeToInt (fixedFds.length - 1)
    let fixedFds := fixedFds ++ [writeEnd]
    let pipe1 := sizeToInt (fixedFds.length - 1)
    let cloned ← cloneFuseFd constants.fuseFd
    match cloned with
    | none => return .error 13
    | some sessionFd =>
      let fuseFd := sizeToInt fixedFds.length
      return .ok
        { fixedFds := fixedFds ++ [sessionFd]
          ios := state.ios ++
            [{ fuseFd := fuseFd, pipe0 := pipe0, pipe1 := pipe1
               headerBuf := state.headerBuf, headerBufIdx := constants.headerBufIdx
               scratchBuf := state.scratchBuf, scratchBufIdx := constants.scratchBufIdx }]
          headerBuf := state.headerBuf + headerBufSize
          scratchBuf := state.scratchBuf + scratchBufSize }

/-- The loop, with the passes that remain. -/
def setUpIos (constants : SetUpConstants) : Nat → SetUpState → Program setUp (Except Nat SetUpState)
  | 0, state => return .ok state
  | remaining + 1, state => do
    let filled ← setUpIo constants state
    match filled with
    | .error code => return .error code
    | .ok state => setUpIos constants remaining state

/-- What the loop and the lines before it lay out. -/
structure Layout where
  backingFd : Int
  fixedFds : List Descriptor
  ios : List FuseIoFields
  regBuffers : List IoVec

/-- `max_bufsize`. -/
def Worker.maxBufsize (worker : Worker) : Nat := worker.maxWrite + InHeader.size + WriteIn.size

/-- `fuseuring_run` from the empty table of files to the end of the loop. -/
def layOut (worker : Worker) (backingFd fuseFd : Descriptor) : Program setUp (Except Nat Layout) :=
  do
  let backingIndex := sizeToInt ([] : List Descriptor).length
  let fixedFds := [backingFd]
  let headerBytes := headerBufSize * intToSize worker.maxFuseIos % 18446744073709551616
  let headerBuf ← askAllocate headerBytes
  let headerBufIdx := ([] : List IoVec).length
  let regBuffers := [⟨headerBuf, headerBytes⟩]
  let scratchBytes := scratchBufSize * intToSize worker.maxFuseIos % 18446744073709551616
  let scratchBuf ← askAllocate scratchBytes
  let scratchBufIdx := regBuffers.length
  let regBuffers := regBuffers ++ [⟨scratchBuf, scratchBytes⟩]
  let laid ← setUpIos ⟨fuseFd, worker.maxBufsize, headerBufIdx, scratchBufIdx⟩
      (intToSize worker.maxFuseIos)
    ⟨fixedFds, [], headerBuf, scratchBuf⟩
  match laid with
  | .error code => return .error code
  | .ok state => return .ok ⟨backingIndex, state.fixedFds, state.ios, regBuffers⟩

/-- `fuse_ring` as `run` gets it: the entries its ring was requested with, the
slots and the constants. -/
structure ServedRing where
  entries : Int
  ios : List FuseIoFields
  maxBufsize : Nat
  backingFd : Int
  backingFdOrig : Descriptor
  backingFSize : Nat

/-- The ring of the worker: the one it is given, or its own. -/
def workerRing (worker : Worker) : Program setUp (Option Int) :=
  match worker.fuseUring with
  | some entries => return some entries
  | none => do
    let ready ← askQueueInit (ringEntries worker.maxFuseIos)
    if !ready then return none
    return some (ringEntries worker.maxFuseIos)

/-- `fuseuring_run` up to `service.run`: what it serves, or its exit code. -/
def fuseuringRun (worker : Worker) (backingFd fuseFd : Descriptor) :
    Program setUp (Except Nat ServedRing) := do
  let ring ← workerRing worker
  match ring with
  | none => return .error 10
  | some entries =>
    let laid ← layOut worker backingFd fuseFd
    match laid with
    | .error code => return .error code
    | .ok layout =>
      let registered ← askRegisterFiles layout.fixedFds
      if !registered then return .error 13
      let registered ← askRegisterBuffers layout.regBuffers
      if !registered then return .error 14
      let status ← askFstat
      match status with
      | none => return .error 15
      | some size =>
        return .ok ⟨entries, layout.ios, worker.maxBufsize, layout.backingFd, backingFd, size⟩

/-! ### The kernel and the allocator -/

/-- What a descriptor is open on. -/
inductive Object
  | file
  | session
  | pipeRead (pipe : Nat)
  | pipeWrite (pipe : Nat)
  | device (opening : Nat)
  | clone (opening : Nat) (session : Descriptor)
deriving DecidableEq, Repr

/-- The ioctl joins an opened device to a session. -/
def Object.join (session : Descriptor) : Object → Object
  | .device opening => .clone opening session
  | object => object

/-- Two ranges that share no address. -/
def IoVec.Apart (first second : IoVec) : Prop :=
  first.iovBase + first.iovLen ≤ second.iovBase ∨ second.iovBase + second.iovLen ≤ first.iovBase

/-- One range in another. -/
def IoVec.Inside (inner outer : IoVec) : Prop :=
  outer.iovBase ≤ inner.iovBase ∧ inner.iovBase + inner.iovLen ≤ outer.iovBase + outer.iovLen

/-- The process as the set-up finds and changes it: its calls so far, what its
descriptors are open on, the pipes and the openings of the device so far, its
vectors and what its ring has registered. -/
structure SetUpWorld where
  calls : Nat
  stands : Descriptor → Option Object
  pipes : Nat
  openings : Nat
  heap : List IoVec
  files : List Descriptor
  buffers : List IoVec

/-- The answers of the kernel and of the allocator: descriptors that are not
open, memory that is not in use. -/
structure SetUpKernel where
  succeeds : SetUpWorld → Bool
  allocate : SetUpWorld → Nat → Nat
  pipe2 : SetUpWorld → Option (Descriptor × Descriptor)
  openDevice : SetUpWorld → Option Descriptor
  fstat : SetUpWorld → Option Nat
  allocate_apart : ∀ world bytes, ∀ range ∈ world.heap, IoVec.Apart range
    ⟨allocate world bytes, bytes⟩
  pipe2_fresh : ∀ world readEnd writeEnd, pipe2 world = some (readEnd, writeEnd) →
    world.stands readEnd = none ∧ world.stands writeEnd = none ∧ readEnd ≠ writeEnd
  openDevice_fresh : ∀ world device, openDevice world = some device → world.stands device = none

namespace SetUpWorld

/-- One more call. -/
def tick (world : SetUpWorld) : SetUpWorld := { world with calls := world.calls + 1 }

/-- A descriptor that is open on an object from now on. -/
def stand (world : SetUpWorld) (descriptor : Descriptor) (object : Object) : SetUpWorld :=
  { world with stands := Function.update world.stands descriptor (some object) }

def allocated (world : SetUpWorld) (range : IoVec) : SetUpWorld :=
  { world.tick with heap := range :: world.heap }

def piped (world : SetUpWorld) : Option (Descriptor × Descriptor) → SetUpWorld
  | none => world.tick
  | some (readEnd, writeEnd) =>
    { (world.tick.stand readEnd (.pipeRead world.pipes)).stand writeEnd
      (.pipeWrite world.pipes) with
      pipes := world.pipes + 1 }

def opened (world : SetUpWorld) : Option Descriptor → SetUpWorld
  | none => world.tick
  | some device =>
    { world.tick.stand device (.device world.openings) with openings := world.openings + 1 }

def joined (world : SetUpWorld) (device session : Descriptor) : Bool → SetUpWorld
  | false => world.tick
  | true =>
    { world.tick with
      stands :=
        Function.update world.stands device ((world.stands device).map (Object.join session)) }

def withFiles (world : SetUpWorld) (files : List Descriptor) : Bool → SetUpWorld
  | false => world.tick
  | true => { world.tick with files := files }

def withBuffers (world : SetUpWorld) (buffers : List IoVec) : Bool → SetUpWorld
  | false => world.tick
  | true => { world.tick with buffers := buffers }

end SetUpWorld

def SetUpKernel.answer (kernel : SetUpKernel) : (op : SetUpOp) → SetUpWorld → op.Answer × SetUpWorld
  | .queueInit _, world => (kernel.succeeds world, world.tick)
  | .allocate bytes, world =>
    (kernel.allocate world bytes, world.allocated ⟨kernel.allocate world bytes, bytes⟩)
  | .pipe2, world => (kernel.pipe2 world, world.piped (kernel.pipe2 world))
  | .setPipeSize _ _, world => (kernel.succeeds world, world.tick)
  | .openDevice, world => (kernel.openDevice world, world.opened (kernel.openDevice world))
  | .cloneDevice device session, world =>
      (kernel.succeeds world, world.joined device session (kernel.succeeds world))
  | .registerFiles files, world =>
    (kernel.succeeds world, world.withFiles files (kernel.succeeds world))
  | .registerBuffers buffers, world =>
    (kernel.succeeds world, world.withBuffers buffers (kernel.succeeds world))
  | .fstat, world => (kernel.fstat world, world.tick)

def SetUpKernel.handler (kernel : SetUpKernel) : Program.Handler setUp SetUpWorld :=
  ⟨kernel.answer, fun _ world => world⟩

/-! ### The law -/

namespace FuseIoFields

/-- The indices of a slot, in the order of its pushes. -/
def indices (io : FuseIoFields) : List Int := [io.pipe0, io.pipe1, io.fuseFd]

def headerRange (io : FuseIoFields) : IoVec := ⟨io.headerBuf, headerBufSize⟩
def scratchRange (io : FuseIoFields) : IoVec := ⟨io.scratchBuf, scratchBufSize⟩

def ranges (io : FuseIoFields) : List IoVec := [io.headerRange, io.scratchRange]

end FuseIoFields

namespace Layout

def indices (layout : Layout) : List Int :=
  layout.backingFd :: layout.ios.flatMap FuseIoFields.indices

/-- The index a coroutine uses for what it calls `fd`. -/
def index (layout : Layout) : Fd → Option Int
  | .backing => some layout.backingFd
  | .pipe0 fuseIo => layout.ios[fuseIo.slot]?.map FuseIoFields.pipe0
  | .pipe1 fuseIo => layout.ios[fuseIo.slot]?.map FuseIoFields.pipe1
  | .fuse fuseIo => layout.ios[fuseIo.slot]?.map FuseIoFields.fuseFd

/-- The descriptor that the table has there. -/
def descriptor (layout : Layout) (fd : Fd) : Option Descriptor :=
  (layout.index fd).bind fun index => layout.fixedFds[index.toNat]?

end Layout

/-- An `fd` of one of the slots. -/
def Fd.Within (count : Nat) : Fd → Prop
  | .backing => True
  | .pipe0 fuseIo => fuseIo.slot < count
  | .pipe1 fuseIo => fuseIo.slot < count
  | .fuse fuseIo => fuseIo.slot < count

/-- What an `fd` stands for: the backing file, the ends of the slot's own pipe,
its own clone of the session. -/
def Fd.object (before : SetUpWorld) (session : Descriptor) : Fd → Object
  | .backing => .file
  | .pipe0 fuseIo => .pipeRead (before.pipes + fuseIo.slot)
  | .pipe1 fuseIo => .pipeWrite (before.pipes + fuseIo.slot)
  | .fuse fuseIo => .clone (before.openings + fuseIo.slot) session

/-- **What the set-up owes a pool**: its slots, apart in the registered buffers,
and a table in which each index is used once and leads to what it stands for. -/
structure SlotsApart (count : Nat) (session : Descriptor) (before after : SetUpWorld)
    (layout : Layout) : Prop where
  slots : layout.ios.length = count
  headers : ∀ io ∈ layout.ios, ∃ range, layout.regBuffers[io.headerBufIdx]? = some range ∧
    io.headerRange.Inside range
  scratches : ∀ io ∈ layout.ios, ∃ range, layout.regBuffers[io.scratchBufIdx]? = some range ∧
    io.scratchRange.Inside range
  apart : (layout.ios.flatMap FuseIoFields.ranges).Pairwise IoVec.Apart
  distinct : layout.indices.Nodup
  exactly : ∀ index, index ∈ layout.indices ↔ 0 ≤ index ∧ index ≤ 3 * count
  leads : ∀ fd, fd.Within count → ∃ descriptor, layout.descriptor fd = some descriptor ∧
    after.stands descriptor = some (fd.object before session)
  own : ∀ fd fd' descriptor, layout.descriptor fd = some descriptor →
    layout.descriptor fd' = some descriptor →
    fd = fd'

/-! ### The invariant of the loop -/

section Loop

variable {kernel : SetUpKernel} {before world world' : SetUpWorld} {constants : SetUpConstants}
  {headerBase scratchBase count : Nat} {state state' : SetUpState}

/-- What the entries of the table stand for, by their place. -/
def objectAt (before : SetUpWorld) (session : Descriptor) (index : Nat) : Object :=
  if index = 0 then .file
  else if index % 3 = 1 then .pipeRead (before.pipes + index / 3)
  else if index % 3 = 2 then .pipeWrite (before.pipes + index / 3)
  else .clone (before.openings + (index / 3 - 1)) session

theorem objectAt_injective (before : SetUpWorld) (session : Descriptor) :
    Function.Injective (objectAt before session) := by
  intro first second equal
  unfold objectAt at equal
  split_ifs at equal <;> simp only [Object.pipeRead.injEq, Object.pipeWrite.injEq,
    Object.clone.injEq] at equal
  all_goals omega

/-- A slot, by its place. -/
def slotAt (constants : SetUpConstants) (headerBase scratchBase slot : Nat) : FuseIoFields where
  fuseFd := ((3 * slot + 3 : Nat) : Int)
  pipe0 := ((3 * slot + 1 : Nat) : Int)
  pipe1 := ((3 * slot + 2 : Nat) : Int)
  headerBuf := headerBase + headerBufSize * slot
  headerBufIdx := constants.headerBufIdx
  scratchBuf := scratchBase + scratchBufSize * slot
  scratchBufIdx := constants.scratchBufIdx

/-- The table so far, by what its entries are open on. -/
def Tabled (world : SetUpWorld) (fixedFds : List Descriptor) (objects : List Object) : Prop :=
  fixedFds.map world.stands = objects.map some

/-- **The invariant**: after `count` passes the slots are those of the first places, the table
is that of their objects, and the pointers and the counters of the kernel stand behind them. -/
structure Laid (constants : SetUpConstants) (before : SetUpWorld)
    (headerBase scratchBase count : Nat)
    (world : SetUpWorld) (state : SetUpState) : Prop where
  ios : state.ios = (List.range count).map (slotAt constants headerBase scratchBase)
  table : Tabled world state.fixedFds ((List.range (3 * count + 1)).map
    (objectAt before constants.fuseFd))
  header : state.headerBuf = headerBase + headerBufSize * count
  scratch : state.scratchBuf = scratchBase + scratchBufSize * count
  pipes : world.pipes = before.pipes + count
  openings : world.openings = before.openings + count

namespace Tabled

variable {fixedFds : List Descriptor} {objects : List Object}

theorem length (tabled : Tabled world fixedFds objects) : fixedFds.length = objects.length := by
  have lengths := congrArg List.length tabled
  rw [List.length_map, List.length_map] at lengths
  exact lengths

/-- What is not open is not in the table. -/
theorem not_mem (tabled : Tabled world fixedFds objects) {descriptor : Descriptor}
    (fresh : world.stands descriptor = none) : descriptor ∉ fixedFds := by
  intro member
  have stands : world.stands descriptor ∈ objects.map some := by
    rw [← tabled]
    exact List.mem_map_of_mem member
  rw [fresh, List.mem_map] at stands
  obtain ⟨object, _, absurd⟩ := stands
  cases absurd

/-- Objects that differ are behind descriptors that differ, and there are not more than these. -/
theorem nodup (tabled : Tabled world fixedFds objects) (apart : objects.Nodup) :
    fixedFds.Nodup := by
  refine List.Nodup.of_map world.stands ?_
  rw [tabled]
  exact apart.map (Option.some_injective _)

theorem length_le (tabled : Tabled world fixedFds objects) (apart : objects.Nodup) :
    objects.length ≤ 2 ^ 31 := by
  rw [← tabled.length]
  exact (tabled.nodup apart).length_le_card.trans_eq (Fintype.card_fin _)

/-- A change of what is not in the table. -/
theorem congr (tabled : Tabled world fixedFds objects)
    (same : ∀ descriptor ∈ fixedFds, world'.stands descriptor = world.stands descriptor) :
    Tabled world' fixedFds objects := by
  refine Eq.trans ?_ tabled
  exact List.map_congr_left same

/-- A push. -/
theorem push (tabled : Tabled world fixedFds objects) {descriptor : Descriptor} {object : Object}
    (stands : world.stands descriptor = some object) :
    Tabled world (fixedFds ++ [descriptor]) (objects ++ [object]) := by
  unfold Tabled at *
  rw [List.map_append, List.map_append, tabled]
  simp [stands]

/-- The entry at a place. -/
theorem getElem (tabled : Tabled world fixedFds objects) {index : Nat} {object : Object}
    (found : objects[index]? = some object) :
    ∃ descriptor, fixedFds[index]? = some descriptor ∧ world.stands descriptor = some object := by
  have entry := congrArg (·[index]?) tabled
  simp only [List.getElem?_map, found, Option.map_some] at entry
  exact Option.map_eq_some_iff.mp entry

end Tabled

/-! ### A pass -/

@[simp] theorem run_askQueueInit (entries : Int) :
    Program.run kernel.handler (askQueueInit entries) world = (kernel.succeeds world, world.tick) :=
  rfl

@[simp] theorem run_askAllocate (bytes : Nat) : Program.run kernel.handler
    (askAllocate bytes) world =
    (kernel.allocate world bytes, world.allocated ⟨kernel.allocate world bytes, bytes⟩) := rfl

@[simp] theorem run_askPipe2 : Program.run kernel.handler askPipe2 world =
    (kernel.pipe2 world, world.piped (kernel.pipe2 world)) := rfl

@[simp] theorem run_askSetPipeSize (pipe : Descriptor) (bytes : Nat) :
    Program.run kernel.handler (askSetPipeSize pipe bytes) world = (kernel.succeeds world,
      world.tick) := rfl

@[simp] theorem run_askOpenDevice : Program.run kernel.handler askOpenDevice world =
    (kernel.openDevice world, world.opened (kernel.openDevice world)) := rfl

@[simp] theorem run_askCloneDevice (device session : Descriptor) :
    Program.run kernel.handler (askCloneDevice device session) world =
      (kernel.succeeds world, world.joined device session (kernel.succeeds world)) := rfl

@[simp] theorem run_askRegisterFiles (files : List Descriptor) :
    Program.run kernel.handler (askRegisterFiles files) world =
      (kernel.succeeds world, world.withFiles files (kernel.succeeds world)) := rfl

@[simp] theorem run_askRegisterBuffers (buffers : List IoVec) :
    Program.run kernel.handler (askRegisterBuffers buffers) world =
      (kernel.succeeds world, world.withBuffers buffers (kernel.succeeds world)) := rfl

@[simp] theorem run_askFstat : Program.run kernel.handler askFstat world = (kernel.fstat world,
    world.tick) := rfl

/-- What a successful `clone_fuse_fd` did: a new descriptor, on a new clone of the session. -/
theorem cloneFuseFd_some {session sessionFd : Descriptor}
    (done : Program.run kernel.handler (cloneFuseFd session) world = (some sessionFd, world')) :
    world.stands sessionFd = none ∧
      world'.stands = Function.update world.stands sessionFd
        (some (.clone world.openings session)) ∧
      world'.pipes = world.pipes ∧ world'.openings = world.openings + 1 := by
  unfold cloneFuseFd at done
  rw [Program.run_bind, run_askOpenDevice] at done
  cases found : kernel.openDevice world with
  | none =>
    rw [found] at done
    cases done
  | some device =>
    rw [found] at done
    simp only [Program.run_bind, run_askCloneDevice] at done
    cases joins : kernel.succeeds (world.opened (some device)) with
    | false =>
      simp only [joins, Bool.not_false, if_true] at done
      cases done
    | true =>
      simp only [joins, Bool.not_true, Bool.false_eq_true, if_false] at done
      cases done
      refine ⟨kernel.openDevice_fresh world _ found, ?_, rfl, rfl⟩
      simp [SetUpWorld.joined, SetUpWorld.opened, SetUpWorld.tick, SetUpWorld.stand, Object.join]

/-- What a successful pass did: three descriptors that were not open, pushed in
this order, and the slot with their places in the table. -/
theorem setUpIo_ok (done : Program.run kernel.handler (setUpIo constants state) world =
    (.ok state', world')) :
    ∃ readEnd writeEnd sessionFd, world.stands readEnd = none ∧ world.stands writeEnd = none ∧
      world.stands sessionFd = none ∧ readEnd ≠ writeEnd ∧ readEnd ≠ sessionFd ∧
      writeEnd ≠ sessionFd ∧
      world'.stands = Function.update (Function.update (Function.update world.stands readEnd
        (some (.pipeRead world.pipes))) writeEnd (some (.pipeWrite world.pipes))) sessionFd
        (some (.clone world.openings constants.fuseFd)) ∧
      world'.pipes = world.pipes + 1 ∧ world'.openings = world.openings + 1 ∧
      state' =
        { fixedFds := state.fixedFds ++ [readEnd] ++ [writeEnd] ++ [sessionFd]
          ios := state.ios ++
            [{ fuseFd := sizeToInt (state.fixedFds.length + 2)
               pipe0 := sizeToInt state.fixedFds.length
               pipe1 := sizeToInt (state.fixedFds.length + 1)
               headerBuf := state.headerBuf, headerBufIdx := constants.headerBufIdx
               scratchBuf := state.scratchBuf, scratchBufIdx := constants.scratchBufIdx }]
          headerBuf := state.headerBuf + headerBufSize
          scratchBuf := state.scratchBuf + scratchBufSize } := by
  unfold setUpIo at done
  rw [Program.run_bind, run_askPipe2] at done
  cases made : kernel.pipe2 world with
  | none =>
    rw [made] at done
    cases done
  | some ends =>
    obtain ⟨readEnd, writeEnd⟩ := ends
    obtain ⟨freshRead, freshWrite, differ⟩ := kernel.pipe2_fresh world readEnd writeEnd made
    rw [made] at done
    simp only [Program.run_bind, run_askSetPipeSize] at done
    cases sized : kernel.succeeds (world.piped (some (readEnd, writeEnd))) with
    | false =>
      simp only [sized, Bool.not_false, if_true] at done
      cases done
    | true =>
      simp only [sized, Bool.not_true, Bool.false_eq_true, if_false, Program.run_bind] at done
      cases cloned : Program.run kernel.handler (cloneFuseFd constants.fuseFd)
          (world.piped (some (readEnd, writeEnd))).tick with
      | mk sessionFd after =>
        rw [cloned] at done
        cases sessionFd with
        | none => cases done
        | some sessionFd =>
          obtain ⟨freshSession, stands, pipes, openings⟩ := cloneFuseFd_some cloned
          have apart : readEnd ≠ sessionFd ∧ writeEnd ≠ sessionFd := by
            constructor
            · rintro rfl
              simp [SetUpWorld.tick, SetUpWorld.piped, SetUpWorld.stand, differ] at freshSession
            · rintro rfl
              simp [SetUpWorld.tick, SetUpWorld.piped, SetUpWorld.stand] at freshSession
          have unopened : world.stands sessionFd = none := by
            simpa [SetUpWorld.tick, SetUpWorld.piped, SetUpWorld.stand,
              Function.update_apply, apart.1.symm,
              apart.2.symm] using freshSession
          cases done
          refine ⟨readEnd, writeEnd, sessionFd, freshRead, freshWrite, unopened, differ, apart.1,
            apart.2, stands,
            pipes, openings, ?_⟩
          simp

/-! ### The loop -/

theorem sizeToInt_of_lt {size : Nat} (small : size < 2 ^ 31) : sizeToInt size = size := by
  have mod : size % 4294967296 = size := Nat.mod_eq_of_lt (by omega)
  rw [sizeToInt, mod, int32, if_pos (by omega)]

/-- The objects of the next places. -/
theorem objects_succ (before : SetUpWorld) (session : Descriptor) (count : Nat) :
    (List.range (3 * (count + 1) + 1)).map (objectAt before session) =
      (List.range (3 * count + 1)).map (objectAt before session) ++
        [.pipeRead (before.pipes + count)] ++
        [.pipeWrite (before.pipes + count)] ++ [.clone (before.openings + count) session] := by
  have first : objectAt before session (3 * count + 1) = .pipeRead (before.pipes + count) := by
    rw [objectAt, if_neg (by omega), if_pos (by omega), show (3 * count + 1) / 3 = count by omega]
  have second : objectAt before session (3 * count + 1 + 1) = .pipeWrite
      (before.pipes + count) := by
    rw [objectAt, if_neg (by omega), if_neg (by omega), if_pos (by omega),
      show (3 * count + 1 + 1) / 3 = count by omega]
  have third : objectAt before session (3 * count + 1 + 1 + 1) = .clone
      (before.openings + count) session := by
    rw [objectAt, if_neg (by omega), if_neg (by omega), if_neg (by omega),
      show (3 * count + 1 + 1 + 1) / 3 - 1 = count by omega]
  rw [show 3 * (count + 1) + 1 = 3 * count + 1 + 1 + 1 + 1 by omega, List.range_succ,
    List.range_succ, List.range_succ]
  simp only [List.map_append, List.map_cons, List.map_nil, first, second, third]

theorem objects_nodup (before : SetUpWorld) (session : Descriptor) (count : Nat) :
    ((List.range count).map (objectAt before session)).Nodup :=
  List.nodup_range.map (objectAt_injective before session)

/-- **One pass keeps the invariant.** -/
theorem Laid.step (laid : Laid constants before headerBase scratchBase count world state)
    (done : Program.run kernel.handler (setUpIo constants state) world = (.ok state', world')) :
    Laid constants before headerBase scratchBase (count + 1) world' state' := by
  obtain ⟨readEnd, writeEnd, sessionFd, freshRead, freshWrite, freshSession, differ, readApart,
    writeApart, stands,
    pipes, openings, rfl⟩ := setUpIo_ok done
  have length : state.fixedFds.length = 3 * count + 1 := by
    rw [laid.table.length, List.length_map, List.length_range]
  have old : Tabled world' state.fixedFds ((List.range (3 * count + 1)).map
      (objectAt before constants.fuseFd)) := by
    refine laid.table.congr fun descriptor member => ?_
    have notRead : descriptor ≠ readEnd := fun same => laid.table.not_mem freshRead (same ▸ member)
    have notWrite : descriptor ≠ writeEnd :=
      fun same => laid.table.not_mem freshWrite (same ▸ member)
    have notSession : descriptor ≠ sessionFd :=
      fun same => laid.table.not_mem freshSession (same ▸ member)
    rw [stands, Function.update_of_ne notSession, Function.update_of_ne notWrite,
      Function.update_of_ne notRead]
  have table : Tabled world' (state.fixedFds ++ [readEnd] ++ [writeEnd] ++ [sessionFd])
      ((List.range (3 * (count + 1) + 1)).map (objectAt before constants.fuseFd)) := by
    rw [objects_succ]
    refine ((old.push ?_).push ?_).push ?_
    · rw [stands, Function.update_of_ne readApart, Function.update_of_ne differ,
        Function.update_self, laid.pipes]
    · rw [stands, Function.update_of_ne writeApart, Function.update_self, laid.pipes]
    · rw [stands, Function.update_self, laid.openings]
  have room : 3 * (count + 1) + 1 ≤ 2 ^ 31 := by
    have bound := table.length_le (objects_nodup before constants.fuseFd _)
    rwa [List.length_map, List.length_range] at bound
  refine ⟨?_, table, ?_, ?_, ?_, ?_⟩
  · show state.ios ++ _ = _
    rw [List.range_succ, List.map_append, ← laid.ios, List.map_singleton, slotAt, length,
      laid.header, laid.scratch,
      sizeToInt_of_lt (by omega), sizeToInt_of_lt (by omega), sizeToInt_of_lt (by omega)]
  · show state.headerBuf + headerBufSize = _
    rw [laid.header, Nat.mul_add, Nat.mul_one, Nat.add_assoc]
  · show state.scratchBuf + scratchBufSize = _
    rw [laid.scratch, Nat.mul_add, Nat.mul_one, Nat.add_assoc]
  · rw [pipes, laid.pipes, Nat.add_assoc]
  · rw [openings, laid.openings, Nat.add_assoc]

/-- **The loop keeps the invariant**, by induction on the passes that remain. -/
theorem Laid.loop {remaining : Nat}
    (laid : Laid constants before headerBase scratchBase count world state)
    (done : Program.run kernel.handler (setUpIos constants remaining state) world =
      (.ok state', world')) :
    Laid constants before headerBase scratchBase (count + remaining) world' state' := by
  induction remaining generalizing count world state with
  | zero =>
    cases done
    exact laid
  | succ remaining ih =>
    rw [setUpIos, Program.run_bind] at done
    cases filled : Program.run kernel.handler (setUpIo constants state) world with
    | mk outcome after =>
      rw [filled] at done
      cases outcome with
      | error code => cases done
      | ok next =>
        have later := ih (laid.step filled) done
        rwa [show count + 1 + remaining = count + (remaining + 1) by omega] at later

end Loop

/-! ### The law of the layout -/

namespace IoVec

theorem Apart.symm {first second : IoVec} (apart : first.Apart second) : second.Apart first :=
  Or.symm apart

theorem Apart.of_inside {first second inner inner' : IoVec} (apart : first.Apart second)
    (inside : inner.Inside first)
    (inside' : inner'.Inside second) : inner.Apart inner' := by
  unfold Apart Inside at *
  omega

/-- The parts of a buffer that is cut into equal ones. -/
def part (base size place : Nat) : IoVec := ⟨base + size * place, size⟩

theorem part_inside {base size place count : Nat} (within : place < count) :
    (part base size place).Inside ⟨base, size * count⟩ := by
  have most : size * (place + 1) ≤ size * count := Nat.mul_le_mul_left size within
  rw [Nat.mul_add, Nat.mul_one] at most
  constructor
  · exact Nat.le_add_right base _
  · show base + size * place + size ≤ base + size * count
    omega

theorem part_apart {base size place place' : Nat} (before : place < place') :
    (part base size place).Apart (part base size place') := by
  have most : size * (place + 1) ≤ size * place' := Nat.mul_le_mul_left size before
  rw [Nat.mul_add, Nat.mul_one] at most
  left
  show base + size * place + size ≤ base + size * place'
  omega

end IoVec

theorem Fd.object_injective (before : SetUpWorld) (session : Descriptor) :
    Function.Injective (Fd.object before session) := by
  intro first second equal
  rcases first with _ | ⟨⟨slot⟩⟩ | ⟨⟨slot⟩⟩ | ⟨⟨slot⟩⟩ <;>
    rcases second with _ | ⟨⟨slot'⟩⟩ | ⟨⟨slot'⟩⟩ | ⟨⟨slot'⟩⟩ <;> simp [Fd.object] at equal ⊢
  all_goals omega

section Law

variable {kernel : SetUpKernel} {before world : SetUpWorld} {session : Descriptor}
  {count headerBase scratchBase : Nat}
  {maxBufsize : Nat} {state : SetUpState}

/-- The layout that the loop ends with. -/
def SetUpState.layout (state : SetUpState) (headerBase scratchBase count : Nat) : Layout :=
  ⟨0, state.fixedFds, state.ios,
    [⟨headerBase, headerBufSize * count⟩, ⟨scratchBase, scratchBufSize * count⟩]⟩

variable (laid : Laid ⟨session, maxBufsize, 0, 1⟩ before headerBase scratchBase count world state)
include laid

theorem Laid.mem_ios {io : FuseIoFields} (member : io ∈ state.ios) :
    ∃ slot < count, slotAt ⟨session, maxBufsize, 0, 1⟩ headerBase scratchBase slot = io := by
  rw [laid.ios, List.mem_map] at member
  obtain ⟨slot, within, same⟩ := member
  exact ⟨slot, List.mem_range.mp within, same⟩

theorem Laid.getElem_ios {slot : Nat} (within : slot < count) :
    state.ios[slot]? = some (slotAt ⟨session, maxBufsize, 0, 1⟩ headerBase scratchBase slot) := by
  rw [laid.ios, List.getElem?_map, List.getElem?_range within, Option.map_some]

/-- The indices are those of the table, in its order. -/
theorem Laid.indices : (state.layout headerBase scratchBase count).indices =
    (List.range (3 * count + 1)).map (fun index : Nat => (index : Int)) := by
  have pushed : ∀ passes : Nat, (0 : Int) :: ((List.range passes).map
      (slotAt ⟨session, maxBufsize, 0, 1⟩ headerBase scratchBase)).flatMap FuseIoFields.indices =
        (List.range (3 * passes + 1)).map (fun index : Nat => (index : Int)) := by
    intro passes
    induction passes with
    | zero => rfl
    | succ passes ih =>
      rw [show 3 * (passes + 1) + 1 = 3 * passes + 1 + 1 + 1 + 1 by omega,
        List.range_succ (n := passes),
        List.range_succ, List.range_succ, List.range_succ]
      simp only [List.map_append, List.flatMap_append, ← List.cons_append, ih]
      simp [FuseIoFields.indices, slotAt]
  show (0 : Int) :: state.ios.flatMap FuseIoFields.indices = _
  rw [laid.ios]
  exact pushed count

/-- An index of a slot leads to the object of its place. -/
theorem Laid.leads {fd : Fd} (within : fd.Within count) :
    ∃ descriptor, (state.layout headerBase scratchBase count).descriptor fd = some descriptor ∧
      world.stands descriptor = some (fd.object before session) := by
  have entry : ∀ index : Nat, index < 3 * count + 1 →
      ∃ descriptor, state.fixedFds[index]? = some descriptor ∧
      world.stands descriptor = some (objectAt before session index) := by
    intro index inTable
    refine laid.table.getElem ?_
    rw [List.getElem?_map, List.getElem?_range inTable, Option.map_some]
  rcases fd with _ | ⟨⟨slot⟩⟩ | ⟨⟨slot⟩⟩ | ⟨⟨slot⟩⟩
  · exact entry 0 (by omega)
  all_goals
    have inPool : slot < count := within
    simp only [Layout.descriptor, Layout.index, SetUpState.layout, laid.getElem_ios inPool,
      Option.map_some,
      Option.bind_some, slotAt, Int.toNat_natCast, Fd.object]
  · obtain ⟨descriptor, found, stands⟩ := entry (3 * slot + 3) (by omega)
    refine ⟨descriptor, found, ?_⟩
    rw [stands, objectAt, if_neg (by omega), if_neg (by omega), if_neg (by omega),
      show (3 * slot + 3) / 3 - 1 = slot by omega]
  · obtain ⟨descriptor, found, stands⟩ := entry (3 * slot + 1) (by omega)
    refine ⟨descriptor, found, ?_⟩
    rw [stands, objectAt, if_neg (by omega), if_pos (by omega),
      show (3 * slot + 1) / 3 = slot by omega]
  · obtain ⟨descriptor, found, stands⟩ := entry (3 * slot + 2) (by omega)
    refine ⟨descriptor, found, ?_⟩
    rw [stands, objectAt, if_neg (by omega), if_neg (by omega), if_pos (by omega),
      show (3 * slot + 2) / 3 = slot by omega]

/-- Only the slots have indices. -/
theorem Laid.within {fd : Fd} {descriptor : Descriptor}
    (found : (state.layout headerBase scratchBase count).descriptor fd = some descriptor) :
    fd.Within count := by
  have length : state.ios.length = count := by
    rw [laid.ios, List.length_map, List.length_range]
  rcases fd with _ | ⟨⟨slot⟩⟩ | ⟨⟨slot⟩⟩ | ⟨⟨slot⟩⟩
  · trivial
  all_goals
    obtain ⟨index, indexed, _⟩ := Option.bind_eq_some_iff.mp found
    obtain ⟨io, slotted, _⟩ := Option.map_eq_some_iff.mp indexed
    have inside := (List.getElem?_eq_some_iff.mp slotted).1
    exact inside.trans_eq length

/-- **The loop ends with the slots apart.** -/
theorem Laid.slotsApart
    (buffersApart : IoVec.Apart ⟨headerBase, headerBufSize * count⟩
      ⟨scratchBase, scratchBufSize * count⟩) :
    SlotsApart count session before world (state.layout headerBase scratchBase count) where
  slots := by
    show state.ios.length = count
    rw [laid.ios, List.length_map, List.length_range]
  headers := by
    intro io member
    obtain ⟨slot, within, rfl⟩ := laid.mem_ios member
    exact ⟨_, rfl, IoVec.part_inside within⟩
  scratches := by
    intro io member
    obtain ⟨slot, within, rfl⟩ := laid.mem_ios member
    exact ⟨_, rfl, IoVec.part_inside within⟩
  apart := by
    have across : ∀ slot < count, ∀ slot' < count,
        (IoVec.part headerBase headerBufSize slot).Apart
          (IoVec.part scratchBase scratchBufSize slot') :=
      fun slot within slot' within' => buffersApart.of_inside (IoVec.part_inside within)
        (IoVec.part_inside within')
    show (state.ios.flatMap FuseIoFields.ranges).Pairwise IoVec.Apart
    rw [List.pairwise_flatMap]
    constructor
    · intro io member
      obtain ⟨slot, within, rfl⟩ := laid.mem_ios member
      exact List.pairwise_pair.mpr (across slot within slot within)
    · rw [laid.ios, List.pairwise_map]
      refine List.Pairwise.imp_of_mem ?_ List.pairwise_lt_range
      intro slot slot' member member' earlier range inSlot range' inSlot'
      have within := List.mem_range.mp member
      have within' := List.mem_range.mp member'
      simp only [FuseIoFields.ranges, List.mem_cons, List.not_mem_nil, or_false] at inSlot inSlot'
      rcases inSlot with rfl | rfl <;> rcases inSlot' with rfl | rfl
      · exact IoVec.part_apart earlier
      · exact across slot within slot' within'
      · exact (across slot' within' slot within).symm
      · exact IoVec.part_apart earlier
  distinct := by
    rw [laid.indices]
    exact List.nodup_range.map Int.ofNat_injective
  exactly := by
    intro index
    rw [laid.indices, List.mem_map]
    constructor
    · rintro ⟨place, inTable, rfl⟩
      have := List.mem_range.mp inTable
      omega
    · rintro ⟨low, high⟩
      exact ⟨index.toNat, List.mem_range.mpr (by omega), by omega⟩
  leads := fun fd within => laid.leads within
  own := by
    intro fd fd' descriptor found found'
    obtain ⟨_, same, stands⟩ := laid.leads (laid.within found)
    obtain ⟨_, same', stands'⟩ := laid.leads (laid.within found')
    rw [found] at same
    rw [found'] at same'
    cases same
    cases same'
    rw [stands] at stands'
    exact Fd.object_injective before session (Option.some_injective _ stands')

end Law

/-! ### From the calls to the layout -/

/-- The call succeeded. An allocation always does. -/
def SetUpOp.Succeeds : (op : SetUpOp) → op.Answer → Prop
  | .queueInit _, ready => ready = true
  | .allocate _, _ => True
  | .pipe2, made => made ≠ none
  | .setPipeSize _ _, sized => sized = true
  | .openDevice, opened => opened ≠ none
  | .cloneDevice _ _, joined => joined = true
  | .registerFiles _, registered => registered = true
  | .registerBuffers _, registered => registered = true
  | .fstat, status => status ≠ none

/-- A program ends like this if its calls succeed. -/
def IfAllSucceed {α : Type} (program : Program setUp α) (post : α → Prop) : Prop :=
  Program.wp (.answers SetUpOp.Succeeds) program () fun value _ => post value

section Succeed

variable {α β : Type} {post : β → Prop}

theorem succeed_pure {value : β} (holds : post value) : IfAllSucceed (pure value) post :=
  Program.wp_pure holds

/-- A call and what follows. -/
theorem succeed_ask (op : SetUpOp) {next : op.Answer → Program setUp β}
    (rest : ∀ answer, op.Succeeds answer → IfAllSucceed (next answer) post) :
    IfAllSucceed (Program.ask (S := setUp) op >>= next) post :=
  (Program.wp_ask_bind (S := setUp) op next () _).mpr rest

theorem succeed_seq {program : Program setUp α} {next : α → Program setUp β}
    (middle : α → Prop) (first : IfAllSucceed program middle)
    (second : ∀ value, middle value → IfAllSucceed (next value) post) :
    IfAllSucceed (program >>= next) post :=
  Program.wp_seq (fun value _ => middle value) first fun value _ => second value

/-- A call that is tested, and what follows. -/
theorem succeed_test {ready : Bool} (success : ready = true) {yes no : Program setUp β}
    (rest : IfAllSucceed no post) : IfAllSucceed (if !ready then yes else no) post := by
  rw [success]
  exact rest

theorem cloneFuseFd_succeeds (fuseFd : Descriptor) :
    IfAllSucceed (cloneFuseFd fuseFd) fun cloned => cloned ≠ none := by
  refine succeed_ask .openDevice fun opened success => ?_
  cases opened with
  | none => exact absurd rfl success
  | some sessionFd =>
    refine succeed_ask (.cloneDevice _ _) fun joined success => succeed_test success ?_
    exact succeed_pure (Option.some_ne_none _)

/-- A pass gives a slot. -/
theorem setUpIo_succeeds (constants : SetUpConstants) (state : SetUpState) :
    IfAllSucceed (setUpIo constants state) fun filled => ∃ state', filled = .ok state' := by
  refine succeed_ask .pipe2 fun made success => ?_
  cases made with
  | none => exact absurd rfl success
  | some ends =>
    refine succeed_ask (.setPipeSize _ _) fun sized success => succeed_test success ?_
    refine succeed_seq _ (cloneFuseFd_succeeds _) fun cloned success => ?_
    cases cloned with
    | none => exact absurd rfl success
    | some sessionFd => exact succeed_pure ⟨_, rfl⟩

/-- The loop comes to its end, by induction on the passes that remain. -/
theorem setUpIos_succeeds (constants : SetUpConstants) (remaining : Nat) (state : SetUpState) :
    IfAllSucceed (setUpIos constants remaining state) fun laid => ∃ state', laid = .ok state' := by
  induction remaining generalizing state with
  | zero => exact succeed_pure ⟨state, rfl⟩
  | succ remaining ih =>
    refine succeed_seq _ (setUpIo_succeeds constants state) fun filled done => ?_
    obtain ⟨state', rfl⟩ := done
    exact ih state'

theorem layOut_succeeds (worker : Worker) (backingFd fuseFd : Descriptor) :
    IfAllSucceed (layOut worker backingFd fuseFd) fun laid => ∃ layout, laid = .ok layout := by
  refine succeed_ask (.allocate _) fun headerBuf _ => succeed_ask (.allocate _) fun scratchBuf _ =>
    succeed_seq _ (setUpIos_succeeds _ _ _) fun laid done => ?_
  obtain ⟨state, rfl⟩ := done
  exact succeed_pure ⟨_, rfl⟩

theorem workerRing_succeeds (worker : Worker) :
    IfAllSucceed (workerRing worker) fun ring => ring ≠ none := by
  unfold workerRing
  cases worker.fuseUring with
  | some entries => exact succeed_pure (Option.some_ne_none _)
  | none =>
    refine succeed_ask (.queueInit _) fun ready success => succeed_test success ?_
    exact succeed_pure (Option.some_ne_none _)

theorem fuseuringRun_succeeds (worker : Worker) (backingFd fuseFd : Descriptor) :
    IfAllSucceed (fuseuringRun worker backingFd fuseFd) fun served =>
      ∃ ring, served = .ok ring := by
  refine succeed_seq _ (workerRing_succeeds worker) fun ring success => ?_
  cases ring with
  | none => exact absurd rfl success
  | some entries =>
    refine succeed_seq _ (layOut_succeeds worker backingFd fuseFd) fun laid done => ?_
    obtain ⟨layout, rfl⟩ := done
    refine succeed_ask (.registerFiles _) fun registered success => succeed_test success ?_
    refine succeed_ask (.registerBuffers _) fun registered success => succeed_test success ?_
    refine succeed_ask .fstat fun status success => ?_
    cases status with
    | none => exact absurd rfl success
    | some size => exact succeed_pure ⟨_, rfl⟩

end Succeed

/-! ### From the layout to the law -/

section Runs

variable {kernel : SetUpKernel} {worker : Worker} {backingFd fuseFd : Descriptor}
  {before : SetUpWorld}

/-- Only the numbers of the pipes and of the openings are read of the state
before, only the descriptors of the one after. -/
theorem SlotsApart.congr {count : Nat} {before' after after' : SetUpWorld} {layout : Layout}
    (sound : SlotsApart count fuseFd before after layout) (pipes : before'.pipes = before.pipes)
    (openings : before'.openings = before.openings) (stands : after'.stands = after.stands) :
    SlotsApart count fuseFd before' after' layout where
  slots := sound.slots
  headers := sound.headers
  scratches := sound.scratches
  apart := sound.apart
  distinct := sound.distinct
  exactly := sound.exactly
  leads := by
    intro fd within
    obtain ⟨descriptor, found, leads⟩ := sound.leads fd within
    refine ⟨descriptor, found, ?_⟩
    rw [stands, leads]
    cases fd <;> simp [Fd.object, pipes, openings]
  own := sound.own

theorem intToSize_of_nonneg {value : Int} (low : 0 ≤ value) (high : value < 2 ^ 31) :
    intToSize value = value.toNat := by
  unfold intToSize
  omega

/-- A layout that is reached is sound. -/
theorem layOut_slotsApart {layout : Layout} {after : SetUpWorld} (positive : 1 ≤ worker.maxFuseIos)
    (isInt : worker.maxFuseIos < 2 ^ 31) (file : before.stands backingFd = some .file)
    (laid : Program.run kernel.handler (layOut worker backingFd fuseFd) before =
      (.ok layout, after)) :
    SlotsApart worker.maxFuseIos.toNat fuseFd before after layout := by
  have header : headerBufSize * worker.maxFuseIos.toNat % 18446744073709551616 =
      headerBufSize * worker.maxFuseIos.toNat := by
    refine Nat.mod_eq_of_lt ?_
    rw [show headerBufSize = 80 from rfl]
    omega
  have scratch : scratchBufSize * worker.maxFuseIos.toNat % 18446744073709551616 =
      scratchBufSize * worker.maxFuseIos.toNat := by
    refine Nat.mod_eq_of_lt ?_
    rw [show scratchBufSize = 4096 from rfl]
    omega
  unfold layOut at laid
  simp only [intToSize_of_nonneg (by omega : (0 : Int) ≤ worker.maxFuseIos) isInt, header, scratch,
    Program.run_bind,
    run_askAllocate] at laid
  generalize ends : Program.run kernel.handler (setUpIos _ _ _) _ = ended at laid
  obtain ⟨outcome, world⟩ := ended
  cases outcome with
  | error code => cases laid
  | ok state =>
    cases laid
    set headerRange : IoVec := ⟨kernel.allocate before (headerBufSize * worker.maxFuseIos.toNat),
      headerBufSize * worker.maxFuseIos.toNat⟩ with headerEq
    set scratchRange : IoVec := ⟨kernel.allocate (before.allocated headerRange)
      (scratchBufSize * worker.maxFuseIos.toNat),
      scratchBufSize * worker.maxFuseIos.toNat⟩ with scratchEq
    have start : Laid ⟨fuseFd, worker.maxBufsize, 0,
        1⟩ before headerRange.iovBase scratchRange.iovBase 0
        ((before.allocated headerRange).allocated scratchRange)
        ⟨[backingFd], [], headerRange.iovBase, scratchRange.iovBase⟩ := by
      refine ⟨rfl, ?_, rfl, rfl, rfl, rfl⟩
      show [before.stands backingFd] = [some Object.file]
      rw [file]
    have done := start.loop ends
    rw [Nat.zero_add] at done
    exact done.slotsApart (kernel.allocate_apart _ _ _ List.mem_cons_self)

/-- Making a ring opens nothing the slots know of. -/
theorem workerRing_quiet {made : Option Int} {after : SetUpWorld}
    (done : Program.run kernel.handler (workerRing worker) before = (made, after)) :
    (after = before ∨ after = before.tick) ∧
      (made = none ∨ made = some (worker.fuseUring.getD (ringEntries worker.maxFuseIos))) := by
  unfold workerRing at done
  cases given : worker.fuseUring with
  | some entries =>
    rw [given] at done
    cases done
    exact ⟨.inl rfl, .inr rfl⟩
  | none =>
    rw [given] at done
    simp only [Program.run_bind, run_askQueueInit] at done
    cases ready : kernel.succeeds before with
    | false =>
      simp only [ready, Bool.not_false, if_true] at done
      cases done
      exact ⟨.inr rfl, .inl rfl⟩
    | true =>
      simp only [ready, Bool.not_true, Bool.false_eq_true, if_false] at done
      cases done
      exact ⟨.inr rfl, .inr rfl⟩

/-- What a worker serves: the layout of its set-up, registered. -/
theorem fuseuringRun_ok {ring : ServedRing} {after : SetUpWorld}
    (done : Program.run kernel.handler (fuseuringRun worker backingFd fuseFd) before =
      (.ok ring, after)) :
    ∃ layout start middle, (start = before ∨ start = before.tick) ∧
      Program.run kernel.handler (layOut worker backingFd fuseFd) start = (.ok layout, middle) ∧
      after.files = layout.fixedFds ∧ after.buffers = layout.regBuffers ∧
      after.stands = middle.stands ∧
      ring.ios = layout.ios ∧ ring.backingFd = layout.backingFd ∧
      ring.entries = worker.fuseUring.getD (ringEntries worker.maxFuseIos) := by
  unfold fuseuringRun at done
  rw [Program.run_bind] at done
  cases made : Program.run kernel.handler (workerRing worker) before with
  | mk ringMade start =>
    obtain ⟨same, entriesOf⟩ := workerRing_quiet made
    rw [made] at done
    rcases entriesOf with rfl | rfl
    · cases done
    simp only [Program.run_bind] at done
    cases laid : Program.run kernel.handler (layOut worker backingFd fuseFd) start with
    | mk outcome middle =>
      rw [laid] at done
      cases outcome with
      | error code => cases done
      | ok layout =>
        simp only [Program.run_bind, run_askRegisterFiles] at done
        cases files : kernel.succeeds middle with
        | false =>
          simp only [files, Bool.not_false, if_true] at done
          cases done
        | true =>
          simp only [files, Bool.not_true, Bool.false_eq_true, if_false, Program.run_bind,
            run_askRegisterBuffers] at done
          cases buffers : kernel.succeeds (middle.withFiles layout.fixedFds true) with
          | false =>
            simp only [buffers, Bool.not_false, if_true] at done
            cases done
          | true =>
            simp only [buffers, Bool.not_true, Bool.false_eq_true, if_false, Program.run_bind,
              run_askFstat] at done
            generalize kernel.fstat _ = status at done
            cases status with
            | none => cases done
            | some size =>
              cases done
              exact ⟨layout, start, middle, same, laid, rfl, rfl, rfl, rfl, rfl, rfl⟩

/-- **The slots of a worker**: a layout that the loop reaches is sound, and so is what the
worker serves over the files and the buffers that are registered. Where every call succeeds,
both are reached. -/
theorem slots_apart (kernel : SetUpKernel) (worker : Worker) (backingFd fuseFd : Descriptor)
    (before : SetUpWorld)
    (positive : 1 ≤ worker.maxFuseIos) (isInt : worker.maxFuseIos < 2 ^ 31)
    (file : before.stands backingFd = some .file) :
    ((layOut worker backingFd fuseFd).Answers kernel.handler SetUpOp.Succeeds before →
      ∃ layout after, Program.run kernel.handler (layOut worker backingFd fuseFd) before =
        (.ok layout, after)) ∧
    (∀ layout after, Program.run kernel.handler (layOut worker backingFd fuseFd) before =
      (.ok layout, after) →
      SlotsApart worker.maxFuseIos.toNat fuseFd before after layout) ∧
    ((fuseuringRun worker backingFd fuseFd).Answers kernel.handler SetUpOp.Succeeds before →
      ∃ ring after, Program.run kernel.handler (fuseuringRun worker backingFd fuseFd) before =
        (.ok ring, after)) ∧
    ∀ ring after, Program.run kernel.handler (fuseuringRun worker backingFd fuseFd) before =
      (.ok ring, after) →
      SlotsApart worker.maxFuseIos.toNat fuseFd before after
        ⟨ring.backingFd, after.files, ring.ios, after.buffers⟩ := by
  refine ⟨fun succeed => ?_, fun layout after laid => ?_, fun succeed => ?_,
    fun ring after done => ?_⟩
  · obtain ⟨layout, laid⟩ :=
      Program.run_of_answers _ succeed (layOut_succeeds worker backingFd fuseFd)
    exact ⟨layout, _, Prod.ext laid rfl⟩
  · exact layOut_slotsApart positive isInt file laid
  · obtain ⟨ring, done⟩ :=
      Program.run_of_answers _ succeed (fuseuringRun_succeeds worker backingFd fuseFd)
    exact ⟨ring, _, Prod.ext done rfl⟩
  · obtain ⟨layout, start, middle, same, laid, files, buffers, stands, ios, index, _⟩ :=
      fuseuringRun_ok done
    have started : start.stands backingFd = some .file ∧ start.pipes = before.pipes ∧
        start.openings = before.openings := by
      rcases same with rfl | rfl <;> exact ⟨file, rfl, rfl⟩
    have sound := layOut_slotsApart positive isInt started.1 laid
    rw [files, buffers, ios, index]
    exact sound.congr started.2.1.symm started.2.2.symm stands

end Runs

/-- A kernel that hands out the descriptors in their order and memory behind what is in use. -/
def orderlyKernel : SetUpKernel where
  succeeds := fun _ => true
  allocate := fun world _ => (world.heap.map fun range => range.iovBase + range.iovLen).foldr max 0
  pipe2 := fun world =>
    let readEnd := Fin.ofNat (2 ^ 31) (5 + 2 * world.pipes + world.openings)
    let writeEnd := Fin.ofNat (2 ^ 31) (6 + 2 * world.pipes + world.openings)
    if world.stands readEnd = none ∧ world.stands writeEnd = none ∧
      readEnd ≠ writeEnd then some (readEnd, writeEnd)
    else none
  openDevice := fun world =>
    let device := Fin.ofNat (2 ^ 31) (5 + 2 * world.pipes + world.openings)
    if world.stands device = none then some device else none
  fstat := fun _ => some 4096
  allocate_apart := by
    intro world bytes range member
    left
    exact List.le_max_of_le' 0 (List.mem_map_of_mem member) le_rfl
  pipe2_fresh := by
    intro world readEnd writeEnd made
    simp only [Option.ite_none_right_eq_some, Option.some.injEq, Prod.mk.injEq] at made
    obtain ⟨fresh, rfl, rfl⟩ := made
    exact fresh
  openDevice_fresh := by
    intro world device opened
    simp only [Option.ite_none_right_eq_some, Option.some.injEq] at opened
    obtain ⟨fresh, rfl⟩ := opened
    exact fresh

/-- A process with the backing file and the session open. -/
def freshProcess : SetUpWorld where
  calls := 0
  stands := fun descriptor => if descriptor = 3 then some .file else if descriptor = 4
    then some .session else none
  pipes := 0
  openings := 0
  heap := []
  files := []
  buffers := []

/-- The slots of a pool of two. -/
theorem slots_apart_two : ∃ layout, (Program.run orderlyKernel.handler
    (layOut ⟨2, 1048576, some 100, false⟩ 3 4)
    freshProcess).1 = .ok layout ∧ SlotsApart 2 4 freshProcess
      (Program.run orderlyKernel.handler
        (layOut ⟨2, 1048576, some 100, false⟩ 3 4) freshProcess).2 layout :=
  ⟨⟨0, [3, 5, 6, 7, 8, 9, 10],
    [⟨3, 1, 2, 0, 0, 160, 1⟩, ⟨6, 4, 5, 80, 0, 4256, 1⟩], [⟨0, 160⟩, ⟨160, 8192⟩]⟩, rfl,
    (slots_apart orderlyKernel ⟨2, 1048576, some 100, false⟩ 3 4 freshProcess (by decide)
      (by decide) rfl).2.1 _ _ rfl⟩

end Fuseuring
