/-
**One slot and the kernel.**

The world of a slot: its memory, its pipe (a queue of bytes), the backing file, the message the
session delivers next, and the trace of what happened to the current request. A `Kernel` is any
policy for the completion results: it may look at the whole world, so that every combination of
results is some kernel's. A result is what an operation returned; a successful operation moves
exactly that many bytes, in order, and never more than there are.

`World.runChain` is a chain of linked entries: it is cut behind a soft-linked operation that fails
or is short, and the rest completes with `-ECANCELED` and no effect. `exec` runs a coroutine against
a kernel.
-/

import Fuseuring.QueueFuseRead

namespace Fuseuring

open Bytes Interaction

/-! ### The backing file -/

/-- A file: its size, its bytes, and the position that an offset of `-1` stands for. -/
structure File where
  size : Nat
  byte : Buffer
  pos : Nat

namespace File

/-- Where an operation with this offset starts; negative offsets but `-1` are refused. -/
def start (file : File) (offset : Int) : Option Nat :=
  if offset = -1 then some file.pos else if offset < 0 then none else some offset.toNat

/-- The bytes from `start` on, up to the file's end. -/
def read (file : File) (start count : Nat) : List UInt8 :=
  slice file.byte start (min count (file.size - start))

/-- Write bytes at `start`; a gap behind the end reads as zeros. -/
def write (file : File) (start : Nat) (bytes : List UInt8) : File :=
  { file with
    size := if bytes = [] then file.size else max file.size (start + bytes.length)
    byte := if bytes = [] then file.byte else
      Bytes.write (fun index => if index < file.size then file.byte index else 0) start bytes }

/-- The position moves only for an offset of `-1`. -/
def seek (file : File) (offset : Int) (count : Nat) : File :=
  if offset = -1 then { file with pos := file.pos + count } else file

end File

/-! ### The world of a slot -/

/-- What happens to a request: a coroutine is entered, a chain is queued with the memory as it is
then, an operation runs with the pipe as it is then, moving bytes and returning a result. -/
inductive Event
  | called (function : Function)
  | queued (chain : List Sqe) (mem : Mem)
  | ran (operation : Operation) (pipe bytes : List UInt8) (res : Int)

structure World where
  fuseIo : FuseIo
  mem : Mem
  pipe : List UInt8
  file : File
  /-- The message the session's next read delivers. -/
  incoming : List UInt8
  /-- The entries taken and not yet awaited, with what was prepared in them. -/
  entries : List (Option Sqe)
  /-- How many further entries the last `get_sqe(k)` made sure of. -/
  reserved : Nat
  trace : List Event
  lastRc : Int
  /-- A null entry was prepared. -/
  fault : Bool

/-- A policy for the answers of the kernel: whether an entry is to be had, and what an operation
returns in its `int`. -/
structure Kernel where
  sqe : World → Nat → Bool
  result : World → Sqe → Int
  result_lt : ∀ world sqe, result world sqe < 2 ^ 31
  result_ge : ∀ world sqe, -2 ^ 31 ≤ result world sqe

namespace World

/-- The bytes an operation can move, `none` if it cannot run at all. -/
def available (world : World) : Operation → Option (List UInt8)
  | .splice (.fuse _) _ (.pipe1 _) _ nbytes =>
      if world.incoming.length ≤ nbytes then some world.incoming else none
  | .splice (.pipe0 _) _ (.fuse _) _ nbytes => some (world.pipe.take nbytes)
  | .splice .backing offset (.pipe1 _) _ nbytes =>
      if nbytes = 0 then some []
      else (world.file.start offset).map fun start => world.file.read start nbytes
  | .splice (.pipe0 _) _ .backing offset nbytes =>
      if nbytes = 0 then some []
      else (world.file.start offset).map fun _ => world.pipe.take nbytes
  | .read (.pipe0 _) _ nbytes => some (world.pipe.take nbytes)
  | .writeFixed (.pipe1 _) buf nbytes => some (world.mem.bytes buf nbytes)
  | .write (.pipe1 _) buf => some buf
  | _ => none

/-- Move bytes as an operation does. -/
def transfer (world : World) (operation : Operation) (bytes : List UInt8) : World :=
  match operation with
  | .splice (.fuse _) _ _ _ _ => { world with pipe := world.pipe ++ bytes, incoming := [] }
  | .splice .backing offset _ _ _ =>
      { world with pipe := world.pipe ++ bytes, file := world.file.seek offset bytes.length }
  | .splice _ _ .backing offset _ =>
      { world with
        pipe := world.pipe.drop bytes.length
        file := (world.file.write ((world.file.start offset).getD 0) bytes).seek
          offset bytes.length }
  | .splice _ _ _ _ _ => { world with pipe := world.pipe.drop bytes.length }
  | .read _ buf _ =>
      { world with pipe := world.pipe.drop bytes.length, mem := world.mem.copy buf bytes }
  | .writeFixed _ _ _ => { world with pipe := world.pipe ++ bytes }
  | .write _ _ => { world with pipe := world.pipe ++ bytes }

def record (world : World) (event : Event) : World := { world with trace := world.trace ++ [event] }

def setMem (world : World) (mem : Mem) : World := { world with mem := mem }

/-- The part of the available bytes that moves: a session delivers whole messages. -/
def portion (operation : Operation) (bytes : List UInt8) (res : Int) : List UInt8 :=
  match operation with
  | .splice (.fuse _) _ _ _ _ => bytes
  | _ => bytes.take res.toNat

/-- One operation runs. -/
def perform (kernel : Kernel) (world : World) (sqe : Sqe) : Int × World :=
  match world.available sqe.operation with
  | none => (-EINVAL, world.record (.ran sqe.operation world.pipe [] (-EINVAL)))
  | some bytes =>
    let res := kernel.result world sqe
    if res < 0 then (res, world.record (.ran sqe.operation world.pipe [] res))
    else
      let moved := portion sqe.operation bytes res
      (moved.length,
        (world.transfer sqe.operation moved).record
          (.ran sqe.operation world.pipe moved moved.length))

/-- A chain runs in order. -/
def runChain (kernel : Kernel) : List Sqe → World → List Int × World
  | [], world => ([], world)
  | sqe :: rest, world =>
    let (res, after) := world.perform kernel sqe
    if sqe.link = .link ∧ res < sqe.operation.nbytes then
      (res :: rest.map fun _ => -ECANCELED, after)
    else
      let (others, final) := runChain kernel rest after
      (res :: others, final)

/-- Take an entry. -/
def alloc (world : World) (reserved : Nat) : SqeRef × World :=
  (some world.entries.length,
    { world with entries := world.entries ++ [none], reserved := reserved })

/-- `get_sqe`: an entry made sure of is to be had; otherwise the kernel decides. -/
def getSqe (kernel : Kernel) (world : World) (peek : Nat) : SqeRef × World :=
  if peek = 1 ∧ 0 < world.reserved then world.alloc (world.reserved - 1)
  else if kernel.sqe world peek then world.alloc (peek - 1)
  else (none, world)

def prep (world : World) (sqe : SqeRef) (entry : Sqe) : World :=
  match sqe with
  | none => { world with fault := true }
  | some index => { world with entries := world.entries.set index (some entry) }

/-- The prepared entries that a list of references names. -/
def chainOf (world : World) (sqes : List SqeRef) : List Sqe :=
  sqes.filterMap fun sqe => sqe.bind fun index => (world.entries[index]?).join

/-- The awaited entries are queued as a chain and run. -/
def complete (kernel : Kernel) (world : World) (sqes : List SqeRef) : List Int × World :=
  let chain := world.chainOf sqes
  runChain kernel chain ({ world with entries := [] }.record (.queued chain world.mem))

end World

/-- The slot's answers to a coroutine. -/
def Kernel.handler (kernel : Kernel) : Program.Handler coroutines World where
  answer
    | .getFuseIo, world => (world.fuseIo, world)
    | .releaseFuseIo _, world => ((), world)
    | .load _, world => (world.mem, world)
    | .store _ mem, world => ((), world.setMem mem)
    | .getSqe peek, world => world.getSqe kernel peek
    | .prep sqe entry, world => ((), world.prep sqe entry)
    | .complete sqes, world => world.complete kernel sqes
    | .setLastRc rc, world => ((), { world with lastRc := rc })
  enter function world := world.record (.called function)

/-- Run a coroutine on a slot. -/
def exec (kernel : Kernel) {α : Type} (program : Coro α) (world : World) : α × World :=
  program.run kernel.handler world

section Exec

variable (kernel : Kernel) {α β : Type} (world : World)

theorem exec_bind (program : Coro α) (next : α → Coro β) :
    exec kernel (program >>= next) world =
      exec kernel (next (exec kernel program world).1) (exec kernel program world).2 :=
  Program.run_bind _ _ _ _

@[simp] theorem exec_ret (value : α) : exec kernel (.ret value) world = (value, world) := rfl

@[simp] theorem exec_pure (value : α) : exec kernel (pure value) world = (value, world) := rfl

@[simp] theorem exec_pure_bind (value : α) (next : α → Coro β) :
    exec kernel (pure value >>= next) world = exec kernel (next value) world := rfl

@[simp] theorem exec_awaitInt (function : Function) (task : Coro Int) :
    exec kernel (awaitInt function task) world = exec kernel task
      (world.record (.called function)) := rfl

@[simp] theorem exec_awaitPointer (function : Function) (task : Coro (Option Ptr)) :
    exec kernel (awaitPointer function task) world =
      exec kernel task (world.record (.called function)) := rfl

@[simp] theorem exec_getFuseIo (next : FuseIo → Coro β) :
    exec kernel (getFuseIo >>= next) world = exec kernel (next world.fuseIo) world := rfl

@[simp] theorem exec_releaseFuseIo (fuseIo : FuseIo) (next : Unit → Coro β) :
    exec kernel (releaseFuseIo fuseIo >>= next) world = exec kernel (next ()) world := rfl

@[simp] theorem exec_loadMem (fuseIo : FuseIo) (next : Mem → Coro β) :
    exec kernel (loadMem fuseIo >>= next) world = exec kernel (next world.mem) world := rfl

@[simp] theorem exec_storeMem (fuseIo : FuseIo) (mem : Mem) (next : Unit → Coro β) :
    exec kernel (storeMem fuseIo mem >>= next) world = exec kernel (next ()) (world.setMem mem) :=
  rfl

@[simp] theorem exec_prep (sqe : SqeRef) (operation : Operation) (flag : Link)
    (next : Unit → Coro β) :
    exec kernel (prep sqe operation flag >>= next) world =
      exec kernel (next ()) (world.prep sqe ⟨operation, flag⟩) := rfl

@[simp] theorem exec_complete (sqes : List SqeRef) (next : List Int → Coro β) :
    exec kernel (complete sqes >>= next) world =
      exec kernel (next (world.complete kernel sqes).1) (world.complete kernel sqes).2 := rfl

@[simp] theorem exec_completeOne (sqe : SqeRef) (next : Int → Coro β) :
    exec kernel (completeOne sqe >>= next) world =
      exec kernel (next ((world.complete kernel [sqe]).1.getD 0 (-1)))
      (world.complete kernel [sqe]).2 :=
  rfl

@[simp] theorem exec_completePair (first second : SqeRef) (next : Int × Int → Coro β) :
    exec kernel (completePair first second >>= next) world =
      exec kernel (next ((world.complete kernel [first, second]).1.getD 0 (-1),
        (world.complete kernel [first, second]).1.getD 1 (-1)))
        (world.complete kernel [first, second]).2 := rfl

variable {world}

/-- An entry nobody made sure of: the kernel decides. -/
theorem exec_getSqe_fresh (unreserved : world.reserved = 0) (peek : Nat) (next : SqeRef → Coro β) :
    exec kernel (getSqe peek >>= next) world =
      if kernel.sqe world peek then
        exec kernel (next (some world.entries.length))
          { world with entries := world.entries ++ [none], reserved := peek - 1 }
      else exec kernel (next none) world := by
  show exec kernel (next (world.getSqe kernel peek).1) (world.getSqe kernel peek).2 = _
  simp only [World.getSqe, unreserved, Nat.lt_irrefl, and_false, if_false]
  split <;> rfl

/-- An entry made sure of is to be had. -/
theorem exec_getSqe_reserved (reserved : 0 < world.reserved) (next : SqeRef → Coro β) :
    exec kernel (getSqe 1 >>= next) world =
      exec kernel (next (some world.entries.length))
        { world with entries := world.entries ++ [none], reserved := world.reserved - 1 } := by
  show exec kernel (next (world.getSqe kernel 1).1) (world.getSqe kernel 1).2 = _
  rw [World.getSqe, if_pos ⟨rfl, reserved⟩]
  rfl

theorem exec_ite (condition : Prop) [Decidable condition] (first second : Coro α) :
    exec kernel (if condition then first else second) world =
      if condition then exec kernel first world else exec kernel second world := by
  split <;> rfl

end Exec

end Fuseuring
