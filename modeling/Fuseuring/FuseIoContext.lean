/-
**The I/O context as the coroutines see it (`fuse_io_context.h`).**

A coroutine body is a `Coro`: a program over the operations below. `getSqe` is `get_sqe`, answered
with an entry or with `nullptr`; `prep` is an `io_uring_prep_*` call and the link flag set after it;
`complete` is `co_await io.complete(..)`, answered with the results in the order of its entries.
Memory is explicit: a slot's buffers are read and assigned as one `Mem`, so that a pointer into a
buffer and a structure built in the same buffer alias here as they do in the source.

Descriptors are symbolic. Every operation of the source uses registered files, and a slot's
indices stand for its own pipe ends and its own session.
-/

import Fuseuring.Library.Program
import Fuseuring.FuseKernel

namespace Fuseuring

open Bytes Interaction

/-! ### Slots, memory, submission entries -/

/-- `FuseIo`: a slot, named by its place in the set-up loop. -/
structure FuseIo where
  slot : Nat
deriving DecidableEq, Repr

/-- What a registered file index stands for. -/
inductive Fd
  | backing
  | fuse (fuseIo : FuseIo)
  | pipe0 (fuseIo : FuseIo)
  | pipe1 (fuseIo : FuseIo)
deriving DecidableEq, Repr

/-- The buffers a request's pointers lead to: the slot's `header_buf` and `scratch_buf`, the frame's
`rbytes_buf_d`, and whatever an unassigned `rbytes_buf` happens to point at. That pointer is a
leftover in a recycled frame and may lead into any memory, old bytes of the two buffers
included; it is only read through, so the last region is what is found there, any bytes. -/
inductive Region
  | header
  | scratch
  | free
  | wild
deriving DecidableEq, Repr

/-- A `char*`. -/
structure Ptr where
  fuseIo : FuseIo
  region : Region
  offset : Nat
deriving DecidableEq, Repr

/-- The memory a request works in; `freeSize` is the size of `rbytes_buf_d`. -/
structure Mem where
  headerBuf : Buffer
  scratchBuf : Buffer
  freeBuf : Buffer
  freeSize : Nat
  wild : Buffer

namespace Mem

def buffer (mem : Mem) : Region → Buffer
  | .header => mem.headerBuf
  | .scratch => mem.scratchBuf
  | .free => mem.freeBuf
  | .wild => mem.wild

def setBuffer (mem : Mem) (region : Region) (buffer : Buffer) : Mem :=
  match region with
  | .header => { mem with headerBuf := buffer }
  | .scratch => { mem with scratchBuf := buffer }
  | .free => { mem with freeBuf := buffer }
  | .wild => { mem with wild := buffer }

/-- A field of the structure `pointer` points at. -/
def load (mem : Mem) (pointer : Ptr) (field : Field) : Nat :=
  field.load (mem.buffer pointer.region) pointer.offset

/-- Assign a field of the structure `pointer` points at. -/
def store (mem : Mem) (pointer : Ptr) (field : Field) (value : Nat) : Mem :=
  mem.setBuffer pointer.region (field.store (mem.buffer pointer.region) pointer.offset value)

/-- `memcpy` of bytes to where `pointer` points. -/
def copy (mem : Mem) (pointer : Ptr) (bytes : List UInt8) : Mem :=
  mem.setBuffer pointer.region (write (mem.buffer pointer.region) pointer.offset bytes)

/-- `rbytes_buf_d.resize(count)`, of a vector that is empty before. -/
def resize (mem : Mem) (count : Nat) : Mem :=
  { mem with freeBuf := ofList (List.replicate count 0), freeSize := count }

/-- The bytes where `pointer` points. -/
def bytes (mem : Mem) (pointer : Ptr) (count : Nat) : List UInt8 :=
  slice (mem.buffer pointer.region) pointer.offset count

end Mem

/-- What an `io_uring_prep_*` call puts into an entry. `read` is the fixed read for the two
registered buffers and the plain one for `rbytes_buf_d`; the pipes have no offset. -/
inductive Operation
  | splice (fdIn : Fd) (offIn : Int) (fdOut : Fd) (offOut : Int) (nbytes : Nat)
  | read (fd : Fd) (buf : Ptr) (nbytes : Nat)
  | writeFixed (fd : Fd) (buf : Ptr) (nbytes : Nat)
  | write (fd : Fd) (buf : List UInt8)
deriving DecidableEq, Repr

/-- The number of bytes asked for. -/
def Operation.nbytes : Operation → Nat
  | .splice _ _ _ _ nbytes => nbytes
  | .read _ _ nbytes => nbytes
  | .writeFixed _ _ nbytes => nbytes
  | .write _ buf => buf.length

/-- `IOSQE_IO_LINK` and `IOSQE_IO_HARDLINK`. -/
inductive Link
  | none
  | link
  | hardlink
deriving DecidableEq, Repr

/-- A prepared submission entry. -/
structure Sqe where
  operation : Operation
  link : Link
deriving DecidableEq, Repr

/-- The constants of `fuse_ring` that the handlers read, and `getpagesize()`. A message's length is
reported as an `int`, and the backing file's size comes from an `off_t`. -/
structure FuseRing where
  maxBufsize : Nat
  backingFSize : Nat
  pageSize : Nat
  maxBufsize_lt : maxBufsize < 2 ^ 31
  backingFSize_lt : backingFSize < 2 ^ 63

/-! ### The operations of a coroutine -/

/-- A reference to a submission entry; `nullptr` is `none`. -/
abbrev SqeRef := Option Nat

inductive Effect
  | getFuseIo
  | releaseFuseIo (fuseIo : FuseIo)
  | load (fuseIo : FuseIo)
  | store (fuseIo : FuseIo) (mem : Mem)
  | getSqe (peek : Nat)
  | prep (sqe : SqeRef) (entry : Sqe)
  | complete (sqes : List SqeRef)
  | setLastRc (rc : Int)

@[reducible] def Effect.Answer : Effect → Type
  | .getFuseIo => FuseIo
  | .releaseFuseIo _ => Unit
  | .load _ => Mem
  | .store _ _ => Unit
  | .getSqe _ => SqeRef
  | .prep _ _ => Unit
  | .complete _ => List Int
  | .setLastRc _ => Unit

/-- The coroutine functions. -/
inductive Function
  | queueReadSetRc | queueFuseRead | readRbytes | sendReply | sendReplyBuf
  | handleUnknown | sendAttr | handleGetattr | handleSetattr | handleLookup | handleOpendir
  | handleOpen | handleRead | handleWrite | handleReleasedir | handleRelease | handleReaddir
deriving DecidableEq, Repr

/-- The result types of the coroutine functions: `int` and `char*`. -/
inductive Code
  | int
  | pointer
deriving DecidableEq, Repr

@[reducible] def Code.Result : Code → Type
  | .int => Int
  | .pointer => Option Ptr

/-- The signature of the coroutines. -/
@[reducible] def coroutines : Signature where
  Op := Effect
  Answer := Effect.Answer
  Label := Function
  Code := Code
  Result := Code.Result

/-- A coroutine body. -/
abbrev Coro := Program coroutines

/-- `co_await` of an `io_uring_task<int>`. -/
def awaitInt (function : Function) (task : Coro Int) : Coro Int :=
  Program.await (S := coroutines) function .int task

/-- `co_await` of an `io_uring_task<char*>`. -/
def awaitPointer (function : Function) (task : Coro (Option Ptr)) : Coro (Option Ptr) :=
  Program.await (S := coroutines) function .pointer task

def getFuseIo : Coro FuseIo := Program.ask (S := coroutines) .getFuseIo

def releaseFuseIo (fuseIo : FuseIo) : Coro Unit :=
  Program.ask (S := coroutines) (.releaseFuseIo fuseIo)

def loadMem (fuseIo : FuseIo) : Coro Mem := Program.ask (S := coroutines) (.load fuseIo)

def storeMem (fuseIo : FuseIo) (mem : Mem) : Coro Unit :=
  Program.ask (S := coroutines) (.store fuseIo mem)

def getSqe (peek : Nat) : Coro SqeRef := Program.ask (S := coroutines) (.getSqe peek)

/-- An `io_uring_prep_*` call and the assignment of `sqe->flags`. -/
def prep (sqe : SqeRef) (operation : Operation) (flag : Link) : Coro Unit :=
  Program.ask (S := coroutines) (.prep sqe ⟨operation, flag⟩)

def complete (sqes : List SqeRef) : Coro (List Int) :=
  Program.ask (S := coroutines) (.complete sqes)

/-- `complete` of one entry. -/
def completeOne (sqe : SqeRef) : Coro Int := do
  let results ← complete [sqe]
  return results.getD 0 (-1)

/-- `complete` of a pair of entries. -/
def completePair (first second : SqeRef) : Coro (Int × Int) := do
  let results ← complete [first, second]
  return (results.getD 0 (-1), results.getD 1 (-1))

def setLastRc (rc : Int) : Coro Unit := Program.ask (S := coroutines) (.setLastRc rc)

namespace FuseIo

variable (fuseIo : FuseIo)

def headerBuf : Ptr := ⟨fuseIo, .header, 0⟩
def scratchBuf : Ptr := ⟨fuseIo, .scratch, 0⟩
def freeBuf : Ptr := ⟨fuseIo, .free, 0⟩
/-- An uninitialised `rbytes_buf`. -/
def wild : Ptr := ⟨fuseIo, .wild, 0⟩

end FuseIo

/-- Pointer arithmetic. -/
def Ptr.add (pointer : Ptr) (count : Nat) : Ptr := { pointer with offset := pointer.offset + count }

end Fuseuring
