/-
**Serving one request (`fuseuring_main.cpp`, `fuse_io_context.cpp`).**

`readRbytes` assembles a request's body, `queueFuseRead` takes a slot, reads one message through its
pipe, selects a handler and gives the slot back, and `queueReadSetRc` is what `run` starts.

`serveRequestWith` and `queueFuseReadWith` leave the second switch open: with `dispatch` in its
place they are `serveRequest` and `queueFuseReadBody`.
-/

import Fuseuring.Handlers

namespace Fuseuring

open Bytes Interaction

/-! ### `read_rbytes` -/

/-- `rbytes-read_done`, computed in a `size_t` and given to an `unsigned`. -/
def readLeft (rbytes readDone : Nat) : Nat := (rbytes + 2 ^ 64 - readDone) % 2 ^ 32

/-- The loop of `read_rbytes`: read into `target` until `rbytes` bytes have arrived; `false` when it
gives up. -/
def readRbytesLoop (fuseIo : FuseIo) (target : Ptr) (rbytes readDone : Nat) : Coro Bool := do
  let sqe ← getSqe 1
  if sqe = none then return false
  prep sqe (.read (.pipe0 fuseIo) (target.add readDone) (readLeft rbytes readDone)) .none
  let rc ← completeOne sqe
  if _positive : rc ≤ 0 then return false
  else if _more : readDone + rc.toNat < rbytes then
    readRbytesLoop fuseIo target rbytes (readDone + rc.toNat)
  else return true
termination_by rbytes - readDone
decreasing_by omega

def readRbytes (fuseIo : FuseIo) (rbytes : Nat) (addZero : Bool) (initRead : Nat) :
    Coro (Option Ptr) := do
  if rbytes = 0 then return some fuseIo.scratchBuf
  let ioRead := !(initRead == rbytes)
  if initRead = rbytes ∧ !addZero then return some (fuseIo.headerBuf.add InHeader.size)
  let mem ← loadMem fuseIo
  let readFixed := rbytes + (if addZero then 1 else 0) < scratchBufSize
  let resized := if readFixed then mem else mem.resize (rbytes + (if addZero then 1 else 0))
  let target := if readFixed then fuseIo.scratchBuf else fuseIo.freeBuf
  storeMem fuseIo (resized.copy target
    (resized.bytes (fuseIo.headerBuf.add InHeader.size) initRead))
  let complete ← if ioRead then readRbytesLoop fuseIo target rbytes initRead else pure true
  if complete then
    if addZero then
      let mem ← loadMem fuseIo
      storeMem fuseIo (mem.copy (target.add rbytes) [0])
    return some target
  else return none

/-! ### `queue_fuse_read` -/

/-- The loop that completes a short header: the bytes read in all, or `none` when it gives up. The
entry is used without a test for `nullptr`. -/
def readHeaderLoop (fuseIo : FuseIo) (initRead : Nat) : Coro (Option Nat) := do
  let sqe ← getSqe 1
  prep sqe (.read (.pipe0 fuseIo) (fuseIo.headerBuf.add initRead) (InHeader.size - initRead)) .none
  let rc ← completeOne sqe
  if _positive : rc ≤ 0 then return none
  else if _more : initRead + rc.toNat < InHeader.size then
    readHeaderLoop fuseIo (initRead + rc.toNat)
  else return some (initRead + rc.toNat)
termination_by InHeader.size - initRead
decreasing_by omega

/-- A short header is completed; a first read that brought nothing is an error. -/
def readHeader (fuseIo : FuseIo) (initRead : Int) : Coro (Option Nat) :=
  if 0 < initRead ∧ initRead < InHeader.size then readHeaderLoop fuseIo initRead.toNat
  else pure (if initRead < InHeader.size then none else some initRead.toNat)

/-- The body a message is expected to have: `req_read_rbytes`, `req_read_add_zero` and
`req_allow_add_bytes`. -/
structure Expected where
  readRbytes : Nat
  addZero : Bool
  allowAddBytes : Bool
deriving DecidableEq, Repr

/-- The first switch on the opcode. -/
def expectedBody (opcode rbytes : Nat) : Expected :=
  match Opcode.ofCode opcode with
  | some .getattr => ⟨GetattrIn.size, false, false⟩
  | some .setattr => ⟨SetattrIn.size, false, false⟩
  | some .opendir => ⟨OpenIn.size, false, false⟩
  | some .readdir => ⟨ReadIn.size, false, false⟩
  | some .releasedir => ⟨ReleaseIn.size, false, false⟩
  | some .lookup => ⟨rbytes - InHeader.size, true, false⟩
  | some .open => ⟨OpenIn.size, false, false⟩
  | some .read => ⟨ReadIn.size, false, false⟩
  | some .release => ⟨ReleaseIn.size, false, false⟩
  | some .write => ⟨WriteIn.size, false, true⟩
  | _ => ⟨rbytes - InHeader.size, false, false⟩

/-- The second switch on the opcode. -/
def dispatch (ring : FuseRing) (fuseIo : FuseIo) (opcode : Nat) (rbytesBuf : Ptr) : Coro Int :=
  match Opcode.ofCode opcode with
  | some .getattr => awaitInt .handleGetattr (handleGetattr ring fuseIo rbytesBuf)
  | some .setattr => awaitInt .handleSetattr (handleSetattr ring fuseIo rbytesBuf)
  | some .opendir => awaitInt .handleOpendir (handleOpendir fuseIo rbytesBuf)
  | some .readdir => awaitInt .handleReaddir (handleReaddir fuseIo rbytesBuf)
  | some .releasedir => awaitInt .handleReleasedir (handleReleasedir fuseIo rbytesBuf)
  | some .lookup => awaitInt .handleLookup (handleLookup ring fuseIo rbytesBuf)
  | some .open => awaitInt .handleOpen (handleOpen fuseIo rbytesBuf)
  | some .read => awaitInt .handleRead (handleRead ring fuseIo rbytesBuf)
  | some .release => awaitInt .handleRelease (handleRelease fuseIo rbytesBuf)
  | some .write => awaitInt .handleWrite (handleWrite fuseIo rbytesBuf)
  | _ => awaitInt .handleUnknown (handleUnknown fuseIo)

/-- `queue_fuse_read` from the checked header on, with any second switch: `rbytes` is the length of
the message, `initRead` what is in `header_buf`. -/
def serveRequestWith (fuseIo : FuseIo) (handler : Nat → Ptr → Coro Int)
    (rbytes initRead : Nat) : Coro Int := do
  let mem ← loadMem fuseIo
  let expected := expectedBody (mem.load fuseIo.headerBuf InHeader.opcode) rbytes
  if expected.readRbytes > 0 then
    if !expected.allowAddBytes ∧ expected.readRbytes ≠ rbytes - InHeader.size then return -1
    let rbytesBuf ← awaitPointer .readRbytes
      (readRbytes fuseIo expected.readRbytes expected.addZero (initRead - InHeader.size))
    match rbytesBuf with
    | none => return -1
    | some rbytesBuf =>
      let mem ← loadMem fuseIo
      handler (mem.load fuseIo.headerBuf InHeader.opcode) rbytesBuf
  else
    handler (mem.load fuseIo.headerBuf InHeader.opcode) fuseIo.wild

/-- The same, with the second switch of the source. -/
def serveRequest (ring : FuseRing) (fuseIo : FuseIo) (rbytes initRead : Nat) : Coro Int :=
  serveRequestWith fuseIo (dispatch ring fuseIo) rbytes initRead

/-- The body of `queue_fuse_read` between taking the slot and giving it back, with any second
switch. -/
def queueFuseReadWith (ring : FuseRing) (fuseIo : FuseIo) (handler : Nat → Ptr → Coro Int) :
    Coro Int := do
  let sqe1 ← getSqe 2
  let sqe2 ← getSqe 1
  if sqe1 = none ∨ sqe2 = none then return -1
  prep sqe1 (.splice (.fuse fuseIo) (-1) (.pipe1 fuseIo) (-1) ring.maxBufsize) .hardlink
  prep sqe2 (.read (.pipe0 fuseIo) fuseIo.headerBuf (InHeader.size + WriteIn.size)) .none
  let rcs ← completePair sqe1 sqe2
  let rbytes := rcs.1
  let initRead := rcs.2
  if rbytes < 0 ∨ rbytes < InHeader.size then return -1
  let headerRead ← readHeader fuseIo initRead
  match headerRead with
  | none => return -1
  | some initRead => serveRequestWith fuseIo handler rbytes.toNat initRead

/-- The body of `queue_fuse_read`. -/
def queueFuseReadBody (ring : FuseRing) (fuseIo : FuseIo) : Coro Int :=
  queueFuseReadWith ring fuseIo (dispatch ring fuseIo)

/-- `queue_fuse_read`. The slot goes back when `fuse_io` is destroyed, on every way out. -/
def queueFuseRead (ring : FuseRing) : Coro Int := do
  let fuseIo ← getFuseIo
  let rc ← queueFuseReadBody ring fuseIo
  releaseFuseIo fuseIo
  return rc

/-- `queue_read_set_rc`. -/
def queueReadSetRc (ring : FuseRing) : Coro Int := do
  let rc ← awaitInt .queueFuseRead (queueFuseRead ring)
  if rc ≠ 0 then setLastRc rc
  return rc

end Fuseuring
