/-
**The reply functions and the request handlers (`fuseuring_main.cpp`).**

Each definition is the coroutine of that name. Every test of a result keeps the source's order and
its comparisons; the results are C `int`s compared with unsigned lengths only after a test for
negative values or for equality, so that the integer comparison is the same.
-/

import Fuseuring.FuseIoContext

namespace Fuseuring

open Bytes Interaction

/-- `header_buf_size`. -/
def headerBufSize : Nat :=
  max (InHeader.size + WriteIn.size) (OutHeader.size + WriteOut.size)

/-- `scratch_buf_size`. -/
def scratchBufSize : Nat :=
  max (max (max 4096 (OutHeader.size + AttrOut.size)) (OutHeader.size + EntryOut.size))
    (OutHeader.size + WriteOut.size)

/-- `round_up<off_t>`. -/
def roundUp (numToRound multiple : Nat) : Nat := (numToRound + multiple - 1) / multiple * multiple

/-! ### Replies -/

/-- Assign the three fields of the `fuse_out_header` in `scratch_buf`. -/
def outHeader (mem : Mem) (fuseIo : FuseIo) (error : Int) (len unique : Nat) : Mem :=
  ((mem.store fuseIo.scratchBuf OutHeader.error (word32 error)).store
    fuseIo.scratchBuf OutHeader.len len).store fuseIo.scratchBuf OutHeader.unique unique

def sendReply (fuseIo : FuseIo) : Coro Int := do
  let sqe ← getSqe 2
  if sqe = none then return -1
  let mem ← loadMem fuseIo
  let replySize := mem.load fuseIo.scratchBuf OutHeader.len
  prep sqe (.writeFixed (.pipe1 fuseIo) fuseIo.scratchBuf replySize) .link
  let sqe2 ← getSqe 1
  prep sqe2 (.splice (.pipe0 fuseIo) (-1) (.fuse fuseIo) (-1) replySize) .none
  let rcs ← completePair sqe sqe2
  if rcs.1 ≠ replySize ∨ rcs.2 ≠ replySize then return -1 else return 0

/-- The overload of `send_reply` that replies from a vector. -/
def sendReplyBuf (fuseIo : FuseIo) (buf : List UInt8) : Coro Int := do
  let sqe ← getSqe 2
  if sqe = none then return -1
  prep sqe (.write (.pipe1 fuseIo) buf) .link
  let sqe2 ← getSqe 1
  if sqe2 = none then return -1
  prep sqe2 (.splice (.pipe0 fuseIo) (-1) (.fuse fuseIo) (-1) buf.length) .none
  let rcs ← completePair sqe sqe2
  if rcs.1 ≠ buf.length ∨ rcs.2 ≠ buf.length then return -1 else return 0

/-- Build a reply in `scratch_buf` and send it. -/
def replyWith (fuseIo : FuseIo) (build : Mem → Mem) : Coro Int := do
  let mem ← loadMem fuseIo
  storeMem fuseIo (build mem)
  awaitInt .sendReply (sendReply fuseIo)

/-- `fheader->unique`. -/
def requestUnique (mem : Mem) (fuseIo : FuseIo) : Nat := mem.load fuseIo.headerBuf InHeader.unique

/-- `fheader->nodeid`. -/
def requestNodeid (mem : Mem) (fuseIo : FuseIo) : Nat := mem.load fuseIo.headerBuf InHeader.nodeid

/-- A reply that is only a header. -/
def bareReply (fuseIo : FuseIo) (error : Int) (mem : Mem) : Mem :=
  outHeader mem fuseIo error OutHeader.size (requestUnique mem fuseIo)

def handleUnknown (fuseIo : FuseIo) : Coro Int := replyWith fuseIo (bareReply fuseIo (-ENOSYS))

/-! ### Attributes -/

/-- `attr` at `base` of `scratch_buf`, cleared and then filled for the root or for the volume. -/
def fillAttr (ring : FuseRing) (mem : Mem) (base : Ptr) (volume : Bool) : Mem :=
  let cleared := mem.copy base (List.replicate Attr.size 0)
  if volume then
    let sized := ((cleared.store base Attr.mode modeRegular).store base Attr.ino 3).store
      base Attr.fileSize ring.backingFSize
    (sized.store base Attr.blocks (roundUp (sized.load base Attr.fileSize) 512)).store
      base Attr.blksize ring.pageSize
  else
    (cleared.store base Attr.mode modeDirectory).store base Attr.ino 1

/-- The reply `send_attr` builds. -/
def attrReply (ring : FuseRing) (fuseIo : FuseIo) (unique nodeid : Nat) (mem : Mem) : Mem :=
  let headed := outHeader mem fuseIo 0 (AttrOut.size + OutHeader.size) unique
  let attrOut := fuseIo.scratchBuf.add OutHeader.size
  let valid := (headed.store attrOut AttrOut.attrValid 3600).store attrOut AttrOut.attrValidNsec 0
  let attr := attrOut.add AttrOut.attr
  if nodeid = 1 then fillAttr ring valid attr false
  else if nodeid = 3 then fillAttr ring valid attr true
  else
    let cleared := valid.copy attr (List.replicate Attr.size 0)
    (cleared.store fuseIo.scratchBuf OutHeader.error (word32 (-EACCES))).store
      fuseIo.scratchBuf OutHeader.len OutHeader.size

def sendAttr (ring : FuseRing) (fuseIo : FuseIo) (unique nodeid : Nat) : Coro Int :=
  replyWith fuseIo (attrReply ring fuseIo unique nodeid)

/-- The node `handle_getattr` answers for. -/
def getattrNodeid (mem : Mem) (fuseIo : FuseIo) (rbytesBuf : Ptr) : Nat :=
  if mem.load rbytesBuf GetattrIn.getattrFlags &&& fuseGetattrFh > 0
    then mem.load rbytesBuf GetattrIn.fh
  else requestNodeid mem fuseIo

def handleGetattr (ring : FuseRing) (fuseIo : FuseIo) (rbytesBuf : Ptr) : Coro Int := do
  let mem ← loadMem fuseIo
  awaitInt .sendAttr
    (sendAttr ring fuseIo (requestUnique mem fuseIo) (getattrNodeid mem fuseIo rbytesBuf))

/-- The node `handle_setattr` answers for. -/
def setattrNodeid (mem : Mem) (fuseIo : FuseIo) (rbytesBuf : Ptr) : Nat :=
  if mem.load rbytesBuf SetattrIn.fh ≠ 0 then mem.load rbytesBuf SetattrIn.fh
  else requestNodeid mem fuseIo

def handleSetattr (ring : FuseRing) (fuseIo : FuseIo) (rbytesBuf : Ptr) : Coro Int := do
  let mem ← loadMem fuseIo
  awaitInt .sendAttr
    (sendAttr ring fuseIo (requestUnique mem fuseIo) (setattrNodeid mem fuseIo rbytesBuf))

/-! ### Names and files -/

/-- The bytes of `"volume"`. -/
def volumeName : List UInt8 := [118, 111, 108, 117, 109, 101]

/-- `std::string lname = rbytes_buf` followed by `lname=="volume"`: the bytes up to the first zero
are those of `"volume"`. -/
def isVolume (mem : Mem) (name : Ptr) : Bool := mem.bytes name 7 == volumeName ++ [0]

/-- The reply `handle_lookup` builds, the name being read before. -/
def lookupReply (ring : FuseRing) (fuseIo : FuseIo) (rbytesBuf : Ptr) (mem : Mem) : Mem :=
  let volume := isVolume mem rbytesBuf
  let headed := outHeader mem fuseIo 0 (EntryOut.size + OutHeader.size) (requestUnique mem fuseIo)
  let entryOut := fuseIo.scratchBuf.add OutHeader.size
  let valid := ((((headed.store entryOut EntryOut.generation 0).store
    entryOut EntryOut.entryValid 3600).store entryOut EntryOut.entryValidNsec 0).store
    entryOut EntryOut.attrValid 3600).store entryOut EntryOut.attrValidNsec 0
  let named := valid.store entryOut EntryOut.nodeid (if volume then 3 else 1)
  fillAttr ring named (entryOut.add EntryOut.attr) volume

def handleLookup (ring : FuseRing) (fuseIo : FuseIo) (rbytesBuf : Ptr) : Coro Int :=
  replyWith fuseIo (lookupReply ring fuseIo rbytesBuf)

/-- The reply `handle_opendir` and `handle_open` build: the header is written
to `scratch_buf` before the request's flags are read through `rbytes_buf`. -/
def openReply (fuseIo : FuseIo) (rbytesBuf : Ptr) (fh extraFlags : Nat) (mem : Mem) : Mem :=
  let headed := outHeader mem fuseIo 0 (OpenOut.size + OutHeader.size) (requestUnique mem fuseIo)
  let openOut := fuseIo.scratchBuf.add OutHeader.size
  let handled := headed.store openOut OpenOut.fh fh
  handled.store openOut OpenOut.openFlags (handled.load rbytesBuf OpenIn.flags ||| extraFlags)

def handleOpendir (fuseIo : FuseIo) (rbytesBuf : Ptr) : Coro Int :=
  replyWith fuseIo (openReply fuseIo rbytesBuf 1 fopenCacheDir)

def handleOpen (fuseIo : FuseIo) (rbytesBuf : Ptr) : Coro Int :=
  replyWith fuseIo (openReply fuseIo rbytesBuf 3 (fopenKeepCache ||| fopenDirectIo))

/-! ### Reading -/

/-- The refusal `handle_read` builds for another node: `len` is not assigned. -/
def readRefusal (fuseIo : FuseIo) (mem : Mem) : Mem :=
  ((mem.store fuseIo.scratchBuf OutHeader.error 0).store
    fuseIo.scratchBuf OutHeader.unique (requestUnique mem fuseIo)).store
    fuseIo.scratchBuf OutHeader.error (word32 (-ENOENT))

/-- The clamp of `handle_read`: the size field after the test against `backing_f_size`, in 64-bit
arithmetic and stored to 32 bits. -/
def clampedSize (ring : FuseRing) (offset size : Nat) : Nat :=
  if (offset + size) % 2 ^ 64 > ring.backingFSize then
    (ring.backingFSize + 2 ^ 64 - offset) % 2 ^ 64 % 2 ^ 32
  else size

/-- The request after the clamp. -/
def readClamped (ring : FuseRing) (rbytesBuf : Ptr) (mem : Mem) : Mem :=
  mem.store rbytesBuf ReadIn.count
    (clampedSize ring (mem.load rbytesBuf ReadIn.offset) (mem.load rbytesBuf ReadIn.count))

/-- The header `handle_read` builds for a clamped request. -/
def readReply (fuseIo : FuseIo) (rbytesBuf : Ptr) (mem : Mem) : Mem :=
  outHeader mem fuseIo 0 (OutHeader.size + mem.load rbytesBuf ReadIn.count)
    (requestUnique mem fuseIo)

def handleRead (ring : FuseRing) (fuseIo : FuseIo) (rbytesBuf : Ptr) : Coro Int := do
  let mem ← loadMem fuseIo
  if requestNodeid mem fuseIo ≠ 3 then replyWith fuseIo (readRefusal fuseIo)
  else
    let clamped := readClamped ring rbytesBuf mem
    let readOffset := clamped.load rbytesBuf ReadIn.offset
    let readSize := clamped.load rbytesBuf ReadIn.count
    let headed := readReply fuseIo rbytesBuf clamped
    let len := headed.load fuseIo.scratchBuf OutHeader.len
    storeMem fuseIo headed
    let sqe1 ← getSqe 3
    if sqe1 = none then return -1
    prep sqe1 (.writeFixed (.pipe1 fuseIo) fuseIo.scratchBuf OutHeader.size) .link
    let sqe2 ← getSqe 1
    if sqe2 = none then return -1
    prep sqe2 (.splice .backing (int64 readOffset) (.pipe1 fuseIo) (-1) readSize) .link
    let sqe3 ← getSqe 1
    if sqe3 = none then return -1
    prep sqe3 (.splice (.pipe0 fuseIo) (-1) (.fuse fuseIo) (-1) len) .none
    let rcs ← complete [sqe1, sqe2, sqe3]
    if rcs.any (· < 0) then return -1
    else if rcs.getD 0 (-1) < OutHeader.size then return -1
    else if rcs.getD 1 (-1) < readSize then return -1
    else if rcs.getD 2 (-1) < len then return -1
    else return 0

/-! ### Writing -/

/-- The success reply `handle_write` builds in advance. -/
def writeReply (fuseIo : FuseIo) (writeSize : Nat) (mem : Mem) : Mem :=
  let headed := outHeader mem fuseIo 0 (OutHeader.size + WriteOut.size) (requestUnique mem fuseIo)
  let writeOut := fuseIo.scratchBuf.add OutHeader.size
  (headed.store writeOut WriteOut.count writeSize).store writeOut WriteOut.padding 0

/-- The reply after a failed splice to the backing file. -/
def writeFailed (fuseIo : FuseIo) (rc : Int) (mem : Mem) : Mem :=
  (mem.store fuseIo.scratchBuf OutHeader.error (word32 rc)).store
    fuseIo.scratchBuf OutHeader.len OutHeader.size

/-- The reply after a short splice to the backing file. -/
def writeShort (fuseIo : FuseIo) (rc : Int) (mem : Mem) : Mem :=
  mem.store (fuseIo.scratchBuf.add OutHeader.size) WriteOut.count (word32 rc)

def handleWrite (fuseIo : FuseIo) (rbytesBuf : Ptr) : Coro Int := do
  let mem ← loadMem fuseIo
  let writeOffset := mem.load rbytesBuf WriteIn.offset
  let writeSize := mem.load rbytesBuf WriteIn.count
  if requestNodeid mem fuseIo ≠ 3 then replyWith fuseIo (bareReply fuseIo (-ENOENT))
  else if mem.load fuseIo.headerBuf InHeader.len ≠ InHeader.size + WriteIn.size + writeSize then
    replyWith fuseIo (bareReply fuseIo (-EINVAL))
  else
    let filled := writeReply fuseIo writeSize mem
    let len := filled.load fuseIo.scratchBuf OutHeader.len
    storeMem fuseIo filled
    let sqe1 ← getSqe 3
    if sqe1 = none then return -1
    prep sqe1 (.splice (.pipe0 fuseIo) (-1) .backing (int64 writeOffset) writeSize) .link
    let sqe2 ← getSqe 1
    if sqe2 = none then return -1
    prep sqe2 (.writeFixed (.pipe1 fuseIo) fuseIo.scratchBuf len) .link
    let sqe3 ← getSqe 1
    if sqe3 = none then return -1
    prep sqe3 (.splice (.pipe0 fuseIo) (-1) (.fuse fuseIo) (-1) len) .none
    let rcs ← complete [sqe1, sqe2, sqe3]
    if rcs.getD 0 (-1) < 0 then replyWith fuseIo (writeFailed fuseIo (rcs.getD 0 (-1)))
    else if rcs.getD 0 (-1) < writeSize then replyWith fuseIo (writeShort fuseIo (rcs.getD 0 (-1)))
    else if rcs.getD 1 (-1) < 0 ∨ rcs.getD 2 (-1) < 0 ∨ rcs.getD 1 (-1) ≠ len ∨
        rcs.getD 2 (-1) ≠ len then return -1
    else return 0

def handleReleasedir (fuseIo : FuseIo) (_rbytesBuf : Ptr) : Coro Int :=
  replyWith fuseIo (bareReply fuseIo 0)

def handleRelease (fuseIo : FuseIo) (_rbytesBuf : Ptr) : Coro Int :=
  replyWith fuseIo (bareReply fuseIo 0)

/-! ### Directories -/

/-- `add_dir`: append one `fuse_dirent`, its name and zeros up to the alignment. The new bytes come
from `resize`, which clears them. -/
def addDir (buf : List UInt8) (name : List UInt8) (off ino mode : Nat) : List UInt8 :=
  let bsize := fuseDirentAlign (Dirent.name + name.length)
  let entry : Buffer := ofList (List.replicate bsize 0)
  let entry := Dirent.ino.store entry 0 ino
  let entry := Dirent.namelen.store entry 0 name.length
  let entry := Dirent.off.store entry 0 off
  let entry := Dirent.type.store entry 0 ((mode &&& modeFormat) >>> 12)
  let entry := write entry Dirent.name name
  let entry := write entry (Dirent.name + name.length)
    (List.replicate (bsize - Dirent.name - name.length) 0)
  buf ++ slice entry 0 bsize

/-- The entries `handle_readdir` lists from offset 0. -/
def rootEntries (buf : List UInt8) : List UInt8 :=
  addDir (addDir (addDir buf [46] 1 2 modeDirectory) [46, 46] 2 3 modeDirectory)
    volumeName 3 4 modeDirectory

/-- The vector `handle_readdir` replies from. -/
def readdirReply (unique offset : Nat) : List UInt8 :=
  let header : Buffer := ofList (List.replicate OutHeader.size 0)
  let header := OutHeader.error.store header 0 0
  let header := OutHeader.unique.store header 0 unique
  let outBuf := slice header 0 OutHeader.size
  let outBuf := if offset = 0 then rootEntries outBuf else outBuf
  slice (OutHeader.len.store (ofList outBuf) 0 outBuf.length) 0 outBuf.length

def handleReaddir (fuseIo : FuseIo) (rbytesBuf : Ptr) : Coro Int := do
  let mem ← loadMem fuseIo
  awaitInt .sendReplyBuf
    (sendReplyBuf fuseIo (readdirReply (requestUnique mem fuseIo)
      (mem.load rbytesBuf ReadIn.offset)))

end Fuseuring
