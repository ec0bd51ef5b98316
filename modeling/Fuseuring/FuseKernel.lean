/-
**The kernel interface (`fuse_kernel.h`).**

Opcodes, flags, and the layout of the structures the server reads and writes: each field is its
offset in the structure and its width in bytes, in the host's little-endian order. Only the fields
some modelled function reads or writes are listed; every structure has its full size.
-/

import Fuseuring.Library.Bytes

namespace Fuseuring

open Bytes

/-- `enum fuse_opcode`. -/
inductive Opcode
  | lookup | forget | getattr | setattr | readlink | symlink | mknod | mkdir | unlink | rmdir
  | rename | link | «open» | read | write | statfs | release | fsync | setxattr | getxattr
  | listxattr | removexattr | flush | init | opendir | readdir | releasedir | fsyncdir | getlk
  | setlk | setlkw | access | create | interrupt | bmap | destroy | ioctl | poll | notifyReply
  | batchForget | fallocate | readdirplus | rename2 | lseek | copyFileRange
  | cuseInit
deriving DecidableEq, Repr

/-- The value of an enumerator. -/
def Opcode.code : Opcode → Nat
  | .lookup => 1 | .forget => 2 | .getattr => 3 | .setattr => 4 | .readlink => 5 | .symlink => 6
  | .mknod => 8 | .mkdir => 9 | .unlink => 10 | .rmdir => 11 | .rename => 12 | .link => 13
  | .open => 14 | .read => 15 | .write => 16 | .statfs => 17 | .release => 18 | .fsync => 20
  | .setxattr => 21 | .getxattr => 22 | .listxattr => 23 | .removexattr => 24 | .flush => 25
  | .init => 26 | .opendir => 27 | .readdir => 28 | .releasedir => 29 | .fsyncdir => 30
  | .getlk => 31 | .setlk => 32 | .setlkw => 33 | .access => 34 | .create => 35 | .interrupt => 36
  | .bmap => 37 | .destroy => 38 | .ioctl => 39 | .poll => 40 | .notifyReply => 41
  | .batchForget => 42 | .fallocate => 43 | .readdirplus => 44 | .rename2 => 45 | .lseek => 46
  | .copyFileRange => 47 | .cuseInit => 4096

/-- The enumerator of a value, if it has one. -/
def Opcode.ofCode : Nat → Option Opcode
  | 1 => some .lookup | 2 => some .forget | 3 => some .getattr | 4 => some .setattr
  | 5 => some .readlink | 6 => some .symlink | 8 => some .mknod | 9 => some .mkdir
  | 10 => some .unlink | 11 => some .rmdir | 12 => some .rename | 13 => some .link
  | 14 => some .open | 15 => some .read | 16 => some .write | 17 => some .statfs
  | 18 => some .release | 20 => some .fsync | 21 => some .setxattr | 22 => some .getxattr
  | 23 => some .listxattr | 24 => some .removexattr | 25 => some .flush | 26 => some .init
  | 27 => some .opendir | 28 => some .readdir | 29 => some .releasedir | 30 => some .fsyncdir
  | 31 => some .getlk | 32 => some .setlk | 33 => some .setlkw | 34 => some .access
  | 35 => some .create | 36 => some .interrupt | 37 => some .bmap | 38 => some .destroy
  | 39 => some .ioctl | 40 => some .poll | 41 => some .notifyReply | 42 => some .batchForget
  | 43 => some .fallocate | 44 => some .readdirplus | 45 => some .rename2 | 46 => some .lseek
  | 47 => some .copyFileRange | 4096 => some .cuseInit
  | _ => none

@[simp] theorem Opcode.ofCode_code (opcode : Opcode) : Opcode.ofCode opcode.code = some opcode := by
  cases opcode <;> rfl

/-! ### Flags and error numbers -/

/-- `FUSE_GETATTR_FH`. -/
def fuseGetattrFh : Nat := 1
/-- `FOPEN_DIRECT_IO`. -/
def fopenDirectIo : Nat := 1
/-- `FOPEN_KEEP_CACHE`. -/
def fopenKeepCache : Nat := 2
/-- `FOPEN_CACHE_DIR`. -/
def fopenCacheDir : Nat := 8

/-- `S_IFDIR | S_IRWXU | S_IRWXG | S_IRWXO`. -/
def modeDirectory : Nat := 0o040777
/-- `S_IFREG | S_IRWXU | S_IRWXG | S_IRWXO`. -/
def modeRegular : Nat := 0o100777
/-- `S_IFMT`. -/
def modeFormat : Nat := 0o170000

def ENOENT : Int := 2
def EIO : Int := 5
def EACCES : Int := 13
def EINVAL : Int := 22
def ENOSYS : Int := 38
def ECANCELED : Int := 125

/-! ### Layouts -/

/-- A field of a structure. -/
structure Field where
  offset : Nat
  width : Nat
deriving DecidableEq, Repr

/-- The field of the structure that starts at `base`. -/
def Field.load (field : Field) (buffer : Buffer) (base : Nat) : Nat :=
  Bytes.load buffer (base + field.offset) field.width

/-- Assign the field of the structure that starts at `base`. -/
def Field.store (field : Field) (buffer : Buffer) (base value : Nat) : Buffer :=
  Bytes.store buffer (base + field.offset) field.width value

namespace InHeader
def len : Field := ⟨0, 4⟩
def opcode : Field := ⟨4, 4⟩
def unique : Field := ⟨8, 8⟩
def nodeid : Field := ⟨16, 8⟩
/-- `sizeof(fuse_in_header)`. -/
def size : Nat := 40
end InHeader

namespace OutHeader
def len : Field := ⟨0, 4⟩
def error : Field := ⟨4, 4⟩
def unique : Field := ⟨8, 8⟩
/-- `sizeof(fuse_out_header)`. -/
def size : Nat := 16
end OutHeader

namespace GetattrIn
def getattrFlags : Field := ⟨0, 4⟩
def fh : Field := ⟨8, 8⟩
def size : Nat := 16
end GetattrIn

namespace SetattrIn
def valid : Field := ⟨0, 4⟩
def fh : Field := ⟨8, 8⟩
def newSize : Field := ⟨16, 8⟩
def size : Nat := 88
end SetattrIn

namespace OpenIn
def flags : Field := ⟨0, 4⟩
def size : Nat := 8
end OpenIn

namespace OpenOut
def fh : Field := ⟨0, 8⟩
def openFlags : Field := ⟨8, 4⟩
def padding : Field := ⟨12, 4⟩
def size : Nat := 16
end OpenOut

namespace ReleaseIn
def size : Nat := 24
end ReleaseIn

namespace ReadIn
def offset : Field := ⟨8, 8⟩
def count : Field := ⟨16, 4⟩
def size : Nat := 40
end ReadIn

namespace WriteIn
def offset : Field := ⟨8, 8⟩
def count : Field := ⟨16, 4⟩
def size : Nat := 40
end WriteIn

namespace WriteOut
def count : Field := ⟨0, 4⟩
def padding : Field := ⟨4, 4⟩
def size : Nat := 8
end WriteOut

namespace Attr
def ino : Field := ⟨0, 8⟩
def fileSize : Field := ⟨8, 8⟩
def blocks : Field := ⟨16, 8⟩
def mode : Field := ⟨60, 4⟩
def blksize : Field := ⟨80, 4⟩
def size : Nat := 88
end Attr

namespace AttrOut
def attrValid : Field := ⟨0, 8⟩
def attrValidNsec : Field := ⟨8, 4⟩
def dummy : Field := ⟨12, 4⟩
/-- The offset of `attr`. -/
def attr : Nat := 16
def size : Nat := 104
end AttrOut

namespace EntryOut
def nodeid : Field := ⟨0, 8⟩
def generation : Field := ⟨8, 8⟩
def entryValid : Field := ⟨16, 8⟩
def attrValid : Field := ⟨24, 8⟩
def entryValidNsec : Field := ⟨32, 4⟩
def attrValidNsec : Field := ⟨36, 4⟩
/-- The offset of `attr`. -/
def attr : Nat := 40
def size : Nat := 128
end EntryOut

namespace Dirent
def ino : Field := ⟨0, 8⟩
def off : Field := ⟨8, 8⟩
def namelen : Field := ⟨16, 4⟩
def type : Field := ⟨20, 4⟩
/-- `FUSE_NAME_OFFSET`. -/
def name : Nat := 24
end Dirent

/-- `FUSE_DIRENT_ALIGN`: up to the next multiple of eight. -/
def fuseDirentAlign (length : Nat) : Nat := (length + 7) / 8 * 8

/-! ### Machine integers -/

/-- A 32-bit two's complement integer as the word it is stored as. -/
def word32 (value : Int) : Nat := (value % 4294967296).toNat

/-- A 32-bit word read as a two's complement integer. -/
def int32 (word : Nat) : Int := if word < 2147483648 then word else word - 4294967296

/-- A 64-bit word passed as a signed 64-bit offset. -/
def int64 (word : Nat) : Int := if word < 2 ^ 63 then word else word - 2 ^ 64

theorem word32_lt (value : Int) : word32 value < 2 ^ 32 := by
  unfold word32
  omega

theorem int32_word32 {value : Int} (low : -2147483648 ≤ value) (high : value < 2147483648) :
    int32 (word32 value) = value := by
  unfold int32 word32
  split <;> omega

end Fuseuring
