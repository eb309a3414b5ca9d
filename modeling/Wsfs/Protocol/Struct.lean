/-
Protocol structs and their wire form. Each codec lists the fields in
declaration order; integers are little-endian and strings carry a two-byte
length, so both generated builds write the same bytes.
-/

import Wsfs.Base.Codec

namespace Wsfs.Protocol

open Wsfs.Base

structure Timespec where
  seconds : Int64
  nanoseconds : Int64
deriving DecidableEq, Repr

structure FileInfo where
  size : UInt64
  mtime : Timespec
  mode : UInt32
  owner : UInt8
deriving DecidableEq, Repr

structure Dirent where
  name : Bytes
  size : UInt64
  mtime : Timespec
  mode : UInt32
  owner : UInt8
deriving DecidableEq, Repr

structure FileLockInfo where
  type : UInt8
  whence : UInt8
  start : UInt64
  size : UInt64
deriving DecidableEq, Repr

structure CmdSetFileLockStruct where
  fd : UInt32
  fileLock : FileLockInfo
deriving DecidableEq, Repr

structure RspFsStat where
  total : UInt64
  free : UInt64
  available : UInt64
deriving DecidableEq, Repr

def Timespec.codec : Codec Timespec :=
  (Codec.i64.pair Codec.i64).iso (fun fields => ⟨fields.1, fields.2⟩)
    (fun value => (value.seconds, value.nanoseconds)) (fun _ => rfl) (fun _ => rfl)

def FileInfo.codec : Codec FileInfo :=
  (Codec.u64.pair (Timespec.codec.pair (Codec.u32.pair Codec.u8))).iso
    (fun fields => ⟨fields.1, fields.2.1, fields.2.2.1, fields.2.2.2⟩)
    (fun value => (value.size, value.mtime, value.mode, value.owner))
    (fun _ => rfl) (fun _ => rfl)

def Dirent.codec : Codec Dirent :=
  (Codec.str.pair (Codec.u64.pair (Timespec.codec.pair (Codec.u32.pair Codec.u8)))).iso
    (fun fields => ⟨fields.1, fields.2.1, fields.2.2.1, fields.2.2.2.1, fields.2.2.2.2⟩)
    (fun value => (value.name, value.size, value.mtime, value.mode, value.owner))
    (fun _ => rfl) (fun _ => rfl)

def FileLockInfo.codec : Codec FileLockInfo :=
  (Codec.u8.pair (Codec.u8.pair (Codec.u64.pair Codec.u64))).iso
    (fun fields => ⟨fields.1, fields.2.1, fields.2.2.1, fields.2.2.2⟩)
    (fun value => (value.type, value.whence, value.start, value.size))
    (fun _ => rfl) (fun _ => rfl)

def CmdSetFileLockStruct.codec : Codec CmdSetFileLockStruct :=
  (Codec.u32.pair FileLockInfo.codec).iso (fun fields => ⟨fields.1, fields.2⟩)
    (fun value => (value.fd, value.fileLock)) (fun _ => rfl) (fun _ => rfl)

def RspFsStat.codec : Codec RspFsStat :=
  (Codec.u64.pair (Codec.u64.pair Codec.u64)).iso
    (fun fields => ⟨fields.1, fields.2.1, fields.2.2⟩)
    (fun value => (value.total, value.free, value.available))
    (fun _ => rfl) (fun _ => rfl)

end Wsfs.Protocol
