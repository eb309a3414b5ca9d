/-
The server as a mount client sees it whose operations come one after another while nobody
else changes the storage: what the reading commands answer is a function of the storage,
and the others take it to the next one.
-/

import Wsfs.Protocol.Const
import Wsfs.Protocol.Struct

namespace Wsfs.Mount

open Wsfs.Base Wsfs.Protocol

/-- The commands of the mount clients that may change the storage. -/
inductive Request
  | open (path : Bytes) (oflag : UInt32) (fmode : UInt32)
  | close (fd : UInt32)
  | mkdir (path : Bytes) (mode : UInt32)
  | rmDir (path : Bytes)
  | remove (path : Bytes)
  | rename (oldpath newpath : Bytes) (flags : UInt32)
  | symLink (target path : Bytes)
  | writeAt (fd : UInt32) (off : UInt64) (data : Bytes)
  | setAttr (path : Bytes) (flag : UInt8) (fi : FileInfo)
  | setAttrByFD (fd : UInt32) (flag : UInt8) (fi : FileInfo)
deriving DecidableEq, Repr

/-- `fd` is the descriptor of an open file. -/
structure Reply where
  code : UInt8
  fd : UInt32
deriving DecidableEq, Repr

structure Remote (Storage : Type) where
  getAttr : Storage → Bytes → FileInfo × UInt8
  readDir : Storage → Bytes → List Dirent × UInt8
  readDirPlus : Storage → Bytes → List Dirent × UInt8
  serve : Storage → Request → Storage × Reply

/-- `plus` says that the items come from `CmdReadDirPlus`, which makes a channel for every
directory among them. -/
structure Listed where
  items : List Dirent
  code : UInt8
  plus : Bool
deriving DecidableEq, Repr

/-- `CmdReadDirPlus`, and `CmdReadDir` where that fails. -/
def Remote.list {Storage : Type} (remote : Remote Storage) (storage : Storage) (path : Bytes) :
    Listed :=
  let (items, code) := remote.readDirPlus storage path
  if code = errorOK then ⟨items, code, true⟩
  else
    let (items, code) := remote.readDir storage path
    ⟨items, code, false⟩

def fileInfoFromDirItem (item : Dirent) : FileInfo := ⟨item.size, item.mtime, item.mode, item.owner⟩

/-! ### The smallest storage

The root with one file, which every write makes one byte longer. -/

def folder : FileInfo := ⟨0, ⟨0, 0⟩, 0x80000000, ownerUG⟩

def sized (size : UInt64) : FileInfo := ⟨size, ⟨0, 0⟩, 0o644, ownerUG⟩

-- "/" and "/a"
def rootPath : Bytes := [0x2f]
def filePath : Bytes := [0x2f, 0x61]
def fileName : Bytes := [0x61]

def fileItem (size : UInt64) : Dirent := ⟨fileName, size, ⟨0, 0⟩, 0o644, ownerUG⟩

def oneFile : Remote UInt64 where
  getAttr size path :=
    if path = rootPath then (folder, errorOK)
    else if path = filePath then (sized size, errorOK)
    else (sized 0, errorNotExists)
  readDir size path := if path = rootPath then ([fileItem size], errorOK) else ([], errorType)
  readDirPlus size path := if path = rootPath then ([fileItem size], errorOK) else ([], errorType)
  serve size request :=
    match request with
    | .writeAt _ _ _ => (size + 1, ⟨errorOK, 0⟩)
    | _ => (size, ⟨errorOK, 3⟩)

end Wsfs.Mount
