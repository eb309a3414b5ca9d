/-
All `Cmd*` methods of a client session, and what it means that one of them returns
`errorOK`.
-/

import Wsfs.Client.Acknowledged

namespace Wsfs.Client

open Wsfs.Base Wsfs.Protocol
open Wsfs.ReadDir (Message)
open Wsfs.ReadDir.Client (Parser Parse)

inductive Method
  | cmdReadDirPlus (path : Bytes)
  | cmdOpen (path : Bytes) (oflag fmode : UInt32)
  | cmdClose (fd : UInt32)
  | cmdRead (fd : UInt32) (dest : Bytes)
  | cmdReadDir (path : Bytes)
  | cmdReadLink (lpath : Bytes)
  | cmdWrite (fd : UInt32) (data : Slice)
  | cmdSeek (fd : UInt32) (whence : UInt8) (off : Int64)
  | cmdAllocate (fd flag : UInt32) (off size : UInt64)
  | cmdGetAttr (fpath : Bytes)
  | cmdSetAttr (fpath : Bytes) (flag : UInt8) (fi : FileInfo)
  | cmdSync (fd : UInt32)
  | cmdMkdir (fpath : Bytes) (mode : UInt32)
  | cmdSymLink (target fpath : Bytes)
  | cmdRemove (fpath : Bytes)
  | cmdRmDir (fpath : Bytes)
  | cmdFsStat (fpath : Bytes)
  | cmdReadAt (fd : UInt32) (offset : UInt64) (dest : Bytes)
  | cmdWriteAt (fd : UInt32) (offset : UInt64) (data : Bytes)
  | cmdRename (old new : Bytes) (mode : UInt32)
  | cmdCopyFileRange (wfd1 wfd2 : UInt32) (off1 off2 size : UInt64)
  | cmdCloneFileRange (wfd1 wfd2 : UInt32) (off1 off2 size : UInt64)
  | cmdGetFileLock (fd : UInt32) (fileLock : FileLockInfo)
  | cmdSetFileLock (fd : UInt32) (fileLock : FileLockInfo)
  | cmdSetFileLockWait (fd : UInt32) (fileLock : FileLockInfo)
  | cmdSetAttrByFD (wfd : UInt32) (flag : UInt8) (fi : FileInfo)
  | cmdSetXAttr (path key value : Bytes) (mode : UInt32)
  | cmdGetXAttr (path key : Bytes) (mode : UInt32)
  | cmdListXAttr (path : Bytes) (mode : UInt32)
  | cmdRemoveXAttr (path key : Bytes) (mode : UInt32)

namespace Method

def call (s : Session) (depth : Nat) : Method → Call UInt8
  | cmdReadDirPlus path => Prod.snd <$> Client.cmdReadDirPlus path
  | cmdOpen path oflag fmode => Prod.snd <$> Client.cmdOpen path oflag fmode
  | cmdClose fd => Client.cmdClose fd
  | cmdRead fd dest => (fun result => result.2.2) <$> Client.cmdRead fd dest
  | cmdReadDir path => Prod.snd <$> Client.cmdReadDir path
  | cmdReadLink lpath => Prod.snd <$> Client.cmdReadLink lpath
  | cmdWrite fd data => Prod.snd <$> Client.cmdWrite fd depth data
  | cmdSeek fd whence off => Prod.snd <$> Client.cmdSeek fd whence off
  | cmdAllocate fd flag off size => Client.cmdAllocate fd flag off size
  | cmdGetAttr fpath => Prod.snd <$> Client.cmdGetAttr fpath
  | cmdSetAttr fpath flag fi => Client.cmdSetAttr fpath flag fi
  | cmdSync fd => Client.cmdSync fd
  | cmdMkdir fpath mode => Client.cmdMkdir fpath mode
  | cmdSymLink target fpath => Client.cmdSymLink target fpath
  | cmdRemove fpath => Client.cmdRemove fpath
  | cmdRmDir fpath => Client.cmdRmDir fpath
  | cmdFsStat fpath => Prod.snd <$> Client.cmdFsStat fpath
  | cmdReadAt fd offset dest => (fun result => result.2.2) <$> Client.cmdReadAt fd offset dest
  | cmdWriteAt fd offset data => Prod.snd <$> Client.cmdWriteAt fd offset data
  | cmdRename old new mode => Client.cmdRename old new mode
  | cmdCopyFileRange wfd1 wfd2 off1 off2 size =>
      Prod.snd <$> Client.cmdCopyFileRange wfd1 wfd2 off1 off2 size
  | cmdCloneFileRange wfd1 wfd2 off1 off2 size => Client.cmdCloneFileRange wfd1 wfd2 off1 off2 size
  | cmdGetFileLock fd fileLock => Prod.snd <$> Client.cmdGetFileLock fd fileLock
  | cmdSetFileLock fd fileLock => Client.cmdSetFileLock fd fileLock
  | cmdSetFileLockWait fd fileLock => Client.cmdSetFileLockWait fd fileLock
  | cmdSetAttrByFD wfd flag fi => Client.cmdSetAttrByFD wfd flag fi
  | cmdSetXAttr path key value mode => s.cmdSetXAttr path key value mode
  | cmdGetXAttr path key mode => Prod.snd <$> s.cmdGetXAttr path key mode
  | cmdListXAttr path mode => Prod.snd <$> s.cmdListXAttr path mode
  | cmdRemoveXAttr path key mode => s.cmdRemoveXAttr path key mode

def command : Method → UInt8
  | cmdReadDirPlus _ => Protocol.cmdReadDirPlus
  | cmdOpen _ _ _ => Protocol.cmdOpen
  | cmdClose _ => Protocol.cmdClose
  | cmdRead _ _ => Protocol.cmdRead
  | cmdReadDir _ => Protocol.cmdReadDir
  | cmdReadLink _ => Protocol.cmdReadLink
  | cmdWrite _ _ => Protocol.cmdWrite
  | cmdSeek _ _ _ => Protocol.cmdSeek
  | cmdAllocate _ _ _ _ => Protocol.cmdAllocate
  | cmdGetAttr _ => Protocol.cmdGetAttr
  | cmdSetAttr _ _ _ => Protocol.cmdSetAttr
  | cmdSync _ => Protocol.cmdSync
  | cmdMkdir _ _ => Protocol.cmdMkdir
  | cmdSymLink _ _ => Protocol.cmdSymLink
  | cmdRemove _ => Protocol.cmdRemove
  | cmdRmDir _ => Protocol.cmdRmDir
  | cmdFsStat _ => Protocol.cmdFsStat
  | cmdReadAt _ _ _ => Protocol.cmdReadAt
  | cmdWriteAt _ _ data =>
      if data.length ≤ maxWriteAtPayload then Protocol.cmdWriteAt else Protocol.cmdWriteStreamOpen
  | cmdRename _ _ _ => Protocol.cmdRename
  | cmdCopyFileRange _ _ _ _ _ => Protocol.cmdCopyFileRange
  | cmdCloneFileRange _ _ _ _ _ => Protocol.cmdCloneFileRange
  | cmdGetFileLock _ _ => Protocol.cmdGetFileLock
  | cmdSetFileLock _ _ => Protocol.cmdSetFileLock
  | cmdSetFileLockWait _ _ => Protocol.cmdSetFileLockWait
  | cmdSetAttrByFD _ _ _ => Protocol.cmdSetAttrByFD
  | cmdSetXAttr _ _ _ _ => Protocol.cmdSetXAttr
  | cmdGetXAttr _ _ _ => Protocol.cmdGetXAttr
  | cmdListXAttr _ _ => Protocol.cmdListXAttr
  | cmdRemoveXAttr _ _ _ => Protocol.cmdRemoveXAttr

variable {method : Method} {trace : List CallEvent} {made : List Attempt} {body : CommandStruct}
  {path : Bytes}

end Method

/-- The events of a request that is answered with one message. -/
private def request (cmd : UInt8) (body : CommandStruct) (code : UInt8) : List CallEvent :=
  [⟨.newClientMark, some 1⟩, ⟨.beginRequest 1 cmd, true⟩, ⟨.writeStruct body, none⟩,
    ⟨.receive 1, ⟨code, []⟩⟩, ⟨.releaseClientMark 1, ()⟩]

end Wsfs.Client
