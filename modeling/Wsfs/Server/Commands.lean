/-
The command handlers of a server session, from the message to its responses. A handler
is a program over the session's descriptors, the system calls and the messages it sends;
any of its calls may be answered in any way, as other tasks and the file system permit.
On a connection that stays up a message that is sent arrives.

The two commands of write streams only hand their input to the task of the stream.
-/

import Wsfs.Base.Prog
import Wsfs.Storage.Commands

namespace Wsfs.Server.Commands

open Wsfs.Base Wsfs.Protocol Wsfs.Unix Wsfs.Util
open Codec (u8 u32 u64 i64 str)
open Wsfs.ReadDir (direntBytes getDirentRequiredSize)
open Wsfs.ReadDir.Server (Stat ReadError DirEntry Link osErrCode convOwner ensureDirBase bufferWrite errorMessage
  room maxRootEntriesForPrefetch maxPrefetchDirEntries maxPrefetchDirs)

/-! ### Calls -/

abbrev Chunk (size : Nat) := { data : Bytes // data.length ≤ size }

/-- System calls, and helpers around them, that answer with nothing but an error. -/
inductive SysCall
  | close (sfd : Nat)
  | fallocate (sfd : Nat) (flag : UInt32) (offset size : Int64)
  | truncate (path : Bytes) (size : Int64)
  | setPathMTime (path : Bytes) (mtime : Timespec)
  | chmod (path : Bytes) (mode : UInt32)
  | chown (path : Bytes) (uid gid : UInt32)
  | ftruncate (sfd : Nat) (size : Int64)
  | setFDMTime (sfd : Nat) (mtime : Timespec)
  | fchmod (sfd : Nat) (mode : UInt32)
  | fchown (sfd : Nat) (uid gid : UInt32)
  | fsync (sfd : Nat)
  | mkdir (path : Bytes) (mode : UInt32)
  | symlink (oldPath newPath : Bytes)
  | link (oldPath newPath : Bytes)
  | unlink (path : Bytes)
  | rmdir (path : Bytes)
  | rename (oldPath newPath : Bytes)
  | renameat2 (fd1 : Nat) (oldPath : Bytes) (fd2 : Nat) (newPath : Bytes) (flag : UInt32)
  | cloneFileRange (dst src : Nat) (dstOffset srcOffset size : UInt64)
  | setLock (sfd : Nat) (lock : FileLockInfo) (blocking : Bool)
  | setXAttr (path key value : Bytes) (flag : UInt32)
  | removeXAttr (path key : Bytes) (mode : UInt32)
deriving DecidableEq, Repr

/-- `giveUp` is what `writeDone` does with an error: the connection is at its end. -/
inductive Effect
  | send (clientMark code : UInt8) (payload : Bytes)
  | giveUp
  | stream (clientMark cmd : UInt8) (payload : Bytes)
  | loadFD (fd : UInt32)
  | newFD (sfd : Nat)
  | deleteFD (fd : UInt32)
  | sys (call : SysCall)
  | «open» (path : Bytes) (oflag mode : UInt32)
  | read (sfd size : Nat)
  | pread (sfd size : Nat) (offset : UInt64)
  | write (sfd : Nat) (data : Bytes)
  | pwrite (sfd : Nat) (data : Bytes) (offset : UInt64)
  | seek (sfd : Nat) (offset : Int64) (whence : Int)
  | readlink (path : Bytes)
  | stat (path : Bytes) (followSymlink : Bool)
  | openDir (path : Bytes)
  | readDir (dir n : Nat)
  | closeDir (dir : Nat)
  | fsSize (path : Bytes)
  | copyFileRange (src : Nat) (srcOffset : UInt64) (dst : Nat) (dstOffset : UInt64) (size : UInt64)
  | getLock (sfd : Nat) (lock : FileLockInfo)
  | getXAttr (path key : Bytes) (mode : UInt32)
  | listXAttr (path : Bytes) (mode : UInt32)
deriving DecidableEq, Repr

@[reducible] def Effect.Result : Effect → Type
  | .send _ _ _ => Unit
  | .giveUp => Unit
  | .stream _ _ _ => Unit
  | .loadFD _ => Option Nat
  | .newFD _ => UInt32
  | .deleteFD _ => Unit
  | .sys _ => Except Errno Unit
  | .open _ _ _ => Except Errno Nat
  | .read _ size => Except Errno (Chunk size)
  | .pread _ size _ => Except Errno (Chunk size)
  | .write _ _ => Except Errno Nat
  | .pwrite _ _ _ => Except Errno Nat
  | .seek _ _ _ => Except Errno Int64
  | .readlink _ => Except Errno Link
  | .stat _ _ => Except Errno Stat
  | .openDir _ => Except Errno Nat
  | .readDir _ _ => List DirEntry × Option ReadError
  | .closeDir _ => Except Errno Unit
  | .fsSize _ => Except Errno RspFsStat
  | .copyFileRange _ _ _ _ _ => Except Errno Nat
  | .getLock _ _ => Except Errno FileLockInfo
  | .getXAttr _ _ _ => Except Errno Bytes
  | .listXAttr _ _ => Except Errno Bytes

abbrev Handler := Prog Effect Effect.Result

/-- The tables that differ between the builds for Unix systems. -/
structure Platform where
  openFlagToUnix : UInt32 → Option UInt32
  whenceToUnix : UInt8 → Option Int

/-- What a session is given when it is made. Its storage comes from `NewStorage`. -/
structure Session extends ReadDir.Server.Session where
  rooted : ∃ names, Storage.Rooted names storagePath
  otherUid : UInt32
  otherGid : UInt32
  allowedXAttrPrefix : List Bytes
  enableLink : Bool
  platform : Platform

/-! ### Responses -/

@[reducible] def send (clientMark code : UInt8) (payload : Bytes) : Handler Unit :=
  Prog.perform (Effect.send clientMark code payload)

@[reducible] def sys (call : SysCall) : Handler (Except Errno Unit) := Prog.perform (Effect.sys call)

def writeRspOK (clientMark : UInt8) : Handler Unit := send clientMark errorOK []

def writeRspError (clientMark code : UInt8) (desc : String) : Handler Unit :=
  send clientMark (errorMessage code desc).code (errorMessage code desc).payload

/-- `beginRsp` with `ErrorOK`, a struct and `writeDone`. If the struct cannot be written
the message ends behind its code. -/
def respond {α : Type} (clientMark : UInt8) (codec : Codec α) (rsp : α) : Handler Unit :=
  match codec.write rsp with
  | some payload => send clientMark errorOK payload
  | none => do
      send clientMark errorOK []
      Prog.perform Effect.giveUp

def answer (clientMark : UInt8) : Except Errno Unit → Handler Unit
  | .error err => writeRspError clientMark (wsfsErrCode err) "syscall error"
  | .ok () => writeRspOK clientMark

/-- The end of a handler whose last call answers with the response. -/
def answerWith {α β : Type} (clientMark : UInt8) (codec : Codec β) (rsp : α → β) :
    Except Errno α → Handler Unit
  | .error err => writeRspError clientMark (wsfsErrCode err) "syscall error"
  | .ok value => respond clientMark codec (rsp value)

/-- `s.fds.Load` -/
def withFD (clientMark : UInt8) (fd : UInt32) (next : Nat → Handler Unit) : Handler Unit := do
  match ← Prog.perform (Effect.loadFD fd) with
  | none => writeRspError clientMark errorInvalidFD "bad fd"
  | some sfd => next sfd

def Session.withPath (s : Session) (clientMark : UInt8) (path : Bytes)
    (next : Bytes → Handler Unit) : Handler Unit :=
  if !isUrlValid path then writeRspError clientMark errorInvalid "bad path"
  else next (s.storagePath ++ path)

def Session.withPaths (s : Session) (clientMark : UInt8) (first second : Bytes)
    (next : Bytes → Bytes → Handler Unit) : Handler Unit :=
  if !isUrlValid first || !isUrlValid second then writeRspError clientMark errorInvalid "bad path"
  else next (s.storagePath ++ first) (s.storagePath ++ second)

def eintr : Errno := .other 4

def ignoringEINTR {α : Type} (fn : Handler (Except Errno α)) : Handler (Except Errno α) :=
  Prog.loop (fun _ => do
    match ← fn with
    | .error err => if err = eintr then return .inl () else return .inr (.error err)
    | .ok value => return .inr (.ok value)) ()

/-! ### Descriptors -/

/-- One of the open flags of the protocol, on top of the flags so far. -/
def Session.addOpenFlag (s : Session) (oFlag oflag protocolFlag : UInt32) :
    Except (UInt8 × String) UInt32 :=
  if protocolFlag &&& oAccmode ≠ 0 then .ok oflag
  else if oFlag &&& protocolFlag ≠ 0 then
    match s.platform.openFlagToUnix protocolFlag with
    | none => .error (errorNotSupport, "not supported open flag")
    | some unixFlag => .ok (oflag ||| unixFlag)
  else .ok oflag

def Session.openFlags (s : Session) (oFlag : UInt32) : Except (UInt8 × String) UInt32 :=
  let access := oFlag &&& oAccmode
  if access ≠ oRdonly ∧ access ≠ oWronly ∧ access ≠ oRdwr then
    .error (errorInvalid, "bad open access mode")
  else
    Protocol.openFlags.foldlM (s.addOpenFlag oFlag) ((s.platform.openFlagToUnix access).getD 0)

def Session.cmdOpen (s : Session) (clientMark : UInt8) (path : Bytes) (oFlag fMode : UInt32) :
    Handler Unit :=
  s.withPath clientMark path fun apath =>
    match s.openFlags oFlag with
    | .error (code, desc) => writeRspError clientMark code desc
    | .ok oflag => do
        match ← ignoringEINTR (Prog.perform (Effect.open apath oflag (syscallMode fMode))) with
        | .error err => writeRspError clientMark (wsfsErrCode err) "syscall error"
        | .ok sfd =>
            let wfd ← Prog.perform (Effect.newFD sfd)
            respond clientMark u32 wfd

def cmdClose (clientMark : UInt8) (fd : UInt32) : Handler Unit :=
  withFD clientMark fd fun sfd => do
    Prog.perform (Effect.deleteFD fd)
    answer clientMark (← sys (.close sfd))

def maxReadPayLoad : Nat := maxMsgSize - 2

/-- The end of `readAndSend` and of `readAtAndSend`: how much was read, or nothing after
an error. -/
def sendRead (clientMark : UInt8) {size : Nat} (isPartial : Bool) :
    Except Errno (Chunk size) → Handler (Option Nat)
  | .error err => do
      writeRspError clientMark (wsfsErrCode err) "syscall error"
      return none
  | .ok data => do
      send clientMark (if isPartial ∧ data.val.length = size then errorPartialResponse else errorOK)
        data.val
      return some data.val.length

def readAndSend (clientMark : UInt8) (fd size : Nat) (isPartial : Bool) : Handler (Option Nat) := do
  sendRead clientMark isPartial (← Prog.perform (Effect.read fd size))

def readAtAndSend (clientMark : UInt8) (fd : Nat) (off : UInt64) (size : Nat) (isPartial : Bool) :
    Handler (Option Nat) := do
  sendRead clientMark isPartial (← Prog.perform (Effect.pread fd size off))

/-- The loop of `cmdRead` and of `cmdReadAt` over full messages. It stops after a message
that is not full; otherwise the result is the offset it has come to. -/
def readFull (readAndSend : UInt64 → Handler (Option Nat)) : Nat → UInt64 → Handler (Option UInt64)
  | 0, off => return some off
  | rounds + 1, off => do
      match ← readAndSend off with
      | none => return none
      | some readed =>
          if readed < maxReadPayLoad then return none
          else readFull readAndSend rounds (off + UInt64.ofNat readed)

/-- What `cmdRead` and `cmdReadAt` do with the open file. -/
def readWhole (clientMark : UInt8) (size : Nat)
    (readAndSend : (off : UInt64) → (size : Nat) → (isPartial : Bool) → Handler (Option Nat))
    (off : UInt64) : Handler Unit :=
  if size < maxReadPayLoad then do
    let _ ← readAndSend off size false
    return ()
  else do
    match ← readFull (readAndSend · maxReadPayLoad true) (size / maxReadPayLoad) off with
    | none => return ()
    | some off =>
        if size % maxReadPayLoad = 0 then writeRspOK clientMark
        else
          let _ ← readAndSend off (size % maxReadPayLoad) false
          return ()

def cmdRead (clientMark : UInt8) (fd : UInt32) (size : UInt64) : Handler Unit :=
  withFD clientMark fd fun sfd =>
    readWhole clientMark size.toNat (fun _ => readAndSend clientMark sfd) 0

def cmdReadAt (clientMark : UInt8) (fd : UInt32) (offset size : UInt64) : Handler Unit :=
  withFD clientMark fd fun sfd => readWhole clientMark size.toNat (readAtAndSend clientMark sfd) offset

def Session.cmdSeek (s : Session) (clientMark : UInt8) (fd : UInt32) (whence : UInt8)
    (offset : Int64) : Handler Unit :=
  withFD clientMark fd fun sfd =>
    match s.platform.whenceToUnix whence with
    | none => writeRspError clientMark errorNotSupport "whence not supported"
    | some whence => do
        answerWith clientMark u64 Int64.toUInt64
          (← Prog.perform (Effect.seek sfd offset whence))

def cmdWrite (clientMark : UInt8) (fd : UInt32) (data : Bytes) : Handler Unit :=
  withFD clientMark fd fun sfd => do
    answerWith clientMark u64 UInt64.ofNat
      (← ignoringEINTR (Prog.perform (Effect.write sfd data)))

def cmdWriteAt (clientMark : UInt8) (fd : UInt32) (offset : UInt64) (data : Bytes) : Handler Unit :=
  withFD clientMark fd fun sfd => do
    answerWith clientMark u64 UInt64.ofNat
      (← ignoringEINTR (Prog.perform (Effect.pwrite sfd data offset)))

def cmdAllocate (clientMark : UInt8) (fd flag : UInt32) (offset size : UInt64) : Handler Unit :=
  withFD clientMark fd fun sfd => do
    answer clientMark (← sys (.fallocate sfd flag offset.toInt64 size.toInt64))

def cmdSync (clientMark : UInt8) (fd : UInt32) : Handler Unit :=
  withFD clientMark fd fun sfd => do answer clientMark (← sys (.fsync sfd))

def cmdCopyFileRange (clientMark : UInt8) (srcFD dstFD : UInt32) (srcOffset dstOffset size : UInt64) :
    Handler Unit :=
  if size > maxCopyFileRangeChunk then
    writeRspError clientMark errorInvalid "copy_file_range size exceeds limit"
  else
    withFD clientMark srcFD fun sfd1 =>
      withFD clientMark dstFD fun sfd2 => do
        answerWith clientMark u64 UInt64.ofNat
          (← Prog.perform (Effect.copyFileRange sfd1 srcOffset sfd2 dstOffset size))

def cmdCloneFileRange (clientMark : UInt8) (srcFD dstFD : UInt32)
    (srcOffset dstOffset size : UInt64) : Handler Unit :=
  withFD clientMark srcFD fun sfd1 =>
    withFD clientMark dstFD fun sfd2 => do
      answer clientMark (← sys (.cloneFileRange sfd2 sfd1 dstOffset srcOffset size))

def cmdGetFileLock (clientMark : UInt8) (fd : UInt32) (fileLock : FileLockInfo) : Handler Unit :=
  withFD clientMark fd fun sfd => do
    answerWith clientMark FileLockInfo.codec id (← Prog.perform (Effect.getLock sfd fileLock))

def cmdSetFileLockCommon (clientMark : UInt8) (fd : UInt32) (lock : FileLockInfo) (blocking : Bool) :
    Handler Unit :=
  withFD clientMark fd fun sfd => do answer clientMark (← sys (.setLock sfd lock blocking))

def cmdSetFileLock (clientMark : UInt8) (fd : UInt32) (fileLock : FileLockInfo) : Handler Unit :=
  cmdSetFileLockCommon clientMark fd fileLock false

def cmdSetFileLockWait (clientMark : UInt8) (fd : UInt32) (fileLock : FileLockInfo) : Handler Unit :=
  cmdSetFileLockCommon clientMark fd fileLock true

/-! ### Attributes -/

def sysAll (clientMark : UInt8) : List SysCall → Handler Unit
  | [] => writeRspOK clientMark
  | call :: rest => do
      match ← sys call with
      | .error err => writeRspError clientMark (wsfsErrCode err) "syscall error"
      | .ok () => sysAll clientMark rest

def flagged (flag : UInt8) (calls : List (UInt8 × SysCall)) : List SysCall :=
  (calls.filter fun call => flag &&& call.1 ≠ 0).map Prod.snd

def Session.ownerUid (s : Session) (owner : UInt8) : UInt32 :=
  if owner &&& ownerUN ≠ 0 then s.uid else s.otherUid

def Session.ownerGid (s : Session) (owner : UInt8) : UInt32 :=
  if owner &&& ownerNG ≠ 0 then s.gid else s.otherGid

def Session.cmdSetAttr (s : Session) (clientMark : UInt8) (path : Bytes) (flag : UInt8)
    (fi : FileInfo) : Handler Unit :=
  s.withPath clientMark path fun apath =>
    sysAll clientMark (flagged flag
      [(setattrSize, .truncate apath fi.size.toInt64),
        (setattrMtime, .setPathMTime apath fi.mtime),
        (setattrMode, .chmod apath (syscallMode fi.mode)),
        (setattrOwner, .chown apath (s.ownerUid fi.owner) (s.ownerGid fi.owner))])

def Session.cmdSetAttrByFD (s : Session) (clientMark : UInt8) (fd : UInt32) (flag : UInt8)
    (fi : FileInfo) : Handler Unit :=
  withFD clientMark fd fun sfd =>
    sysAll clientMark (flagged flag
      [(setattrSize, .ftruncate sfd fi.size.toInt64),
        (setattrMtime, .setFDMTime sfd fi.mtime),
        (setattrMode, .fchmod sfd (syscallMode fi.mode)),
        (setattrOwner, .fchown sfd (s.ownerUid fi.owner) (s.ownerGid fi.owner))])

def Session.restrictingSymlinkByFileInfo (s : Session) (base name : Bytes) (fi : Stat) :
    Handler (Except Errno Stat) := do
  match ← Prog.perform (Effect.readlink (base ++ name)) with
  | .error err => return .error err
  | .ok link =>
      let target := if link.target.head? ≠ some slash then clean (base ++ link.target) else link.target
      if hasPrefix target s.storagePath then return .ok fi
      else Prog.perform (Effect.stat (base ++ name) true)

def Session.getAttr (s : Session) (apath : Bytes) : Handler (Except Errno Stat) := do
  match ← Prog.perform (Effect.stat apath false) with
  | .error err => return .error err
  | .ok fi =>
      if fi.mode &&& modeSymlink = 0 then return .ok fi
      else s.restrictingSymlinkByFileInfo (dir apath ++ [slash]) (Storage.baseName apath) fi

def Session.makeWSFSFileInfo (s : Session) (fi : Stat) : FileInfo :=
  ⟨fi.size, fi.mtime, fi.mode, convOwner s.toSession fi⟩

def Session.cmdGetAttr (s : Session) (clientMark : UInt8) (path : Bytes) : Handler Unit :=
  s.withPath clientMark path fun apath => do
    match ← s.getAttr apath with
    | .error err => writeRspError clientMark (osErrCode err) "syscall error"
    | .ok fi => respond clientMark FileInfo.codec (s.makeWSFSFileInfo fi)

def xattrErrorCode (err : Errno) : UInt8 := if err = .enodata then errorNoXAttr else wsfsErrCode err

def Session.isXAttrKeyAllowed (s : Session) (key : Bytes) : Bool :=
  s.allowedXAttrPrefix.any fun part => hasPrefix key part

def Session.withXAttr (s : Session) (clientMark : UInt8) (path key : Bytes)
    (next : Bytes → Handler Unit) : Handler Unit :=
  s.withPath clientMark path fun apath =>
    if key = [] ∨ 0 ∈ key then writeRspError clientMark errorInvalid "bad xattr key"
    else if !s.isXAttrKeyAllowed key then
      writeRspError clientMark errorStateBlocked "xattr key is not allowed"
    else next apath

def answerXAttr (clientMark : UInt8) : Except Errno Unit → Handler Unit
  | .error err => writeRspError clientMark (xattrErrorCode err) "xattr syscall error"
  | .ok () => writeRspOK clientMark

def Session.cmdSetXAttr (s : Session) (clientMark : UInt8) (path : Bytes) (flag : UInt32)
    (key value : Bytes) : Handler Unit :=
  s.withXAttr clientMark path key fun apath => do
    answerXAttr clientMark (← sys (.setXAttr apath key value flag))

def Session.cmdRemoveXAttr (s : Session) (clientMark : UInt8) (path key : Bytes) (mode : UInt32) :
    Handler Unit :=
  s.withXAttr clientMark path key fun apath => do
    answerXAttr clientMark (← sys (.removeXAttr apath key mode))

def maxXAttrResponsePayload : Nat := maxResponseLength - 2

def writeXAttrData (clientMark : UInt8) (data : Bytes) : Handler Unit :=
  if data = [] then writeRspOK clientMark
  else do
    let data ← Prog.loop (fun data : Bytes => do
      if data.length > maxXAttrResponsePayload then
        send clientMark errorPartialResponse (data.take maxXAttrResponsePayload)
        return .inl (data.drop maxXAttrResponsePayload)
      else return .inr data) data
    send clientMark errorOK data

def Session.cmdGetXAttr (s : Session) (clientMark : UInt8) (path key : Bytes) (mode : UInt32) :
    Handler Unit :=
  s.withXAttr clientMark path key fun apath => do
    match ← Prog.perform (Effect.getXAttr apath key mode) with
    | .error err => writeRspError clientMark (xattrErrorCode err) "xattr syscall error"
    | .ok data => writeXAttrData clientMark data

/-- The loop of `filterXAttrList`; `key` is the part of the next key that was seen. -/
def Session.filterKeys (s : Session) (key : Bytes) : Bytes → Option Bytes
  | [] => some []
  | byte :: rest =>
      if byte = 0 then
        if key = [] then none
        else
          (s.filterKeys [] rest).map fun filtered =>
            if s.isXAttrKeyAllowed key then key ++ 0 :: filtered else filtered
      else s.filterKeys (key ++ [byte]) rest

def Session.filterXAttrList (s : Session) (data : Bytes) : Option Bytes :=
  if data = [] then some data
  else if data.getLast? ≠ some 0 then none
  else s.filterKeys [] data

def Session.cmdListXAttr (s : Session) (clientMark : UInt8) (path : Bytes) (mode : UInt32) :
    Handler Unit :=
  s.withPath clientMark path fun apath => do
    match ← Prog.perform (Effect.listXAttr apath mode) with
    | .error err => writeRspError clientMark (xattrErrorCode err) "xattr syscall error"
    | .ok data =>
        match s.filterXAttrList data with
        | none => writeRspError clientMark errorIo "bad xattr list"
        | some data => writeXAttrData clientMark data

/-! ### Names -/

/-- The kernel copies as much of the target as the buffer holds. -/
def readLinkBuffer : Nat := 256

def Session.cmdReadLink (s : Session) (clientMark : UInt8) (path : Bytes) : Handler Unit :=
  s.withPath clientMark path fun apath => do
    match ← ignoringEINTR (Prog.perform (Effect.readlink apath)) with
    | .error _ => writeRspError clientMark errorType "syscall error"
    | .ok link =>
        let target := link.target.take readLinkBuffer
        let target := if target.head? ≠ some slash then clean (join apath target) else target
        if hasPrefix target s.storagePath then
          respond clientMark str (target.drop s.storagePath.length)
        else writeRspError clientMark errorType "syscall error"

def Session.cmdMkdir (s : Session) (clientMark : UInt8) (path : Bytes) (mode : UInt32) :
    Handler Unit :=
  s.withPath clientMark path fun apath => do
    answer clientMark (← sys (.mkdir apath (syscallMode mode)))

def Session.cmdSymLink (s : Session) (clientMark : UInt8) (targetPath filePath : Bytes) :
    Handler Unit :=
  s.withPaths clientMark targetPath filePath fun aOldPath aNewPath => do
    answer clientMark (← sys (.symlink aOldPath aNewPath))

def Session.cmdLink (s : Session) (clientMark : UInt8) (targetPath filePath : Bytes) : Handler Unit :=
  s.withPaths clientMark targetPath filePath fun aOldPath aNewPath => do
    if !s.enableLink then writeRspError clientMark errorNotSupport "syscall error"
    else answer clientMark (← sys (.link aOldPath aNewPath))

def Session.cmdRemove (s : Session) (clientMark : UInt8) (path : Bytes) : Handler Unit :=
  s.withPath clientMark path fun apath => do answer clientMark (← sys (.unlink apath))

def Session.cmdRmDir (s : Session) (clientMark : UInt8) (path : Bytes) : Handler Unit :=
  s.withPath clientMark path fun apath => do answer clientMark (← sys (.rmdir apath))

def Session.cmdFsStat (s : Session) (clientMark : UInt8) (path : Bytes) : Handler Unit :=
  s.withPath clientMark path fun apath => do
    answerWith clientMark RspFsStat.codec id (← Prog.perform (Effect.fsSize apath))

/-- The rename of a request with flags, between the directories of both names. -/
def renameFlagged (aOldPath aNewPath : Bytes) (flag : UInt32) : Handler (Except Errno Unit) := do
  match ← Prog.perform (Effect.open (dir aOldPath) oDirectory 0) with
  | .error err => return .error err
  | .ok fd1 =>
      match ← Prog.perform (Effect.open (dir aNewPath) oDirectory 0) with
      | .error err =>
          let _ ← sys (.close fd1)
          return .error err
      | .ok fd2 =>
          let result ← sys (.renameat2 fd1 aOldPath fd2 aNewPath flag)
          let _ ← sys (.close fd2)
          let _ ← sys (.close fd1)
          return result

def Session.cmdRename (s : Session) (clientMark : UInt8) (oldPath newPath : Bytes) (flag : UInt32) :
    Handler Unit :=
  s.withPaths clientMark oldPath newPath fun aOldPath aNewPath =>
    if flag = 0 then do answer clientMark (← sys (.rename aOldPath aNewPath))
    else do answer clientMark (← renameFlagged aOldPath aNewPath flag)

/-! ### Directories

A buffer is what stands after the mark and the code of the message that it becomes. -/

def Session.lookupDirent (s : Session) (dirBase : Bytes) (dirent : DirEntry) :
    Handler (Except Errno Dirent) := do
  let wdirent (fi : Stat) : Dirent :=
    ⟨dirent.name, fi.size, fi.mtime, fi.mode, convOwner s.toSession fi⟩
  match ← Prog.perform (Effect.stat (dirBase ++ dirent.name) false) with
  | .error err => return .error err
  | .ok fi =>
      if fi.mode &&& modeSymlink ≠ 0 then
        return (← s.restrictingSymlinkByFileInfo dirBase dirent.name fi).map wdirent
      else return .ok (wdirent fi)

def Session.lookupDirentSafe (s : Session) (dirBase : Bytes) (entry : DirEntry) : Handler Dirent := do
  match ← s.lookupDirent dirBase entry with
  | .ok wdirent => return wdirent
  | .error _ => return ⟨entry.name, 0, ⟨0, 0⟩, modeIrregular, ownerNN⟩

def makeRoom (clientMark : UInt8) (rsp : Bytes) (requiredSize : Nat) : Handler Bytes := do
  if 2 + rsp.length + requiredSize > maxMsgSize then
    send clientMark errorPartialResponse rsp
    return []
  else return rsp

/-- The body of the loop over the entries of one batch of `cmdReadDir`. -/
def Session.writeDirent (s : Session) (clientMark : UInt8) (dirBase rsp : Bytes)
    (dirent : DirEntry) : Handler Bytes := do
  let wdirent ← s.lookupDirentSafe dirBase dirent
  let rsp ← makeRoom clientMark rsp (getDirentRequiredSize wdirent)
  return bufferWrite rsp (direntBytes wdirent)

def writeDirentChunk (clientMark : UInt8) (rsp : Bytes) (wdirent : Dirent) : Handler Bytes := do
  let rsp ← makeRoom clientMark rsp (1 + getDirentRequiredSize wdirent)
  return bufferWrite (bufferWrite rsp [readdirplusIndicatorContinue]) (direntBytes wdirent)

def writePrefetchIndicator (clientMark : UInt8) (rsp : Bytes) (indicator : UInt8) : Handler Bytes := do
  let rsp ← makeRoom clientMark rsp 1
  return bufferWrite rsp [indicator]

/-- One batch of `cmdReadDir`, and the last message if it is the last batch. -/
def Session.writeBatch (s : Session) (clientMark : UInt8) (dirBase rsp : Bytes)
    (dirents : List DirEntry) (atEnd : Bool) : Handler (Bytes ⊕ Unit) := do
  let rsp ← dirents.foldlM (s.writeDirent clientMark dirBase) rsp
  if dirents = [] ∨ atEnd then
    send clientMark errorOK rsp
    return .inr ()
  else return .inl rsp

/-- The loop of `cmdReadDir`. -/
def Session.readDirLoop (s : Session) (clientMark : UInt8) (dirBase : Bytes) (f : Nat) :
    Handler Unit :=
  Prog.loop (fun rsp => do
    match ← Prog.perform (Effect.readDir f 16) with
    | (_, some (.os err)) =>
        writeRspError clientMark (osErrCode err) "read dir failed"
        return .inr ()
    | (dirents, some .eof) => s.writeBatch clientMark dirBase rsp dirents true
    | (dirents, none) => s.writeBatch clientMark dirBase rsp dirents false) []

/-- The handlers of directories from `os.Open` to the deferred `Close`. -/
def Session.withDir (s : Session) (clientMark : UInt8) (path : Bytes)
    (next : (dirBase : Bytes) → (f : Nat) → Handler Unit) : Handler Unit :=
  s.withPath clientMark path fun apath => do
    match ← Prog.perform (Effect.openDir apath) with
    | .error err => writeRspError clientMark (osErrCode err) "open dir failed"
    | .ok f =>
        next (ensureDirBase apath) f
        let _ ← Prog.perform (Effect.closeDir f)
        return ()

def Session.cmdReadDir (s : Session) (clientMark : UInt8) (path : Bytes) : Handler Unit :=
  s.withDir clientMark path fun dirBase f => s.readDirLoop clientMark dirBase f

structure PrefetchDirState where
  absPath : Bytes
  file : Nat
  pending : List DirEntry
deriving DecidableEq, Repr

def preparePrefetchDir (dirBase : Bytes) (entry : DirEntry) :
    Handler (Except Errno PrefetchDirState) := do
  let childAbsPath := dirBase ++ entry.name ++ [slash]
  match ← Prog.perform (Effect.openDir childAbsPath) with
  | .error err => return .error err
  | .ok cf =>
      let (entries, readErr) ← Prog.perform (Effect.readDir cf 16)
      match readErr with
      | some (.os err) =>
          let _ ← Prog.perform (Effect.closeDir cf)
          return .error err
      | _ => return .ok ⟨childAbsPath, cf, entries⟩

/-- The next directory of the root, with the entries behind it and the count of
directories used. -/
def nextPrefetchDir (dirBase : Bytes) :
    List DirEntry → Nat → Handler (Except Errno (Option PrefetchDirState) × List DirEntry × Nat)
  | [], used => return (.ok none, [], used)
  | entry :: rest, used =>
      if used ≥ maxPrefetchDirs then return (.ok none, entry :: rest, used)
      else if !entry.isDir then nextPrefetchDir dirBase rest used
      else do
        let state ← preparePrefetchDir dirBase entry
        return (state.map some, rest, used + 1)

/-- The loop over `pending`: the buffer and the count, and whether it ran over the limit. -/
def Session.streamPending (s : Session) (clientMark : UInt8) (absPath : Bytes) :
    List DirEntry → Bytes → Nat → Handler (Bytes × Nat × Bool)
  | [], rsp, count => return (rsp, count, false)
  | entry :: rest, rsp, count =>
      if count + 1 > maxPrefetchDirEntries then return (rsp, count + 1, true)
      else do
        let wdirent ← s.lookupDirentSafe absPath entry
        let rsp ← writeDirentChunk clientMark rsp wdirent
        s.streamPending clientMark absPath rest rsp (count + 1)

/-- The loop of `streamPrefetchDir`: the buffer, and whether it failed. -/
def Session.streamLoop (s : Session) (clientMark : UInt8) (state : PrefetchDirState) (rsp : Bytes) :
    Handler (Bytes × Bool) :=
  Prog.loop (fun (pending, rsp, count) => do
    let (rsp, count, exceeded) ← s.streamPending clientMark state.absPath pending rsp count
    if exceeded then return .inr (rsp, true)
    else
      let (entries, err) ← Prog.perform (Effect.readDir state.file 16)
      match err with
      | some .eof => return .inr (rsp, false)
      | some (.os _) => return .inr (rsp, true)
      | none => return .inl (entries, rsp, count))
    (state.pending, rsp, 0)

def Session.streamPrefetchDir (s : Session) (clientMark : UInt8) (rsp : Bytes)
    (state : PrefetchDirState) : Handler (Bytes × Bool) := do
  let result ← s.streamLoop clientMark state rsp
  let _ ← Prog.perform (Effect.closeDir state.file)
  return result

/-- The sections of one message after another, from a directory on that could be opened to
one that was streamed whole. There is no result after an error. -/
def Session.prefetchSections (s : Session) (clientMark : UInt8) (dirBase : Bytes)
    (state : PrefetchDirState) (first : List DirEntry) (used : Nat) (rsp : Bytes) :
    Handler (Option (List DirEntry × Nat)) :=
  Prog.loop (fun (state, first, used, rsp) => do
    let (rsp, failed) ← s.streamPrefetchDir clientMark rsp state
    if !failed then
      send clientMark errorPartialResponse rsp
      return .inr (some (first, used))
    else
      match ← nextPrefetchDir dirBase first used with
      | (.ok (some nextState), first, used) =>
          let rsp ← writePrefetchIndicator clientMark rsp readdirplusIndicatorPrefetchSkip
          return .inl (nextState, first, used, rsp)
      | _ =>
          writeRspError clientMark errorIo "read prefetch dir failed"
          return .inr none)
    (state, first, used, rsp)

/-- The loop over the directories of the root. There is no result after an error. -/
def Session.prefetchLoop (s : Session) (clientMark : UInt8) (dirBase : Bytes)
    (first : List DirEntry) : Handler (Option Unit) :=
  Prog.loop (fun (first, used) => do
    if first = [] ∨ used ≥ maxPrefetchDirs then return .inr (some ())
    else
      match ← nextPrefetchDir dirBase first used with
      | (.error _, _, _) =>
          writeRspError clientMark errorIo "read prefetch dir failed"
          return .inr none
      | (.ok none, first, used) => return .inl (first, used)
      | (.ok (some state), first, used) =>
          let rsp ← writePrefetchIndicator clientMark [] readdirplusIndicatorPrefetch
          match ← s.prefetchSections clientMark dirBase state first used rsp with
          | none => return .inr none
          | some (first, used) => return .inl (first, used))
    (first, 0)

def Session.writeRootEntry (s : Session) (clientMark : UInt8) (dirBase rsp : Bytes)
    (entry : DirEntry) : Handler Bytes := do
  writeDirentChunk clientMark rsp (← s.lookupDirentSafe dirBase entry)

def Session.readRootLoop (s : Session) (clientMark : UInt8) (dirBase : Bytes) (f : Nat) (rsp : Bytes) :
    Handler (Except Errno Bytes) :=
  Prog.loop (fun rsp => do
    let (more, err) ← Prog.perform (Effect.readDir f 16)
    let rsp ← more.foldlM (s.writeRootEntry clientMark dirBase) rsp
    match err with
    | some (.os err) => return .inr (.error err)
    | some .eof => return .inr (.ok rsp)
    | none => if more = [] then return .inr (.ok rsp) else return .inl rsp) rsp

/-- `cmdReadDirPlus` from the first batch of the root on. -/
def Session.sendRoot (s : Session) (clientMark : UInt8) (dirBase : Bytes) (f : Nat)
    (first : List DirEntry) : Handler Unit := do
  let rsp ← first.foldlM (s.writeRootEntry clientMark dirBase) []
  match ← s.readRootLoop clientMark dirBase f rsp with
  | .error err => writeRspError clientMark (osErrCode err) "read dir failed"
  | .ok rsp =>
      if first.length > maxRootEntriesForPrefetch then send clientMark errorOK rsp
      else
        send clientMark errorPartialResponse rsp
        match ← s.prefetchLoop clientMark dirBase first with
        | none => return ()
        | some () => writeRspOK clientMark

def Session.cmdReadDirPlus (s : Session) (clientMark : UInt8) (path : Bytes) : Handler Unit :=
  s.withDir clientMark path fun dirBase f => do
    match ← Prog.perform (Effect.readDir f (maxRootEntriesForPrefetch + 1)) with
    | (_, some (.os err)) => writeRspError clientMark (osErrCode err) "read dir failed"
    | (first, _) => s.sendRoot clientMark dirBase f first

/-! ### Dispatch -/

/-- `readAllToBuffer` with a buffer of the session. -/
def readAllToBuffer (r : Bytes) : Option Bytes := if r.length ≤ maxCommandLength then some r else none

/-- The fields in front of a trailing `[]byte`, and the data. -/
def readWithBuffer {α : Type} (codec : Codec α) (r : Bytes) : Option (α × Bytes) :=
  (codec.read r).bind fun (fields, rest) => (readAllToBuffer rest).map fun data => (fields, data)

def readStruct {α : Type} (codec : Codec α) (r : Bytes) : Option α := (codec.read r).map Prod.fst

/-- A case of `doCommandCall`. -/
def parsed {α : Type} (clientMark : UInt8) (req : Option α) (handler : α → Handler Unit) :
    Handler Unit :=
  match req with
  | none => writeRspError clientMark errorInvalid "Bad command format"
  | some req => handler req

def fdOffsets : Codec (UInt32 × UInt32 × UInt64 × UInt64 × UInt64) :=
  u32.pair (u32.pair (u64.pair (u64.pair u64)))

/-- The cases of `doCommandCall` but for the two of write streams. -/
def Session.handlers (s : Session) (clientMark : UInt8) (r : Bytes) : List (UInt8 × Handler Unit) :=
  [(Protocol.cmdOpen, parsed clientMark
      (readStruct (str.pair (u32.pair u32)) r)
      fun (path, oFlag, fMode) => s.cmdOpen clientMark path oFlag fMode),
    (Protocol.cmdClose, parsed clientMark (readStruct u32 r) (cmdClose clientMark)),
    (Protocol.cmdRead, parsed clientMark (readStruct (u32.pair u64) r)
      fun (fd, size) => cmdRead clientMark fd size),
    (Protocol.cmdReadDir, parsed clientMark (readStruct str r) (s.cmdReadDir clientMark)),
    (Protocol.cmdReadLink, parsed clientMark (readStruct str r) (s.cmdReadLink clientMark)),
    (Protocol.cmdWrite, parsed clientMark (readWithBuffer u32 r)
      fun (fd, data) => cmdWrite clientMark fd data),
    (Protocol.cmdSeek, parsed clientMark
      (readStruct (u32.pair (u8.pair i64)) r)
      fun (fd, whence, offset) => s.cmdSeek clientMark fd whence offset),
    (Protocol.cmdAllocate, parsed clientMark
      (readStruct (u32.pair (u32.pair (u64.pair u64))) r)
      fun (fd, flag, offset, size) => cmdAllocate clientMark fd flag offset size),
    (Protocol.cmdGetAttr, parsed clientMark (readStruct str r) (s.cmdGetAttr clientMark)),
    (Protocol.cmdSetAttr, parsed clientMark
      (readStruct (str.pair (u8.pair FileInfo.codec)) r)
      fun (path, flag, fi) => s.cmdSetAttr clientMark path flag fi),
    (Protocol.cmdSync, parsed clientMark (readStruct u32 r) (cmdSync clientMark)),
    (Protocol.cmdMkdir, parsed clientMark (readStruct (str.pair u32) r)
      fun (path, mode) => s.cmdMkdir clientMark path mode),
    (Protocol.cmdSymLink, parsed clientMark (readStruct (str.pair str) r)
      fun (targetPath, filePath) => s.cmdSymLink clientMark targetPath filePath),
    (Protocol.cmdRemove, parsed clientMark (readStruct str r) (s.cmdRemove clientMark)),
    (Protocol.cmdRmDir, parsed clientMark (readStruct str r) (s.cmdRmDir clientMark)),
    (Protocol.cmdFsStat, parsed clientMark (readStruct str r) (s.cmdFsStat clientMark)),
    (Protocol.cmdReadAt, parsed clientMark
      (readStruct (u32.pair (u64.pair u64)) r)
      fun (fd, offset, size) => cmdReadAt clientMark fd offset size),
    (Protocol.cmdWriteAt, parsed clientMark (readWithBuffer (u32.pair u64) r)
      fun ((fd, offset), data) => cmdWriteAt clientMark fd offset data),
    (Protocol.cmdCopyFileRange, parsed clientMark (readStruct fdOffsets r)
      fun (srcFD, dstFD, srcOffset, dstOffset, size) =>
        cmdCopyFileRange clientMark srcFD dstFD srcOffset dstOffset size),
    (Protocol.cmdRename, parsed clientMark
      (readStruct (str.pair (str.pair u32)) r)
      fun (oldPath, newPath, flag) => s.cmdRename clientMark oldPath newPath flag),
    (Protocol.cmdSetAttrByFD, parsed clientMark
      (readStruct (u32.pair (u8.pair FileInfo.codec)) r)
      fun (fd, flag, fi) => s.cmdSetAttrByFD clientMark fd flag fi),
    (Protocol.cmdReadDirPlus, parsed clientMark (readStruct str r)
      (s.cmdReadDirPlus clientMark)),
    (Protocol.cmdCloneFileRange, parsed clientMark (readStruct fdOffsets r)
      fun (srcFD, dstFD, srcOffset, dstOffset, size) =>
        cmdCloneFileRange clientMark srcFD dstFD srcOffset dstOffset size),
    (Protocol.cmdGetFileLock, parsed clientMark
      (readStruct (u32.pair FileLockInfo.codec) r)
      fun (fd, fileLock) => cmdGetFileLock clientMark fd fileLock),
    (Protocol.cmdSetFileLock, parsed clientMark
      (readStruct (u32.pair FileLockInfo.codec) r)
      fun (fd, fileLock) => cmdSetFileLock clientMark fd fileLock),
    (Protocol.cmdSetFileLockWait, parsed clientMark
      (readStruct (u32.pair FileLockInfo.codec) r)
      fun (fd, fileLock) => cmdSetFileLockWait clientMark fd fileLock),
    (Protocol.cmdLink, parsed clientMark (readStruct (str.pair str) r)
      fun (targetPath, filePath) => s.cmdLink clientMark targetPath filePath),
    (Protocol.cmdSetXAttr, parsed clientMark
      (readWithBuffer (str.pair (u32.pair str)) r)
      fun ((path, flag, key), value) => s.cmdSetXAttr clientMark path flag key value),
    (Protocol.cmdGetXAttr, parsed clientMark
      (readStruct (str.pair (str.pair u32)) r)
      fun (path, key, mode) => s.cmdGetXAttr clientMark path key mode),
    (Protocol.cmdListXAttr, parsed clientMark (readStruct (str.pair u32) r)
      fun (path, mode) => s.cmdListXAttr clientMark path mode),
    (Protocol.cmdRemoveXAttr, parsed clientMark
      (readStruct (str.pair (str.pair u32)) r)
      fun (path, key, mode) => s.cmdRemoveXAttr clientMark path key mode)]

def Session.doCommandCall (s : Session) (clientMark cmd : UInt8) (r : Bytes) : Handler Unit :=
  if cmd = Protocol.cmdWriteStreamOpen ∨ cmd = Protocol.cmdWriteStreamData then
    Prog.perform (Effect.stream clientMark cmd r)
  else
    match (s.handlers clientMark r).lookup cmd with
    | some handler => handler
    | none => writeRspError clientMark errorInvalid "Unknown command"

def Session.dispatchCommand (s : Session) : Bytes → Handler Unit
  | clientMark :: cmd :: r => s.doCommandCall clientMark cmd r
  | _ => Prog.perform Effect.giveUp

end Wsfs.Server.Commands
