/-
Setting attributes: `fsNode.Setattr` of the Unix mount client, the handlers
`cmdSetAttr` and `cmdSetAttrByFD` of the server, and the system calls they make
on one file.

The owner crosses the wire as two bits, "is the user of the mount" and "is the
group of the mount", and is sent with every request. What the calls of the
server leave of the attributes that were not requested is settled here for
every request and every file.
-/

import Wsfs.Protocol.Struct
import Wsfs.Unix.Errno
import Wsfs.Unix.Mode
import Wsfs.Util.Url

namespace Wsfs.Attr

open Wsfs.Base Wsfs.Protocol Wsfs.Unix Wsfs.Util

structure FsIds where
  uid : UInt32
  gid : UInt32
  otherUid : UInt32
  otherGid : UInt32
deriving DecidableEq, Repr

/-! ### The file and the system calls -/

/-- Attributes of a file that is not a symlink. `mode` has no file type bits. -/
structure FileAttr where
  uid : UInt32
  gid : UInt32
  dir : Bool
  mode : UInt32
  untyped : mode &&& permMask = mode
  size : UInt64
  mtime : Timespec
deriving DecidableEq

/-- What the kernel decides on its own: which calls it refuses, and the time
that a truncation may leave behind. -/
structure Kernel where
  truncate : Option Errno
  utimens : Option Errno
  chmod : Option Errno
  chown : Option Errno
  truncated : Option Timespec

/-- A system call on one file: the file after it, and its error. -/
abbrev Call := FileAttr → FileAttr × Option Errno

namespace Call

def skip : Call := fun file => (file, none)

def fail (errno : Errno) : Call := fun file => (file, some errno)

def andThen (first second : Call) : Call := fun file =>
  match first file with
  | (after, some errno) => (after, some errno)
  | (after, none) => second after

def onFlag (flag mask : UInt8) (call : Call) : Call :=
  if flag &&& mask ≠ 0 then call else skip

/-- A call that the kernel may refuse, and that otherwise only updates the file. -/
def refusable (refusal : Option Errno) (update : FileAttr → FileAttr) : Call := fun file =>
  match refusal with
  | some errno => (file, some errno)
  | none => (update file, none)

variable {file after : FileAttr}

theorem andThen_eq_none {first second : Call} :
    first.andThen second file = (after, none) ↔
      ∃ middle, first file = (middle, none) ∧ second middle = (after, none) := by
  unfold andThen
  constructor
  · intro success
    cases taken : first file with
    | mk middle error =>
      rw [taken] at success
      cases error with
      | some errno => cases success
      | none => exact ⟨middle, rfl, success⟩
  · rintro ⟨middle, taken, success⟩
    rw [taken]
    exact success

theorem refusable_eq_none {refusal : Option Errno} {update : FileAttr → FileAttr}
    (success : refusable refusal update file = (after, none)) : after = update file := by
  unfold refusable at success
  cases refusal with
  | some errno => cases success
  | none => cases success; rfl

end Call

/-- The id that leaves the owner or the group as it is: `(uid_t)-1`. -/
def unchangedId : UInt32 := 0xFFFFFFFF

theorem permMask_idem (mode : UInt32) : mode &&& permMask &&& permMask = mode &&& permMask := by
  apply bit_ext
  intro index _
  simp only [bit_and, Bool.and_assoc, Bool.and_self]

def FileAttr.chmod (mode : UInt32) (file : FileAttr) : FileAttr :=
  { file with mode := mode &&& permMask, untyped := permMask_idem mode }

/-- `chown` of anything but a directory also clears setuid and setgid. -/
def FileAttr.chown (uid gid : UInt32) (file : FileAttr) : FileAttr :=
  { file with
    uid := if uid = unchangedId then file.uid else uid
    gid := if gid = unchangedId then file.gid else gid
    mode := if file.dir then file.mode else file.mode &&& ~~~specialMask
    untyped := by
      split
      · exact file.untyped
      · rw [UInt32.and_assoc, UInt32.and_comm (~~~specialMask), ← UInt32.and_assoc, file.untyped] }

def FileAttr.truncate (length : Int64) (touched : Option Timespec) (file : FileAttr) : FileAttr :=
  { file with size := length.toUInt64, mtime := touched.getD file.mtime }

namespace Kernel

def callTruncate (kernel : Kernel) (length : Int64) : Call :=
  if length < 0 then Call.fail .einval
  else Call.refusable kernel.truncate (FileAttr.truncate length kernel.truncated)

def callUtimens (kernel : Kernel) (mtime : Timespec) : Call :=
  Call.refusable kernel.utimens fun file => { file with mtime := mtime }

def callChmod (kernel : Kernel) (mode : UInt32) : Call :=
  Call.refusable kernel.chmod (FileAttr.chmod mode)

def callChown (kernel : Kernel) (uid gid : UInt32) : Call :=
  Call.refusable kernel.chown (FileAttr.chown uid gid)

end Kernel

/-! ### Server -/

inductive Reply
  | ok
  | error (code : UInt8) (desc : String)
deriving DecidableEq, Repr

def Reply.code : Reply → UInt8
  | .ok => errorOK
  | .error code _ => code

structure CmdSetAttrStruct where
  path : Bytes
  flag : UInt8
  fi : FileInfo

structure CmdSetAttrByFDStruct where
  fd : UInt32
  flag : UInt8
  fi : FileInfo

def validNsec (nsec : Int64) : Bool := decide (0 ≤ nsec) && decide (nsec < 1000000000)

/-- `SetPathMTime` and, through the descriptor's path in `/proc`, `SetFDMTime` of
64-bit Linux. -/
def setMTime (kernel : Kernel) (ts : Timespec) : Call :=
  if !validNsec ts.nanoseconds then Call.fail .einval else kernel.callUtimens ts

def applySetAttr (kernel : Kernel) (ids : FsIds) (flag : UInt8) (fi : FileInfo) : Call :=
  ((Call.onFlag flag setattrSize (kernel.callTruncate fi.size.toInt64)).andThen
    (Call.onFlag flag setattrMtime (setMTime kernel fi.mtime))).andThen
  ((Call.onFlag flag setattrMode (kernel.callChmod (syscallMode fi.mode))).andThen
    (Call.onFlag flag setattrOwner
      (kernel.callChown
        (if fi.owner &&& ownerUN ≠ 0 then ids.uid else ids.otherUid)
        (if fi.owner &&& ownerNG ≠ 0 then ids.gid else ids.otherGid))))

def answer (call : Call) (file : FileAttr) : FileAttr × Reply :=
  match call file with
  | (after, some errno) => (after, .error (Server.wsfsErrCode errno) "syscall error")
  | (after, none) => (after, .ok)

def cmdSetAttr (kernel : Kernel) (ids : FsIds) (req : CmdSetAttrStruct) (file : FileAttr) :
    FileAttr × Reply :=
  if !isUrlValid req.path then (file, .error errorInvalid "bad path")
  else answer (applySetAttr kernel ids req.flag req.fi) file

/-- `fds` tells which descriptors the session has open. -/
def cmdSetAttrByFD (kernel : Kernel) (ids : FsIds) (fds : UInt32 → Bool)
    (req : CmdSetAttrByFDStruct) (file : FileAttr) : FileAttr × Reply :=
  if !fds req.fd then (file, .error errorInvalidFD "bad fd")
  else answer (applySetAttr kernel ids req.flag req.fi) file

def convOwner (ids : FsIds) (file : FileAttr) : UInt8 :=
  (if file.uid = ids.uid then 1 else 0) + (if file.gid = ids.gid then 2 else 0)

/-- `os.FileMode` of a file that is not a symlink. -/
def FileAttr.goMode (file : FileAttr) : UInt32 :=
  let mode := file.mode &&& 0o777
  let mode := if file.dir then mode ||| modeDir else mode
  let mode := carryBit file.mode sIsgid modeSetgid mode
  let mode := carryBit file.mode sIsuid modeSetuid mode
  carryBit file.mode sIsvtx modeSticky mode

def makeWSFSFileInfo (ids : FsIds) (file : FileAttr) : FileInfo where
  size := file.size
  mtime := file.mtime
  mode := file.goMode
  owner := convOwner ids file

/-! ### Client -/

/-- A `time.Time` as `Unix` and `Nanosecond` show it. -/
structure Time where
  seconds : Int64
  nanosecond : Int64
  valid : validNsec nanosecond = true

def Time.timespec (time : Time) : Timespec := ⟨time.seconds, time.nanosecond⟩

/-- `fuse.SetAttrIn`: what `GetMode`, `GetUID` and so on report as present. -/
structure SetAttrIn where
  mode : Option UInt32
  uid : Option UInt32
  gid : Option UInt32
  mtime : Option Time
  size : Option UInt64

/-- User and group that `attrFromFileInfo` shows. An owner byte outside the four
values leaves the zero value of the attribute. -/
def attrOwner (fi : FileInfo) (ids : FsIds) : UInt32 × UInt32 :=
  if fi.owner = ownerNN then (ids.otherUid, ids.otherGid)
  else if fi.owner = ownerNG then (ids.otherUid, ids.gid)
  else if fi.owner = ownerUN then (ids.uid, ids.otherGid)
  else if fi.owner = ownerUG then (ids.uid, ids.gid)
  else (0, 0)

/-- `Getattr`: the cached attribute while it has not expired, else the answer of
`CmdGetAttr`. -/
def getattr (ids : FsIds) (cache : Option FileInfo) (fetched : FileInfo × UInt8) :
    Except (Option Errno) (UInt32 × UInt32) :=
  match cache with
  | some fi => .ok (attrOwner fi ids)
  | none =>
      if fetched.2 ≠ errorOK then .error (Client.errnoFromCode fetched.2)
      else .ok (attrOwner fetched.1 ids)

def requestFlag (input : SetAttrIn) : UInt8 :=
  let flag := if input.mode.isSome then 0 ||| setattrMode else 0
  let flag := flag ||| setattrOwner
  let flag := if input.mtime.isSome then flag ||| setattrMtime else flag
  if input.size.isSome then flag ||| setattrSize else flag

def requestOwner (ids : FsIds) (orig : UInt32 × UInt32) (input : SetAttrIn) : UInt8 :=
  let owner := match input.uid with
    | some uid => if uid = ids.uid then 0 + 1 else 0
    | none => if orig.1 = ids.uid then 0 + 1 else 0
  match input.gid with
  | some gid => if gid = ids.gid then owner + 2 else owner
  | none => if orig.2 = ids.gid then owner + 2 else owner

def requestFi (ids : FsIds) (orig : UInt32 × UInt32) (input : SetAttrIn) : FileInfo where
  size := match input.size with
    | some size => size
    | none => 0
  mtime := match input.mtime with
    | some mtime => mtime.timespec
    | none => ⟨0, 0⟩
  mode := match input.mode with
    | some mode => wsfsFileModeFromFuseMode mode
    | none => 0
  owner := requestOwner ids orig input

/-- One mounted node and the server behind it. `handle` is the file handle of the
request, if it has one. -/
structure Node where
  clientIds : FsIds
  serverIds : FsIds
  cache : Option FileInfo
  fetched : FileInfo × UInt8
  handle : Option UInt32
  path : Bytes
  fds : UInt32 → Bool
  kernel : Kernel

/-- The handler that `Setattr` reaches: by descriptor if the request has a handle. -/
def Node.serve (node : Node) (flag : UInt8) (fi : FileInfo) (file : FileAttr) : FileAttr × Reply :=
  match node.handle with
  | some fd => cmdSetAttrByFD node.kernel node.serverIds node.fds ⟨fd, flag, fi⟩ file
  | none => cmdSetAttr node.kernel node.serverIds ⟨node.path, flag, fi⟩ file

/-- `fsNode.Setattr` on the file that the handle or the path names. No error is
`fusefs.OK`. -/
def setattr (node : Node) (input : SetAttrIn) (file : FileAttr) : FileAttr × Option Errno :=
  match getattr node.clientIds node.cache node.fetched with
  | .error errno => (file, errno)
  | .ok orig =>
      let served := node.serve (requestFlag input) (requestFi node.clientIds orig input) file
      (served.1, Client.errnoFromCode served.2.code)

/-! ### What a successful request has done -/

section Success

variable {node : Node} {input : SetAttrIn} {file after : FileAttr} {call : Call} {flag : UInt8}

theorem answer_ok (ok : (answer call file).2.code = errorOK) :
    call file = ((answer call file).1, none) := by
  unfold answer at ok ⊢
  cases taken : call file with
  | mk after error =>
    rw [taken] at ok
    cases error with
    | none => rfl
    | some errno => exact absurd ok (Server.wsfsErrCode_ne_errorOK errno)

theorem serve_ok {fi : FileInfo} (ok : (node.serve flag fi file).2.code = errorOK) :
    applySetAttr node.kernel node.serverIds flag fi file = ((node.serve flag fi file).1, none) := by
  unfold Node.serve at ok ⊢
  cases handle : node.handle with
  | some fd =>
    simp only [handle, cmdSetAttrByFD] at ok ⊢
    split at ok
    · cases ok
    · rename_i known
      rw [if_neg known]
      exact answer_ok ok
  | none =>
    simp only [handle, cmdSetAttr] at ok ⊢
    split at ok
    · cases ok
    · rename_i accepted
      rw [if_neg accepted]
      exact answer_ok ok

variable {ids : FsIds} {kernel : Kernel} {orig : UInt32 × UInt32}

theorem getattr_error {cache : Option FileInfo} {fetched : FileInfo × UInt8} {errno : Option Errno}
    (failed : getattr ids cache fetched = .error errno) : errno ≠ none := by
  unfold getattr at failed
  cases cache with
  | some fi => cases failed
  | none =>
    simp only at failed
    split at failed
    · rename_i code
      cases failed
      exact fun success => code (Client.errnoFromCode_eq_none.mp success)
    · cases failed

theorem setattr_success (success : setattr node input file = (after, none)) :
    ∃ orig, getattr node.clientIds node.cache node.fetched = .ok orig ∧
      applySetAttr node.kernel node.serverIds (requestFlag input)
        (requestFi node.clientIds orig input) file = (after, none) := by
  unfold setattr at success
  cases shown : getattr node.clientIds node.cache node.fetched with
  | error errno =>
    rw [shown] at success
    exact absurd (congrArg Prod.snd success) (getattr_error shown)
  | ok orig =>
    rw [shown] at success
    obtain ⟨rfl, code⟩ := Prod.mk.inj success
    exact ⟨orig, rfl, serve_ok (Client.errnoFromCode_eq_none.mp code)⟩

/-! The flag byte and the owner byte say what was requested; the owner is flagged
whether it was requested or not. -/

theorem requestFlag_bits (input : SetAttrIn) :
    (requestFlag input &&& setattrSize ≠ 0 ↔ input.size.isSome) ∧
      (requestFlag input &&& setattrMtime ≠ 0 ↔ input.mtime.isSome) ∧
      (requestFlag input &&& setattrMode ≠ 0 ↔ input.mode.isSome) ∧
      requestFlag input &&& setattrOwner ≠ 0 := by
  unfold requestFlag
  cases input.mode.isSome <;> cases input.mtime.isSome <;> cases input.size.isSome <;> decide

theorem requestOwner_uid (ids : FsIds) (orig : UInt32 × UInt32) (input : SetAttrIn) :
    requestOwner ids orig input &&& ownerUN ≠ 0 ↔ input.uid.getD orig.1 = ids.uid := by
  unfold requestOwner
  cases input.uid <;> cases input.gid <;> simp only [Option.getD] <;>
    split_ifs <;> simp_all <;> decide

theorem requestOwner_gid (ids : FsIds) (orig : UInt32 × UInt32) (input : SetAttrIn) :
    requestOwner ids orig input &&& ownerNG ≠ 0 ↔ input.gid.getD orig.2 = ids.gid := by
  unfold requestOwner
  cases input.uid <;> cases input.gid <;> simp only [Option.getD] <;>
    split_ifs <;> simp_all <;> decide

/-! The four updates, as the request has them. -/

theorem onFlag_passed {α : Type} {mask : UInt8} {present : Option α}
    (flagged : flag &&& mask ≠ 0 ↔ present.isSome)
    (passed : Call.onFlag flag mask call file = (after, none)) :
    present = none ∧ after = file ∨ ∃ value, present = some value ∧ call file = (after, none) := by
  unfold Call.onFlag at passed
  cases present with
  | none =>
    rw [if_neg (by simp [flagged])] at passed
    cases passed
    exact .inl ⟨rfl, rfl⟩
  | some value =>
    rw [if_pos (flagged.mpr rfl)] at passed
    exact .inr ⟨value, rfl, passed⟩

theorem sizeUpdate (passed : Call.onFlag (requestFlag input) setattrSize
      (kernel.callTruncate (requestFi ids orig input).size.toInt64) file = (after, none)) :
    after = match input.size with
      | some size => file.truncate size.toInt64 kernel.truncated
      | none => file := by
  rcases onFlag_passed (requestFlag_bits input).1 passed with ⟨absent, rfl⟩ | ⟨size, present, called⟩
  · rw [absent]
  · simp only [requestFi, present, Kernel.callTruncate] at called ⊢
    split at called
    · cases called
    · exact Call.refusable_eq_none called

theorem mtimeUpdate (passed : Call.onFlag (requestFlag input) setattrMtime
      (setMTime kernel (requestFi ids orig input).mtime) file = (after, none)) :
    after = match input.mtime with
      | some time => { file with mtime := time.timespec }
      | none => file := by
  rcases onFlag_passed (requestFlag_bits input).2.1 passed with ⟨absent, rfl⟩ | ⟨time, present, called⟩
  · rw [absent]
  · simp only [requestFi, present, setMTime] at called ⊢
    split at called
    · cases called
    · exact Call.refusable_eq_none called

theorem modeUpdate (passed : Call.onFlag (requestFlag input) setattrMode
      (kernel.callChmod (syscallMode (requestFi ids orig input).mode)) file = (after, none)) :
    after = match input.mode with
      | some mode => file.chmod mode
      | none => file := by
  rcases onFlag_passed (requestFlag_bits input).2.2.1 passed with
    ⟨absent, rfl⟩ | ⟨mode, present, called⟩
  · rw [absent]
  · simp only [requestFi, present, syscallMode_fromFuse] at called ⊢
    have updated := Call.refusable_eq_none called
    simpa only [FileAttr.chmod, permMask_idem] using updated

/-- The mode that the request asks for, or the one the file has. -/
def wantedMode (input : SetAttrIn) (file : FileAttr) : UInt32 :=
  match input.mode with
  | some mode => mode &&& permMask
  | none => file.mode

def wantedMtime (kernel : Kernel) (input : SetAttrIn) (file : FileAttr) : Timespec :=
  match input.mtime with
  | some time => time.timespec
  | none => if input.size.isSome then kernel.truncated.getD file.mtime else file.mtime

/-- The user that reaches `chown`. -/
def sentUid (node : Node) (orig : UInt32 × UInt32) (input : SetAttrIn) : UInt32 :=
  if input.uid.getD orig.1 = node.clientIds.uid then node.serverIds.uid
  else node.serverIds.otherUid

def sentGid (node : Node) (orig : UInt32 × UInt32) (input : SetAttrIn) : UInt32 :=
  if input.gid.getD orig.2 = node.clientIds.gid then node.serverIds.gid
  else node.serverIds.otherGid

theorem applySetAttr_passed (passed : applySetAttr node.kernel node.serverIds (requestFlag input)
      (requestFi node.clientIds orig input) file = (after, none)) :
    after.uid = (if sentUid node orig input = unchangedId then file.uid
        else sentUid node orig input) ∧
      after.gid = (if sentGid node orig input = unchangedId then file.gid
        else sentGid node orig input) ∧
      after.mode = (if file.dir then wantedMode input file
        else wantedMode input file &&& ~~~specialMask) ∧
      after.size = input.size.getD file.size ∧
      after.mtime = wantedMtime node.kernel input file := by
  obtain ⟨timed, early, late⟩ := Call.andThen_eq_none.mp passed
  obtain ⟨sized, bySize, byMtime⟩ := Call.andThen_eq_none.mp early
  obtain ⟨moded, byMode, byOwner⟩ := Call.andThen_eq_none.mp late
  have fromSize := sizeUpdate bySize
  have fromMtime := mtimeUpdate byMtime
  have fromMode := modeUpdate byMode
  have fromOwner : after = moded.chown (sentUid node orig input) (sentGid node orig input) := by
    rw [Call.onFlag, if_pos (requestFlag_bits input).2.2.2] at byOwner
    simpa only [requestFi, requestOwner_uid, requestOwner_gid, sentUid, sentGid] using
      Call.refusable_eq_none byOwner
  clear passed early late bySize byMtime byMode byOwner
  subst fromOwner fromMode fromMtime fromSize
  unfold wantedMode wantedMtime
  cases input.size <;> cases input.mtime <;> cases input.mode <;>
    simp [FileAttr.chown, FileAttr.chmod, FileAttr.truncate] <;> rfl

end Success

/-! ### Attributes that were not requested -/

/-- What a successful request should leave behind: requested values where there
are some, previous ones elsewhere. A set size may move the time. -/
structure Frame (input : SetAttrIn) (file after : FileAttr) : Prop where
  uid : input.uid = none → after.uid = file.uid
  gid : input.gid = none → after.gid = file.gid
  mode : after.mode = wantedMode input file
  size : after.size = input.size.getD file.size
  mtime : ∀ time, input.mtime = some time → after.mtime = time.timespec
  mtimeKept : input.mtime = none → input.size = none → after.mtime = file.mtime

def Keeps (sent current : UInt32) : Prop := sent = unchangedId ∨ sent = current

/-- The owner bits name the owner that the file has, and no setuid or setgid bit
is left for `chown` to clear. -/
structure Preserving (node : Node) (input : SetAttrIn) (file : FileAttr) : Prop where
  uid : ∀ orig, getattr node.clientIds node.cache node.fetched = .ok orig → input.uid = none →
    Keeps (sentUid node orig input) file.uid
  gid : ∀ orig, getattr node.clientIds node.cache node.fetched = .ok orig → input.gid = none →
    Keeps (sentGid node orig input) file.gid
  special : file.dir = false → wantedMode input file &&& specialMask = 0

theorem ite_unchanged_eq_iff (sent current : UInt32) :
    (if sent = unchangedId then current else sent) = current ↔ Keeps sent current := by
  unfold Keeps
  split
  · rename_i unchanged
    exact ⟨fun _ => .inl unchanged, fun _ => rfl⟩
  · rename_i changed
    exact ⟨.inr, fun kept => kept.resolve_left changed⟩

/-- A successful request leaves the other attributes alone exactly when it is
preserving. -/
theorem setattr_frame_iff (node : Node) (input : SetAttrIn) (file after : FileAttr)
    (success : setattr node input file = (after, none)) :
    Frame input file after ↔ Preserving node input file := by
  obtain ⟨orig, shown, passed⟩ := setattr_success success
  obtain ⟨uid, gid, mode, size, mtime⟩ := applySetAttr_passed passed
  constructor
  · intro frame
    refine ⟨?_, ?_, ?_⟩
    · intro other otherShown absent
      cases shown.symm.trans otherShown
      rw [← ite_unchanged_eq_iff, ← uid]
      exact frame.uid absent
    · intro other otherShown absent
      cases shown.symm.trans otherShown
      rw [← ite_unchanged_eq_iff, ← gid]
      exact frame.gid absent
    · intro plain
      rw [plain, frame.mode] at mode
      exact (and_not_eq_self _ _).mp mode.symm
  · intro preserving
    refine ⟨?_, ?_, ?_, size, ?_, ?_⟩
    · intro absent
      rw [uid, ite_unchanged_eq_iff]
      exact preserving.uid orig shown absent
    · intro absent
      rw [gid, ite_unchanged_eq_iff]
      exact preserving.gid orig shown absent
    · cases dir : file.dir with
      | true => rw [mode, dir, if_pos rfl]
      | false =>
        rw [mode, dir, if_neg Bool.false_ne_true]
        exact (and_not_eq_self _ _).mpr (preserving.special dir)
    · intro time requested
      rw [mtime, wantedMtime, requested]
    · intro notRequested sizeKept
      rw [mtime, wantedMtime, notRequested, sizeKept]
      rfl

private def plainRequest : SetAttrIn := ⟨some 0o644, none, none, none, none⟩

private def ownFile : FileAttr := ⟨1000, 1000, false, 0o600, by decide, 5, ⟨7, 0⟩⟩

private def rootServer (fetched : FileInfo × UInt8) : Node where
  clientIds := ⟨501, 501, 99, 99⟩
  serverIds := ⟨1000, 1000, 65534, 65534⟩
  cache := none
  fetched := fetched
  handle := none
  path := [slash]
  fds := fun _ => false
  kernel := ⟨none, none, none, none, none⟩

/-- A change of the mode of the mount user's own file keeps its owner. -/
theorem setattr_frame_iff_own_file :
    let node := rootServer (makeWSFSFileInfo ⟨1000, 1000, 65534, 65534⟩ ownFile, errorOK)
    let after := (setattr node plainRequest ownFile).1
    setattr node plainRequest ownFile = (after, none) ∧
      (Frame plainRequest ownFile after ↔ Preserving node plainRequest ownFile) := by
  have success : setattr
      (rootServer (makeWSFSFileInfo ⟨1000, 1000, 65534, 65534⟩ ownFile, errorOK))
      plainRequest ownFile =
      ((setattr (rootServer (makeWSFSFileInfo ⟨1000, 1000, 65534, 65534⟩ ownFile, errorOK))
        plainRequest ownFile).1, none) := by decide
  exact ⟨success, setattr_frame_iff _ _ _ _ success⟩

private def othersFile : FileAttr := ⟨0, 0, false, 0o600, by decide, 5, ⟨7, 0⟩⟩

private def setuidFile : FileAttr := ⟨1000, 1000, false, 0o4755, by decide, 5, ⟨7, 0⟩⟩

private def touchRequest : SetAttrIn := ⟨none, none, none, some ⟨8, 0, by decide⟩, none⟩

/-- A change of the mode alone hands a file of root to nobody, and a change of the
time alone takes the setuid bit away. -/
theorem setattr_changes_owner_and_setuid :
    (∃ node after, setattr node plainRequest othersFile = (after, none) ∧
        plainRequest.uid = none ∧ after.uid ≠ othersFile.uid) ∧
      ∃ node after, setattr node touchRequest setuidFile = (after, none) ∧
        touchRequest.mode = none ∧ after.mode ≠ setuidFile.mode := by
  let ids : FsIds := ⟨1000, 1000, 65534, 65534⟩
  let first := rootServer (makeWSFSFileInfo ids othersFile, errorOK)
  let second := rootServer (makeWSFSFileInfo ids setuidFile, errorOK)
  exact ⟨⟨first, (setattr first plainRequest othersFile).1, by decide⟩,
    ⟨second, (setattr second touchRequest setuidFile).1, by decide⟩⟩

end Wsfs.Attr
