/-
How long the messages are that a client session sends. A command is its mark, its code
and its struct as the generated writer writes it; the server reads no message that is
longer than `MaxCommandLength`, and a string that no length prefix has room for ends the
connection of the sender. Methods that split their data send what fits. Methods with paths
send them whatever their length.
-/

import Wsfs.Client.Balance
import Wsfs.Protocol.Declarations

namespace Wsfs.Client

open Wsfs.Base Wsfs.Protocol
open Wsfs.Protocol.Gen (StructName Value Typed Scalar structGo structLeaves sizeAll)

/-! ### Structs as values -/

def u8 (number : UInt8) : Value := .int number.toNat
def u32 (number : UInt32) : Value := .int number.toNat
def u64 (number : UInt64) : Value := .int number.toNat
def i64 (number : Int64) : Value := .int number.toInt

def timespecValue (time : Timespec) : Value := .record [i64 time.seconds, i64 time.nanoseconds]

def fileInfoValue (fi : FileInfo) : Value :=
  .record [u64 fi.size, timespecValue fi.mtime, u32 fi.mode, u8 fi.owner]

def fileLockValue (fileLock : FileLockInfo) : Value :=
  .record [u8 fileLock.type, u8 fileLock.whence, u64 fileLock.start, u64 fileLock.size]

namespace CommandStruct

def name : CommandStruct → StructName
  | cmdOpen _ _ _ => .cmdOpenStruct
  | cmdClose _ => .cmdCloseStruct
  | cmdRead _ _ => .cmdReadStruct
  | cmdReadDir _ => .cmdReadDirStruct
  | cmdReadLink _ => .cmdReadLinkStruct
  | cmdWrite _ _ => .cmdWriteStruct
  | cmdSeek _ _ _ => .cmdSeekStruct
  | cmdAllocate _ _ _ _ => .cmdAllocateStruct
  | cmdGetAttr _ => .cmdGetAttrStruct
  | cmdSetAttr _ _ _ => .cmdSetAttrStruct
  | cmdSync _ => .cmdSyncStruct
  | cmdMkdir _ _ => .cmdMkdirStruct
  | cmdSymLink _ _ => .cmdSymLinkStruct
  | cmdRemove _ => .cmdRemoveStruct
  | cmdRmDir _ => .cmdRmDirStruct
  | cmdFsStat _ => .cmdFsStatStruct
  | cmdReadAt _ _ _ => .cmdReadAtStruct
  | cmdWriteAt _ _ _ => .cmdWriteAtStruct
  | cmdRename _ _ _ => .cmdRenameStruct
  | cmdCopyFileRange _ _ _ _ _ => .cmdCopyFileRangeStruct
  | cmdCloneFileRange _ _ _ _ _ => .cmdCloneFileRangeStruct
  | cmdSetAttrByFD _ _ _ => .cmdSetAttrByFDStruct
  | cmdReadDirPlus _ => .cmdReadDirPlusStruct
  | cmdWriteStreamOpen _ _ _ => .cmdWriteStreamOpenStruct
  | cmdWriteStreamData _ _ => .cmdWriteStreamDataStruct
  | cmdGetFileLock _ _ => .cmdGetFileLockStruct
  | cmdSetFileLock _ _ => .cmdSetFileLockStruct
  | cmdSetFileLockWait _ _ => .cmdSetFileLockWaitStruct
  | cmdSetXAttr _ _ _ _ => .cmdSetXAttrStruct
  | cmdGetXAttr _ _ _ => .cmdGetXAttrStruct
  | cmdListXAttr _ _ => .cmdListXAttrStruct
  | cmdRemoveXAttr _ _ _ => .cmdRemoveXAttrStruct

def value : CommandStruct → Value
  | cmdOpen path oFlag fMode => .record [.blob path, u32 oFlag, u32 fMode]
  | cmdClose fd => .record [u32 fd]
  | cmdRead fd size => .record [u32 fd, u64 size]
  | cmdReadDir path => .record [.blob path]
  | cmdReadLink path => .record [.blob path]
  | cmdWrite fd data => .record [u32 fd, .blob data]
  | cmdSeek fd whence offset => .record [u32 fd, u8 whence, i64 offset]
  | cmdAllocate fd flag offset size => .record [u32 fd, u32 flag, u64 offset, u64 size]
  | cmdGetAttr path => .record [.blob path]
  | cmdSetAttr path flag fi => .record [.blob path, u8 flag, fileInfoValue fi]
  | cmdSync fd => .record [u32 fd]
  | cmdMkdir path mode => .record [.blob path, u32 mode]
  | cmdSymLink targetPath filePath => .record [.blob targetPath, .blob filePath]
  | cmdRemove path => .record [.blob path]
  | cmdRmDir path => .record [.blob path]
  | cmdFsStat path => .record [.blob path]
  | cmdReadAt fd offset size => .record [u32 fd, u64 offset, u64 size]
  | cmdWriteAt fd offset data => .record [u32 fd, u64 offset, .blob data]
  | cmdRename oldPath newPath flag => .record [.blob oldPath, .blob newPath, u32 flag]
  | cmdCopyFileRange srcFD dstFD srcOffset dstOffset size =>
      .record [u32 srcFD, u32 dstFD, u64 srcOffset, u64 dstOffset, u64 size]
  | cmdCloneFileRange srcFD dstFD srcOffset dstOffset size =>
      .record [u32 srcFD, u32 dstFD, u64 srcOffset, u64 dstOffset, u64 size]
  | cmdSetAttrByFD fd flag fi => .record [u32 fd, u8 flag, fileInfoValue fi]
  | cmdReadDirPlus path => .record [.blob path]
  | cmdWriteStreamOpen fd offset data => .record [u32 fd, u64 offset, .blob data]
  | cmdWriteStreamData isEnd data => .record [u8 isEnd, .blob data]
  | cmdGetFileLock fd fileLock => .record [u32 fd, fileLockValue fileLock]
  | cmdSetFileLock fd fileLock => .record [u32 fd, fileLockValue fileLock]
  | cmdSetFileLockWait fd fileLock => .record [u32 fd, fileLockValue fileLock]
  | cmdSetXAttr path flag key value => .record [.blob path, u32 flag, .blob key, .blob value]
  | cmdGetXAttr path key mode => .record [.blob path, .blob key, u32 mode]
  | cmdListXAttr path mode => .record [.blob path, u32 mode]
  | cmdRemoveXAttr path key mode => .record [.blob path, .blob key, u32 mode]

/-- The length of the struct, string by string and with its fixed fields together. -/
def size : CommandStruct → Nat
  | cmdOpen path _ _ => 2 + path.length + 8
  | cmdClose _ => 4
  | cmdRead _ _ => 12
  | cmdReadDir path => 2 + path.length
  | cmdReadLink path => 2 + path.length
  | cmdWrite _ data => 4 + data.length
  | cmdSeek _ _ _ => 13
  | cmdAllocate _ _ _ _ => 24
  | cmdGetAttr path => 2 + path.length
  | cmdSetAttr path _ _ => 2 + path.length + 30
  | cmdSync _ => 4
  | cmdMkdir path _ => 2 + path.length + 4
  | cmdSymLink targetPath filePath => 2 + targetPath.length + (2 + filePath.length)
  | cmdRemove path => 2 + path.length
  | cmdRmDir path => 2 + path.length
  | cmdFsStat path => 2 + path.length
  | cmdReadAt _ _ _ => 20
  | cmdWriteAt _ _ data => 4 + (8 + data.length)
  | cmdRename oldPath newPath _ => 2 + oldPath.length + (2 + newPath.length + 4)
  | cmdCopyFileRange _ _ _ _ _ => 32
  | cmdCloneFileRange _ _ _ _ _ => 32
  | cmdSetAttrByFD _ _ _ => 34
  | cmdReadDirPlus path => 2 + path.length
  | cmdWriteStreamOpen _ _ data => 4 + (8 + data.length)
  | cmdWriteStreamData _ data => 1 + data.length
  | cmdGetFileLock _ _ => 22
  | cmdSetFileLock _ _ => 22
  | cmdSetFileLockWait _ _ => 22
  | cmdSetXAttr path _ key value => 2 + path.length + (4 + (2 + key.length + value.length))
  | cmdGetXAttr path key _ => 2 + path.length + (2 + key.length + 4)
  | cmdListXAttr path _ => 2 + path.length + 4
  | cmdRemoveXAttr path key _ => 2 + path.length + (2 + key.length + 4)

end CommandStruct

open CommandStruct (size)

variable {allowed : Bytes → Prop} {path : Bytes}

theorem typed_u8 (number : UInt8) : Typed structGo allowed (.scalar .uint8) (u8 number) := by
  refine .scalar ⟨Int.natCast_nonneg _, ?_⟩
  exact Int.ofNat_lt.mpr number.toNat_lt

theorem typed_u32 (number : UInt32) : Typed structGo allowed (.scalar .uint32) (u32 number) := by
  refine .scalar ⟨Int.natCast_nonneg _, ?_⟩
  exact Int.ofNat_lt.mpr number.toNat_lt

theorem typed_u64 (number : UInt64) : Typed structGo allowed (.scalar .uint64) (u64 number) := by
  refine .scalar ⟨Int.natCast_nonneg _, ?_⟩
  exact Int.ofNat_lt.mpr number.toNat_lt

theorem typed_i64 (number : Int64) : Typed structGo allowed (.scalar .int64) (i64 number) := by
  have lower := number.le_toInt
  have upper := number.toInt_lt
  refine .scalar ?_
  change -(2 ^ 64 : Int) ≤ 2 * number.toInt ∧ 2 * number.toInt < 2 ^ 64
  omega

theorem typed_fileInfo (fi : FileInfo) : Typed structGo allowed (.other .fileInfo) (fileInfoValue fi) :=
  .struct (Gen.mem_structGo _) (.cons (typed_u64 _) (.cons
    (.struct (Gen.mem_structGo _) (.cons (typed_i64 _) (.cons (typed_i64 _) .nil)))
    (.cons (typed_u32 _) (.cons (typed_u8 _) .nil))))

theorem typed_fileLock (fileLock : FileLockInfo) :
    Typed structGo allowed (.other .fileLockInfo) (fileLockValue fileLock) :=
  .struct (Gen.mem_structGo _) (.cons (typed_u8 _) (.cons (typed_u8 _) (.cons (typed_u64 _)
    (.cons (typed_u64 _) .nil))))

theorem CommandStruct.typed (body : CommandStruct) :
    Typed structGo (fun _ => True) (.other body.name) body.value := by
  cases body
  all_goals
    refine .struct (Gen.mem_structGo _) ?_
    repeat' first
      | exact List.Forall₂.nil
      | exact typed_u8 _
      | exact typed_u32 _
      | exact typed_u64 _
      | exact typed_i64 _
      | exact typed_fileInfo _
      | exact typed_fileLock _
      | exact Typed.string trivial
      | exact Typed.bytes
      | apply List.Forall₂.cons

theorem CommandStruct.sizeAll_eq (body : CommandStruct) :
    sizeAll (structLeaves structGo structGo.names.length body.name) body.value.leaves = body.size := by
  cases body <;> rfl

/-! ### Messages -/

/-- The struct is written, and with the two bytes of the header it is a message that the
server reads. -/
def Fits (unsafeMode : Bool) (body : CommandStruct) : Prop :=
  ∃ bytes, Gen.writeStruct unsafeMode body.name body.value = .ok bytes ∧
    2 + bytes.length ≤ maxCommandLength

theorem fits_iff (unsafeMode : Bool) (body : CommandStruct) :
    Fits unsafeMode body ↔ 2 + body.size ≤ maxCommandLength := by
  have fits := Gen.writeStruct_fits unsafeMode body.typed (maxCommandLength - 2) (by decide)
  rw [body.sizeAll_eq] at fits
  have large : 2 ≤ maxCommandLength := by decide
  constructor
  · rintro ⟨bytes, isWritten, short⟩
    have room := fits.mp ⟨bytes, isWritten, by omega⟩
    omega
  · intro short
    obtain ⟨bytes, isWritten, room⟩ := fits.mpr (by omega)
    exact ⟨bytes, isWritten, by omega⟩

/-! ### What a method sends -/

variable {α β σ : Type}

/-- The program writes this command and no other. -/
structure Sends (body : CommandStruct) (prog : Call α) : Prop where
  may : prog.MayCall (.writeStruct body)
  only : ∀ other, prog.MayCall (.writeStruct other) → other = body

variable {cmd : UInt8} {body : CommandStruct} {key : Bytes}

theorem sends_exchange {refused unwritten : α} {received : Mark → Call α} {post : Hold → α → Prop}
    (handles : Handles (Eq body) .free (exchange cmd body refused unwritten received) post) :
    Sends body (exchange cmd body refused unwritten received) where
  may := .inr ⟨some 0, .inr ⟨true, .inl rfl⟩⟩
  only := fun other mayCall => (handles.writes _ mayCall other rfl).symm

theorem Sends.map {prog : Call α} (sends : Sends body prog) (f : α → β) :
    Sends body (f <$> prog) where
  may := sends.may.bind _
  only := fun other mayCall => by
    cases Prog.mayCall_bind mayCall with
    | inl here => exact sends.only other here
    | inr later => exact later.elim fun _ ⟨_, _, nothing⟩ => nothing.elim

theorem sends_codeRequest (cmd : UInt8) (body : CommandStruct) : Sends body (codeRequest cmd body) :=
  sends_exchange (codeRequest_balanced cmd rfl)

theorem sends_valueRequest (cmd : UInt8) (body : CommandStruct) (codec : Codec α) (zero : α)
    (unwritten : UInt8) : Sends body (valueRequest cmd body codec zero unwritten) :=
  sends_exchange (valueRequest_balanced cmd rfl codec zero unwritten)

theorem sends_read (fd : UInt32) (dest : Bytes) :
    Sends (.cmdRead fd (UInt64.ofNat dest.length)) (cmdRead fd dest) :=
  sends_exchange (balanced_exchange rfl fun clientMark => receiveInto_releases clientMark dest)

theorem sends_readAt (fd : UInt32) (offset : UInt64) (dest : Bytes) :
    Sends (.cmdReadAt fd offset (UInt64.ofNat dest.length)) (cmdReadAt fd offset dest) :=
  sends_exchange (balanced_exchange rfl fun clientMark => receiveInto_releases clientMark dest)

theorem sends_readDir (path : Bytes) : Sends (.cmdReadDir path) (cmdReadDir path) :=
  sends_exchange (cmdReadDir_balanced rfl)

theorem sends_readDirPlus (path : Bytes) : Sends (.cmdReadDirPlus path) (cmdReadDirPlus path) := by
  have listed : Handles (Eq (.cmdReadDirPlus path)) .free (cmdReadDirPlus path) fun _ _ => True := by
    refine handles_exchange rfl trivial trivial fun _ => handles_loop fun parser => handles_receive fun rsp => ?_
    dsimp only
    split
    · exact holding_pure trivial
    · exact holding_pure rfl
    · exact handles_halt nofun
  exact sends_exchange listed

/-! ### Methods that split -/

section Split

variable {unsafeMode : Bool}

theorem Slice.bytes_length (slice : Slice) : slice.bytes.length = slice.length := by
  rw [bytes, List.length_take_of_le slice.fits]

theorem cmdWrite_fits (fd : UInt32) (depth : Nat) (data : Slice) :
    Writes (Fits unsafeMode) (cmdWrite fd depth data) := by
  refine (cmdWrite_balanced (fun data small => ?_) depth data).writes
  rw [fits_iff, size, data.bytes_length]
  unfold maxWritePayload maxMsgSize at small
  unfold maxCommandLength maxMsgSize
  omega

theorem pieces_fit : AllowsPieces (Fits unsafeMode) := by
  intro isEnd data small
  rw [fits_iff, size]
  unfold maxWriteStreamDataPayload maxMsgSize at small
  unfold maxCommandLength maxMsgSize
  omega

theorem streamOpen_fits (unsafeMode : Bool) (fd : UInt32) (offset : UInt64) (first : Bytes) :
    Fits unsafeMode (.cmdWriteStreamOpen fd offset (first.take maxWriteStreamOpenPayload)) := by
  have small := List.length_take_le maxWriteStreamOpenPayload first
  rw [fits_iff, size]
  unfold maxWriteStreamOpenPayload maxMsgSize at small
  unfold maxCommandLength maxWriteStreamOpenPayload maxMsgSize
  omega

theorem cmdWriteAt_fits (fd : UInt32) (offset : UInt64) (data : Bytes) :
    Writes (Fits unsafeMode) (cmdWriteAt fd offset data) := by
  refine (cmdWriteAt_balanced pieces_fit (fun small => ?_) (streamOpen_fits unsafeMode fd offset data)).writes
  rw [fits_iff, size]
  unfold maxWriteAtPayload maxMsgSize at small
  unfold maxCommandLength maxMsgSize
  omega

theorem cmdCopyFileRange_fits (wfd1 wfd2 : UInt32) (off1 off2 size : UInt64) :
    Writes (Fits unsafeMode) (cmdCopyFileRange wfd1 wfd2 off1 off2 size) := by
  refine (cmdCopyFileRange_balanced (fun _ _ _ => ?_) off1 off2 size).writes
  rw [fits_iff, CommandStruct.size]
  decide

end Split

/-! ### Extended attributes -/

/-- What `validateXAttr` lets pass. -/
def Session.Accepts (s : Session) (key : Bytes) (mode : UInt32) (isSet : Bool) : Prop :=
  key ≠ [] ∧ 0 ∉ key ∧ s.allows key = true ∧
    if isSet then
      mode &&& ~~~xattrNofollow ∈ [setxattrNormal, setxattrAppend, setxattrCreate, setxattrReplace]
    else mode &&& ~~~xattrNofollow = 0

theorem Session.validateXAttr_eq_ok {s : Session} {mode : UInt32} {isSet : Bool} :
    s.validateXAttr key mode isSet = errorOK ↔ s.Accepts key mode isSet := by
  unfold validateXAttr Accepts
  by_cases badKey : key = [] ∨ 0 ∈ key
  · rw [if_pos badKey]
    constructor
    · intro same
      exact absurd same (by decide)
    · rintro ⟨nonempty, noZero, _⟩
      exact (badKey.elim nonempty noZero).elim
  · rw [if_neg badKey]
    rw [not_or] at badKey
    cases isSet <;> cases isAllowed : s.allows key <;>
      simp only [badKey.1, badKey.2, ne_eq, not_false_eq_true, true_and, false_and, if_true, if_false,
        Bool.false_eq_true, iff_false]
    all_goals
      split
      · simp_all [errorOK, errorStateBlocked]
      · simp_all [errorOK, errorInvalid]

theorem setXAttrFits_iff {value : Bytes} :
    setXAttrFits path key value = true ↔ path.length + key.length + value.length + 10 ≤ maxCommandLength := by
  rw [setXAttrFits, decide_eq_true_eq, getCmdSetXAttrStructRequiredSize]
  omega

theorem searchChunkSize_fits (fits : Nat → Bool) (fuel low high : Nat)
    (initially : fits low = true) : fits (searchChunkSize fits fuel low high) = true := by
  induction fuel generalizing low high with
  | zero => exact initially
  | succ fuel ih =>
    rw [searchChunkSize]
    split
    · dsimp only
      split
      · exact ih _ high ‹_›
      · exact ih low _ initially
    · exact initially

theorem chunk_fits (value : Bytes) (some_ : maxXAttrChunkSize path key ≠ 0) :
    path.length + key.length + (value.take (maxXAttrChunkSize path key)).length + 10 ≤
      maxCommandLength := by
  have short := List.length_take_le (maxXAttrChunkSize path key) value
  unfold maxXAttrChunkSize at short some_ ⊢
  split at some_
  · rename_i fits
    rw [if_pos fits] at short ⊢
    have largest := searchChunkSize_fits
      (fun size => setXAttrFits path key (List.replicate size 0)) maxCommandLength 0 maxCommandLength fits
    rw [setXAttrFits_iff, List.length_replicate] at largest
    omega
  · exact absurd rfl some_

section XAttr

variable {unsafeMode : Bool} {path key : Bytes}

theorem xattr_fits (small : path.length + key.length + 10 ≤ maxCommandLength) :
    AllowsXAttr (Fits unsafeMode) path key where
  get _ := by
    rw [fits_iff, size]
    omega
  remove _ := by
    rw [fits_iff, size]
    omega
  whole _ _ fits := by
    have wholeFits := setXAttrFits_iff.mp fits
    rw [fits_iff, size]
    omega
  chunk _ value room := by
    have chunkFits := chunk_fits value room
    rw [fits_iff, size]
    omega

variable {s : Session} {mode : UInt32}

theorem sends_getXAttr (accepts : s.Accepts key mode false) :
    Sends (.cmdGetXAttr path key mode) (s.cmdGetXAttr path key mode) := by
  have handles : Balanced (Eq (.cmdGetXAttr path key mode)) (s.cmdGetXAttr path key mode) :=
    s.cmdGetXAttr_balanced rfl
  rw [Session.cmdGetXAttr, if_neg (not_not.mpr (Session.validateXAttr_eq_ok.mpr accepts))] at handles ⊢
  exact sends_exchange handles

theorem sends_removeXAttr (accepts : s.Accepts key mode false) :
    Sends (.cmdRemoveXAttr path key mode) (s.cmdRemoveXAttr path key mode) := by
  rw [Session.cmdRemoveXAttr, if_neg (not_not.mpr (Session.validateXAttr_eq_ok.mpr accepts))]
  exact sends_codeRequest _ _

end XAttr

/-! ### Every method -/

/-- The calls that send commands, with the code where they return one. -/
inductive Sending
  | method (method : Method)
  | openWriteStream (fd : UInt32) (offset : UInt64) (first : Bytes)
  | streamWrite (ws : WriteStream) (data : Bytes)
  | streamClose (ws : WriteStream) (last : Bytes)

namespace Sending

def call (s : Session) (depth : Nat) : Sending → Call (Option UInt8)
  | method called => some <$> called.call s depth
  | openWriteStream fd offset first => (fun _ => none) <$> Client.openWriteStream fd offset first
  | streamWrite ws data => (fun _ => none) <$> ws.write data
  | streamClose ws last => (fun result => some result.2.2.1) <$> ws.close last

end Sending

namespace Method

def single (s : Session) : Method → Option CommandStruct
  | cmdReadDirPlus path => some (.cmdReadDirPlus path)
  | cmdOpen path oflag fmode => some (.cmdOpen path oflag fmode)
  | cmdClose fd => some (.cmdClose fd)
  | cmdRead fd dest => some (.cmdRead fd (UInt64.ofNat dest.length))
  | cmdReadDir path => some (.cmdReadDir path)
  | cmdReadLink lpath => some (.cmdReadLink lpath)
  | cmdWrite _ _ => none
  | cmdSeek fd whence off => some (.cmdSeek fd whence off)
  | cmdAllocate fd flag off size => some (.cmdAllocate fd flag off size)
  | cmdGetAttr fpath => some (.cmdGetAttr fpath)
  | cmdSetAttr fpath flag fi => some (.cmdSetAttr fpath flag fi)
  | cmdSync fd => some (.cmdSync fd)
  | cmdMkdir fpath mode => some (.cmdMkdir fpath mode)
  | cmdSymLink target fpath => some (.cmdSymLink target fpath)
  | cmdRemove fpath => some (.cmdRemove fpath)
  | cmdRmDir fpath => some (.cmdRmDir fpath)
  | cmdFsStat fpath => some (.cmdFsStat fpath)
  | cmdReadAt fd offset dest => some (.cmdReadAt fd offset (UInt64.ofNat dest.length))
  | cmdWriteAt _ _ _ => none
  | cmdRename old new mode => some (.cmdRename old new mode)
  | cmdCopyFileRange _ _ _ _ _ => none
  | cmdCloneFileRange wfd1 wfd2 off1 off2 size => some (.cmdCloneFileRange wfd1 wfd2 off1 off2 size)
  | cmdGetFileLock fd fileLock => some (.cmdGetFileLock fd fileLock)
  | cmdSetFileLock fd fileLock => some (.cmdSetFileLock fd fileLock)
  | cmdSetFileLockWait fd fileLock => some (.cmdSetFileLockWait fd fileLock)
  | cmdSetAttrByFD wfd flag fi => some (.cmdSetAttrByFD wfd flag fi)
  | cmdSetXAttr path key value mode =>
      if s.autoXAttrAppend then none else some (.cmdSetXAttr path mode key value)
  | cmdGetXAttr path key mode => some (.cmdGetXAttr path key mode)
  | cmdListXAttr path mode => some (.cmdListXAttr path mode)
  | cmdRemoveXAttr path key mode => some (.cmdRemoveXAttr path key mode)

/-- The attribute methods return at once if they do not accept their arguments. -/
def Accepted (s : Session) : Method → Prop
  | cmdSetXAttr _ key _ mode => s.Accepts key mode true
  | cmdGetXAttr _ key mode => s.Accepts key mode false
  | cmdListXAttr path mode => Util.isUrlValid path = true ∧ mode &&& ~~~xattrNofollow = 0
  | cmdRemoveXAttr _ key mode => s.Accepts key mode false
  | _ => True

def Room (s : Session) : Method → Prop
  | cmdReadDirPlus path => path.length + 4 ≤ maxCommandLength
  | cmdOpen path _ _ => path.length + 12 ≤ maxCommandLength
  | cmdReadDir path => path.length + 4 ≤ maxCommandLength
  | cmdReadLink lpath => lpath.length + 4 ≤ maxCommandLength
  | cmdGetAttr fpath => fpath.length + 4 ≤ maxCommandLength
  | cmdSetAttr fpath _ _ => fpath.length + 34 ≤ maxCommandLength
  | cmdMkdir fpath _ => fpath.length + 8 ≤ maxCommandLength
  | cmdSymLink target fpath => target.length + fpath.length + 6 ≤ maxCommandLength
  | cmdRemove fpath => fpath.length + 4 ≤ maxCommandLength
  | cmdRmDir fpath => fpath.length + 4 ≤ maxCommandLength
  | cmdFsStat fpath => fpath.length + 4 ≤ maxCommandLength
  | cmdRename old new _ => old.length + new.length + 10 ≤ maxCommandLength
  | cmdSetXAttr path key _ _ =>
      s.autoXAttrAppend = true → path.length + key.length + 10 ≤ maxCommandLength
  | cmdGetXAttr path key _ => path.length + key.length + 10 ≤ maxCommandLength
  | cmdListXAttr path _ => path.length + 8 ≤ maxCommandLength
  | cmdRemoveXAttr path key _ => path.length + key.length + 10 ≤ maxCommandLength
  | _ => True

end Method

namespace Sending

def single (s : Session) : Sending → Option CommandStruct
  | method called => called.single s
  | _ => none

def Room (s : Session) : Sending → Prop
  | method called => called.Accepted s → called.Room s
  | _ => True

end Sending

/-- Nothing is sent that does not fit, and a command that does not fit is an error of the
call that sends nothing. -/
structure Bounded (unsafeMode : Bool) (single : Option CommandStruct) (call : Call (Option UInt8)) :
    Prop where
  fits : ∀ body, call.MayCall (.writeStruct body) → Fits unsafeMode body
  refused : ∀ body, single = some body → ¬Fits unsafeMode body →
    (∀ other, ¬call.MayCall (.writeStruct other)) ∧
      ∀ trace code, call.Runs trace code → code ≠ some errorOK

section Bounded

variable {unsafeMode : Bool} {call : Call (Option UInt8)} {body : CommandStruct} {room : Prop}

theorem bounded_single (sends : Sends body call) (isRoom : room ↔ 2 + body.size ≤ maxCommandLength) :
    Bounded unsafeMode (some body) call ↔ room := by
  rw [isRoom, ← fits_iff unsafeMode]
  constructor
  · intro bounded
    exact bounded.fits body sends.may
  · intro fits
    constructor
    · intro other mayCall
      rw [sends.only other mayCall]
      exact fits
    · intro other same tooLong
      cases same
      exact absurd fits tooLong

theorem bounded_split (writes : Writes (Fits unsafeMode) call) : Bounded unsafeMode none call where
  fits := fun body mayCall => writes _ mayCall body rfl
  refused := nofun

theorem bounded_refused {single : Option CommandStruct} {code : UInt8} (failed : code ≠ errorOK) :
    Bounded unsafeMode single (pure (some code)) where
  fits := fun _ mayCall => mayCall.elim
  refused := fun _ _ _ => by
    refine ⟨fun _ mayCall => mayCall.elim, ?_⟩
    rintro trace _ ⟨_, rfl⟩ same
    exact failed (Option.some.inj same)

theorem Session.Accepts.get {s : Session} {key : Bytes} {mode : UInt32}
    (accepts : s.Accepts key mode true) : s.Accepts key (mode &&& xattrNofollow) false := by
  obtain ⟨nonempty, noZero, allowed, _⟩ := accepts
  refine ⟨nonempty, noZero, allowed, ?_⟩
  change mode &&& xattrNofollow &&& ~~~xattrNofollow = 0
  rw [UInt32.and_assoc, UInt32.and_not_self, UInt32.and_zero]

/-- An attribute that has to be split is looked up first, by a command that does not split. -/
theorem bounded_setXAttr (s : Session) (path key value : Bytes) (mode : UInt32) :
    Bounded unsafeMode ((Method.cmdSetXAttr path key value mode).single s)
        (some <$> s.cmdSetXAttr path key value mode) ↔
      (s.Accepts key mode true → s.autoXAttrAppend = true →
        path.length + key.length + 10 ≤ maxCommandLength) := by
  by_cases accepts : s.Accepts key mode true
  · have isOk := Session.validateXAttr_eq_ok.mpr accepts
    by_cases fits : setXAttrFits path key value = true
    · have small := setXAttrFits_iff.mp fits
      have bodyFits : Fits unsafeMode (.cmdSetXAttr path mode key value) := by
        rw [fits_iff, size]
        omega
      have call : s.cmdSetXAttr path key value mode = sendSetXAttr path key value mode := by
        rw [Session.cmdSetXAttr, if_neg (not_not.mpr isOk), if_pos fits]
      refine ⟨fun _ _ _ => by omega, fun _ => ⟨?_, ?_⟩⟩
      · rw [call]
        intro body mayCall
        rw [((sends_codeRequest _ _).map some).only body mayCall]
        exact bodyFits
      · intro body same tooLong
        rw [Method.single] at same
        split at same
        · cases same
        · cases same
          exact absurd bodyFits tooLong
    · by_cases auto : s.autoXAttrAppend = true
      · rw [Method.single, if_pos auto]
        constructor
        · intro bounded _ _
          have mayCall : (some <$> s.cmdSetXAttr path key value mode).MayCall
              (.writeStruct (.cmdGetXAttr path key (mode &&& xattrNofollow))) := by
            rw [Session.cmdSetXAttr, if_neg (not_not.mpr isOk), if_neg fits,
              if_neg (by rw [auto]; decide)]
            exact ((sends_getXAttr accepts.get).may.bind _).bind _
          have lookupFits := bounded.fits _ mayCall
          rw [fits_iff, size] at lookupFits
          omega
        · intro small
          exact bounded_split (only_map some (s.cmdSetXAttr_balanced (xattr_fits (small accepts auto)) value mode).writes)
      · have call : s.cmdSetXAttr path key value mode = pure errorRange := by
          rw [Session.cmdSetXAttr, if_neg (not_not.mpr isOk), if_neg fits,
            if_pos (by rw [Bool.not_eq_true] at auto; rw [auto]; decide)]
        rw [call]
        exact ⟨fun _ _ isAuto => absurd isAuto auto, fun _ => bounded_refused (by decide)⟩
  · have failed : s.validateXAttr key mode true ≠ errorOK :=
      fun ok => accepts (Session.validateXAttr_eq_ok.mp ok)
    rw [Session.cmdSetXAttr, if_pos failed]
    exact ⟨fun _ isAccepted => absurd isAccepted accepts, fun _ => bounded_refused failed⟩

theorem bounded_guarded {accepted : Prop} (whenAccepted : accepted → Sends body call)
    (isRoom : room ↔ 2 + body.size ≤ maxCommandLength)
    (whenRefused : ¬accepted → ∃ code, code ≠ errorOK ∧ call = pure (some code)) :
    Bounded unsafeMode (some body) call ↔ (accepted → room) := by
  by_cases isAccepted : accepted
  · rw [bounded_single (whenAccepted isAccepted) isRoom]
    exact ⟨fun isRoom _ => isRoom, fun isRoom => isRoom isAccepted⟩
  · obtain ⟨code, failed, rfl⟩ := whenRefused isAccepted
    exact ⟨fun _ isIn => absurd isIn isAccepted, fun _ => bounded_refused failed⟩

theorem bounded_getXAttr (s : Session) (path key : Bytes) (mode : UInt32) :
    Bounded unsafeMode (some (.cmdGetXAttr path key mode))
        (some <$> Prod.snd <$> s.cmdGetXAttr path key mode) ↔
      (s.Accepts key mode false → path.length + key.length + 10 ≤ maxCommandLength) := by
  refine bounded_guarded (fun accepted => ((sends_getXAttr accepted).map _).map _)
    (by rw [size]; omega) fun refused => ?_
  have failed : s.validateXAttr key mode false ≠ errorOK :=
    fun ok => refused (Session.validateXAttr_eq_ok.mp ok)
  refine ⟨_, failed, ?_⟩
  rw [Session.cmdGetXAttr, if_pos failed]
  rfl

theorem bounded_removeXAttr (s : Session) (path key : Bytes) (mode : UInt32) :
    Bounded unsafeMode (some (.cmdRemoveXAttr path key mode))
        (some <$> s.cmdRemoveXAttr path key mode) ↔
      (s.Accepts key mode false → path.length + key.length + 10 ≤ maxCommandLength) := by
  refine bounded_guarded (fun accepted => (sends_removeXAttr accepted).map _)
    (by rw [size]; omega) fun refused => ?_
  have failed : s.validateXAttr key mode false ≠ errorOK :=
    fun ok => refused (Session.validateXAttr_eq_ok.mp ok)
  refine ⟨_, failed, ?_⟩
  rw [Session.cmdRemoveXAttr, if_pos failed]
  rfl

theorem bounded_plain (sends : Sends body call) (isRoom : room ↔ 2 + body.size ≤ maxCommandLength) :
    Bounded unsafeMode (some body) call ↔ (True → room) :=
  bounded_guarded (fun _ => sends) isRoom fun refused => (refused trivial).elim

theorem bounded_code {cmd : UInt8} (isRoom : room ↔ 2 + body.size ≤ maxCommandLength) :
    Bounded unsafeMode (some body) (some <$> codeRequest cmd body) ↔ (True → room) :=
  bounded_plain ((sends_codeRequest cmd body).map some) isRoom

theorem bounded_value {α : Type} {cmd : UInt8} {codec : Codec α} {zero : α} {unwritten : UInt8}
    (isRoom : room ↔ 2 + body.size ≤ maxCommandLength) :
    Bounded unsafeMode (some body)
      (some <$> Prod.snd <$> valueRequest cmd body codec zero unwritten) ↔ (True → room) :=
  bounded_plain (((sends_valueRequest cmd body codec zero unwritten).map _).map some) isRoom

theorem bounded_listXAttr (s : Session) (path : Bytes) (mode : UInt32) :
    Bounded unsafeMode (some (.cmdListXAttr path mode)) (some <$> Prod.snd <$> s.cmdListXAttr path mode) ↔
      (Util.isUrlValid path = true ∧ mode &&& ~~~xattrNofollow = 0 →
        path.length + 8 ≤ maxCommandLength) := by
  refine bounded_guarded (fun accepted => ?_) (by rw [size]; omega) fun refused => ?_
  · have passes : ¬((!Util.isUrlValid path) = true ∨ mode &&& ~~~xattrNofollow ≠ 0) := by
      rw [accepted.1, accepted.2]
      decide
    have handles : Balanced (Eq (.cmdListXAttr path mode)) (s.cmdListXAttr path mode) :=
      s.cmdListXAttr_balanced rfl
    rw [Session.cmdListXAttr, if_neg passes] at handles ⊢
    exact ((sends_exchange handles).map _).map _
  · have stops : (!Util.isUrlValid path) = true ∨ mode &&& ~~~xattrNofollow ≠ 0 := by
      by_cases valid : Util.isUrlValid path = true
      · exact .inr fun clear => refused ⟨valid, clear⟩
      · rw [Bool.not_eq_true] at valid
        rw [valid]
        exact .inl rfl
    refine ⟨errorInvalid, by decide, ?_⟩
    rw [Session.cmdListXAttr, if_pos stops]
    rfl

end Bounded

/-- A method stays below the limit if and only if its paths and keys leave room for the
rest of its command; the calls that split their data always do. -/
theorem bounded_iff_room (unsafeMode : Bool) (s : Session) (depth : Nat) (sending : Sending) :
    Bounded unsafeMode (sending.single s) (sending.call s depth) ↔ sending.Room s := by
  cases sending with
  | openWriteStream fd offset first =>
    have opens := streamOpen_fits unsafeMode fd offset first
    exact iff_of_true (bounded_split (only_map _ (openWriteStream_handles pieces_fit opens).writes)) trivial
  | streamWrite ws data =>
    exact iff_of_true (bounded_split (only_map _ (ws.write_handles pieces_fit data).writes)) trivial
  | streamClose ws last =>
    exact iff_of_true (bounded_split (only_map _ (ws.close_handles pieces_fit last).writes)) trivial
  | method called =>
    cases called with
    | cmdWrite fd data =>
      exact iff_of_true (bounded_split (only_map _ (only_map _ (cmdWrite_fits fd depth data))))
        fun _ => trivial
    | cmdWriteAt fd offset data =>
      exact iff_of_true (bounded_split (only_map _ (only_map _ (cmdWriteAt_fits fd offset data))))
        fun _ => trivial
    | cmdCopyFileRange wfd1 wfd2 off1 off2 size =>
      exact iff_of_true (bounded_split (only_map _ (only_map _
        (cmdCopyFileRange_fits wfd1 wfd2 off1 off2 size)))) fun _ => trivial
    | cmdSetXAttr path key value mode => exact bounded_setXAttr s path key value mode
    | cmdListXAttr path mode => exact bounded_listXAttr s path mode
    | cmdGetXAttr path key mode => exact bounded_getXAttr s path key mode
    | cmdRemoveXAttr path key mode => exact bounded_removeXAttr s path key mode
    | cmdClose _ | cmdAllocate _ _ _ _ | cmdSync _ | cmdCloneFileRange _ _ _ _ _ | cmdSetFileLock _ _
    | cmdSetFileLockWait _ _ | cmdSetAttrByFD _ _ _ =>
      exact bounded_code (iff_of_true trivial (by rw [size]; decide))
    | cmdSeek _ _ _ | cmdGetFileLock _ _ =>
      exact bounded_value (iff_of_true trivial (by rw [size]; decide))
    | cmdSetAttr _ _ _ | cmdMkdir _ _ | cmdSymLink _ _ | cmdRemove _ | cmdRmDir _ | cmdRename _ _ _ =>
      exact bounded_code (by rw [Method.Room, size]; omega)
    | cmdOpen _ _ _ | cmdReadLink _ | cmdGetAttr _ | cmdFsStat _ =>
      exact bounded_value (by rw [Method.Room, size]; omega)
    | cmdReadDirPlus path =>
      exact bounded_plain (((sends_readDirPlus path).map _).map some)
        (by rw [Method.Room, size]; omega)
    | cmdReadDir path =>
      exact bounded_plain (((sends_readDir path).map _).map some)
        (by rw [Method.Room, size]; omega)
    | cmdRead fd dest =>
      exact bounded_plain (((sends_read fd dest).map _).map some)
        (iff_of_true trivial (by rw [size]; decide))
    | cmdReadAt fd offset dest =>
      exact bounded_plain (((sends_readAt fd offset dest).map _).map some)
        (iff_of_true trivial (by rw [size]; decide))

private theorem write_getAttr (path : Bytes) :
    Gen.writeStruct false .cmdGetAttrStruct (CommandStruct.cmdGetAttr path).value = do
      let written ← Gen.writeStrToWriter path
      return written ++ [] :=
  Gen.writeStruct_flat false (CommandStruct.cmdGetAttr path).typed

/-- A path of 8189 bytes makes a message that the server does not read, and one of 65536
bytes a struct that cannot be written, which ends the connection. -/
theorem long_path_sent :
    (∃ path : Bytes, path.length = 8189 ∧
      ((Sending.method (.cmdGetAttr path)).call ⟨[], false⟩ 0).MayCall
        (.writeStruct (.cmdGetAttr path)) ∧
      ∃ bytes, Gen.writeStruct false .cmdGetAttrStruct (CommandStruct.cmdGetAttr path).value =
          .ok bytes ∧ maxCommandLength < 2 + bytes.length) ∧
    (∃ path : Bytes, path.length = 65536 ∧
      ((Sending.method (.cmdGetAttr path)).call ⟨[], false⟩ 0).MayCall
        (.writeStruct (.cmdGetAttr path)) ∧
      Gen.writeStruct false .cmdGetAttrStruct (CommandStruct.cmdGetAttr path).value =
        .error .tooLong) := by
  refine ⟨⟨List.replicate 8189 97, List.length_replicate, ?_, ?_⟩,
    ⟨List.replicate 65536 97, List.length_replicate, ?_, ?_⟩⟩
  · exact (((sends_valueRequest _ _ _ _ _).map _).map some).may
  · rw [write_getAttr, Gen.writeStrToWriter, List.length_replicate, if_neg (by decide)]
    refine ⟨_, rfl, ?_⟩
    rw [List.length_append, List.length_append, leBytes_length, List.length_replicate]
    decide
  · exact (((sends_valueRequest _ _ _ _ _).map _).map some).may
  · rw [write_getAttr, Gen.writeStrToWriter, List.length_replicate, if_pos (by decide)]
    rfl

end Wsfs.Client
