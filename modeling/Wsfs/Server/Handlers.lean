/-
The handlers keep to the rules of their mark, whatever they are asked and however their
calls are answered. `cmdReadLink` needs a kernel that limits the lengths of paths: the
target that it returns is the path of the link with the text of the link behind it.
-/

import Wsfs.Server.Replies

namespace Wsfs.Server.Commands

open Wsfs.Base Wsfs.Protocol Wsfs.Unix Wsfs.Util
open Wsfs.ReadDir.Server (Stat ReadError DirEntry osErrCode bufferWrite room maxPrefetchDirs)

/-! ### Handlers of descriptors and names -/

section Handlers

variable {limit : Option Nat} {clientMark : UInt8} (s : Session) {oFlag : UInt32}
  {refusal : UInt8 × String} {path rsp : Bytes}

theorem addOpenFlag_error {s : Session} {oflag flag : UInt32}
    (refused : s.addOpenFlag oFlag oflag flag = .error refusal) : refusal.1 = errorNotSupport := by
  unfold Session.addOpenFlag at refused
  split at refused
  · cases refused
  · split at refused
    · split at refused
      · cases refused
        rfl
      · cases refused
    · cases refused

theorem addOpenFlags_error {s : Session} {flags : List UInt32} {start : UInt32}
    (refused : flags.foldlM (s.addOpenFlag oFlag) start = .error refusal) :
    refusal.1 = errorNotSupport := by
  induction flags generalizing start with
  | nil => cases refused
  | cons flag rest ih =>
    rw [List.foldlM_cons] at refused
    cases added : s.addOpenFlag oFlag start flag with
    | error other =>
      rw [added] at refused
      cases refused
      exact addOpenFlag_error added
    | ok oflag =>
      rw [added] at refused
      exact ih refused

theorem openFlags_error {s : Session} (refused : s.openFlags oFlag = .error refusal) :
    refusal.1 ≠ errorPartialResponse := by
  simp only [Session.openFlags] at refused
  split at refused
  · cases refused
    decide
  · rw [addOpenFlags_error refused]
    decide

theorem cmdOpen_concludes (path : Bytes) (oFlag fMode : UInt32) :
    Concludes limit clientMark (s.cmdOpen clientMark path oFlag fMode) := by
  apply concludes_withPath
  intro _
  cases flags : s.openFlags oFlag with
  | error refusal => exact concludes_error _ (openFlags_error flags)
  | ok oflag =>
    apply (keeps_ignoringEINTR (interruptible_open _ _ _)).concludes
    intro result _
    cases result with
    | error err => exact concludes_error _ (wsfsErrCode_final err)
    | ok sfd =>
      apply leads_perform
      intro wfd _
      exact concludes_respond (fits_u32 wfd)

theorem cmdClose_concludes (fd : UInt32) : Concludes limit clientMark (cmdClose clientMark fd) := by
  apply concludes_withFD
  intro sfd
  apply leads_perform
  intro _ _
  exact concludes_sys concludes_answer

theorem cmdSeek_concludes (fd : UInt32) (whence : UInt8) (offset : Int64) :
    Concludes limit clientMark (s.cmdSeek clientMark fd whence offset) := by
  apply concludes_withFD
  intro sfd
  cases s.platform.whenceToUnix whence with
  | none => exact concludes_error _ (by decide)
  | some whence =>
    apply leads_perform
    intro result _
    exact concludes_answerWith (fun _ => fits_u64 _) result

theorem cmdWrite_concludes (fd : UInt32) (data : Bytes) :
    Concludes limit clientMark (cmdWrite clientMark fd data) := by
  apply concludes_withFD
  intro sfd
  apply (keeps_ignoringEINTR (interruptible_write _ _)).concludes
  intro result _
  exact concludes_answerWith (fun _ => fits_u64 _) result

theorem cmdWriteAt_concludes (fd : UInt32) (offset : UInt64) (data : Bytes) :
    Concludes limit clientMark (cmdWriteAt clientMark fd offset data) := by
  apply concludes_withFD
  intro sfd
  apply (keeps_ignoringEINTR (interruptible_pwrite _ _ _)).concludes
  intro result _
  exact concludes_answerWith (fun _ => fits_u64 _) result

theorem cmdCopyFileRange_concludes (srcFD dstFD : UInt32) (srcOffset dstOffset size : UInt64) :
    Concludes limit clientMark
      (cmdCopyFileRange clientMark srcFD dstFD srcOffset dstOffset size) := by
  apply leads_ite
  · intro _
    exact concludes_error _ (by decide)
  · intro _
    apply concludes_withFD
    intro sfd1
    apply concludes_withFD
    intro sfd2
    apply leads_perform
    intro result _
    exact concludes_answerWith (fun _ => fits_u64 _) result

theorem cmdCloneFileRange_concludes (srcFD dstFD : UInt32) (srcOffset dstOffset size : UInt64) :
    Concludes limit clientMark
      (cmdCloneFileRange clientMark srcFD dstFD srcOffset dstOffset size) := by
  apply concludes_withFD
  intro sfd1
  apply concludes_withFD
  intro sfd2
  exact concludes_sys concludes_answer

theorem cmdGetFileLock_concludes (fd : UInt32) (fileLock : FileLockInfo) :
    Concludes limit clientMark (cmdGetFileLock clientMark fd fileLock) := by
  apply concludes_withFD
  intro sfd
  apply leads_perform
  intro result _
  exact concludes_answerWith fits_fileLock result

theorem cmdSetFileLockCommon_concludes (fd : UInt32) (lock : FileLockInfo) (blocking : Bool) :
    Concludes limit clientMark (cmdSetFileLockCommon clientMark fd lock blocking) :=
  concludes_withFD fun _ => concludes_sys concludes_answer

theorem cmdAllocate_concludes (fd flag : UInt32) (offset size : UInt64) :
    Concludes limit clientMark (cmdAllocate clientMark fd flag offset size) :=
  concludes_withFD fun _ => concludes_sys concludes_answer

theorem cmdSync_concludes (fd : UInt32) : Concludes limit clientMark (cmdSync clientMark fd) :=
  concludes_withFD fun _ => concludes_sys concludes_answer

theorem cmdMkdir_concludes (path : Bytes) (mode : UInt32) :
    Concludes limit clientMark (s.cmdMkdir clientMark path mode) :=
  concludes_withPath fun _ => concludes_sys concludes_answer

theorem cmdRemove_concludes (path : Bytes) : Concludes limit clientMark (s.cmdRemove clientMark path) :=
  concludes_withPath fun _ => concludes_sys concludes_answer

theorem cmdRmDir_concludes (path : Bytes) : Concludes limit clientMark (s.cmdRmDir clientMark path) :=
  concludes_withPath fun _ => concludes_sys concludes_answer

theorem cmdSymLink_concludes (targetPath filePath : Bytes) :
    Concludes limit clientMark (s.cmdSymLink clientMark targetPath filePath) :=
  concludes_withPaths (concludes_sys concludes_answer)

theorem cmdLink_concludes (targetPath filePath : Bytes) :
    Concludes limit clientMark (s.cmdLink clientMark targetPath filePath) := by
  apply concludes_withPaths
  apply leads_ite
  · intro _
    exact concludes_error _ (by decide)
  · intro _
    exact concludes_sys concludes_answer

theorem cmdFsStat_concludes (path : Bytes) : Concludes limit clientMark (s.cmdFsStat clientMark path) := by
  apply concludes_withPath
  intro _
  apply leads_perform
  intro result _
  exact concludes_answerWith fits_fsStat result

theorem cmdRename_concludes (oldPath newPath : Bytes) (flag : UInt32) :
    Concludes limit clientMark (s.cmdRename clientMark oldPath newPath flag) := by
  apply concludes_withPaths
  apply leads_ite
  · intro _
    exact concludes_sys concludes_answer
  · intro _
    have renamed : Keeps limit clientMark
        (renameFlagged (s.storagePath ++ oldPath) (s.storagePath ++ newPath) flag) fun _ => True := by
      apply leads_perform
      intro first _
      cases first with
      | error err => exact leads_pure ⟨rfl, trivial⟩
      | ok fd1 =>
        apply leads_perform
        intro second _
        cases second with
        | error err =>
          apply leads_perform
          intro _ _
          exact leads_pure ⟨rfl, trivial⟩
        | ok fd2 =>
          apply leads_perform
          intro result _
          apply leads_perform
          intro _ _
          apply leads_perform
          intro _ _
          exact leads_pure ⟨rfl, trivial⟩
    exact renamed.concludes fun result _ => concludes_answer result

/-! ### Attributes -/

theorem sysAll_concludes (calls : List SysCall) : Concludes limit clientMark (sysAll clientMark calls) := by
  induction calls with
  | nil => exact concludes_ok
  | cons call rest ih =>
    apply concludes_sys
    intro result
    cases result with
    | error err => exact concludes_error _ (wsfsErrCode_final err)
    | ok _ => exact ih

theorem cmdSetAttr_concludes (path : Bytes) (flag : UInt8) (fi : FileInfo) :
    Concludes limit clientMark (s.cmdSetAttr clientMark path flag fi) :=
  concludes_withPath fun _ => sysAll_concludes _

theorem cmdSetAttrByFD_concludes (fd : UInt32) (flag : UInt8) (fi : FileInfo) :
    Concludes limit clientMark (s.cmdSetAttrByFD clientMark fd flag fi) :=
  concludes_withFD fun _ => sysAll_concludes _

theorem restrictingSymlink_keeps (base name : Bytes) (fi : Stat) :
    Keeps limit clientMark (s.restrictingSymlinkByFileInfo base name fi) fun _ => True := by
  apply leads_perform
  intro result _
  cases result with
  | error err => exact leads_pure ⟨rfl, trivial⟩
  | ok link =>
    apply leads_ite
    · intro _
      exact leads_pure ⟨rfl, trivial⟩
    · intro _
      exact leads_call fun _ _ => ⟨rfl, trivial⟩

theorem getAttr_keeps (apath : Bytes) : Keeps limit clientMark (s.getAttr apath) fun _ => True := by
  apply leads_perform
  intro result _
  cases result with
  | error err => exact leads_pure ⟨rfl, trivial⟩
  | ok fi =>
    apply leads_ite
    · intro _
      exact leads_pure ⟨rfl, trivial⟩
    · intro _
      exact restrictingSymlink_keeps s _ _ fi

theorem cmdGetAttr_concludes (path : Bytes) : Concludes limit clientMark (s.cmdGetAttr clientMark path) := by
  apply concludes_withPath
  intro _
  apply (getAttr_keeps s _).concludes
  intro result _
  cases result with
  | error err => exact concludes_error _ (osErrCode_final err)
  | ok fi => exact concludes_respond (fits_fileInfo _)

theorem concludes_withXAttr {s : Session} {key : Bytes} {next : Bytes → Handler Unit}
    (rest : ∀ apath, Concludes limit clientMark (next apath)) :
    Concludes limit clientMark (s.withXAttr clientMark path key next) := by
  apply concludes_withPath
  intro _
  apply leads_ite
  · intro _
    exact concludes_error _ (by decide)
  · intro _
    apply leads_ite
    · intro _
      exact concludes_error _ (by decide)
    · intro _
      exact rest _

theorem cmdSetXAttr_concludes (path : Bytes) (flag : UInt32) (key value : Bytes) :
    Concludes limit clientMark (s.cmdSetXAttr clientMark path flag key value) :=
  concludes_withXAttr fun _ => concludes_sys concludes_answerXAttr

theorem cmdRemoveXAttr_concludes (path key : Bytes) (mode : UInt32) :
    Concludes limit clientMark (s.cmdRemoveXAttr clientMark path key mode) :=
  concludes_withXAttr fun _ => concludes_sys concludes_answerXAttr

theorem writeXAttrData_concludes (data : Bytes) :
    Concludes limit clientMark (writeXAttrData clientMark data) := by
  apply leads_ite
  · intro _
    exact concludes_ok
  · intro _
    -- Every round sends a full message, and the rest fits into the last one.
    have chunks : Keeps limit clientMark (Prog.loop (fun data : Bytes => do
        if data.length > maxXAttrResponsePayload then
          send clientMark errorPartialResponse (data.take maxXAttrResponsePayload)
          return .inl (data.drop maxXAttrResponsePayload)
        else return .inr data) data) fun data => data.length ≤ room := by
      apply leads_countdown (fun _ phase => phase = .pending) List.length rfl
      rintro data _ rfl
      apply leads_ite
      · intro long
        apply (keeps_send (List.length_take_le _ _)).mono ?_ |> leads_bind
        rintro _ _ ⟨rfl, _⟩
        refine leads_pure ⟨rfl, ?_⟩
        have positive : 0 < maxXAttrResponsePayload := by decide
        rw [List.length_drop]
        omega
      · intro short
        exact leads_pure ⟨rfl, Nat.le_of_not_lt short⟩
    apply chunks.concludes
    intro rest fits
    exact concludes_send (by decide) fits

theorem cmdGetXAttr_concludes (path key : Bytes) (mode : UInt32) :
    Concludes limit clientMark (s.cmdGetXAttr clientMark path key mode) := by
  apply concludes_withXAttr
  intro apath
  apply leads_perform
  intro result _
  cases result with
  | error err => exact concludes_error _ (xattrErrorCode_final err)
  | ok data => exact writeXAttrData_concludes data

theorem cmdListXAttr_concludes (path : Bytes) (mode : UInt32) :
    Concludes limit clientMark (s.cmdListXAttr clientMark path mode) := by
  apply concludes_withPath
  intro _
  apply leads_perform
  intro result _
  cases result with
  | error err => exact concludes_error _ (xattrErrorCode_final err)
  | ok data =>
    dsimp only
    cases s.filterXAttrList data with
    | none => exact concludes_error _ (by decide)
    | some filtered => exact writeXAttrData_concludes filtered

/-! ### Reads -/

variable {size : Nat}

theorem sendRead_whole (short : size ≤ maxReadPayLoad) (result : Except Errno (Chunk size)) :
    Concludes limit clientMark (sendRead clientMark false result) := by
  cases result with
  | error err =>
    exact (concludes_error _ (wsfsErrCode_final err)).andReturn rfl
  | ok data =>
    exact (concludes_send (by simp; decide) (Nat.le_trans data.property short)).andReturn rfl

def FullOrLast (phase : Phase) (readed : Option Nat) : Prop :=
  phase = .pending ∧ readed = some maxReadPayLoad ∨
    phase = .concluded ∧ ∀ length, readed = some length → length < maxReadPayLoad

theorem sendRead_full (result : Except Errno (Chunk maxReadPayLoad)) :
    Leads limit clientMark .pending (sendRead clientMark true result) FullOrLast := by
  cases result with
  | error err =>
    exact (concludes_error _ (wsfsErrCode_final err)).andReturn (.inr ⟨rfl, nofun⟩)
  | ok data =>
    simp only [sendRead]
    by_cases full : data.val.length = maxReadPayLoad
    · rw [if_pos ⟨trivial, full⟩]
      apply leads_bind
      refine (keeps_send data.property).mono ?_
      rintro _ _ ⟨rfl, _⟩
      exact leads_pure (.inl ⟨rfl, congrArg some full⟩)
    · rw [if_neg fun both => full both.2]
      refine (concludes_send (by decide) data.property).andReturn (.inr ⟨rfl, ?_⟩)
      rintro _ ⟨⟩
      exact Nat.lt_of_le_of_ne data.property full

theorem readFull_leads {readAndSend : UInt64 → Handler (Option Nat)}
    (reads : ∀ off, Leads limit clientMark .pending (readAndSend off) FullOrLast) (rounds : Nat)
    (off : UInt64) :
    Leads limit clientMark .pending (readFull readAndSend rounds off) fun phase stopped =>
      phase = .pending ∧ stopped ≠ none ∨ phase = .concluded ∧ stopped = none := by
  induction rounds generalizing off with
  | zero => exact leads_pure (.inl ⟨rfl, nofun⟩)
  | succ rounds ih =>
    apply leads_bind
    refine (reads off).mono ?_
    intro phase readed outcome
    cases outcome with
    | inl full =>
      obtain ⟨rfl, rfl⟩ := full
      exact ih _
    | inr last =>
      obtain ⟨rfl, less⟩ := last
      cases readed with
      | none => exact leads_pure (.inr ⟨rfl, rfl⟩)
      | some length =>
        apply leads_ite
        · intro _
          exact leads_pure (.inr ⟨rfl, rfl⟩)
        · intro notLess
          exact absurd (less length rfl) notLess

theorem readWhole_concludes
    {readAndSend : (off : UInt64) → (size : Nat) → (isPartial : Bool) → Handler (Option Nat)}
    (full : ∀ off, Leads limit clientMark .pending (readAndSend off maxReadPayLoad true) FullOrLast)
    (whole : ∀ off size, size ≤ maxReadPayLoad →
      Concludes limit clientMark (readAndSend off size false)) (off : UInt64) :
    Concludes limit clientMark (readWhole clientMark size readAndSend off) := by
  apply leads_ite
  · intro short
    exact (whole off size (Nat.le_of_lt short)).andReturn rfl
  · intro _
    apply leads_bind
    refine (readFull_leads full _ off).mono ?_
    intro phase stopped outcome
    cases outcome with
    | inr last =>
      obtain ⟨rfl, rfl⟩ := last
      exact leads_pure rfl
    | inl more =>
      obtain ⟨rfl, goesOn⟩ := more
      cases stopped with
      | none => exact absurd rfl goesOn
      | some off =>
        apply leads_ite
        · intro _
          exact concludes_ok
        · intro _
          have below : size % maxReadPayLoad < maxReadPayLoad := Nat.mod_lt _ (by decide)
          exact (whole off _ (Nat.le_of_lt below)).andReturn rfl

theorem cmdRead_concludes (fd : UInt32) (size : UInt64) :
    Concludes limit clientMark (cmdRead clientMark fd size) := by
  apply concludes_withFD
  intro sfd
  apply readWhole_concludes
  · intro _
    apply leads_perform
    exact fun result _ => sendRead_full result
  · intro _ _ short
    apply leads_perform
    exact fun result _ => sendRead_whole short result

theorem cmdReadAt_concludes (fd : UInt32) (offset size : UInt64) :
    Concludes limit clientMark (cmdReadAt clientMark fd offset size) := by
  apply concludes_withFD
  intro sfd
  apply readWhole_concludes
  · intro _
    apply leads_perform
    exact fun result _ => sendRead_full result
  · intro _ _ short
    apply leads_perform
    exact fun result _ => sendRead_whole short result

/-! ### Directories -/

theorem bufferWrite_short {buffer : Bytes} (d : Bytes) (short : buffer.length ≤ room) :
    (bufferWrite buffer d).length ≤ room := by
  rw [bufferWrite, List.length_append, List.length_take]
  omega

theorem lookupDirent_keeps (dirBase : Bytes) (dirent : DirEntry) :
    Keeps limit clientMark (s.lookupDirent dirBase dirent) fun _ => True := by
  apply leads_perform
  intro result _
  cases result with
  | error err => exact leads_pure ⟨rfl, trivial⟩
  | ok fi =>
    apply leads_ite
    · intro _
      apply (restrictingSymlink_keeps s _ _ fi).keeps
      intro _ _
      exact leads_pure ⟨rfl, trivial⟩
    · intro _
      exact leads_pure ⟨rfl, trivial⟩

theorem lookupDirentSafe_keeps (dirBase : Bytes) (entry : DirEntry) :
    Keeps limit clientMark (s.lookupDirentSafe dirBase entry) fun _ => True := by
  apply (lookupDirent_keeps s dirBase entry).keeps
  intro result _
  cases result with
  | error err => exact leads_pure ⟨rfl, trivial⟩
  | ok wdirent => exact leads_pure ⟨rfl, trivial⟩

abbrev Fills (limit : Option Nat) (clientMark : UInt8) (prog : Handler Bytes) : Prop :=
  Keeps limit clientMark prog fun rsp => rsp.length ≤ room

variable (short : rsp.length ≤ room)
include short

theorem makeRoom_fills (requiredSize : Nat) :
    Fills limit clientMark (makeRoom clientMark rsp requiredSize) := by
  apply leads_ite
  · intro _
    exact (keeps_send short).keeps fun _ _ => leads_pure ⟨rfl, Nat.zero_le _⟩
  · intro _
    exact leads_pure ⟨rfl, short⟩

theorem writeDirent_fills (dirBase : Bytes) (dirent : DirEntry) :
    Fills limit clientMark (s.writeDirent clientMark dirBase rsp dirent) := by
  apply (lookupDirentSafe_keeps s dirBase dirent).keeps
  intro wdirent _
  apply (makeRoom_fills short _).keeps
  intro rsp fits
  exact leads_pure ⟨rfl, bufferWrite_short _ fits⟩

theorem writeDirentChunk_fills (wdirent : Dirent) :
    Fills limit clientMark (writeDirentChunk clientMark rsp wdirent) := by
  apply (makeRoom_fills short _).keeps
  intro rsp fits
  exact leads_pure ⟨rfl, bufferWrite_short _ (bufferWrite_short _ fits)⟩

theorem writePrefetchIndicator_fills (indicator : UInt8) :
    Fills limit clientMark (writePrefetchIndicator clientMark rsp indicator) := by
  apply (makeRoom_fills short _).keeps
  intro rsp fits
  exact leads_pure ⟨rfl, bufferWrite_short _ fits⟩

theorem writeRootEntry_fills (dirBase : Bytes) (entry : DirEntry) :
    Fills limit clientMark (s.writeRootEntry clientMark dirBase rsp entry) := by
  apply (lookupDirentSafe_keeps s dirBase entry).keeps
  intro wdirent _
  exact writeDirentChunk_fills short wdirent

theorem writeBatch_leads (dirBase : Bytes) (dirents : List DirEntry) (atEnd : Bool) :
    Leads limit clientMark .pending (s.writeBatch clientMark dirBase rsp dirents atEnd)
      fun phase outcome =>
        match outcome with
        | .inl rsp => (phase = .pending ∧ rsp.length ≤ room) ∧ atEnd = false
        | .inr _ => phase = .concluded := by
  have filled : Fills limit clientMark (dirents.foldlM (s.writeDirent clientMark dirBase) rsp) :=
    keeps_foldlM _ short fun rsp dirent fits => writeDirent_fills s fits dirBase dirent
  apply leads_bind
  refine filled.mono ?_
  rintro _ rsp ⟨rfl, fits⟩
  apply leads_ite
  · intro _
    exact (concludes_send (by decide) fits).andReturn rfl
  · intro goesOn
    refine leads_pure ⟨⟨rfl, fits⟩, ?_⟩
    exact Bool.eq_false_iff.mpr fun atEnd => goesOn (.inr atEnd)

omit short

theorem readDirLoop_concludes (dirBase : Bytes) (f : Nat) :
    Concludes limit clientMark (s.readDirLoop clientMark dirBase f) := by
  apply leads_batches (fun rsp phase => phase = .pending ∧ rsp.length ≤ room) ⟨rfl, Nat.zero_le _⟩
  rintro rsp _ ⟨dirents, err⟩ ⟨rfl, short⟩
  cases err with
  | none =>
    refine (writeBatch_leads s short dirBase dirents false).mono ?_
    intro phase outcome holds
    cases outcome with
    | inl rsp => exact ⟨holds.1, rfl⟩
    | inr _ => exact holds
  | some failure =>
    cases failure with
    | os err =>
      exact (concludes_error _ (osErrCode_final err)).andReturn rfl
    | eof =>
      refine (writeBatch_leads s short dirBase dirents true).mono ?_
      intro phase outcome holds
      cases outcome with
      | inl rsp => cases holds.2
      | inr _ => exact holds

theorem concludes_withDir {next : (dirBase : Bytes) → (f : Nat) → Handler Unit}
    (rest : ∀ dirBase f, Concludes limit clientMark (next dirBase f)) :
    Concludes limit clientMark (s.withDir clientMark path next) := by
  apply concludes_withPath
  intro _
  apply leads_perform
  intro result _
  cases result with
  | error err => exact concludes_error _ (osErrCode_final err)
  | ok f =>
    apply leads_bind
    refine (rest _ f).mono ?_
    rintro _ _ rfl
    apply leads_perform
    intro _ _
    exact leads_pure rfl

theorem cmdReadDir_concludes (path : Bytes) : Concludes limit clientMark (s.cmdReadDir clientMark path) :=
  concludes_withDir s fun dirBase f => readDirLoop_concludes s dirBase f

theorem preparePrefetchDir_keeps (dirBase : Bytes) (entry : DirEntry) :
    Keeps limit clientMark (preparePrefetchDir dirBase entry) fun _ => True := by
  apply leads_perform
  intro opened _
  cases opened with
  | error err => exact leads_pure ⟨rfl, trivial⟩
  | ok cf =>
    apply leads_perform
    rintro ⟨entries, err⟩ _
    cases err with
    | none => exact leads_pure ⟨rfl, trivial⟩
    | some failure =>
      cases failure with
      | eof => exact leads_pure ⟨rfl, trivial⟩
      | os err =>
        apply leads_perform
        intro _ _
        exact leads_pure ⟨rfl, trivial⟩

/-- The search leaves fewer entries, unless there is none or all directories are used. -/
theorem nextPrefetchDir_keeps (dirBase : Bytes) (first : List DirEntry) (used : Nat) :
    Keeps limit clientMark (nextPrefetchDir dirBase first used) fun found =>
      found.2.1.length ≤ first.length ∧
        (first ≠ [] ∧ used < maxPrefetchDirs ∨ (∃ state, found.1 = .ok (some state)) →
          found.2.1.length < first.length) := by
  induction first with
  | nil =>
    refine leads_pure ⟨rfl, Nat.le_refl _, ?_⟩
    rintro (⟨nonempty, _⟩ | ⟨state, nothing⟩)
    · exact absurd rfl nonempty
    · cases nothing
  | cons entry rest ih =>
    apply leads_ite
    · intro exhausted
      refine leads_pure ⟨rfl, Nat.le_refl _, ?_⟩
      rintro (⟨_, left⟩ | ⟨state, nothing⟩)
      · exact absurd left (Nat.not_lt_of_le exhausted)
      · cases nothing
    · intro _
      apply leads_ite
      · intro _
        refine ih.mono ?_
        rintro phase found ⟨pending, fewer, _⟩
        have below : found.2.1.length < (entry :: rest).length := Nat.lt_succ_of_le fewer
        exact ⟨pending, Nat.le_of_lt below, fun _ => below⟩
      · intro _
        apply (preparePrefetchDir_keeps dirBase entry).keeps
        intro state _
        exact leads_pure ⟨rfl, Nat.le_succ _, fun _ => Nat.lt_succ_self _⟩

theorem streamPending_keeps (absPath : Bytes) (pending : List DirEntry) (short : rsp.length ≤ room)
    (count : Nat) :
    Keeps limit clientMark (s.streamPending clientMark absPath pending rsp count) fun streamed =>
      streamed.1.length ≤ room := by
  induction pending generalizing rsp count with
  | nil => exact leads_pure ⟨rfl, short⟩
  | cons entry rest ih =>
    apply leads_ite
    · intro _
      exact leads_pure ⟨rfl, short⟩
    · intro _
      apply (lookupDirentSafe_keeps s absPath entry).keeps
      intro wdirent _
      apply (writeDirentChunk_fills short wdirent).keeps
      intro rsp fits
      exact ih fits (count + 1)

theorem streamLoop_keeps (state : PrefetchDirState) (short : rsp.length ≤ room) :
    Keeps limit clientMark (s.streamLoop clientMark state rsp) fun streamed =>
      streamed.1.length ≤ room := by
  apply leads_loop (fun loop phase => phase = .pending ∧ loop.2.1.length ≤ room) (fun _ => 0) ⟨rfl, short⟩
  rintro ⟨pending, rsp, count⟩ _ retries ⟨rfl, fits⟩
  apply Terms.total_bind
  refine (streamPending_keeps s state.absPath pending fits count retries).mono ?_
  rintro ⟨_, tried⟩ ⟨rsp, count, exceeded⟩ ⟨grown, rfl, fits⟩
  cases exceeded with
  | true => exact Terms.total_pure ⟨grown, rfl, fits⟩
  | false =>
    apply Terms.total_perform
    rintro ⟨entries, err⟩ _
    cases err with
    | none =>
      -- A batch without an error counts as another try.
      have more : retries < tried + 1 := Nat.lt_succ_of_le grown
      exact Terms.total_pure ⟨Nat.le_of_lt more, ⟨rfl, fits⟩, .inl more⟩
    | some failure =>
      cases failure with
      | eof | os _ => exact Terms.total_pure ⟨grown, rfl, fits⟩

theorem streamPrefetchDir_keeps (state : PrefetchDirState) (short : rsp.length ≤ room) :
    Keeps limit clientMark (s.streamPrefetchDir clientMark rsp state) fun streamed =>
      streamed.1.length ≤ room := by
  apply (streamLoop_keeps s state short).keeps
  intro streamed fits
  apply leads_perform
  intro _ _
  exact leads_pure ⟨rfl, fits⟩

theorem prefetchSections_leads (dirBase : Bytes) (state : PrefetchDirState) (first : List DirEntry)
    (used : Nat) (short : rsp.length ≤ room) :
    Leads limit clientMark .pending
      (s.prefetchSections clientMark dirBase state first used rsp) fun phase outcome =>
        match outcome with
        | none => phase = .concluded
        | some (rest, _) => phase = .pending ∧ rest.length ≤ first.length := by
  apply leads_countdown
    (fun loop phase =>
      phase = .pending ∧ loop.2.2.2.length ≤ room ∧ loop.2.1.length ≤ first.length)
    (fun loop => loop.2.1.length) ⟨rfl, short, Nat.le_refl _⟩
  rintro ⟨state, rest, used, rsp⟩ _ ⟨rfl, fits, fewer⟩
  apply leads_bind
  refine (streamPrefetchDir_keeps s state fits).mono ?_
  rintro _ ⟨rsp, failed⟩ ⟨rfl, fits⟩
  cases failed with
  | false =>
    apply leads_bind
    refine (keeps_send fits).mono ?_
    rintro _ _ ⟨rfl, _⟩
    exact leads_pure ⟨rfl, fewer⟩
  | true =>
    apply leads_bind
    refine (nextPrefetchDir_keeps dirBase rest used).mono ?_
    rintro _ ⟨found, rest', used'⟩ ⟨rfl, _, shorter⟩
    match found with
    | .error err => exact (concludes_error _ (by decide)).andReturn rfl
    | .ok none => exact (concludes_error _ (by decide)).andReturn rfl
    | .ok (some nextState) =>
      have fewerStill := shorter (.inr ⟨nextState, rfl⟩)
      apply leads_bind
      refine (writePrefetchIndicator_fills fits _).mono ?_
      rintro _ rsp ⟨rfl, fits⟩
      exact leads_pure ⟨⟨rfl, fits, Nat.le_trans (Nat.le_of_lt fewerStill) fewer⟩, fewerStill⟩

theorem prefetchLoop_leads (dirBase : Bytes) (first : List DirEntry) :
    Leads limit clientMark .pending (s.prefetchLoop clientMark dirBase first) fun phase outcome =>
      match outcome with
      | none => phase = .concluded
      | some () => phase = .pending := by
  apply leads_countdown (fun _ phase => phase = .pending) (fun loop => loop.1.length) rfl
  rintro ⟨first, used⟩ _ rfl
  apply leads_ite
  · intro _
    exact leads_pure rfl
  · intro goesOn
    rw [not_or, Nat.not_le] at goesOn
    apply leads_bind
    refine (nextPrefetchDir_keeps dirBase first used).mono ?_
    rintro _ ⟨found, rest, used'⟩ ⟨rfl, _, shorter⟩
    have fewer := shorter (.inl goesOn)
    match found with
    | .error err => exact (concludes_error _ (by decide)).andReturn rfl
    | .ok none => exact leads_pure ⟨rfl, fewer⟩
    | .ok (some state) =>
      apply leads_bind
      refine (writePrefetchIndicator_fills (Nat.zero_le _) _).mono ?_
      rintro _ rsp ⟨rfl, fits⟩
      apply leads_bind
      refine (prefetchSections_leads s dirBase state rest used' fits).mono ?_
      intro phase outcome holds
      cases outcome with
      | none => exact leads_pure holds
      | some next => exact leads_pure ⟨holds.1, Nat.lt_of_le_of_lt holds.2 fewer⟩

theorem readRootLoop_keeps (dirBase : Bytes) (f : Nat) (short : rsp.length ≤ room) :
    Keeps limit clientMark (s.readRootLoop clientMark dirBase f rsp) fun outcome =>
      ∀ rsp, outcome = .ok rsp → rsp.length ≤ room := by
  apply leads_batches (fun rsp phase => phase = .pending ∧ rsp.length ≤ room) ⟨rfl, short⟩
  rintro rsp _ ⟨more, err⟩ ⟨rfl, short⟩
  have filled : Fills limit clientMark (more.foldlM (s.writeRootEntry clientMark dirBase) rsp) :=
    keeps_foldlM _ short fun rsp entry fits => writeRootEntry_fills s fits dirBase entry
  apply leads_bind
  refine filled.mono ?_
  rintro _ rsp ⟨rfl, fits⟩
  cases err with
  | none =>
    apply leads_ite
    · intro _
      refine leads_pure ⟨rfl, ?_⟩
      rintro _ ⟨⟩
      exact fits
    · intro _
      exact leads_pure ⟨⟨rfl, fits⟩, rfl⟩
  | some failure =>
    cases failure with
    | os err => exact leads_pure ⟨rfl, nofun⟩
    | eof =>
      refine leads_pure ⟨rfl, ?_⟩
      rintro _ ⟨⟩
      exact fits

theorem sendRoot_concludes (dirBase : Bytes) (f : Nat) (first : List DirEntry) :
    Concludes limit clientMark (s.sendRoot clientMark dirBase f first) := by
  have filled : Fills limit clientMark (first.foldlM (s.writeRootEntry clientMark dirBase) []) :=
    keeps_foldlM _ (Nat.zero_le _) fun rsp entry fits => writeRootEntry_fills s fits dirBase entry
  apply filled.concludes
  intro rsp fits
  apply (readRootLoop_keeps s dirBase f fits).concludes
  intro outcome fits
  cases outcome with
  | error err => exact concludes_error _ (osErrCode_final err)
  | ok rsp =>
    apply leads_ite
    · intro _
      exact concludes_send (by decide) (fits rsp rfl)
    · intro _
      apply (keeps_send (fits rsp rfl)).concludes
      intro _ _
      apply leads_bind
      refine (prefetchLoop_leads s dirBase first).mono ?_
      intro phase outcome holds
      cases outcome with
      | none => exact leads_pure holds
      | some _ =>
        obtain rfl : phase = .pending := holds
        exact concludes_ok

theorem cmdReadDirPlus_concludes (path : Bytes) :
    Concludes limit clientMark (s.cmdReadDirPlus clientMark path) := by
  apply concludes_withDir
  intro dirBase f
  apply leads_perform
  rintro ⟨first, err⟩ _
  cases err with
  | none => exact sendRoot_concludes s dirBase f first
  | some failure =>
    cases failure with
    | os err => exact concludes_error _ (osErrCode_final err)
    | eof => exact sendRoot_concludes s dirBase f first

/-! ### Links -/

theorem fits_str {value : Bytes} (short : value.length + 2 ≤ room) : Fits Codec.str value := by
  have limit : room = 8190 := rfl
  refine ⟨leBytes 2 (UInt16.ofNat value.length).toNat ++ value, ?_, ?_⟩
  · simp only [Codec.str, Codec.prefixed]
    rw [if_pos (by omega)]
    rfl
  · rw [List.length_append, leBytes_length]
    omega

theorem target_length {apath : Bytes} (rooted : apath.head? = some slash) (target : Bytes) :
    (clean (join apath target)).length ≤ apath.length + target.length + 3 := by
  have nonempty : apath ≠ [] := by
    rintro rfl
    cases rooted
  have longer : (apath ++ slash :: target).head? = some slash := by
    rw [List.head?_append_of_ne_nil _ nonempty, rooted]
  obtain ⟨names, cleaned, bound⟩ := clean_rooted longer
  rw [join, if_neg nonempty, cleaned, clean_absolute]
  have own := length_absolute_le names
  rw [List.length_append, List.length_cons] at bound
  omega

theorem cmdReadLink_concludes (limited : limit = some pathMax) :
    Concludes limit clientMark (s.cmdReadLink clientMark path) := by
  apply concludes_withPath
  intro valid
  apply (keeps_ignoringEINTR (interruptible_readlink _)).concludes
  intro result accepted
  cases result with
  | error err => exact concludes_error _ (by decide)
  | ok link =>
    have short : (link.target.take readLinkBuffer).length ≤ readLinkBuffer := List.length_take_le _ _
    have known : (s.storagePath ++ path).length ≤ 4096 := accepted link rfl pathMax limited
    apply leads_ite
    · intro inside
      apply concludes_respond
      apply fits_str
      rw [List.length_drop]
      have buffer : readLinkBuffer = 256 := rfl
      have size : room = 8190 := rfl
      split
      · obtain ⟨names, isRoot⟩ := s.rooted
        have bound := target_length (descending_append isRoot.descending valid).rooted
          (link.target.take readLinkBuffer)
        omega
      · omega
    · intro _
      exact concludes_error _ (by decide)

end Handlers

end Wsfs.Server.Commands
