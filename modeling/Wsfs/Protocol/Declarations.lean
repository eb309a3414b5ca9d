/-
The structs of `struct.go`. The generator accepts them, their layouts are delimited, and
so their generated writers and readers are inverse to each other, each of either build.
-/

import Wsfs.Protocol.Generated

namespace Wsfs.Protocol.Gen

open Wsfs.Base

inductive StructName
  | timespec
  | fileInfo
  | dirent
  | fileLockInfo
  | cmdOpenStruct
  | cmdCloseStruct
  | cmdReadStruct
  | cmdReadDirStruct
  | cmdReadLinkStruct
  | cmdWriteStruct
  | cmdSeekStruct
  | cmdAllocateStruct
  | cmdGetAttrStruct
  | cmdSetAttrStruct
  | cmdSyncStruct
  | cmdMkdirStruct
  | cmdSymLinkStruct
  | cmdRemoveStruct
  | cmdRmDirStruct
  | cmdFsStatStruct
  | cmdReadAtStruct
  | cmdWriteAtStruct
  | cmdRenameStruct
  | cmdCopyFileRangeStruct
  | cmdCloneFileRangeStruct
  | cmdSetAttrByFDStruct
  | cmdReadDirPlusStruct
  | cmdWriteStreamOpenStruct
  | cmdWriteStreamDataStruct
  | cmdGetFileLockStruct
  | cmdSetFileLockStruct
  | cmdSetFileLockWaitStruct
  | cmdLinkStruct
  | cmdSetXAttrStruct
  | cmdGetXAttrStruct
  | cmdListXAttrStruct
  | cmdRemoveXAttrStruct
  | rspError
  | rspOpen
  | rspClose
  | rspRead
  | rspReadDir
  | rspReadLink
  | rspWrite
  | rspSeek
  | rspAllocate
  | rspGetAttr
  | rspSetAttr
  | rspSync
  | rspMkdir
  | rspSymLink
  | rspRemove
  | rspRmDir
  | rspFsStat
  | rspReadAt
  | rspWriteAt
  | rspCopyFileRange
  | rspCloneFileRange
  | rspRename
  | rspSetAttrByFD
  | rspWriteStreamClose
  | rspGetFileLock
  | rspSetFileLock
  | rspSetFileLockWait
  | rspLink
  | rspSetXAttr
  | rspGetXAttr
  | rspListXAttr
  | rspRemoveXAttr
deriving DecidableEq, Repr

def structFields : StructName → List (FieldType StructName)
  | .timespec => [.scalar .int64, .scalar .int64]
  | .fileInfo => [.scalar .uint64, .other .timespec, .scalar .uint32, .scalar .uint8]
  | .dirent => [.string, .scalar .uint64, .other .timespec, .scalar .uint32, .scalar .uint8]
  | .fileLockInfo => [.scalar .uint8, .scalar .uint8, .scalar .uint64, .scalar .uint64]
  | .cmdOpenStruct => [.string, .scalar .uint32, .scalar .uint32]
  | .cmdCloseStruct => [.scalar .uint32]
  | .cmdReadStruct => [.scalar .uint32, .scalar .uint64]
  | .cmdReadDirStruct => [.string]
  | .cmdReadLinkStruct => [.string]
  | .cmdWriteStruct => [.scalar .uint32, .bytes]
  | .cmdSeekStruct => [.scalar .uint32, .scalar .uint8, .scalar .int64]
  | .cmdAllocateStruct => [.scalar .uint32, .scalar .uint32, .scalar .uint64, .scalar .uint64]
  | .cmdGetAttrStruct => [.string]
  | .cmdSetAttrStruct => [.string, .scalar .uint8, .other .fileInfo]
  | .cmdSyncStruct => [.scalar .uint32]
  | .cmdMkdirStruct => [.string, .scalar .uint32]
  | .cmdSymLinkStruct => [.string, .string]
  | .cmdRemoveStruct => [.string]
  | .cmdRmDirStruct => [.string]
  | .cmdFsStatStruct => [.string]
  | .cmdReadAtStruct => [.scalar .uint32, .scalar .uint64, .scalar .uint64]
  | .cmdWriteAtStruct => [.scalar .uint32, .scalar .uint64, .bytes]
  | .cmdRenameStruct => [.string, .string, .scalar .uint32]
  | .cmdCopyFileRangeStruct =>
      [.scalar .uint32, .scalar .uint32, .scalar .uint64, .scalar .uint64, .scalar .uint64]
  | .cmdCloneFileRangeStruct =>
      [.scalar .uint32, .scalar .uint32, .scalar .uint64, .scalar .uint64, .scalar .uint64]
  | .cmdSetAttrByFDStruct => [.scalar .uint32, .scalar .uint8, .other .fileInfo]
  | .cmdReadDirPlusStruct => [.string]
  | .cmdWriteStreamOpenStruct => [.scalar .uint32, .scalar .uint64, .bytes]
  | .cmdWriteStreamDataStruct => [.scalar .uint8, .bytes]
  | .cmdGetFileLockStruct => [.scalar .uint32, .other .fileLockInfo]
  | .cmdSetFileLockStruct => [.scalar .uint32, .other .fileLockInfo]
  | .cmdSetFileLockWaitStruct => [.scalar .uint32, .other .fileLockInfo]
  | .cmdLinkStruct => [.string, .string]
  | .cmdSetXAttrStruct => [.string, .scalar .uint32, .string, .bytes]
  | .cmdGetXAttrStruct => [.string, .string, .scalar .uint32]
  | .cmdListXAttrStruct => [.string, .scalar .uint32]
  | .cmdRemoveXAttrStruct => [.string, .string, .scalar .uint32]
  | .rspError => [.string]
  | .rspOpen => [.scalar .uint32]
  | .rspClose => []
  | .rspRead => [.bytes]
  | .rspReadDir => [.bytes]
  | .rspReadLink => [.string]
  | .rspWrite => [.scalar .uint64]
  | .rspSeek => [.scalar .uint64]
  | .rspAllocate => []
  | .rspGetAttr => [.other .fileInfo]
  | .rspSetAttr => []
  | .rspSync => []
  | .rspMkdir => []
  | .rspSymLink => []
  | .rspRemove => []
  | .rspRmDir => []
  | .rspFsStat => [.scalar .uint64, .scalar .uint64, .scalar .uint64]
  | .rspReadAt => [.bytes]
  | .rspWriteAt => [.scalar .uint64]
  | .rspCopyFileRange => [.scalar .uint64]
  | .rspCloneFileRange => []
  | .rspRename => []
  | .rspSetAttrByFD => []
  | .rspWriteStreamClose => [.scalar .uint64]
  | .rspGetFileLock => [.other .fileLockInfo]
  | .rspSetFileLock => []
  | .rspSetFileLockWait => []
  | .rspLink => []
  | .rspSetXAttr => []
  | .rspGetXAttr => [.bytes]
  | .rspListXAttr => [.bytes]
  | .rspRemoveXAttr => []

def structGo : StructInfos StructName where
  names :=
    [.cmdAllocateStruct, .cmdCloneFileRangeStruct, .cmdCloseStruct, .cmdCopyFileRangeStruct,
      .cmdFsStatStruct, .cmdGetAttrStruct, .cmdGetFileLockStruct, .cmdGetXAttrStruct,
      .cmdLinkStruct, .cmdListXAttrStruct, .cmdMkdirStruct, .cmdOpenStruct, .cmdReadAtStruct,
      .cmdReadDirPlusStruct, .cmdReadDirStruct, .cmdReadLinkStruct, .cmdReadStruct,
      .cmdRemoveStruct, .cmdRemoveXAttrStruct, .cmdRenameStruct, .cmdRmDirStruct, .cmdSeekStruct,
      .cmdSetAttrByFDStruct, .cmdSetAttrStruct, .cmdSetFileLockStruct, .cmdSetFileLockWaitStruct,
      .cmdSetXAttrStruct, .cmdSymLinkStruct, .cmdSyncStruct, .cmdWriteAtStruct,
      .cmdWriteStreamDataStruct, .cmdWriteStreamOpenStruct, .cmdWriteStruct, .dirent, .fileInfo,
      .fileLockInfo, .rspAllocate, .rspCloneFileRange, .rspClose, .rspCopyFileRange, .rspError,
      .rspFsStat, .rspGetAttr, .rspGetFileLock, .rspGetXAttr, .rspLink, .rspListXAttr, .rspMkdir,
      .rspOpen, .rspRead, .rspReadAt, .rspReadDir, .rspReadLink, .rspRemove, .rspRemoveXAttr,
      .rspRename, .rspRmDir, .rspSeek, .rspSetAttr, .rspSetAttrByFD, .rspSetFileLock,
      .rspSetFileLockWait, .rspSetXAttr, .rspSymLink, .rspSync, .rspWrite, .rspWriteAt,
      .rspWriteStreamClose, .timespec]
  fields := structFields

def isAccepted (result : Option (Except (GenError StructName) (Emitted StructName))) : Bool :=
  match result with
  | some (.ok _) => true
  | _ => false

theorem structGo_acceptable : Acceptable structGo := by
  have accepted : isAccepted (genStructHelper false (fun _ => structGo.names) structGo) = true := by
    decide +kernel
  unfold isAccepted at accepted
  split at accepted
  · rename_i emitted isEmitted
    exact (accepted_realizes (fun _ => List.Perm.refl _) isEmitted).1
  · cases accepted

theorem mem_structGo (name : StructName) : name ∈ structGo.names := by
  cases name <;> decide

theorem structGo_delimited (name : StructName) :
    bytesLast (structLeaves structGo structGo.names.length name) = true ∧
      ((structLeaves structGo structGo.names.length name).getLast? = some .bytes →
        (structGo.fields name).getLast? = some .bytes) := by
  cases name <;> decide

/-- Every struct, written by either build, is read back by either build, and what is read is
what would be written. -/
theorem structGo_roundtrip {writerMode readerMode : Bool} {orders orders' : Nat → List StructName}
    (complete : ∀ round, (orders round).Perm structGo.names)
    (complete' : ∀ round, (orders' round).Perm structGo.names) {writer reader : Emitted StructName}
    (isWriter : genStructHelper writerMode orders structGo = some (.ok writer))
    (isReader : genStructHelper readerMode orders' structGo = some (.ok reader)) {depth : Nat}
    (enough : structGo.names.length ≤ depth) (name : StructName) :
    (∀ value, Typed structGo Short (.other name) value →
      ∃ bytes, writer.write depth name value = .ok bytes ∧
        ∀ rest, ((structGo.fields name).getLast? = some .bytes → rest = []) →
          reader.read depth name (bytes ++ rest) = .ok (value, rest)) ∧
    (∀ input value rest, reader.read depth name input = .ok (value, rest) →
      ∃ bytes, writer.write depth name value = .ok bytes ∧ input = bytes ++ rest) := by
  have shallow := structGo_acceptable.nests name (mem_structGo name)
  have nests := shallow.mono enough
  have writes := (accepted_realizes complete isWriter).2
  have reads := (accepted_realizes complete' isReader).2
  obtain ⟨delimited, last⟩ := structGo_delimited name
  rw [← structLeaves_stable shallow enough] at delimited last
  refine ⟨fun value typed => ?_, fun input value rest isRead => (write_read writes reads nests isRead).2⟩
  obtain ⟨bytes, written, _⟩ := read_write writes reads nests delimited typed [] (fun _ => rfl)
  refine ⟨bytes, written, fun rest empty => ?_⟩
  obtain ⟨bytes', written', isRead⟩ :=
    read_write writes reads nests delimited typed rest (fun isLast => empty (last isLast))
  rw [written] at written'
  cases written'
  exact isRead

/-- The size and the modification time of a file "/a". -/
private def attributes : Value :=
  .record [.blob [0x2f, 0x61], .int 3, .record [.int 5, .record [.int (-1), .int 9], .int 420, .int 0]]

private theorem attributes_typed : Typed structGo Short (.other .cmdSetAttrStruct) attributes := by
  have time : Typed structGo Short (.other .timespec) (.record [.int (-1), .int 9]) :=
    .struct (mem_structGo _) (.cons (.scalar (by decide)) (.cons (.scalar (by decide)) .nil))
  have info : Typed structGo Short (.other .fileInfo)
      (.record [.int 5, .record [.int (-1), .int 9], .int 420, .int 0]) :=
    .struct (mem_structGo _) (.cons (.scalar (by decide)) (.cons time
      (.cons (.scalar (by decide)) (.cons (.scalar (by decide)) .nil))))
  exact .struct (mem_structGo _) (.cons (.string (by simp [Short])) (.cons (.scalar (by decide))
    (.cons info .nil)))

/-- A portable writer and an unsafe reader of the structs of `struct.go`. -/
theorem structGo_roundtrip_crossed :
    ∃ writer reader, genStructHelper false (fun _ => structGo.names) structGo = some (.ok writer) ∧
      genStructHelper true (fun _ => structGo.names) structGo = some (.ok reader) ∧
      ∃ bytes, writer.write structGo.names.length .cmdSetAttrStruct attributes = .ok bytes ∧
        reader.read structGo.names.length .cmdSetAttrStruct (bytes ++ [1]) = .ok (attributes, [1]) := by
  have complete : ∀ _ : Nat, structGo.names.Perm structGo.names := fun _ => List.Perm.refl _
  obtain ⟨writer, isWriter⟩ := structGo_acceptable.accepted complete false
  obtain ⟨reader, isReader⟩ := structGo_acceptable.accepted complete true
  refine ⟨writer, reader, isWriter, isReader, ?_⟩
  obtain ⟨bytes, written, isRead⟩ := (structGo_roundtrip complete complete isWriter isReader
    (Nat.le_refl _) .cmdSetAttrStruct).1 attributes attributes_typed
  exact ⟨bytes, written, isRead [1] (by decide)⟩

/-! ### The checked-in files -/

def emittedOf (result : Option (Except (GenError StructName) (Emitted StructName))) :
    Emitted StructName :=
  match result with
  | some (.ok emitted) => emitted
  | _ => ⟨[], [], []⟩

/-- `struct.gen.go` and, in unsafe mode, `struct_amd64.gen.go`. -/
def generated (unsafeMode : Bool) : Emitted StructName :=
  emittedOf (genStructHelper unsafeMode (fun _ => structGo.names) structGo)

theorem generated_realizes (unsafeMode : Bool) : Realizes structGo unsafeMode (generated unsafeMode) := by
  have complete : ∀ _ : Nat, structGo.names.Perm structGo.names := fun _ => List.Perm.refl _
  obtain ⟨emitted, isEmitted⟩ := structGo_acceptable.accepted complete unsafeMode
  have same : generated unsafeMode = emitted := congrArg emittedOf isEmitted
  rw [same]
  exact (accepted_realizes complete isEmitted).2

/-- The writer of a struct, with calls as deep as there are structs. -/
def writeStruct (unsafeMode : Bool) (name : StructName) (value : Value) : Except Failure Bytes :=
  (generated unsafeMode).write structGo.names.length name value

variable {name : StructName} {value : Value}

theorem writeStruct_flat (unsafeMode : Bool) (typed : Typed structGo (fun _ => True) (.other name) value) :
    writeStruct unsafeMode name value =
      encodeAll (structLeaves structGo structGo.names.length name) value.leaves := by
  have nests := structGo_acceptable.nests name (mem_structGo name)
  rw [writeStruct, (generated_realizes unsafeMode).write_eq nests typed, encodeStruct_flat nests typed]

theorem writeStruct_fits (unsafeMode : Bool) (typed : Typed structGo (fun _ => True) (.other name) value)
    (limit : Nat) (small : limit ≤ 0xffff) :
    (∃ bytes, writeStruct unsafeMode name value = .ok bytes ∧ bytes.length ≤ limit) ↔
      sizeAll (structLeaves structGo structGo.names.length name) value.leaves ≤ limit := by
  have nests := structGo_acceptable.nests name (mem_structGo name)
  rw [writeStruct_flat unsafeMode typed]
  cases encodeAll_cases (typed.leaves_hold nests) with
  | inl tooLong =>
    have long := encodeAll_tooLong tooLong
    rw [tooLong]
    constructor
    · rintro ⟨bytes, isOk, _⟩
      cases isOk
    · intro short
      omega
  | inr encoded =>
    obtain ⟨bytes, isEncoded, length⟩ := encoded
    rw [isEncoded, ← length]
    constructor
    · rintro ⟨_, isOk, short⟩
      cases isOk
      exact short
    · intro short
      exact ⟨bytes, rfl, short⟩

end Wsfs.Protocol.Gen
