/-
The server's side of directory listings: what `cmdReadDir` and `cmdReadDirPlus` send, with
their limits, prefetch sections and errors, from what the file system answers. Attributes
do not change while a directory is listed. What the directories hold, and in which batches
they are read, is left open.
-/

import Wsfs.ReadDir.Record
import Wsfs.Unix.Errno
import Wsfs.Unix.Mode
import Wsfs.Util.Path

namespace Wsfs.ReadDir.Server

open Wsfs.Base Wsfs.Protocol Wsfs.Unix Wsfs.Util

/-! ### The file system -/

structure Stat where
  size : UInt64
  mtime : Timespec
  mode : UInt32
  uid : UInt32
  gid : UInt32
deriving DecidableEq, Repr

/-- An `fs.DirEntry`: its type comes from the directory, not from a `stat`. -/
structure DirEntry where
  name : Bytes
  isDir : Bool
deriving DecidableEq, Repr

/-- What a symbolic link holds. -/
structure Link where
  target : Bytes
  nonempty : target ≠ []
deriving DecidableEq, Repr

/-- The answers of `Lstat` and `Stat`, and of `Readlink`. -/
structure Files where
  stat : Bytes → Bool → Except Errno Stat
  readlink : Bytes → Except Errno Link

structure Session where
  storagePath : Bytes
  uid : UInt32
  gid : UInt32
deriving DecidableEq, Repr

inductive ReadError
  | eof
  | os (errno : Errno)
deriving DecidableEq, Repr

/-- An answer of `File.ReadDir`. -/
abbrev Batch := List DirEntry × Option ReadError

/-- What the directories give that a command opens, by their number and their path: one
batch after the other, and from then on `io.EOF`. -/
abbrev Reads := Nat → Bytes → Except Errno (List Batch)

/-! ### Attributes -/

/-- `os.IsExist`, `os.IsNotExist` and `os.IsPermission`, in this order. -/
def osErrCode (err : Errno) : UInt8 :=
  match err with
  | .eexist => errorExists
  | .enotempty => errorExists
  | .enoent => errorNotExists
  | .eacces => errorAccessRestricted
  | .eperm => errorAccessRestricted
  | _ => errorUnknown

def convOwner (session : Session) (fi : Stat) : UInt8 :=
  (if fi.uid = session.uid then 1 else 0) + (if fi.gid = session.gid then 2 else 0)

def ensureDirBase (path : Bytes) : Bytes :=
  if hasSuffix path [slash] then path else path ++ [slash]

namespace Files

variable (files : Files) (session : Session)

/-- A link that leads out of the storage is shown as what it leads to. -/
def restrictingSymlinkByFileInfo (base name : Bytes) (fi : Stat) : Except Errno Stat :=
  match files.readlink (base ++ name) with
  | .error err => .error err
  | .ok link =>
      let target := if link.target.head? ≠ some slash then clean (base ++ link.target) else link.target
      if hasPrefix target session.storagePath then .ok fi else files.stat (base ++ name) true

def lookupDirent (dirBase : Bytes) (dirent : DirEntry) : Except Errno Dirent :=
  let wdirent (fi : Stat) : Dirent := ⟨dirent.name, fi.size, fi.mtime, fi.mode, convOwner session fi⟩
  match files.stat (dirBase ++ dirent.name) false with
  | .error err => .error err
  | .ok fi =>
      if fi.mode &&& modeSymlink ≠ 0 then
        (files.restrictingSymlinkByFileInfo session dirBase dirent.name fi).map wdirent
      else .ok (wdirent fi)

def lookupDirentSafe (dirBase : Bytes) (entry : DirEntry) : Dirent :=
  match files.lookupDirent session dirBase entry with
  | .ok wdirent => wdirent
  | .error _ => ⟨entry.name, 0, ⟨0, 0⟩, modeIrregular, ownerNN⟩

theorem lookupDirentSafe_name (dirBase : Bytes) (entry : DirEntry) :
    (files.lookupDirentSafe session dirBase entry).name = entry.name := by
  unfold lookupDirentSafe lookupDirent
  cases files.stat (dirBase ++ entry.name) false with
  | error err => rfl
  | ok fi =>
    by_cases isLink : fi.mode &&& modeSymlink ≠ 0
    · simp only [if_pos isLink]
      cases files.restrictingSymlinkByFileInfo session dirBase entry.name fi with
      | error err => rfl
      | ok fi => rfl
    · simp only [if_neg isLink]

end Files

/-! ### Buffers and messages -/

def room : Nat := maxMsgSize - 2

/-- `Buffer.Write`: what does not fit is dropped. -/
def bufferWrite (buffer d : Bytes) : Bytes := buffer ++ d.take (room - buffer.length)

def errorMessage (code : UInt8) (desc : String) : Message :=
  ⟨code, (Codec.str.write (desc.toUTF8.toList.take maxErrorDescLength)).getD []⟩

def makeRoom (rsp : Packer) (requiredSize : Nat) : Packer :=
  if 2 + rsp.buffer.length + requiredSize > maxMsgSize then ⟨rsp.sent ++ [rsp.buffer], []⟩ else rsp

def writeDirentChunk (rsp : Packer) (wdirent : Dirent) : Packer :=
  let rsp := makeRoom rsp (1 + getDirentRequiredSize wdirent)
  { rsp with
    buffer := bufferWrite (bufferWrite rsp.buffer [readdirplusIndicatorContinue])
      (direntBytes wdirent) }

def writePrefetchIndicator (rsp : Packer) (indicator : UInt8) : Packer :=
  let rsp := makeRoom rsp 1
  { rsp with buffer := bufferWrite rsp.buffer [indicator] }

/-! ### cmdReadDir -/

def writeDirent (rsp : Packer) (wdirent : Dirent) : Packer :=
  let rsp := makeRoom rsp (getDirentRequiredSize wdirent)
  { rsp with buffer := bufferWrite rsp.buffer (direntBytes wdirent) }

/-- The loop of `cmdReadDir`. -/
def readDirLoop (lookup : DirEntry → Dirent) : List Batch → Packer → List Message
  | [], rsp => rsp.sent.map partialMessage ++ [⟨errorOK, rsp.buffer⟩]
  | (dirents, err) :: rest, rsp =>
      match err with
      | some (.os errno) =>
          rsp.sent.map partialMessage ++ [errorMessage (osErrCode errno) "read dir failed"]
      | _ =>
          let rsp := (dirents.map lookup).foldl writeDirent rsp
          if dirents = [] ∨ err = some .eof then
            rsp.sent.map partialMessage ++ [⟨errorOK, rsp.buffer⟩]
          else readDirLoop lookup rest rsp

def cmdReadDir (files : Files) (session : Session) (reads : Reads) (path : Bytes) : List Message :=
  if !isUrlValid path then [errorMessage errorInvalid "bad path"]
  else
    let apath := session.storagePath ++ path
    match reads 0 apath with
    | .error errno => [errorMessage (osErrCode errno) "open dir failed"]
    | .ok f => readDirLoop (files.lookupDirentSafe session (ensureDirBase apath)) f ⟨[], []⟩

/-! ### cmdReadDirPlus -/

def maxRootEntriesForPrefetch : Nat := 500
def maxPrefetchDirEntries : Nat := 1000
def maxPrefetchDirs : Nat := 32

structure PrefetchDirState where
  absPath : Bytes
  file : List Batch
  pending : List DirEntry
deriving DecidableEq, Repr

/-- The directories of the root are opened after it, so the next one is one more than the
number used. -/
def preparePrefetchDir (reads : Reads) (dirBase : Bytes) (used : Nat) (entry : DirEntry) :
    Except Errno PrefetchDirState :=
  let childAbsPath := dirBase ++ entry.name ++ [slash]
  match reads (used + 1) childAbsPath with
  | .error errno => .error errno
  | .ok [] => .ok ⟨childAbsPath, [], []⟩
  | .ok ((_, some (.os errno)) :: _) => .error errno
  | .ok ((entries, _) :: rest) => .ok ⟨childAbsPath, rest, entries⟩

/-- The result, the entries from the next index on, and the count of directories
used. -/
def nextPrefetchDir (reads : Reads) (dirBase : Bytes) :
    List DirEntry → Nat → Except Errno (Option PrefetchDirState) × List DirEntry × Nat
  | [], used => (.ok none, [], used)
  | entry :: rest, used =>
      if used ≥ maxPrefetchDirs then (.ok none, entry :: rest, used)
      else if !entry.isDir then nextPrefetchDir reads dirBase rest used
      else ((preparePrefetchDir reads dirBase used entry).map some, rest, used + 1)

/-- The loop over `pending`: the buffer, the count, and whether it ran over the limit. -/
def streamPending (lookup : DirEntry → Dirent) : List DirEntry → Packer → Nat → Packer × Nat × Bool
  | [], rsp, count => (rsp, count, false)
  | entry :: rest, rsp, count =>
      if count + 1 > maxPrefetchDirEntries then (rsp, count + 1, true)
      else streamPending lookup rest (writeDirentChunk rsp (lookup entry)) (count + 1)

/-- `streamPrefetchDir`, with `failed`. -/
def streamPrefetchLoop (lookup : DirEntry → Dirent) :
    List Batch → List DirEntry → Packer → Nat → Packer × Bool
  | [], pending, rsp, count =>
      match streamPending lookup pending rsp count with
      | (rsp, _, exceeded) => (rsp, exceeded)
  | (entries, err) :: rest, pending, rsp, count =>
      match streamPending lookup pending rsp count with
      | (rsp, _, true) => (rsp, true)
      | (rsp, count, false) =>
          match err with
          | some .eof => (rsp, false)
          | some (.os _) => (rsp, true)
          | none => streamPrefetchLoop lookup rest entries rsp count

def streamPrefetchDir (files : Files) (session : Session) (rsp : Packer) (state : PrefetchDirState) :
    Packer × Bool :=
  streamPrefetchLoop (files.lookupDirentSafe session state.absPath) state.file state.pending rsp 0

/-- The loops over the directories of the root. `current` is the section being
streamed; without one the outer loop looks for the next directory. -/
def prefetchLoop (files : Files) (session : Session) (reads : Reads) (dirBase : Bytes) :
    Nat → Option PrefetchDirState → List DirEntry → Nat → Packer → List Message
  | 0, _, _, _, rsp => rsp.sent.map partialMessage
  | fuel + 1, none, first, used, rsp =>
      if first = [] ∨ used ≥ maxPrefetchDirs then rsp.sent.map partialMessage ++ [⟨errorOK, []⟩]
      else
        match nextPrefetchDir reads dirBase first used with
        | (.error _, _, _) =>
            rsp.sent.map partialMessage ++ [errorMessage errorIo "read prefetch dir failed"]
        | (.ok none, rest, used) => prefetchLoop files session reads dirBase fuel none rest used rsp
        | (.ok (some state), rest, used) =>
            prefetchLoop files session reads dirBase fuel (some state) rest used
              (writePrefetchIndicator ⟨rsp.sent, []⟩ readdirplusIndicatorPrefetch)
  | fuel + 1, some state, first, used, rsp =>
      match streamPrefetchDir files session rsp state with
      | (rsp, false) => prefetchLoop files session reads dirBase fuel none first used ⟨rsp.flush, []⟩
      | (rsp, true) =>
          match nextPrefetchDir reads dirBase first used with
          | (.ok (some state), rest, used) =>
              prefetchLoop files session reads dirBase fuel (some state) rest used
                (writePrefetchIndicator rsp readdirplusIndicatorPrefetchSkip)
          | _ => rsp.sent.map partialMessage ++ [errorMessage errorIo "read prefetch dir failed"]

def readRootLoop (lookup : DirEntry → Dirent) : List Batch → Packer → Packer × Option Errno
  | [], rsp => (rsp, none)
  | (more, err) :: rest, rsp =>
      let rsp := (more.map lookup).foldl writeDirentChunk rsp
      match err with
      | some (.os errno) => (rsp, some errno)
      | some .eof => (rsp, none)
      | none => if more = [] then (rsp, none) else readRootLoop lookup rest rsp

/-- `cmdReadDirPlus` behind the loops over the root. -/
def afterRoot (files : Files) (session : Session) (reads : Reads) (dirBase : Bytes) (first : List DirEntry) :
    Packer × Option Errno → List Message
  | (rsp, some errno) =>
      rsp.sent.map partialMessage ++ [errorMessage (osErrCode errno) "read dir failed"]
  | (rsp, none) =>
      if first.length > maxRootEntriesForPrefetch then
        rsp.sent.map partialMessage ++ [⟨errorOK, rsp.buffer⟩]
      else
        prefetchLoop files session reads dirBase (2 * first.length + 2) none first 0 ⟨rsp.flush, []⟩

/-- `cmdReadDirPlus` from the first batch of the root on. -/
def sendRoot (files : Files) (session : Session) (reads : Reads) (dirBase : Bytes) (f : List Batch)
    (first : List DirEntry) : List Message :=
  let lookup := files.lookupDirentSafe session dirBase
  let rsp := (first.map lookup).foldl writeDirentChunk ⟨[], []⟩
  afterRoot files session reads dirBase first (readRootLoop lookup f rsp)

def cmdReadDirPlus (files : Files) (session : Session) (reads : Reads) (path : Bytes) : List Message :=
  if !isUrlValid path then [errorMessage errorInvalid "bad path"]
  else
    let apath := session.storagePath ++ path
    match reads 0 apath with
    | .error errno => [errorMessage (osErrCode errno) "open dir failed"]
    | .ok ((_, some (.os errno)) :: _) => [errorMessage (osErrCode errno) "read dir failed"]
    | .ok ((first, _) :: f) => sendRoot files session reads (ensureDirBase apath) f first
    | .ok [] => sendRoot files session reads (ensureDirBase apath) [] []

theorem append_ensureDirBase (storagePath : Bytes) {path : Bytes} (given : path ≠ []) :
    storagePath ++ ensureDirBase path = ensureDirBase (storagePath ++ path) := by
  have sameEnd : hasSuffix (storagePath ++ path) [slash] = hasSuffix path [slash] := by
    rw [Bool.eq_iff_iff, hasSuffix_slash, hasSuffix_slash, List.getLast?_append_of_ne_nil _ given]
  unfold ensureDirBase
  rw [sameEnd]
  split
  · rfl
  · rw [List.append_assoc]

/-! ### What the buffers carry -/

section Buffers

variable {rsp : Packer} {wdirent : Dirent}

def Fitting (wdirent : Dirent) : Prop := 1 + getDirentRequiredSize wdirent ≤ room

theorem Fitting.writable (fitting : Fitting wdirent) : Writable wdirent := by
  unfold Fitting getDirentRequiredSize at fitting
  change _ ≤ 8190 at fitting
  unfold Writable
  omega

theorem bufferWrite_fits {buffer d : Bytes} (fits : buffer.length + d.length ≤ room) :
    bufferWrite buffer d = buffer ++ d := by
  rw [bufferWrite, List.take_of_length_le (by omega)]

theorem errorMessage_fits (code : UInt8) (desc : String) :
    (errorMessage code desc).payload.length ≤ room := by
  have short : (desc.toUTF8.toList.take maxErrorDescLength).length ≤ maxErrorDescLength :=
    List.length_take_le _ _
  have bound : maxErrorDescLength = 8188 := rfl
  simp only [errorMessage, Codec.str, Codec.prefixed]
  rw [if_pos (by omega)]
  simp only [Codec.u16, Codec.word, Option.map_some, Option.getD_some, List.length_append,
    leBytes_length]
  change _ ≤ 8190
  omega

theorem entry_bytes_length (fitting : Fitting wdirent) :
    (Record.entry wdirent).bytes.length = 1 + getDirentRequiredSize wdirent := by
  rw [Record.bytes, List.length_cons, direntBytes_length fitting.writable, Nat.add_comm]

theorem record_small {record : Record} (fitting : ∀ wdirent, record = .entry wdirent → Fitting wdirent) :
    record.bytes.length ≤ room := by
  cases record with
  | entry wdirent =>
    rw [entry_bytes_length (fitting wdirent rfl)]
    exact fitting wdirent rfl
  | prefetch => decide
  | skip => decide

theorem entry_small (fitting : Fitting wdirent) : (Record.entry wdirent).bytes.length ≤ room :=
  record_small (by rintro _ ⟨⟩; exact fitting)

theorem direntBytes_small (fitting : Fitting wdirent) : (direntBytes wdirent).length ≤ room := by
  have small := entry_small fitting
  rw [entry_bytes_length fitting, ← direntBytes_length fitting.writable] at small
  omega

theorem makeRoom_eq_put (rsp : Packer) {piece : Bytes} {size : Nat} (write : Bytes → Bytes)
    (length : piece.length = size) (small : size ≤ room)
    (written : ∀ buffer : Bytes, buffer.length + size ≤ room → write buffer = buffer ++ piece) :
    { makeRoom rsp size with buffer := write (makeRoom rsp size).buffer } = rsp.put room piece := by
  have limit : room + 2 = maxMsgSize := rfl
  unfold makeRoom Packer.put
  rw [length]
  by_cases full : rsp.buffer.length + size > room
  · rw [if_pos full, if_pos (by omega), written [] (by rw [List.length_nil]; omega), List.nil_append]
  · rw [if_neg full, if_neg (by omega), written rsp.buffer (by omega)]

theorem writeDirentChunk_eq (fitting : Fitting wdirent) :
    writeDirentChunk rsp wdirent = rsp.put room (Record.entry wdirent).bytes := by
  have length := entry_bytes_length fitting
  refine makeRoom_eq_put rsp (fun buffer =>
    bufferWrite (bufferWrite buffer [readdirplusIndicatorContinue]) (direntBytes wdirent))
    length fitting ?_
  intro buffer enough
  have pieces := direntBytes_length fitting.writable
  have first : buffer.length + [readdirplusIndicatorContinue].length ≤ room := by
    rw [List.length_singleton]
    omega
  rw [bufferWrite_fits first, bufferWrite_fits, List.append_assoc]
  · rfl
  · rw [List.length_append, List.length_singleton]
    omega

theorem writePrefetchIndicator_eq (indicator : UInt8) :
    writePrefetchIndicator rsp indicator = rsp.put room [indicator] :=
  makeRoom_eq_put rsp (bufferWrite · [indicator]) rfl (by decide : 1 ≤ room)
    fun _ enough => bufferWrite_fits enough

theorem writeDirent_eq (fitting : Fitting wdirent) :
    writeDirent rsp wdirent = rsp.put room (direntBytes wdirent) := by
  have length := direntBytes_length fitting.writable
  have small := direntBytes_small fitting
  refine makeRoom_eq_put rsp (bufferWrite · (direntBytes wdirent)) length (by omega) ?_
  intro buffer enough
  exact bufferWrite_fits (by omega)

variable {wdirents : List Dirent} {before : List Bytes}

theorem packed_writeDirentChunks {records : List Record}
    (packed : Packed Record.bytes room before rsp records)
    (fitting : ∀ wdirent ∈ wdirents, Fitting wdirent) :
    Packed Record.bytes room before (wdirents.foldl writeDirentChunk rsp)
      (records ++ wdirents.map .entry) :=
  packed.foldl (fun _ wdirent member => writeDirentChunk_eq (fitting wdirent member))
    fun wdirent member => entry_small (fitting wdirent member)

theorem packed_writeDirents {records : List Dirent} (packed : Packed direntBytes room before rsp records)
    (fitting : ∀ wdirent ∈ wdirents, Fitting wdirent) :
    Packed direntBytes room before (wdirents.foldl writeDirent rsp) (records ++ wdirents) := by
  have written := @Packed.foldl _ direntBytes room before rsp records packed _ writeDirent id wdirents
    (fun _ wdirent member => writeDirent_eq (fitting wdirent member))
    fun wdirent member => direntBytes_small (fitting wdirent member)
  rwa [List.map_id] at written

end Buffers

/-! ### Reading a directory in batches -/

/-- A message has room for its header, an indicator and the entry with this name. -/
def Named (entry : DirEntry) : Prop := 2 + (1 + (entry.name.length + 16 + 15)) ≤ maxMsgSize

def NamedIn (file : List Batch) : Prop := ∀ batch ∈ file, ∀ entry ∈ batch.1, Named entry

/-- The entries that a directory gives up to its end or to an error, and the error. -/
def contents : List Batch → List DirEntry × Option Errno
  | [] => ([], none)
  | (batch, some (.os errno)) :: _ => (batch, some errno)
  | (batch, some .eof) :: _ => (batch, none)
  | (batch, none) :: later =>
      if batch = [] then ([], none) else (batch ++ (contents later).1, (contents later).2)

/-- What a section takes from a directory after its first batch, if it reaches the end. A
batch that comes with `io.EOF` is dropped, and an empty one is not the end. -/
def untilEnd : List Batch → Option (List DirEntry)
  | [] => some []
  | (_, some (.os _)) :: _ => none
  | (_, some .eof) :: _ => some []
  | (batch, none) :: later => (untilEnd later).map (batch ++ ·)

/-- Somewhere in it, reading the directory fails. -/
def Faulty (file : List Batch) : Prop := ∃ batch errno, (batch, some (.os errno)) ∈ file

section Loops

variable {files : Files} {session : Session} {dirBase : Bytes} {file : List Batch}
  {pending : List DirEntry} {before : List Bytes} {rsp : Packer} {count : Nat}

theorem Named.fitting {entry : DirEntry} (named : Named entry) (files : Files) (session : Session)
    (dirBase : Bytes) : Fitting (files.lookupDirentSafe session dirBase entry) := by
  unfold Fitting getDirentRequiredSize
  rw [files.lookupDirentSafe_name]
  unfold Named at named
  change _ ≤ 8192 at named
  change _ ≤ 8190
  omega

theorem map_fitting (files : Files) (session : Session) (dirBase : Bytes)
    (named : ∀ entry ∈ pending, Named entry) :
    ∀ wdirent ∈ pending.map (files.lookupDirentSafe session dirBase), Fitting wdirent := by
  intro wdirent member
  obtain ⟨entry, present, rfl⟩ := List.mem_map.mp member
  exact (named entry present).fitting files session dirBase

theorem NamedIn.contents (named : NamedIn file) : ∀ entry ∈ (contents file).1, Named entry := by
  fun_induction Server.contents file with
  | case1 => exact nofun
  | case2 batch errno later => exact named _ List.mem_cons_self
  | case3 batch later => exact named _ List.mem_cons_self
  | case4 later => exact nofun
  | case5 batch later _ ih =>
    intro entry present
    cases List.mem_append.mp present with
    | inl inBatch => exact named _ List.mem_cons_self entry inBatch
    | inr inLater => exact ih (fun other member => named other (List.mem_cons_of_mem _ member)) entry inLater

theorem readDirLoop_sends {records : List Dirent} (named : NamedIn file)
    (packed : Packed direntBytes room [] rsp records) :
    ∃ out sent last, readDirLoop (files.lookupDirentSafe session dirBase) file rsp =
        out.sent.map partialMessage ++ [last] ∧ Packed direntBytes room [] out sent ∧
      match (contents file).2 with
      | none => last = ⟨errorOK, out.buffer⟩ ∧
          sent = records ++ (contents file).1.map (files.lookupDirentSafe session dirBase)
      | some errno => last = errorMessage (osErrCode errno) "read dir failed" := by
  induction file generalizing rsp records with
  | nil => exact ⟨rsp, records, _, rfl, packed, rfl, (List.append_nil records).symm⟩
  | cons batch later ih =>
    obtain ⟨dirents, err⟩ := batch
    have written := packed_writeDirents packed
      (map_fitting files session dirBase (named _ List.mem_cons_self))
    match err with
    | some (.os errno) => exact ⟨rsp, records, _, rfl, packed, rfl⟩
    | some .eof =>
      refine ⟨_, _, _, ?_, written, rfl, rfl⟩
      simp only [readDirLoop, or_true, if_true]
    | none =>
      by_cases empty : dirents = []
      · rw [empty]
        exact ⟨rsp, records, _, rfl, packed, rfl, (List.append_nil records).symm⟩
      · obtain ⟨out, sent, last, same, outPacked, outcome⟩ :=
          ih (fun other member => named other (List.mem_cons_of_mem _ member)) written
        refine ⟨out, sent, last, ?_, outPacked, ?_⟩
        · rw [← same]
          simp only [readDirLoop]
          rw [if_neg (by simp [empty])]
        · simp only [contents, if_neg empty, List.map_append, ← List.append_assoc]
          exact outcome

theorem readRootLoop_reads {records : List Record} (named : NamedIn file)
    (packed : Packed Record.bytes room before rsp records) :
    ∃ out, readRootLoop (files.lookupDirentSafe session dirBase) file rsp = (out, (contents file).2) ∧
      Packed Record.bytes room before out
        (records ++ ((contents file).1.map (files.lookupDirentSafe session dirBase)).map .entry) := by
  induction file generalizing rsp records with
  | nil => exact ⟨rsp, rfl, by rwa [contents, List.map_nil, List.map_nil, List.append_nil]⟩
  | cons batch later ih =>
    obtain ⟨more, err⟩ := batch
    have written := packed_writeDirentChunks packed
      (map_fitting files session dirBase (named _ List.mem_cons_self))
    match err with
    | some (.os errno) => exact ⟨_, rfl, written⟩
    | some .eof => exact ⟨_, rfl, written⟩
    | none =>
      by_cases empty : more = []
      · rw [empty] at written ⊢
        exact ⟨_, rfl, written⟩
      · obtain ⟨out, same, outPacked⟩ :=
          ih (fun other member => named other (List.mem_cons_of_mem _ member)) written
        refine ⟨out, ?_, ?_⟩
        · simp only [readRootLoop, contents, if_neg empty, same]
        · simp only [contents, if_neg empty, List.map_append, ← List.append_assoc]
          exact outPacked

/-! ### Sections -/

/-- Entries are left out only behind so many of them. -/
theorem streamPending_sends {records : List Record} (named : ∀ entry ∈ pending, Named entry)
    (packed : Packed Record.bytes room before rsp records) :
    ∃ out count' exceeded sent,
      streamPending (files.lookupDirentSafe session dirBase) pending rsp count = (out, count', exceeded) ∧
      Packed Record.bytes room before out
        (records ++ (sent.map (files.lookupDirentSafe session dirBase)).map .entry) ∧
      (∀ entry ∈ sent, Named entry) ∧
      if exceeded then maxPrefetchDirEntries ≤ count + sent.length
      else sent = pending ∧ count' = count + sent.length := by
  induction pending generalizing rsp count records with
  | nil => exact ⟨rsp, count, false, [], rfl, by simpa using packed, nofun, rfl, rfl⟩
  | cons entry rest ih =>
    by_cases exceeds : count + 1 > maxPrefetchDirEntries
    · refine ⟨rsp, count + 1, true, [], ?_, by simpa using packed, nofun, Nat.le_of_lt_succ exceeds⟩
      simp only [streamPending, if_pos exceeds]
    · have written := packed_writeDirentChunks packed (map_fitting files session dirBase (List.forall_mem_singleton.mpr
        (named entry List.mem_cons_self)))
      obtain ⟨out, count', exceeded, sent, streamed, outPacked, sentNamed, outcome⟩ :=
        @ih _ (count + 1) _ (fun other member => named other (List.mem_cons_of_mem _ member)) written
      refine ⟨out, count', exceeded, entry :: sent, ?_, ?_,
        List.forall_mem_cons.mpr ⟨named entry List.mem_cons_self, sentNamed⟩, ?_⟩
      · simp only [streamPending, if_neg exceeds]
        exact streamed
      · rw [← List.singleton_append, List.map_append, List.map_append, ← List.append_assoc]
        exact outPacked
      · rw [List.length_cons, Nat.add_comm sent.length, ← Nat.add_assoc]
        cases exceeded with
        | true => exact outcome
        | false => exact ⟨by rw [outcome.1], outcome.2⟩

theorem streamPrefetchLoop_sends {records : List Record} (named : ∀ entry ∈ pending, Named entry)
    (namedIn : NamedIn file) (packed : Packed Record.bytes room before rsp records) :
    ∃ out failed sent,
      streamPrefetchLoop (files.lookupDirentSafe session dirBase) file pending rsp count = (out, failed) ∧
      Packed Record.bytes room before out
        (records ++ (sent.map (files.lookupDirentSafe session dirBase)).map .entry) ∧
      (∀ entry ∈ sent, Named entry) ∧
      if failed then Faulty file ∨ maxPrefetchDirEntries ≤ count + sent.length
      else ∃ later, untilEnd file = some later ∧ sent = pending ++ later := by
  induction file generalizing pending rsp count records with
  | nil =>
    obtain ⟨out, count', exceeded, sent, streamed, outPacked, sentNamed, outcome⟩ :=
      @streamPending_sends files session dirBase pending before rsp count records named packed
    refine ⟨out, exceeded, sent, by simp only [streamPrefetchLoop, streamed], outPacked, sentNamed, ?_⟩
    cases exceeded with
    | true => exact .inr outcome
    | false => exact ⟨[], rfl, by rw [outcome.1, List.append_nil]⟩
  | cons batch rest ih =>
    obtain ⟨entries, err⟩ := batch
    obtain ⟨out, count', exceeded, sent, streamed, outPacked, sentNamed, outcome⟩ :=
      @streamPending_sends files session dirBase pending before rsp count records named packed
    cases exceeded with
    | true =>
      exact ⟨out, true, sent, by simp only [streamPrefetchLoop, streamed], outPacked, sentNamed, .inr outcome⟩
    | false =>
      obtain ⟨rfl, counted⟩ := outcome
      match err with
      | some (.os errno) =>
        refine ⟨out, true, sent, by simp only [streamPrefetchLoop, streamed], outPacked, sentNamed, .inl ?_⟩
        exact ⟨entries, errno, List.mem_cons_self⟩
      | some .eof =>
        refine ⟨out, false, sent, by simp only [streamPrefetchLoop, streamed], outPacked, sentNamed, [], rfl, ?_⟩
        rw [List.append_nil]
      | none =>
        obtain ⟨last, failed, later, laterStreamed, lastPacked, laterNamed, laterOutcome⟩ :=
          @ih entries out count' _ (namedIn _ List.mem_cons_self)
            (fun other member => namedIn other (List.mem_cons_of_mem _ member)) outPacked
        refine ⟨last, failed, sent ++ later, ?_, ?_,
          List.forall_mem_append.mpr ⟨sentNamed, laterNamed⟩, ?_⟩
        · simp only [streamPrefetchLoop, streamed]
          exact laterStreamed
        · rw [List.map_append, List.map_append, ← List.append_assoc]
          exact lastPacked
        · cases failed with
          | true =>
            rw [List.length_append, ← Nat.add_assoc, ← counted]
            rcases laterOutcome with ⟨batch, errno, faulty⟩ | many
            · exact .inl ⟨batch, errno, List.mem_cons_of_mem _ faulty⟩
            · exact .inr many
          | false =>
            obtain ⟨more, ended, rfl⟩ := laterOutcome
            refine ⟨entries ++ more, ?_, rfl⟩
            rw [untilEnd, ended]
            rfl

end Loops

end Wsfs.ReadDir.Server
