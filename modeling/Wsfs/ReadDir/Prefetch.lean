/-
READDIRPLUS from end to end. The server picks the directories to prefetch by the type
in the directory entry, the client counts directories by the mode it received, and
the sections carry no names. A section that the client keeps is the listing of the
directory that the server picked; it is attached to the directory that the client
counted.
-/

import Wsfs.ReadDir.Attach
import Wsfs.Storage.Commands

namespace Wsfs.ReadDir

open Wsfs.Base Wsfs.Protocol Wsfs.Unix Wsfs.Util
open Wsfs.ReadDir.Server (Files Session DirEntry Batch Reads Named NamedIn Faulty ensureDirBase contents)

/-! ### The commands -/

section Commands

variable {files : Files} {session : Session} {reads : Reads} {path dirBase : Bytes} {file : List Batch}

/-- The entries of the root that `cmdReadDirPlus` reads, and the error. The first batch is not
the end even if it comes with `io.EOF`. -/
def rootContents : List Batch → List DirEntry × Option Errno
  | [] => ([], none)
  | (first, some (.os errno)) :: _ => (first, some errno)
  | (first, _) :: f => (first ++ (contents f).1, (contents f).2)

def rootEntries (reads : Reads) (apath : Bytes) : List DirEntry :=
  match reads 0 apath with
  | .ok file => (rootContents file).1
  | .error _ => []

theorem contents_faulty {errno : Errno} (failed : (contents file).2 = some errno) : Faulty file := by
  fun_induction contents file with
  | case1 => cases failed
  | case2 batch errno' later => exact ⟨batch, errno', List.mem_cons_self⟩
  | case3 => cases failed
  | case4 => cases failed
  | case5 batch later _ ih =>
    obtain ⟨other, errno', member⟩ := ih failed
    exact ⟨other, errno', List.mem_cons_of_mem _ member⟩

theorem sendRoot_delivers {sound : Prop} {first : List DirEntry} (named : NamedReads reads)
    (namedFirst : ∀ entry ∈ first, Named entry) (namedIn : NamedIn file) (isSound : sound → Sound reads)
    (faultless : sound → ¬Faulty file) :
    Delivers sound (Prefetched files session reads dirBase)
      ((first ++ (contents file).1).filter DirEntry.isDir)
      ((first ++ (contents file).1).map (files.lookupDirentSafe session dirBase))
      (Server.sendRoot files session reads dirBase file first) := by
  have rootNamed := List.forall_mem_append.mpr ⟨namedFirst, namedIn.contents⟩
  have writable : ∀ dirent ∈ (first ++ (contents file).1).map (files.lookupDirentSafe session dirBase),
      Writable dirent :=
    fun dirent member => (Server.map_fitting files session dirBase rootNamed dirent member).writable
  obtain ⟨out, isRead, packed⟩ := @Server.readRootLoop_reads files session dirBase file [] _ _ namedIn
    (Server.packed_writeDirentChunks .nothing
      (Server.map_fitting files session dirBase namedFirst))
  rw [List.nil_append, ← List.map_append, ← List.map_append] at packed
  unfold Server.sendRoot
  simp only [isRead]
  cases atEnd : (contents file).2 with
  | some errno =>
    obtain ⟨payloads, before, isSent, framed, isPrefix⟩ := packed.sent
    have taken := List.prefix_iff_eq_take.mp isPrefix
    rw [← List.map_take] at taken
    rw [taken] at framed
    have fits := fits_concat packed.within (Server.errorMessage_fits (Server.osErrCode errno) "read dir failed")
    rw [Server.afterRoot]
    rw [isSent, List.nil_append] at fits ⊢
    exact delivers_refused (fun dirent member => writable dirent (List.mem_of_mem_take member)) framed
      (osErrCode_fails errno) (fun holds => faultless holds (contents_faulty atEnd)) fits
  | none =>
    rw [Server.afterRoot]
    split
    · exact delivers_root writable packed
    · obtain ⟨payloads, flushed, framed⟩ := packed.flush
      obtain ⟨new, ok, sends, stream⟩ := (prefetchLoop_sends named (2 * first.length + 2)).1 first 0 []
        [] (by omega) .nil (by rw [List.append_nil]; exact packed.within_flush)
      rw [List.append_nil] at sends
      rw [flushed, List.nil_append] at sends ⊢
      rw [List.filter_append]
      refine delivers_stream writable framed ⟨?_, sends.fits⟩ (stream.extend _)
      obtain ⟨payloads', sent, last, same, framed', inside, ending⟩ := sends.framed
      refine ⟨payloads', sent, last, same, framed', inside, ?_⟩
      cases ok with
      | true => exact ending
      | false => exact ⟨ending.1, fun holds => ending.2 (isSound holds)⟩

theorem cmdReadDirPlus_delivers (named : NamedReads reads) :
    Delivers (isUrlValid path = true ∧ Sound reads)
      (Prefetched files session reads (ensureDirBase (session.storagePath ++ path)))
      ((rootEntries reads (session.storagePath ++ path)).filter DirEntry.isDir)
      ((rootEntries reads (session.storagePath ++ path)).map
        (files.lookupDirentSafe session (ensureDirBase (session.storagePath ++ path))))
      (Server.cmdReadDirPlus files session reads path) := by
  have refused : ∀ code desc, code ≠ errorOK ∧ code ≠ errorPartialResponse →
      ¬(isUrlValid path = true ∧ Sound reads) → ∀ lists dirs whole,
      Delivers (isUrlValid path = true ∧ Sound reads) lists dirs whole [Server.errorMessage code desc] := by
    intro code desc error unsound lists dirs whole
    have nothing : ∀ dirent ∈ ([] : List Dirent), Writable dirent := nofun
    have fits : ∀ payload ∈ ([] : List Bytes), payload.length ≤ Server.room := nofun
    exact delivers_refused nothing .nil error unsound (fits_concat fits (Server.errorMessage_fits code desc))
  unfold Server.cmdReadDirPlus rootEntries
  by_cases invalid : (!isUrlValid path) = true
  · rw [if_pos invalid]
    refine refused _ _ ⟨by decide, by decide⟩ (fun holds => ?_) _ _ _
    rw [holds.1] at invalid
    cases invalid
  · rw [if_neg invalid]
    cases opened : reads 0 (session.storagePath ++ path) with
    | error errno =>
      simp only [opened]
      refine refused _ _ (osErrCode_fails errno) (fun holds => ?_) _ _ _
      obtain ⟨file, isOk, _⟩ := holds.2 0 (session.storagePath ++ path)
      rw [opened] at isOk
      cases isOk
    | ok file =>
      have faultless : isUrlValid path = true ∧ Sound reads → ¬Faulty file := by
        intro holds
        obtain ⟨file', isOk, faultless⟩ := holds.2 0 (session.storagePath ++ path)
        rw [opened] at isOk
        cases isOk
        exact faultless
      have namedIn := named _ _ file opened
      have goesOn : ∀ first f, (∀ entry ∈ first, Named entry) → NamedIn f → (Faulty f → Faulty file) →
          Delivers (isUrlValid path = true ∧ Sound reads) _ _ _
            (Server.sendRoot files session reads (ensureDirBase (session.storagePath ++ path)) f first) :=
        fun first f namedFirst namedRest faulty => sendRoot_delivers named namedFirst namedRest
          (fun holds => holds.2) fun holds isFaulty => faultless holds (faulty isFaulty)
      simp only [opened]
      match file with
      | [] => exact goesOn [] [] nofun nofun id
      | (first, err) :: f =>
        obtain ⟨namedFirst, namedRest⟩ := List.forall_mem_cons.mp namedIn
        have later : Faulty f → Faulty ((first, err) :: f) := fun ⟨batch, errno, member⟩ =>
          ⟨batch, errno, List.mem_cons_of_mem _ member⟩
        match err with
        | some (.os errno) =>
          exact refused _ _ (osErrCode_fails errno)
            (fun holds => faultless holds ⟨first, errno, List.mem_cons_self⟩) _ _ _
        | some .eof => exact goesOn first f namedFirst namedRest later
        | none => exact goesOn first f namedFirst namedRest later

theorem cmdReadDir_fits (named : NamedReads reads) :
    ∀ message ∈ Server.cmdReadDir files session reads path, message.payload.length ≤ Server.room := by
  have refused : ∀ code desc, ∀ message ∈ [Server.errorMessage code desc],
      message.payload.length ≤ Server.room := by
    intro code desc
    exact List.forall_mem_singleton.mpr (Server.errorMessage_fits code desc)
  unfold Server.cmdReadDir
  split
  · exact refused _ _
  · cases opened : reads 0 (session.storagePath ++ path) with
    | error errno =>
      simp only [opened]
      exact refused _ _
    | ok file =>
      obtain ⟨out, sent, last, sends, packed, outcome⟩ := @Server.readDirLoop_sends files session
        (ensureDirBase (session.storagePath ++ path)) file _ _ (named _ _ file opened) .nothing
      simp only [opened, sends]
      refine fits_concat packed.within ?_
      split at outcome
      · rw [outcome.1]
        exact packed.fits
      · rw [outcome]
        exact Server.errorMessage_fits _ _

theorem cmdReadDir_done (named : NamedReads reads) (valid : isUrlValid path = true)
    (opened : reads 0 (session.storagePath ++ path) = .ok file) (complete : (contents file).2 = none) :
    Client.cmdReadDir (Server.cmdReadDir files session reads path) =
      .done ((contents file).1.map
        (files.lookupDirentSafe session (ensureDirBase (session.storagePath ++ path)))) errorOK := by
  have namedIn := named _ _ file opened
  obtain ⟨out, sent, last, sends, packed, outcome⟩ := @Server.readDirLoop_sends files session
    (ensureDirBase (session.storagePath ++ path)) file _ _ namedIn .nothing
  rw [complete] at outcome
  obtain ⟨rfl, isSent⟩ := outcome
  rw [List.nil_append] at isSent
  obtain ⟨⟨payloads, before, chunk, isBefore, framed, buffered, split⟩, _⟩ := packed
  have writable : ∀ dirent ∈ before ++ chunk, Writable dirent := by
    rw [← split, isSent]
    exact fun dirent member => (Server.map_fitting files session _ namedIn.contents dirent member).writable
  have inBefore := Client.foldl_listed_framed framed (List.forall_mem_append.mp writable).1 (.receiving [])
  have inLast := Client.readAll_direntBytes chunk (List.forall_mem_append.mp writable).2
  have unfolded : Server.cmdReadDir files session reads path =
      payloads.map partialMessage ++ [⟨errorOK, out.buffer⟩] := by
    simp only [Server.cmdReadDir, valid, Bool.not_true, Bool.false_eq_true, if_false, opened, sends, isBefore,
      List.nil_append]
  rw [unfolded, Client.cmdReadDir, List.foldl_append, inBefore, ← isSent, split]
  simp only [Client.Listed.add, List.foldl_cons, List.foldl_nil, Client.Listed.receive, buffered,
    inLast, List.nil_append, ne_eq, not_true_eq_false, false_and, if_false,
    show errorOK ≠ errorPartialResponse by decide]

end Commands

/-! ### A tree of directories -/

structure Listing where
  entries : List DirEntry
  failure : Option Errno
  named : ∀ entry ∈ entries, IsName entry.name ∧ entry.name.length ≤ 255
deriving DecidableEq

/-- A file system that does not change, and that enumerates every directory in a fixed order
up to its end or to an error. -/
structure Os extends Files where
  openDir : Bytes → Except Errno Listing
  reopens : ∀ path listing, path ≠ [] → openDir (path ++ [slash]) = .ok listing → openDir path = .ok listing

/-- `File.ReadDir` for a positive number: batches of some size, then the error or `io.EOF`. -/
inductive Shows : List DirEntry → Option Errno → List Batch → Prop
  | ended : Shows [] none []
  | eof {later : List Batch} : Shows [] none later → Shows [] none (([], some .eof) :: later)
  | failed (entries : List DirEntry) (errno : Errno) :
      Shows entries (some errno) [(entries, some (.os errno))]
  | more {entries : List DirEntry} {failure : Option Errno} {later : List Batch} (batch : List DirEntry) :
      batch ≠ [] → Shows entries failure later → Shows (batch ++ entries) failure ((batch, none) :: later)

/-- A command that reads its directories while the file system is this one. -/
def Os.Shows (os : Os) (reads : Reads) : Prop :=
  ∀ number path,
    match os.openDir path with
    | .error errno => reads number path = .error errno
    | .ok listing => ∃ file, reads number path = .ok file ∧
        ReadDir.Shows listing.entries listing.failure file

section Shows

variable {entries : List DirEntry} {failure : Option Errno} {file : List Batch} {os : Os} {reads : Reads}
  {path : Bytes} {number : Nat}

variable (shows : Shows entries failure file)
include shows

theorem Shows.contents : contents file = (entries, failure) := by
  induction shows with
  | ended => rfl
  | eof => rfl
  | failed => rfl
  | more batch nonempty _ ih => rw [Server.contents, if_neg nonempty, ih]

theorem Shows.rootContents : rootContents file = (entries, failure) := by
  cases shows with
  | ended => rfl
  | eof later => simp only [ReadDir.rootContents, later.contents, List.nil_append]
  | failed => rfl
  | more batch nonempty later => simp only [ReadDir.rootContents, later.contents]

theorem Shows.untilEnd {later : List DirEntry} (ended : Server.untilEnd file = some later) :
    later = entries ∧ failure = none := by
  induction shows generalizing later with
  | ended => cases ended; exact ⟨rfl, rfl⟩
  | eof => cases ended; exact ⟨rfl, rfl⟩
  | failed => cases ended
  | more batch nonempty _ ih =>
    rw [Server.untilEnd] at ended
    obtain ⟨rest, isRest, rfl⟩ := Option.map_eq_some_iff.mp ended
    obtain ⟨rfl, complete⟩ := ih isRest
    exact ⟨rfl, complete⟩

theorem Shows.mem_entries :
    ∀ batch ∈ file, ∀ entry ∈ batch.1, entry ∈ entries := by
  induction shows with
  | ended => exact nofun
  | eof _ ih => exact List.forall_mem_cons.mpr ⟨nofun, ih⟩
  | failed => exact List.forall_mem_singleton.mpr fun _ member => member
  | more batch _ _ ih =>
    exact List.forall_mem_cons.mpr ⟨fun _ member => List.mem_append_left _ member,
      fun other present entry member => List.mem_append_right _ (ih other present entry member)⟩

omit shows

theorem Os.Shows.of_ok (shows : os.Shows reads) (opened : reads number path = .ok file) :
    ∃ listing, os.openDir path = .ok listing ∧ ReadDir.Shows listing.entries listing.failure file := by
  have answer := shows number path
  cases found : os.openDir path with
  | error errno =>
    rw [found] at answer
    cases opened.symm.trans answer
  | ok listing =>
    rw [found] at answer
    obtain ⟨file', isOk, shown⟩ := answer
    cases opened.symm.trans isOk
    exact ⟨listing, rfl, shown⟩

theorem Os.Shows.named (shows : os.Shows reads) : NamedReads reads := by
  intro number path file opened batch present entry member
  obtain ⟨listing, _, shown⟩ := shows.of_ok opened
  have short := (listing.named entry (shown.mem_entries batch present entry member)).2
  unfold Named
  change _ ≤ 8192
  omega

end Shows

section EndToEnd

variable (os : Os) (session : Session) (path : Bytes)

def Os.entries (apath : Bytes) : List DirEntry :=
  match os.openDir apath with
  | .ok listing => listing.entries
  | .error _ => []

/-- What the caller of `CmdReadDirPlus` has once every `childReady` is closed. -/
def readDirPlus (files : Files) (reads : Reads) : List Client.DirItem :=
  (Client.parseReadDirPlus (Server.cmdReadDirPlus files session reads path)).returned

variable {os session path} {reads : Reads} {entry : DirEntry}

theorem Os.Shows.rootEntries (shows : os.Shows reads) (apath : Bytes) :
    rootEntries reads apath = os.entries apath := by
  have answer := shows 0 apath
  unfold ReadDir.rootEntries Os.entries
  cases found : os.openDir apath with
  | error errno =>
    rw [found] at answer
    simp only [answer]
  | ok listing =>
    rw [found] at answer
    obtain ⟨file, opened, shown⟩ := answer
    simp only [opened, shown.rootContents]

end EndToEnd

/-! ### A link out of the storage -/

end Wsfs.ReadDir
