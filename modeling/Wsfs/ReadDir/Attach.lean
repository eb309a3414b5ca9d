/-
What `parseReadDirPlus` makes of a root and a stream of sections: the sections go to the
entries of directory mode, one after the other.
-/

import Wsfs.ReadDir.Client
import Wsfs.ReadDir.Sections
import Mathlib.Data.List.Nodup

namespace Wsfs.ReadDir

open Wsfs.Base Wsfs.Protocol Wsfs.Unix Wsfs.Util
open Wsfs.ReadDir.Server (DirEntry)

/-! ### The client attaches sections -/

section Client

open Wsfs.ReadDir.Client

def child (list : List DirItem) (index : Nat) : Option (List Dirent) :=
  (list[index]?).bind DirItem.child

theorem child_closeChildReady (list : List DirItem) (idx index : Nat) :
    child (closeChildReady list idx) index = child list index := by
  rw [child, child, closeChildReady, List.getElem?_modify]
  cases list[index]? with
  | none => rfl
  | some item => by_cases same : idx = index <;> simp [same, DirItem.close]

variable {index : Nat} {items root : List Dirent} {parser : Parser} {last : Message}
  {lists : DirEntry → List Dirent → Prop} {dirs : List DirEntry} {item : DirItem} {returned : List DirItem}
  {idx offset k : Nat} {failed ok : Bool} {records : List Record} {payloads : List Bytes}

theorem child_setChild {list : List DirItem} {found : List Dirent}
    (attached : child (setChild list idx items) index = some found) :
    child list index = some found ∨ idx = index ∧ items = found := by
  rw [child, setChild, List.getElem?_modify] at attached
  cases item : list[index]? with
  | none => rw [item] at attached; cases attached
  | some value =>
    rw [item] at attached
    by_cases same : idx = index
    · simp [same] at attached
      exact .inr ⟨same, attached⟩
    · simp [same] at attached
      exact .inl (by rw [child, item]; exact attached)

theorem child_closeAllRemaining (parser : Parser) (index : Nat) :
    child parser.closeAllRemaining.list index = child parser.list index := by
  unfold Parser.closeAllRemaining
  induction parser.pendingDirs generalizing parser with
  | nil => rfl
  | cons idx rest ih =>
    rw [List.foldl_cons]
    have later := ih { parser with list := closeChildReady parser.list idx }
    exact later.trans (child_closeChildReady parser.list idx index)

theorem child_flushPrefetch {commit : Bool}
    (attached : child (parser.flushPrefetch commit).list index = some items) :
    child parser.list index = some items ∨
      commit = true ∧ parser.currentPrefetchIdx = some index ∧ parser.items = items := by
  unfold Parser.flushPrefetch at attached
  split at attached
  · rename_i idx _ current
    cases commit with
    | true =>
      rcases child_setChild attached with before | ⟨rfl, same⟩
      · exact .inl before
      · exact .inr ⟨rfl, current, same⟩
    | false => exact .inl ((child_closeChildReady ..).symm.trans attached)
  · exact .inl attached

def dirents (list : List DirItem) : List Dirent := list.map DirItem.dirent

theorem dirents_modify (list : List DirItem) (idx : Nat) {change : DirItem → DirItem}
    (keeps : ∀ item, (change item).dirent = item.dirent) :
    dirents (list.modify idx change) = dirents list := by
  unfold dirents
  apply List.ext_getElem?
  intro index
  rw [List.getElem?_map, List.getElem?_map, List.getElem?_modify]
  cases list[index]? with
  | none => rfl
  | some item => by_cases same : idx = index <;> simp [same, keeps]

theorem dirents_flushPrefetch (parser : Parser) (commit : Bool) :
    dirents (parser.flushPrefetch commit).list = dirents parser.list := by
  unfold Parser.flushPrefetch
  split
  · cases commit with
    | true => exact dirents_modify _ _ fun _ => rfl
    | false => exact dirents_modify _ _ fun _ => rfl
  · rfl

theorem dirents_closeAllRemaining (parser : Parser) :
    dirents parser.closeAllRemaining.list = dirents parser.list := by
  unfold Parser.closeAllRemaining
  induction parser.pendingDirs generalizing parser with
  | nil => rfl
  | cons idx rest ih =>
    have later := ih { parser with list := closeChildReady parser.list idx }
    exact later.trans (dirents_modify _ _ fun _ => rfl)

/-- A parser between records: outside of a section it has no open items. -/
structure Ready (parser : Parser) : Prop where
  root : parser.inPrefetch = false → parser.currentPrefetchIdx = none
  items : parser.currentPrefetchIdx = none → parser.items = []

/-- What a stream of sections may add: the items of the section at hand if it was whole,
and listings of the directories to come, in the order of the client's own counting. -/
structure Attaches (lists : DirEntry → List Dirent → Prop) (failed : Bool) (dirs : List DirEntry)
    (parser final : Parser) : Prop where
  dirents : dirents final.list = dirents parser.list
  children : ∀ index items, child final.list index = some items →
    child parser.list index = some items ∨
    failed = false ∧ parser.currentPrefetchIdx = some index ∧ parser.items = items ∨
    ∃ (k : Nat) (dir : DirEntry), parser.pendingDirs[k]? = some index ∧ dirs[k]? = some dir ∧
      lists dir items

def Closing (ok : Bool) (last : Message) : Prop :=
  if ok then last = ⟨errorOK, []⟩ else last.code ≠ errorOK ∧ last.code ≠ errorPartialResponse

theorem foldl_entries (parser : Parser) (inPrefetch : parser.inPrefetch = true) (sent : List Dirent) :
    (sent.map Record.entry).foldl Parse.record (.running parser) =
      .running { parser with items := parser.items ++ sent } := by
  induction sent generalizing parser with
  | nil => simp
  | cons dirent rest ih =>
    have added : parser.addDirent dirent = { parser with items := parser.items ++ [dirent] } := by
      rw [Parser.addDirent, if_pos inPrefetch]
    have later := ih { parser with items := parser.items ++ [dirent] } inPrefetch
    rw [List.append_assoc, List.singleton_append] at later
    rw [List.map_cons, List.foldl_cons, Parse.record, added]
    exact later

theorem receive_closing_ok (parser : Parser) :
    Parse.receive (.running parser) ⟨errorOK, []⟩ =
      .finished (((parser.flushPrefetch true).closeAllRemaining).sendRoot errorOK) := rfl

theorem receive_closing_error (parser : Parser)
    (error : last.code ≠ errorOK ∧ last.code ≠ errorPartialResponse) :
    Parse.receive (.running parser) last = parser.fail last.code := by
  rw [Parse.receive, if_pos error]

theorem flushPrefetch_pendingDirs (parser : Parser) (commit : Bool) :
    (parser.flushPrefetch commit).pendingDirs = parser.pendingDirs := by
  unfold Parser.flushPrefetch
  split <;> rfl

theorem Ready.flushPrefetch_items (ready : Ready parser) (commit : Bool) :
    (parser.flushPrefetch commit).items = [] := by
  unfold Parser.flushPrefetch
  split
  · rfl
  · rename_i noSection
    cases current : parser.currentPrefetchIdx with
    | none => exact ready.items current
    | some idx =>
      cases inPrefetch : parser.inPrefetch with
      | false => exact ready.items (ready.root inPrefetch)
      | true => exact absurd current (noSection idx inPrefetch)

/-- The parser at the start of a section, before it looks for a directory. -/
def flushed (parser : Parser) (commit : Bool) : Parser :=
  { (parser.sendRoot errorOK).flushPrefetch commit with inPrefetch := true }

theorem startSection_nil (commit : Bool) (pending : parser.pendingDirs = []) :
    parser.startSection commit =
      .finished { flushed parser commit with currentPrefetchIdx := none } := by
  have dirs := (flushPrefetch_pendingDirs (parser.sendRoot errorOK) commit).trans pending
  simp only [Parser.startSection, flushed, dirs]

theorem startSection_cons (commit : Bool) {rest : List Nat} (pending : parser.pendingDirs = idx :: rest) :
    parser.startSection commit =
      .running { flushed parser commit with currentPrefetchIdx := some idx, pendingDirs := rest } := by
  have dirs := (flushPrefetch_pendingDirs (parser.sendRoot errorOK) commit).trans pending
  simp only [Parser.startSection, flushed, dirs]

theorem child_flushed (attached : child (flushed parser (!failed)).list index = some items) :
    child parser.list index = some items ∨
      failed = false ∧ parser.currentPrefetchIdx = some index ∧ parser.items = items := by
  rcases child_flushPrefetch attached with before | ⟨commit, current, same⟩
  · exact .inl before
  · exact .inr ⟨by simpa using commit, current, same⟩

theorem stream_attaches (stream : Stream lists failed dirs records ok) (parser : Parser)
    (ready : Ready parser) (last : Message) (closing : Closing ok last) :
    Attaches lists failed dirs parser
      (Parse.receive (records.foldl Parse.record (.running parser)) last).parser := by
  induction stream generalizing parser with
  | ended dirs =>
    obtain rfl : last = ⟨errorOK, []⟩ := closing
    rw [List.foldl_nil, receive_closing_ok]
    refine ⟨(dirents_closeAllRemaining _).trans (dirents_flushPrefetch _ _), ?_⟩
    intro index items attached
    rcases child_flushPrefetch ((child_closeAllRemaining _ _).symm.trans attached) with
      before | ⟨_, current, same⟩
    · exact .inl before
    · exact .inr (.inl ⟨rfl, current, same⟩)
  | broken failed dirs =>
    rw [List.foldl_nil, receive_closing_error parser closing]
    refine ⟨(dirents_closeAllRemaining _).trans (dirents_flushPrefetch _ _), ?_⟩
    intro index items attached
    rcases child_flushPrefetch ((child_closeAllRemaining _ _).symm.trans attached) with
      before | ⟨impossible, _⟩
    · exact .inl before
    · cases impossible
  | next before failed ok dir dirs sent later whole _ _ ih =>
    have marked : Parse.record (.running parser) (marker before) = parser.startSection (!before) := by
      cases before <;> rfl
    rw [List.foldl_cons, marked, List.foldl_append]
    cases pending : parser.pendingDirs with
    | nil =>
      -- The client has run out of directories and gives up.
      rw [startSection_nil _ pending, foldl_record_finished, foldl_record_finished]
      refine ⟨dirents_flushPrefetch _ _, ?_⟩
      intro index items attached
      rcases child_flushed attached with kept | current
      · exact .inl kept
      · exact .inr (.inl current)
    | cons idx rest =>
      have opened : (flushed parser (!before)).items = [] :=
        (show Ready (parser.sendRoot errorOK) from ⟨ready.root, ready.items⟩).flushPrefetch_items _
      rw [startSection_cons _ pending, foldl_entries _ rfl]
      obtain ⟨sameDirents, children⟩ := ih
        { flushed parser (!before) with
          currentPrefetchIdx := some idx
          pendingDirs := rest
          items := (flushed parser (!before)).items ++ sent } ⟨nofun, nofun⟩ closing
      refine ⟨sameDirents.trans (dirents_flushPrefetch _ _), ?_⟩
      intro index items attached
      rcases children index items attached with earlier | ⟨complete, current, same⟩ | ⟨k, other, found⟩
      · rcases child_flushed earlier with kept | current
        · exact .inl kept
        · exact .inr (.inl current)
      · cases current
        rw [opened, List.nil_append] at same
        exact .inr (.inr ⟨0, dir, by rw [pending]; rfl, rfl, same ▸ whole complete⟩)
      · exact .inr (.inr ⟨k + 1, other, by rw [pending]; exact found⟩)

/-! ### The root -/

def isDirMode (dirent : Dirent) : Bool := dirent.mode &&& modeDir ≠ 0

def isDirItem (item : DirItem) : Bool := isDirMode item.dirent

def rootItem (dirent : Dirent) : DirItem :=
  ⟨dirent, none, if isDirMode dirent then some false else none⟩

/-- Where the directories by mode stand, counted from an offset. -/
def dirIndices : Nat → List Dirent → List Nat
  | _, [] => []
  | offset, dirent :: rest =>
      if isDirMode dirent then offset :: dirIndices (offset + 1) rest
      else dirIndices (offset + 1) rest

def rootParser (list : List DirItem) (pending : List Nat) : Parser :=
  ⟨false, list, [], none, none, pending⟩

theorem foldl_root (root : List Dirent) (list : List DirItem) (pending : List Nat) :
    (root.map Record.entry).foldl Parse.record (.running (rootParser list pending)) =
      .running (rootParser (list ++ root.map rootItem) (pending ++ dirIndices list.length root)) := by
  induction root generalizing list pending with
  | nil => simp [dirIndices]
  | cons dirent rest ih =>
    rw [List.map_cons, List.foldl_cons, Parse.record]
    by_cases isDir : dirent.mode &&& modeDir ≠ 0
    · have added : (rootParser list pending).addDirent dirent =
          rootParser (list ++ [rootItem dirent]) (pending ++ [list.length]) := by
        simp [Parser.addDirent, rootParser, rootItem, isDirMode, isDir]
      rw [added, ih]
      simp [dirIndices, isDirMode, isDir]
    · have added : (rootParser list pending).addDirent dirent =
          rootParser (list ++ [rootItem dirent]) pending := by
        simp [Parser.addDirent, rootParser, rootItem, isDirMode, isDir]
      rw [added, ih]
      simp [dirIndices, isDirMode, isDir]

theorem child_rootItem (root : List Dirent) (index : Nat) : child (root.map rootItem) index = none := by
  rw [child, List.getElem?_map]
  cases root[index]? <;> rfl

theorem dirents_rootItem (root : List Dirent) : dirents (root.map rootItem) = root := by
  rw [dirents, List.map_map]
  exact List.map_id root

/-- The `k`-th item that is a directory by mode stands at the `k`-th index. -/
theorem dirIndices_getElem? (list : List DirItem) (offset k : Nat)
    (found : (list.filter isDirItem)[k]? = some item) :
    ∃ index, (dirIndices offset (dirents list))[k]? = some (offset + index) ∧
      list[index]? = some item := by
  induction list generalizing offset k with
  | nil => cases found
  | cons head rest ih =>
    have shift : ∀ index, offset + 1 + index = offset + (index + 1) := by
      intro index
      omega
    rw [dirents, List.map_cons, dirIndices]
    by_cases isDir : isDirItem head = true
    · rw [List.filter_cons_of_pos isDir] at found
      rw [if_pos (show isDirMode head.dirent = true from isDir)]
      cases k with
      | zero =>
        cases found
        exact ⟨0, rfl, rfl⟩
      | succ k =>
        obtain ⟨index, atIndex, same⟩ := ih (offset + 1) k found
        exact ⟨index + 1, shift index ▸ atIndex, same⟩
    · rw [List.filter_cons_of_neg isDir] at found
      rw [if_neg (show ¬isDirMode head.dirent = true from isDir)]
      obtain ⟨index, atIndex, same⟩ := ih (offset + 1) k found
      exact ⟨index + 1, shift index ▸ atIndex, same⟩

theorem le_of_mem_dirIndices {list : List Dirent} (member : index ∈ dirIndices offset list) :
    offset ≤ index := by
  induction list generalizing offset with
  | nil => cases member
  | cons dirent rest ih =>
    rw [dirIndices] at member
    split at member
    · rcases List.mem_cons.mp member with rfl | later
      · exact Nat.le_refl _
      · exact Nat.le_of_succ_le (ih later)
    · exact Nat.le_of_succ_le (ih member)

theorem dirIndices_nodup (offset : Nat) (list : List Dirent) : (dirIndices offset list).Nodup := by
  induction list generalizing offset with
  | nil => exact List.nodup_nil
  | cons dirent rest ih =>
    rw [dirIndices]
    split
    · refine List.nodup_cons.mpr ⟨?_, ih (offset + 1)⟩
      intro member
      exact absurd (le_of_mem_dirIndices member) (by omega)
    · exact ih (offset + 1)

theorem isDirMode_of_mem {list : List Dirent} (member : offset + index ∈ dirIndices offset list) :
    ∃ dirent, list[index]? = some dirent ∧ isDirMode dirent = true := by
  induction list generalizing offset index with
  | nil => cases member
  | cons dirent rest ih =>
    have later : offset + index ∈ dirIndices (offset + 1) rest → ∃ dirent',
        (dirent :: rest)[index]? = some dirent' ∧ isDirMode dirent' = true := by
      intro inRest
      have above := le_of_mem_dirIndices inRest
      cases index with
      | zero => omega
      | succ index =>
        rw [show offset + (index + 1) = offset + 1 + index by omega] at inRest
        exact ih inRest
    rw [dirIndices] at member
    split at member
    · rename_i isDir
      rcases List.mem_cons.mp member with same | inRest
      · obtain rfl : index = 0 := by omega
        exact ⟨dirent, rfl, isDir⟩
      · exact later inRest
    · exact later member

/-! ### A root that has been sent -/

/-- The code for the root is known, so that its entries are too: what follows belongs to
sections. -/
structure Settled (code : UInt8) (root : List Dirent) (parse : Parse) : Prop where
  code : parse.parser.root = some code
  root : dirents parse.parser.list = root
  inPrefetch : ∀ parser, parse = .running parser → parser.inPrefetch = true

section Settled

variable {code : UInt8} {parse : Parse}

theorem flushPrefetch_root (parser : Parser) (commit : Bool) :
    (parser.flushPrefetch commit).root = parser.root := by
  unfold Parser.flushPrefetch
  split <;> rfl

theorem closing_settled (parser : Parser) (commit : Bool) (closing : UInt8) :
    Settled (parser.root.getD closing) (dirents parser.list)
      (.finished (((parser.flushPrefetch commit).closeAllRemaining).sendRoot closing)) := by
  refine ⟨?_, (dirents_closeAllRemaining _).trans (dirents_flushPrefetch _ _), nofun⟩
  change some ((parser.flushPrefetch commit).root.getD closing) = _
  rw [flushPrefetch_root]

theorem startSection_settled (parser : Parser) (commit : Bool) :
    Settled (parser.root.getD errorOK) (dirents parser.list) (parser.startSection commit) := by
  have sent : (flushed parser commit).root = some (parser.root.getD errorOK) := flushPrefetch_root _ _
  have same : dirents (flushed parser commit).list = dirents parser.list := dirents_flushPrefetch _ _
  cases pending : parser.pendingDirs with
  | nil =>
    rw [startSection_nil commit pending]
    exact ⟨sent, same, nofun⟩
  | cons idx rest =>
    rw [startSection_cons commit pending]
    refine ⟨sent, same, ?_⟩
    rintro _ ⟨⟩
    rfl

theorem Settled.record (settled : Settled code root parse) (record : Record) :
    Settled code root (parse.record record) := by
  cases parse with
  | finished parser => exact settled
  | running parser =>
    obtain ⟨known, rfl, inPrefetch⟩ := settled
    have sections := startSection_settled parser
    rw [show parser.root = some code from known, Option.getD_some] at sections
    cases record with
    | entry dirent =>
      have added : parser.addDirent dirent = { parser with items := parser.items ++ [dirent] } :=
        if_pos (inPrefetch parser rfl)
      rw [Parse.record, added]
      refine ⟨known, rfl, ?_⟩
      rintro _ ⟨⟩
      exact inPrefetch parser rfl
    | prefetch => exact sections true
    | skip => exact sections false

theorem Settled.foldl_record (settled : Settled code root parse) (records : List Record) :
    Settled code root (records.foldl Parse.record parse) := by
  induction records generalizing parse with
  | nil => exact settled
  | cons record rest ih => exact ih (settled.record record)

theorem Settled.close (settled : Settled code root (.running parser)) (commit : Bool) (closing : UInt8) :
    Settled code root
      (.finished (((parser.flushPrefetch commit).closeAllRemaining).sendRoot closing)) := by
  have closed := closing_settled parser commit closing
  rw [show parser.root = some code from settled.code, Option.getD_some] at closed
  exact (show dirents parser.list = root from settled.root) ▸ closed

theorem Settled.readDirentFailed (settled : Settled code root (.running parser)) :
    Settled code root parser.readDirentFailed := by
  have known : parser.root = some code := settled.code
  unfold Parser.readDirentFailed
  split
  · refine ⟨?_, (dirents_closeAllRemaining _).trans ?_, nofun⟩
    · change some (parser.root.getD errorIo) = _
      rw [known, Option.getD_some]
    · have same : ∀ idx, dirents (closeChildReady parser.list idx) = dirents parser.list :=
        fun idx => dirents_modify _ _ fun _ => rfl
      exact (same _).trans settled.root
  · refine ⟨?_, (dirents_closeAllRemaining _).trans settled.root, nofun⟩
    change some (parser.root.getD errorIo) = _
    rw [known, Option.getD_some]

theorem Settled.followed {next : Parser → Parse}
    (follows : ∀ parser, Settled code root (.running parser) → Settled code root (next parser)) :
    Settled code root parse → Settled code root (match parse with
      | .running parser => next parser
      | .finished parser => .finished parser) := by
  intro settled
  cases parse with
  | running parser => exact follows parser settled
  | finished parser => exact settled

theorem Settled.readPayload (settled : Settled code root (.running parser)) (fuel : Nat) (payload : Bytes) :
    Settled code root (parser.readPayload fuel payload) := by
  induction fuel generalizing parser payload with
  | zero => cases payload <;> exact settled
  | succ fuel ih =>
    cases payload with
    | nil => exact settled
    | cons indicator rest =>
      simp only [Parser.readPayload]
      split
      · cases Dirent.codec.read rest with
        | none => exact settled.readDirentFailed
        | some found => exact ih (settled.record (.entry found.1)) found.2
      · split
        · exact (settled.record .prefetch).followed fun _ started => ih started rest
        · split
          · exact (settled.record .skip).followed fun _ started => ih started rest
          · exact settled.close false errorIo

theorem Settled.receive (settled : Settled code root parse) (message : Message) :
    Settled code root (parse.receive message) := by
  cases parse with
  | finished parser => exact settled
  | running parser =>
    rw [Parse.receive]
    split
    · exact settled.close false message.code
    · have read := settled.readPayload message.payload.length message.payload
      cases result : parser.readPayload message.payload.length message.payload with
      | finished parser' =>
        rw [result] at read
        exact read
      | running parser' =>
        rw [result] at read
        dsimp only
        split
        · exact read.close true errorOK
        · exact read

theorem Settled.foldl_receive (settled : Settled code root parse) (messages : List Message) :
    Settled code root (messages.foldl Parse.receive parse) := by
  induction messages generalizing parse with
  | nil => exact settled
  | cons message rest ih => exact ih (settled.receive message)

/-- The parser is among the entries of the root, or past them. -/
def Rooted (parse : Parse) : Prop :=
  (∃ parser, parse = .running parser ∧ parser.root = none ∧ parser.inPrefetch = false) ∨
    ∃ code root, Settled code root parse

theorem rooted_readPayload (unsent : parser.root = none) (inRoot : parser.inPrefetch = false) (fuel : Nat)
    (payload : Bytes) : Rooted (parser.readPayload fuel payload) := by
  induction fuel generalizing parser payload with
  | zero => cases payload <;> exact .inl ⟨parser, rfl, unsent, inRoot⟩
  | succ fuel ih =>
    cases payload with
    | nil => exact .inl ⟨parser, rfl, unsent, inRoot⟩
    | cons indicator rest =>
      have sections (commit : Bool) := (startSection_settled parser commit).followed
        fun _ started => started.readPayload fuel rest
      simp only [Parser.readPayload]
      split
      · cases Dirent.codec.read rest with
        | none => exact .inr ⟨_, _, rfl, rfl, by rintro _ ⟨⟩⟩
        | some found =>
          refine ih ?_ ?_ found.2
          · rw [← unsent, Parser.addDirent]
            split <;> [rfl; (split <;> rfl)]
          · rw [← inRoot, Parser.addDirent]
            split <;> [rfl; (split <;> rfl)]
      · split
        · exact .inr ⟨_, _, sections true⟩
        · split
          · exact .inr ⟨_, _, sections false⟩
          · exact .inr ⟨_, _, closing_settled parser false errorIo⟩

theorem rooted_receive (unsent : parser.root = none) (inRoot : parser.inPrefetch = false)
    (message : Message) : Rooted ((Parse.running parser).receive message) := by
  rw [Parse.receive]
  split
  · exact .inr ⟨_, _, closing_settled parser false message.code⟩
  · have read := rooted_readPayload unsent inRoot message.payload.length message.payload
    cases result : parser.readPayload message.payload.length message.payload with
    | finished parser' =>
      rw [result] at read
      exact read
    | running parser' =>
      rw [result] at read
      dsimp only
      split
      · exact .inr ⟨_, _, closing_settled parser' true errorOK⟩
      · exact read

end Settled

theorem Stream.settles (stream : Stream lists failed dirs records ok) (nonempty : records ≠ [])
    (unsent : parser.root = none) :
    Settled errorOK (dirents parser.list) (records.foldl Parse.record (.running parser)) := by
  cases stream with
  | ended => exact absurd rfl nonempty
  | broken => exact absurd rfl nonempty
  | next _ _ _ dir dirs sent later =>
    have marked : Parse.record (.running parser) (marker failed) = parser.startSection (!failed) := by
      cases failed <;> rfl
    have started := startSection_settled parser (!failed)
    rw [unsent, Option.getD_none, ← marked] at started
    exact started.foldl_record _

theorem rootParser_ready (list : List DirItem) (pending : List Nat) :
    Ready (rootParser list pending) := ⟨fun _ => rfl, fun _ => rfl⟩

/-! ### What a caller ends up with -/

theorem parse_records (framed : Framed Record.bytes payloads records)
    (writable : ∀ record ∈ records, record.Writable) :
    parseReadDirPlus (payloads.map partialMessage ++ [last]) =
      Parse.receive (records.foldl Parse.record (.running .start)) last := by
  rw [parseReadDirPlus, List.foldl_append, foldl_receive_framed framed writable, List.foldl_cons,
    List.foldl_nil]

theorem foldl_root_start (root : List Dirent) :
    (root.map Record.entry).foldl Parse.record (.running .start) =
      .running (rootParser (root.map rootItem) (dirIndices 0 root)) := by
  have folded := foldl_root root [] []
  rw [List.nil_append, List.nil_append] at folded
  exact folded

/-- The messages fit. If the root arrives, listings are attached to its directories; and where
nothing goes wrong in the file system it does. -/
structure Delivers (sound : Prop) (lists : DirEntry → List Dirent → Prop) (dirs : List DirEntry)
    (root : List Dirent) (messages : List Message) : Prop where
  fits : ∀ message ∈ messages, message.payload.length ≤ Server.room
  attaches : (parseReadDirPlus messages).parser.root = some errorOK →
    Attaches lists false dirs (rootParser (root.map rootItem) (dirIndices 0 root))
      (parseReadDirPlus messages).parser
  arrives : sound → (parseReadDirPlus messages).parser.root = some errorOK

section Delivers

variable {sound : Prop} (writable : ∀ dirent ∈ root, Writable dirent)

include writable

theorem delivers_refused {dirs : List DirEntry} {whole : List Dirent}
    (framed : Framed Record.bytes payloads (root.map .entry))
    (error : last.code ≠ errorOK ∧ last.code ≠ errorPartialResponse) (unsound : ¬sound)
    (fits : ∀ message ∈ payloads.map partialMessage ++ [last], message.payload.length ≤ Server.room) :
    Delivers sound lists dirs whole (payloads.map partialMessage ++ [last]) := by
  refine ⟨fits, ?_, fun isSound => absurd isSound unsound⟩
  rw [parse_records framed (entries_writable writable), foldl_root_start, receive_closing_error _ error]
  intro same
  exact absurd (Option.some.inj same) error.1

theorem delivers_root {out : Packer} (packed : Packed Record.bytes Server.room [] out (root.map .entry)) :
    Delivers sound lists dirs root (out.sent.map partialMessage ++ [⟨errorOK, out.buffer⟩]) := by
  obtain ⟨⟨payloads, before, chunk, isSent, framed, buffered, split⟩, short, within⟩ := packed
  have folded := foldl_root_start root
  have allWritable := entries_writable writable
  rw [split, List.foldl_append] at folded
  rw [split] at allWritable
  have parsed : parseReadDirPlus (out.sent.map partialMessage ++ [⟨errorOK, out.buffer⟩]) =
      .finished ((((rootParser (root.map rootItem) (dirIndices 0 root)).flushPrefetch
        true).closeAllRemaining).sendRoot errorOK) := by
    rw [isSent, List.nil_append, parse_records framed (List.forall_mem_append.mp allWritable).1]
    cases halfway : before.foldl Parse.record (.running .start) with
    | finished parser =>
      rw [halfway, foldl_record_finished] at folded
      cases folded
    | running parser =>
      rw [halfway] at folded
      have inLast := readPayload_records chunk (List.forall_mem_append.mp allWritable).2 parser _
        (Nat.le_refl _)
      simp only [Parse.receive, buffered, inLast, folded, ne_eq, not_true_eq_false, false_and, if_false,
        if_true]
  refine ⟨fits_concat within short, ?_, ?_⟩
  · rw [parsed]
    refine fun _ => ⟨dirents_closeAllRemaining _, ?_⟩
    intro index items attached
    exact .inl ((child_closeAllRemaining _ index).symm.trans attached)
  · rw [parsed]
    exact fun _ => rfl

theorem delivers_stream {first : List Bytes} {messages : List Message} {new : List Record}
    (framedFirst : Framed Record.bytes first (root.map .entry))
    (sends : Sends sound first [] messages new ok) (stream : Stream lists false dirs new ok) :
    Delivers sound lists dirs root messages := by
  obtain ⟨⟨payloads, sent, last, rfl, framed, inside, ending⟩, fits⟩ := sends
  rw [List.nil_append] at inside ending
  obtain ⟨ok', cut, closing⟩ : ∃ ok', Stream lists false dirs sent ok' ∧ Closing ok' last := by
    cases ok with
    | true => exact ⟨true, ending.2 ▸ stream, ending.1⟩
    | false => exact ⟨false, stream.of_prefix inside, ending.1⟩
  have parsed : parseReadDirPlus ((first ++ payloads).map partialMessage ++ [last]) =
      Parse.receive (sent.foldl Parse.record
        (.running (rootParser (root.map rootItem) (dirIndices 0 root)))) last := by
    rw [parse_records (framedFirst.append framed)
      (List.forall_mem_append.mpr ⟨entries_writable writable, cut.writable⟩), List.foldl_append,
      foldl_root_start]
  refine ⟨fits, ?_, ?_⟩
  · rw [parsed]
    exact fun _ => stream_attaches cut _ (rootParser_ready _ _) last closing
  · intro isSound
    rw [parsed]
    by_cases empty : sent = []
    · cases ok with
      | true =>
        rw [empty, ending.1]
        exact (closing_settled _ true errorOK).code
      | false => exact absurd empty (ending.2 isSound)
    · exact ((cut.settles empty rfl).receive last).code

end Delivers

/-- What a caller ends up with: nothing, or the root with listings attached. -/
def Returns (lists : DirEntry → List Dirent → Prop) (dirs : List DirEntry) (root : List Dirent)
    (returned : List DirItem) : Prop :=
  returned = [] ∨ ∃ final : Parser, returned = final.list ∧
    Attaches lists false dirs (rootParser (root.map rootItem) (dirIndices 0 root)) final

theorem Delivers.returns {sound : Prop} {messages : List Message}
    (delivers : Delivers sound lists dirs root messages) :
    Returns lists dirs root (parseReadDirPlus messages).returned := by
  unfold Parse.returned
  split
  · rename_i arrived
    exact .inr ⟨_, rfl, delivers.attaches arrived⟩
  · exact .inl rfl

variable (returns : Returns lists dirs root returned)
include returns

theorem Returns.mono {lists' : DirEntry → List Dirent → Prop}
    (weaker : ∀ dir items, lists dir items → lists' dir items) : Returns lists' dirs root returned := by
  rcases returns with nothing | ⟨final, same, dirents, children⟩
  · exact .inl nothing
  · refine .inr ⟨final, same, dirents, ?_⟩
    intro index items attached
    rcases children index items attached with early | current | ⟨k, dir, pending, atDir, isListed⟩
    · exact .inl early
    · exact .inr (.inl current)
    · exact .inr (.inr ⟨k, dir, pending, atDir, weaker dir items isListed⟩)

/-- A listing that was attached belongs to the directory with the same number in the
server's counting. -/
theorem Returns.listing (found : (returned.filter isDirItem)[k]? = some item)
    (attached : item.child = some items) :
    ∃ dir, dirs[k]? = some dir ∧ lists dir items := by
  rcases returns with rfl | ⟨final, rfl, sameDirents, children⟩
  · cases found
  · obtain ⟨index, atIndex, atList⟩ := dirIndices_getElem? final.list 0 k found
    rw [sameDirents, rootParser, dirents_rootItem, Nat.zero_add] at atIndex
    have atChild : child final.list index = some items := by
      rw [child, atList]
      exact attached
    rcases children index items atChild with early | ⟨_, impossible, _⟩ | ⟨j, dir, pending, atDir, isListed⟩
    · rw [rootParser, child_rootItem] at early
      cases early
    · cases impossible
    · -- Indices occur once, so the two countings agree on the number.
      have same : j = k := by
        obtain ⟨jBelow, jAt⟩ := List.getElem?_eq_some_iff.mp pending
        obtain ⟨kBelow, kAt⟩ := List.getElem?_eq_some_iff.mp atIndex
        exact (dirIndices_nodup 0 root).getElem_inj_iff.mp (jAt.trans kAt.symm)
      subst same
      exact ⟨dir, atDir, isListed⟩

theorem Returns.dirent (found : (returned.filter isDirItem)[k]? = some item) :
    (root.filter isDirMode)[k]? = some item.dirent := by
  rcases returns with rfl | ⟨final, rfl, sameDirents, _⟩
  · cases found
  · rw [rootParser, dirents_rootItem] at sameDirents
    rw [← sameDirents, dirents, List.filter_map, List.getElem?_map]
    exact congrArg (Option.map DirItem.dirent) found

theorem Returns.isDirItem (member : item ∈ returned) (attached : item.child = some items) :
    isDirItem item = true := by
  rcases returns with rfl | ⟨final, rfl, sameDirents, children⟩
  · cases member
  · obtain ⟨index, atList⟩ := List.mem_iff_getElem?.mp member
    have atChild : child final.list index = some items := by
      rw [child, atList]
      exact attached
    rcases children index items atChild with early | ⟨_, impossible, _⟩ | ⟨j, dir, pending, _, _⟩
    · rw [rootParser, child_rootItem] at early
      cases early
    · cases impossible
    · have inside : 0 + index ∈ dirIndices 0 root := by
        rw [Nat.zero_add]
        exact List.mem_of_getElem? pending
      obtain ⟨dirent, atRoot, isDir⟩ := isDirMode_of_mem inside
      rw [rootParser, dirents_rootItem] at sameDirents
      have sameDirent : item.dirent = dirent := by
        have mapped := congrArg (fun list => list[index]?) sameDirents
        simp only [dirents, List.getElem?_map, atList, atRoot, Option.map_some] at mapped
        exact Option.some.inj mapped
      rw [Wsfs.ReadDir.isDirItem, sameDirent, isDir]

omit returns

end Client

end Wsfs.ReadDir
