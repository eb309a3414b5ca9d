/-
The lists that `CmdReadDir` and `CmdReadDirPlus` of the client return for one directory.
Whatever batches the system gives and wherever the messages end, both hold one item for
every entry, in the order of the system and with the attributes that the server looked up.
-/

import Wsfs.Transfer.Listing

namespace Wsfs.Client

open Wsfs.Base Wsfs.Protocol
open Wsfs.ReadDir (Message dirents Settled)
open Wsfs.ReadDir.Client (Listed Parse Parser DirItem)

variable {wire : Wire} {clientMark : Mark} {messages : List Message}

/-! ### CmdReadDir -/

/-- The body of the loop of `CmdReadDir`. -/
def receiveListed (clientMark : Mark) (list : List Dirent) : Call (List Dirent ⊕ (List Dirent × UInt8)) := do
  let rsp ← receive clientMark
  match (Listed.receiving list).receive rsp with
  | .receiving list => return .inl list
  | .done list code =>
      releaseClientMark clientMark
      return .inr (list, code)

theorem completes_listed {list result : List Dirent} {code : UInt8}
    {post : Wire → List Dirent × UInt8 → Prop}
    (folds : wire.inbox.foldl Listed.receive (.receiving list) = .done result code)
    (holds : ∀ after : Wire, after.sent = wire.sent → post after (result, code)) :
    Completes Wire.step wire (Prog.loop (receiveListed wire.clientMark) list) post := by
  obtain ⟨inbox, isInbox⟩ : ∃ inbox, wire.inbox = inbox := ⟨_, rfl⟩
  rw [isInbox] at folds
  induction inbox generalizing wire list with
  | nil => cases folds
  | cons message rest ih =>
    rw [List.foldl_cons] at folds
    apply completes_round
    refine completes_receive rfl isInbox ?_
    cases received : (Listed.receiving list).receive message with
    | receiving list' =>
      rw [received] at folds
      exact completes_pure (@ih { wire with inbox := rest } list' holds folds rfl)
    | done list' code' =>
      rw [received] at folds
      have absorbed : ∀ messages : List Message,
          messages.foldl Listed.receive (.done list' code') = .done list' code' := by
        intro messages
        induction messages with
        | nil => rfl
        | cons _ _ ih => exact ih
      cases (absorbed rest).symm.trans folds
      exact completes_releaseClientMark rfl (completes_pure (holds _ rfl))

theorem completes_cmdReadDir {list : List Dirent} {code : UInt8}
    (received : ReadDir.Client.cmdReadDir messages = .done list code) (path : Bytes) :
    Completes Wire.step (.ready clientMark messages) (cmdReadDir path) fun wire result =>
      wire.sent = [(Protocol.cmdReadDir, .cmdReadDir path)] ∧ result = (list, code) := by
  apply completes_exchange
  exact @completes_listed ⟨clientMark, _, none, _, []⟩ [] list code _ received fun after sent => ⟨sent, rfl⟩

/-! ### CmdReadDirPlus -/

/-- The call returns with the message that completes the root; what comes later does not
change the entries. -/
theorem completes_root {parser : Parser} {post : Wire → List DirItem × UInt8 → Prop}
    (arrives : (wire.inbox.foldl Parse.receive (.running parser)).parser.root = some errorOK)
    (unsent : parser.root = none) (inRoot : parser.inPrefetch = false)
    (holds : ∀ (after : Wire) (list : List DirItem), after.sent = wire.sent →
      dirents list = dirents (wire.inbox.foldl Parse.receive (.running parser)).parser.list →
      post after (list, errorOK)) :
    Completes Wire.step wire (Prog.loop (receiveRoot wire.clientMark) parser) post := by
  obtain ⟨inbox, isInbox⟩ : ∃ inbox, wire.inbox = inbox := ⟨_, rfl⟩
  rw [isInbox] at arrives holds
  induction inbox generalizing wire parser with
  | nil =>
    rw [List.foldl_nil] at arrives
    cases unsent.symm.trans arrives
  | cons message rest ih =>
    rw [List.foldl_cons] at arrives holds
    apply completes_round
    refine completes_receive rfl isInbox ?_
    rcases ReadDir.rooted_receive unsent inRoot message with ⟨parser', going, unsent', inRoot'⟩ |
      ⟨code, root, settled⟩
    · rw [going] at arrives holds
      have again : (Parse.running parser').parser.root = none := unsent'
      simp only [going, again]
      exact completes_pure (@ih { wire with inbox := rest } parser' unsent' inRoot' holds arrives rfl)
    · have later := settled.foldl_receive rest
      cases later.code.symm.trans arrives
      simp only [settled.code]
      refine completes_pure (holds _ _ rfl ?_)
      rw [Parse.returned, if_pos settled.code]
      exact settled.root.trans later.root.symm

theorem completes_cmdReadDirPlus
    (arrives : (ReadDir.Client.parseReadDirPlus messages).parser.root = some errorOK) (path : Bytes) :
    Completes Wire.step (.ready clientMark messages) (cmdReadDirPlus path) fun wire (list, code) =>
      wire.sent = [(Protocol.cmdReadDirPlus, .cmdReadDirPlus path)] ∧ code = errorOK ∧
        dirents list = dirents (ReadDir.Client.parseReadDirPlus messages).parser.list := by
  apply completes_exchange
  exact @completes_root ⟨clientMark, _, none, _, []⟩ _ _ arrives rfl rfl
    fun after list sent same => ⟨sent, rfl, same⟩

end Wsfs.Client

namespace Wsfs.Transfer

open Wsfs.Base Wsfs.Protocol Wsfs.Unix Wsfs.Util Wsfs.Server.Commands
open Wsfs.Server hiding Message
open Wsfs.ReadDir (NamedReads Sound)
open Wsfs.ReadDir.Server (Files DirEntry Batch Named NamedIn Faulty ensureDirBase contents)

/-! ### What a run has read -/

/-- A directory that was not opened in the run would be empty. -/
def observed (opened : List (Except Errno (List Batch))) : ReadDir.Server.Reads :=
  fun used _ => (opened[used]?).getD (.ok [])

theorem consistent_observed (opened : List (Except Errno (List Batch))) :
    Consistent opened (observed opened) := by
  intro number answer path found
  have same : observed opened number path = answer := by
    rw [observed, found, Option.getD_some]
  match answer with
  | .error err => exact same
  | .ok batches => exact ⟨[], by rw [same, List.append_nil]⟩

/-- Directories that can be opened are good, and only then may one fail to open. -/
def Held (good : Batch → Prop) (fails : Prop) : Except Errno (List Batch) → Prop
  | .ok file => ∀ batch ∈ file, good batch
  | .error _ => fails

section Held

variable {good : Batch → Prop} {fails : Prop} {history : List ServerEvent}

theorem held_directories (opens : ∀ path err, ⟨.openDir path, .error err⟩ ∈ history → fails)
    (reads : ∀ dir n batch, ⟨.readDir dir n, batch⟩ ∈ history → good batch) :
    ∀ answer ∈ directories history, Held good fails answer := by
  refine List.foldlRecOn (motive := fun opened => ∀ answer ∈ opened, Held good fails answer) history
    openedAfter nofun ?_
  intro opened held event member
  have one : ∀ answer, Held good fails answer → ∀ other ∈ opened ++ [answer], Held good fails other :=
    fun answer holds => List.forall_mem_append.mpr ⟨held, List.forall_mem_singleton.mpr holds⟩
  obtain ⟨op, result⟩ := event
  cases op with
  | openDir path =>
    cases result with
    | ok dir => exact one _ nofun
    | error err => exact one _ (opens path err member)
  | readDir dir n =>
    refine List.forall_mem_append.mpr ⟨fun answer inFront => held answer (List.mem_of_mem_dropLast inFront), ?_⟩
    intro answer isLast
    obtain ⟨last, atLast, rfl⟩ := Option.map_eq_some_iff.mp (Option.mem_toList.mp isLast)
    have before := held last (List.mem_of_getLast? atLast)
    match last with
    | .error _ => exact before
    | .ok file =>
      exact List.forall_mem_append.mpr ⟨before, List.forall_mem_singleton.mpr (reads dir n result member)⟩
  | _ => exact held

theorem held_observed {opened : List (Except Errno (List Batch))}
    (held : ∀ answer ∈ opened, Held good fails answer) (number : Nat) (path : Bytes) :
    Held good fails (observed opened number path) := by
  rw [observed]
  cases found : opened[number]? with
  | none => exact nofun
  | some answer => exact held answer (List.mem_of_getElem? found)

end Held

theorem Lists.answered {files : Files} {apath : Bytes} {entries : List DirEntry}
    {world : World Effect Effect.Result} {history trace : List ServerEvent}
    (lists : Lists files apath entries world) (follows : Follows world history trace) :
    ∀ event ∈ trace, Answers files event := by
  induction follows with
  | nil => exact nofun
  | cons op _ ih => exact List.forall_mem_cons.mpr ⟨lists.answers _ op, ih⟩

/-- The messages of a run are those of directories that are read as it has read them. -/
theorem Tells.observed {run : ReadDir.Server.Reads → List ReadDir.Message}
    {listed : List Batch → List DirEntry × Option Errno} {files : Files} {apath : Bytes}
    {entries : List DirEntry} {world : World Effect Effect.Result} {clientMark : UInt8}
    {trace : List ServerEvent}
    (told : Tells run listed apath ((listTerms files clientMark).ghostAt ([] ++ trace)))
    (lists : Lists files apath entries world) (follows : Follows world [] trace)
    (faulty : ∀ batches errno, (listed batches).2 = some errno → Faulty batches) :
    ∃ reads, NamedReads reads ∧ run reads = sentOn clientMark ([] ++ trace) ∧
      (([] ++ trace).any failedListing = false → Sound reads ∧ ∃ file, reads 0 apath = .ok file ∧
        (listed file).2 = none ∧ (listed file).1 = entries) := by
  rw [List.nil_append] at told ⊢
  rw [ghostAt_listTerms] at told
  obtain ⟨sends, answer, atHead, complete⟩ := told
  have given := lists.answered follows
  refine ⟨_, ?_, sends _ (consistent_observed _), ?_⟩
  · intro number path file isOpen
    have held := held_observed (@held_directories (fun batch => ∀ entry ∈ batch.1, Named entry) True trace
      (fun _ _ _ => trivial) fun _ _ _ member => given _ member) number path
    rw [isOpen] at held
    exact held
  · intro good
    rw [List.any_eq_false] at good
    have sound : Sound (Transfer.observed (directories trace)) := by
      intro number path
      have held := held_observed (@held_directories (fun batch => ∀ errno, batch.2 ≠ some (.os errno)) False
        trace (fun _ _ member => good _ member rfl) (by
          rintro dir n ⟨batch, _⟩ member errno rfl
          exact good _ member rfl)) number path
      cases found : Transfer.observed (directories trace) number path with
      | error _ =>
        rw [found] at held
        exact held.elim
      | ok file =>
        rw [found] at held
        exact ⟨file, rfl, fun ⟨batch, errno, member⟩ => held _ member errno rfl⟩
    obtain ⟨file, isOpen, faultless⟩ := sound 0 apath
    obtain rfl : answer = .ok file := by
      rw [← isOpen, Transfer.observed, ← List.head?_eq_getElem?, atHead, Option.getD_some]
    have whole : (listed file).2 = none := by
      cases failed : (listed file).2 with
      | none => rfl
      | some errno => exact absurd (faulty file errno failed) faultless
    obtain ⟨dir, first, ended, read⟩ := complete file rfl whole
    exact ⟨sound, file, isOpen, whole, read.symm.trans (lists.entries_read follows first ended)⟩

theorem rootContents_faulty (file : List Batch) (errno : Errno)
    (failed : (ReadDir.rootContents file).2 = some errno) : Faulty file := by
  have later : ∀ first f, (contents f).2 = some errno → Faulty (first :: f) := by
    intro first f failed
    obtain ⟨batch, errno', member⟩ := ReadDir.contents_faulty failed
    exact ⟨batch, errno', List.mem_cons_of_mem _ member⟩
  match file with
  | [] => cases failed
  | (first, some (.os errno')) :: _ => exact ⟨first, errno', List.mem_cons_self⟩
  | (first, some .eof) :: f => exact later _ f failed
  | (first, none) :: f => exact later _ f failed

/-! ### The two commands -/

/-- The directory at the path is listed by both commands, on marks and in worlds of their
own. Both end, with messages that fit; and if no directory could not be opened or read, the
client returns without an error, from both, one item for each entry. -/
theorem listings_agree (files : Files) (s : Commands.Session) (path : Bytes) (entries : List DirEntry)
    (clientMark clientMark' : UInt8) (world world' : World Effect Effect.Result)
    (valid : isUrlValid path = true) (lists : Lists files (s.storagePath ++ path) entries world)
    (lists' : Lists files (s.storagePath ++ path) entries world') :
    (Ends world [] (s.cmdReadDir clientMark path) fun history _ =>
      (∀ message ∈ sentOn clientMark history, 2 + message.payload.length ≤ maxMsgSize) ∧
      (history.any failedListing = false →
        Ensures Client.Wire.step (.ready clientMark (sentOn clientMark history)) (Client.cmdReadDir path)
          fun wire (list, code) => wire.sent = [(Protocol.cmdReadDir, .cmdReadDir path)] ∧
            code = errorOK ∧
            list = entries.map (files.lookupDirentSafe s.toSession (ensureDirBase (s.storagePath ++ path))))) ∧
    (Ends world' [] (s.cmdReadDirPlus clientMark' path) fun history _ =>
      (∀ message ∈ sentOn clientMark' history, 2 + message.payload.length ≤ maxMsgSize) ∧
      (history.any failedListing = false →
        Ensures Client.Wire.step (.ready clientMark' (sentOn clientMark' history))
          (Client.cmdReadDirPlus path) fun wire (list, code) =>
            wire.sent = [(Protocol.cmdReadDirPlus, .cmdReadDirPlus path)] ∧ code = errorOK ∧
            list.map (·.dirent) =
              entries.map (files.lookupDirentSafe s.toSession (ensureDirBase (s.storagePath ++ path))))) := by
  have fits : ∀ payload : Bytes, payload.length ≤ ReadDir.Server.room → 2 + payload.length ≤ maxMsgSize := by
    intro payload short
    change payload.length ≤ maxMsgSize - 2 at short
    have : 2 ≤ maxMsgSize := by decide
    omega
  constructor
  · obtain ⟨trace, value, runs, follows, told⟩ :=
      cmdReadDir_total valid world (lists.admits clientMark) [] .nil rfl
    obtain ⟨reads, named, sent, complete⟩ := told.observed lists follows fun _ _ => ReadDir.contents_faulty
    refine ⟨trace, value, runs, follows, ?_, ?_⟩
    · intro message member
      exact fits _ (ReadDir.cmdReadDir_fits named message (sent ▸ member))
    · intro good
      obtain ⟨_, file, isOpen, whole, rfl⟩ := complete good
      have done := @ReadDir.cmdReadDir_done files _ _ _ _ named valid isOpen whole
      rw [← sent]
      refine Completes.ensures Client.Wire.step_decides
        ((Client.completes_cmdReadDir done path).mono ?_)
      rintro wire _ ⟨asked, rfl⟩
      exact ⟨asked, rfl, rfl⟩
  · obtain ⟨trace, value, runs, follows, told⟩ :=
      cmdReadDirPlus_total valid world' (lists'.admits clientMark') [] .nil rfl
    obtain ⟨reads, named, sent, complete⟩ := told.observed lists' follows rootContents_faulty
    have delivers := @ReadDir.cmdReadDirPlus_delivers files s.toSession reads path named
    refine ⟨trace, value, runs, follows, ?_, ?_⟩
    · intro message member
      exact fits _ (delivers.fits message (sent ▸ member))
    · intro good
      obtain ⟨sound, file, isOpen, whole, rfl⟩ := complete good
      have arrives := delivers.arrives ⟨valid, sound⟩
      have same := (delivers.attaches arrives).1
      rw [← sent]
      refine Completes.ensures Client.Wire.step_decides
        ((Client.completes_cmdReadDirPlus arrives path).mono ?_)
      rintro wire ⟨list, code⟩ ⟨asked, rfl, listed⟩
      refine ⟨asked, rfl, listed.trans (same.trans ?_)⟩
      rw [ReadDir.rootEntries, isOpen]
      exact ReadDir.dirents_rootItem _

/-! ### A directory with two entries -/

/-- Every directory gives what is left of the entries and then its end. -/
def dirWorld (entries : List DirEntry) : World Effect Effect.Result := fun history op =>
  match op with
  | .openDir _ => .ok 3
  | .readDir _ _ => (entries.drop (rootRead history).entries.length, some .eof)
  | op => linkWorld [] ⟨[0], List.cons_ne_nil 0 []⟩ history op

/-- All lookups fail, as they do in `dirWorld`. -/
def unreadableFiles : Files :=
  ⟨fun _ _ => .error .eio, fun path => if path = [] then .ok ⟨[0], List.cons_ne_nil 0 []⟩ else .error .eio⟩

section DirWorld

variable {entries : List DirEntry}

theorem dirWorld_reads {history : List ServerEvent} (follows : Follows (dirWorld entries) [] history) :
    (rootRead history).entries <+: entries ∧ (streakAfter history).count = 0 := by
  induction history using List.reverseRecOn with
  | nil => exact ⟨List.nil_prefix, rfl⟩
  | append_singleton history event ih =>
    obtain ⟨before, after⟩ := follows.split
    obtain ⟨isPrefix, ended⟩ := ih before
    rw [rootRead, streakAfter, List.foldl_append, List.foldl_append]
    rw [List.nil_append] at after
    cases after with
    | cons op _ =>
      cases op with
      | openDir path =>
        change ((rootRead history).opened path 3).entries <+: entries ∧ 0 = 0
        unfold Root.opened
        split
        · exact ⟨isPrefix, rfl⟩
        · exact ⟨isPrefix, rfl⟩
      | readDir dir n =>
        change ((rootRead history).read dir _ (some .eof)).entries <+: entries ∧ 0 = 0
        unfold Root.read
        split
        · obtain ⟨rest, isRest⟩ := isPrefix
          refine ⟨⟨[], ?_⟩, rfl⟩
          rw [List.append_nil, ← isRest, List.drop_left]
        · exact ⟨isPrefix, rfl⟩
      | _ => exact ⟨isPrefix, ended⟩

theorem dirWorld_lists (apath : Bytes) (named : ∀ entry ∈ entries, Named entry) :
    Lists unreadableFiles apath entries (dirWorld entries) where
  answers := by
    intro history op
    cases op with
    | stat path followSymlink => rfl
    | readlink path => rfl
    | readDir dir n =>
      intro entry present
      exact named entry (List.mem_of_mem_drop present)
    | _ => trivial
  whole := by
    intro history dir n follows _ _ _
    obtain ⟨rest, isRest⟩ := (dirWorld_reads follows).1
    change (rootRead history).entries ++ entries.drop (rootRead history).entries.length = entries
    rw [← isRest, List.drop_left]
  finite := by
    refine ⟨0, ?_⟩
    intro history follows
    exact Nat.le_of_eq (dirWorld_reads follows).2

end DirWorld

private def twoEntries : List DirEntry := [⟨[0x61], false⟩, ⟨[0x64], true⟩]

theorem listings_agree_two_entries :
    (Ends (dirWorld twoEntries) [] (sampleSession.cmdReadDir 1 [slash]) fun history _ =>
      (∀ message ∈ sentOn 1 history, 2 + message.payload.length ≤ maxMsgSize) ∧
      (history.any failedListing = false →
        Ensures Client.Wire.step (.ready 1 (sentOn 1 history)) (Client.cmdReadDir [slash])
          fun wire (list, code) => wire.sent = [(Protocol.cmdReadDir, .cmdReadDir [slash])] ∧
            code = errorOK ∧
            list = twoEntries.map (unreadableFiles.lookupDirentSafe sampleSession.toSession
              (ensureDirBase (sampleSession.storagePath ++ [slash]))))) ∧
    (Ends (dirWorld twoEntries) [] (sampleSession.cmdReadDirPlus 2 [slash]) fun history _ =>
      (∀ message ∈ sentOn 2 history, 2 + message.payload.length ≤ maxMsgSize) ∧
      (history.any failedListing = false →
        Ensures Client.Wire.step (.ready 2 (sentOn 2 history)) (Client.cmdReadDirPlus [slash])
          fun wire (list, code) => wire.sent = [(Protocol.cmdReadDirPlus, .cmdReadDirPlus [slash])] ∧
            code = errorOK ∧ list.map (·.dirent) =
              twoEntries.map (unreadableFiles.lookupDirentSafe sampleSession.toSession
              (ensureDirBase (sampleSession.storagePath ++ [slash]))))) := by
  have named : ∀ entry ∈ twoEntries, Named entry := by
    unfold Named
    decide
  exact listings_agree unreadableFiles sampleSession [slash] twoEntries 1 2 _ _ (by decide)
    (dirWorld_lists _ named) (dirWorld_lists _ named)

end Wsfs.Transfer
