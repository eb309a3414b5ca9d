/-
What `cmdReadDirPlus` sends after the root entries: a stream of sections, one for each
directory that it prefetches, in the order of the directory entries.
-/

import Wsfs.ReadDir.Server

namespace Wsfs.ReadDir

open Wsfs.Base Wsfs.Protocol Wsfs.Unix Wsfs.Util
open Wsfs.ReadDir.Server (Files Session DirEntry Batch Reads PrefetchDirState)

/-! ### The stream of sections -/

/-- What begins a section, by whether the section before it failed. -/
def marker (failed : Bool) : Record := if failed then .skip else .prefetch

/-- The records after the root: sections for the directories in turn, each whole unless
it failed. The stream may break off; it ends well only after a whole section. -/
inductive Stream (lists : DirEntry → List Dirent → Prop) :
    Bool → List DirEntry → List Record → Bool → Prop
  | ended (dirs : List DirEntry) : Stream lists false dirs [] true
  | broken (failed : Bool) (dirs : List DirEntry) : Stream lists failed dirs [] false
  | next (before failed ok : Bool) (dir : DirEntry) (dirs : List DirEntry) (sent : List Dirent)
      (later : List Record) :
      (failed = false → lists dir sent) → (∀ dirent ∈ sent, Writable dirent) →
      Stream lists failed dirs later ok →
        Stream lists before (dir :: dirs) (marker before :: (sent.map .entry ++ later)) ok

variable {ok : Bool} {records : List Record} {lists : DirEntry → List Dirent → Prop} {before : Bool}
  {dirs : List DirEntry}

theorem Stream.of_prefix {cut : List Record} (stream : Stream lists before dirs records ok)
    (short : cut <+: records) : Stream lists before dirs cut false := by
  induction stream generalizing cut with
  | ended dirs =>
    rw [List.prefix_nil.mp short]
    exact .broken false dirs
  | broken failed dirs =>
    rw [List.prefix_nil.mp short]
    exact .broken failed dirs
  | next before failed ok dir dirs sent later whole writable _ ih =>
    cases cut with
    | nil => exact .broken before (dir :: dirs)
    | cons record rest =>
      obtain ⟨rfl, inside⟩ := List.cons_prefix_cons.mp short
      rcases List.prefix_or_prefix_of_prefix inside (List.prefix_append (sent.map .entry) later)
        with inSection | ⟨after, rfl⟩
      · -- The cut is inside this section: what is left of it counts as failed.
        have taken := List.prefix_iff_eq_take.mp inSection
        rw [← List.map_take, ← List.append_nil (List.map _ _)] at taken
        rw [taken]
        exact .next before true false dir dirs _ [] nofun
          (fun dirent member => writable dirent (List.mem_of_mem_take member)) (.broken true dirs)
      · exact .next before failed false dir dirs sent after whole writable
          (ih ((List.prefix_append_right_inj _).mp inside))

theorem Stream.extend (stream : Stream lists before dirs records ok) (more : List DirEntry) :
    Stream lists before (dirs ++ more) records ok := by
  induction stream with
  | ended dirs => exact .ended _
  | broken failed dirs => exact .broken failed _
  | next before failed ok dir dirs sent later whole writable _ ih =>
    exact .next before failed ok dir _ sent later whole writable ih

theorem entries_writable {sent : List Dirent} (writable : ∀ dirent ∈ sent, Writable dirent) :
    ∀ record ∈ sent.map Record.entry, record.Writable := by
  intro record member
  obtain ⟨dirent, isSent, rfl⟩ := List.mem_map.mp member
  exact writable dirent isSent

theorem Stream.writable (stream : Stream lists before dirs records ok) :
    ∀ record ∈ records, record.Writable := by
  induction stream with
  | ended dirs => exact nofun
  | broken failed dirs => exact nofun
  | next before failed ok dir dirs sent later _ writable _ ih =>
    refine List.forall_mem_cons.mpr ⟨?_, List.forall_mem_append.mpr ⟨entries_writable writable, ih⟩⟩
    cases before <;> exact trivial

/-! ### The server sends a stream -/

/-- After the first payloads the messages carry the records and the new ones after them: all
of them before a final success, some of them before a final error. Where nothing goes wrong
in the file system an error does not come at once. -/
structure Sends (sound : Prop) (first : List Bytes) (records : List Record) (messages : List Message)
    (new : List Record) (ok : Bool) : Prop where
  framed : ∃ payloads sent last, messages = (first ++ payloads).map partialMessage ++ [last] ∧
    Framed Record.bytes payloads sent ∧ sent <+: records ++ new ∧
    if ok then last = ⟨errorOK, []⟩ ∧ sent = records ++ new
    else (last.code ≠ errorOK ∧ last.code ≠ errorPartialResponse) ∧ (sound → sent ≠ [])
  fits : ∀ message ∈ messages, message.payload.length ≤ Server.room

theorem Sends.grow {sound : Prop} {first : List Bytes} {more new : List Record} {messages : List Message}
    (sends : Sends sound first (records ++ more) messages new ok) :
    Sends sound first records messages (more ++ new) ok := by
  obtain ⟨⟨payloads, sent, last, same, framed, inside, ending⟩, fits⟩ := sends
  rw [List.append_assoc] at inside ending
  exact ⟨⟨payloads, sent, last, same, framed, inside, ending⟩, fits⟩

theorem osErrCode_fails (errno : Errno) :
    Server.osErrCode errno ≠ errorOK ∧ Server.osErrCode errno ≠ errorPartialResponse := by
  cases errno with
  | other code =>
    exact ⟨(by decide : errorUnknown ≠ errorOK), (by decide : errorUnknown ≠ errorPartialResponse)⟩
  | _ => exact ⟨by decide, by decide⟩

theorem fits_concat {payloads : List Bytes} {last : Message}
    (within : ∀ payload ∈ payloads, payload.length ≤ Server.room)
    (fits : last.payload.length ≤ Server.room) :
    ∀ message ∈ payloads.map partialMessage ++ [last], message.payload.length ≤ Server.room := by
  intro message present
  cases List.mem_append.mp present with
  | inl earlier =>
    obtain ⟨payload, isSent, rfl⟩ := List.mem_map.mp earlier
    exact within payload isSent
  | inr atEnd =>
    rw [List.mem_singleton.mp atEnd]
    exact fits

section Server

open Wsfs.ReadDir.Server

variable {files : Files} {session : Session} {reads : Reads} {dirBase : Bytes}
  {state : PrefetchDirState} {first rest : List DirEntry} {used used' fuel : Nat} {entry : DirEntry}
  {rsp : Packer} {sent : List Bytes}

/-- No directory fails to open or to be read. -/
def Sound (reads : Reads) : Prop := ∀ number path, ∃ file, reads number path = .ok file ∧ ¬Faulty file

def NamedReads (reads : Reads) : Prop :=
  ∀ number path file, reads number path = .ok file → NamedIn file

/-- What a section has of a directory of the root if it is whole. -/
def Prefetched (files : Files) (session : Session) (reads : Reads) (dirBase : Bytes) (entry : DirEntry)
    (sent : List Dirent) : Prop :=
  ∃ used state later, preparePrefetchDir reads dirBase used entry = .ok state ∧
    untilEnd state.file = some later ∧
    sent = (state.pending ++ later).map (files.lookupDirentSafe session state.absPath)

theorem nextPrefetchDir_found
    (found : nextPrefetchDir reads dirBase first used = (.ok (some state), rest, used')) :
    ∃ entry, first.filter DirEntry.isDir = entry :: rest.filter DirEntry.isDir ∧
      preparePrefetchDir reads dirBase used entry = .ok state ∧ rest.length < first.length := by
  induction first with
  | nil => cases found
  | cons entry others ih =>
    simp only [nextPrefetchDir] at found
    split at found
    · cases found
    · cases isDir : entry.isDir with
      | false =>
        rw [isDir] at found
        obtain ⟨picked, filtered, prepared, fewer⟩ := ih found
        refine ⟨picked, ?_, prepared, Nat.lt_succ_of_lt fewer⟩
        rw [List.filter_cons_of_neg (by rw [isDir]; decide), filtered]
      | true =>
        rw [isDir] at found
        cases prepared : preparePrefetchDir reads dirBase used entry with
        | error errno => rw [prepared] at found; cases found
        | ok state' =>
          rw [prepared] at found
          cases found
          exact ⟨entry, List.filter_cons_of_pos isDir, prepared, Nat.lt_succ_self _⟩

theorem nextPrefetchDir_none (below : used < maxPrefetchDirs)
    (found : nextPrefetchDir reads dirBase first used = (.ok none, rest, used')) :
    rest = [] ∧ used' = used ∧ first.filter DirEntry.isDir = [] := by
  induction first with
  | nil => cases found; exact ⟨rfl, rfl, rfl⟩
  | cons entry others ih =>
    simp only [nextPrefetchDir, if_neg (Nat.not_le.mpr below)] at found
    cases isDir : entry.isDir with
    | false =>
      rw [isDir] at found
      obtain ⟨empty, same, filtered⟩ := ih found
      exact ⟨empty, same, by rw [List.filter_cons_of_neg (by rw [isDir]; decide), filtered]⟩
    | true =>
      rw [isDir] at found
      cases prepared : preparePrefetchDir reads dirBase used entry with
      | error errno => rw [prepared] at found; cases found
      | ok state => rw [prepared] at found; cases found

theorem preparePrefetchDir_ok (prepared : preparePrefetchDir reads dirBase used entry = .ok state) :
    state.absPath = dirBase ++ entry.name ++ [slash] ∧ ∃ file, reads (used + 1) state.absPath = .ok file ∧
      (file = [] ∧ state.pending = [] ∧ state.file = [] ∨
        ∃ err, file = (state.pending, err) :: state.file ∧ (err = none ∨ err = some .eof)) := by
  simp only [preparePrefetchDir] at prepared
  split at prepared
  · cases prepared
  · rename_i opened
    cases prepared
    exact ⟨rfl, [], opened, .inl ⟨rfl, rfl, rfl⟩⟩
  · cases prepared
  · rename_i entries err later noError opened
    cases prepared
    refine ⟨rfl, _, opened, .inr ⟨err, rfl, ?_⟩⟩
    match err with
    | none => exact .inl rfl
    | some .eof => exact .inr rfl
    | some (.os errno) => exact absurd rfl (noError errno)

theorem nextPrefetchDir_sound (sound : Sound reads) {errno : Errno} :
    nextPrefetchDir reads dirBase first used ≠ (.error errno, rest, used') := by
  intro failed
  induction first with
  | nil => cases failed
  | cons entry others ih =>
    simp only [nextPrefetchDir] at failed
    split at failed
    · cases failed
    · split at failed
      · exact ih failed
      · obtain ⟨file, opened, faultless⟩ := sound (used + 1) (dirBase ++ entry.name ++ [slash])
        simp only [preparePrefetchDir, opened] at failed
        split at failed
        · rename_i same
          cases same
        · cases failed
        · rename_i batch errno' later same
          cases same
          exact faultless ⟨batch, errno', List.mem_cons_self⟩
        · cases failed

theorem entries_length {items : List Dirent} (writable : ∀ dirent ∈ items, Writable dirent) :
    32 * items.length ≤ ((items.map Record.entry).flatMap Record.bytes).length := by
  induction items with
  | nil => exact Nat.zero_le _
  | cons item rest ih =>
    have later := ih fun other member => writable other (List.mem_cons_of_mem _ member)
    have length := direntBytes_length (writable item List.mem_cons_self)
    rw [getDirentRequiredSize] at length
    simp only [List.map_cons, List.flatMap_cons, List.length_append, Record.bytes, List.length_cons, length]
    omega

/-- A section that fails although the directory can be read has very many entries. -/
theorem streamPrefetchDir_sends (named : NamedReads reads)
    (prepared : preparePrefetchDir reads dirBase used entry = .ok state)
    (packed : Packed Record.bytes room sent rsp records) :
    ∃ out failed items, streamPrefetchDir files session rsp state = (out, failed) ∧
      Packed Record.bytes room sent out (records ++ items.map .entry) ∧
      (∀ dirent ∈ items, Writable dirent) ∧
      (failed = false → Prefetched files session reads dirBase entry items) ∧
      (failed = true → Sound reads → maxPrefetchDirEntries ≤ items.length) := by
  obtain ⟨_, file, opened, shape⟩ := preparePrefetchDir_ok prepared
  have namedFile := named _ _ file opened
  have inFile : (∀ entry ∈ state.pending, Named entry) ∧ NamedIn state.file := by
    rcases shape with ⟨_, noneLeft, atEnd⟩ | ⟨err, rfl, _⟩
    · rw [noneLeft, atEnd]
      exact ⟨nofun, nofun⟩
    · exact List.forall_mem_cons.mp namedFile
  obtain ⟨out, failed, streamed, isStreamed, outPacked, streamedNamed, outcome⟩ :=
    @streamPrefetchLoop_sends files session state.absPath state.file state.pending sent rsp 0 records
      inFile.1 inFile.2 packed
  refine ⟨out, failed, _, isStreamed, outPacked, ?_, ?_, ?_⟩
  · intro dirent present
    exact (map_fitting files session state.absPath streamedNamed dirent present).writable
  · rintro rfl
    obtain ⟨later, ended, rfl⟩ := outcome
    exact ⟨used, state, later, prepared, ended, rfl⟩
  · rintro rfl sound
    rcases outcome with ⟨batch, errno, faulty⟩ | many
    · exfalso
      obtain ⟨file', opened', faultless⟩ := sound (used + 1) state.absPath
      rw [opened] at opened'
      cases opened'
      rcases shape with ⟨_, _, atEnd⟩ | ⟨err, rfl, _⟩
      · rw [atEnd] at faulty
        cases faulty
      · exact faultless ⟨batch, errno, List.mem_cons_of_mem _ faulty⟩
    · rwa [Nat.zero_add, ← List.length_map] at many

/-- Entries that have not been sent are all in the buffer, so there are not very many. -/
theorem Packed.sent_entries {items : List Dirent}
    (packed : Packed Record.bytes room sent rsp (records ++ items.map .entry))
    (writable : ∀ dirent ∈ items, Writable dirent) :
    ∃ payloads earlier, rsp.sent = sent ++ payloads ∧ Framed Record.bytes payloads earlier ∧
      earlier <+: records ++ items.map .entry ∧
      (maxPrefetchDirEntries ≤ items.length → earlier ≠ []) := by
  obtain ⟨⟨payloads, earlier, last, isSent, framed, buffered, split⟩, fits, _⟩ := packed
  refine ⟨payloads, earlier, isSent, framed, ⟨last, split.symm⟩, ?_⟩
  rintro many rfl
  have long := entries_length writable
  rw [buffered, ← List.nil_append last, ← split, List.flatMap_append, List.length_append] at fits
  change _ ≤ 8190 at fits
  change 1000 ≤ _ at many
  omega

theorem Packed.mark (packed : Packed Record.bytes room sent rsp records) (failed : Bool) :
    Packed Record.bytes room sent (rsp.put room (marker failed).bytes) (records ++ [marker failed]) :=
  packed.put (marker failed) (record_small (by cases failed <;> rintro _ ⟨⟩))

/-- The rest of a section that has begun, and the stream after it. -/
def Tail (lists : DirEntry → List Dirent → Prop) (dir : DirEntry) (dirs : List DirEntry)
    (new : List Record) (ok : Bool) : Prop :=
  ∃ failed items later, new = items.map .entry ++ later ∧ (failed = false → lists dir items) ∧
    (∀ dirent ∈ items, Writable dirent) ∧ Stream lists failed dirs later ok

def OuterSends (files : Files) (session : Session) (reads : Reads) (dirBase : Bytes) (sent : List Bytes)
    (fuel : Nat) : Prop :=
  ∀ (first : List DirEntry) (used : Nat) (payloads : List Bytes) (records : List Record),
    2 * first.length + 1 ≤ fuel → Framed Record.bytes payloads records →
    (∀ payload ∈ sent ++ payloads, payload.length ≤ room) →
    ∃ new ok, Sends (Sound reads) sent records
        (prefetchLoop files session reads dirBase fuel none first used ⟨sent ++ payloads, []⟩) new ok ∧
      Stream (Prefetched files session reads dirBase) false (first.filter DirEntry.isDir) new ok

def InnerSends (files : Files) (session : Session) (reads : Reads) (dirBase : Bytes) (sent : List Bytes)
    (fuel : Nat) : Prop :=
  ∀ (entry : DirEntry) (state : PrefetchDirState) (first : List DirEntry) (opened used : Nat) (rsp : Packer)
    (records : List Record), 2 * first.length + 2 ≤ fuel →
    preparePrefetchDir reads dirBase opened entry = .ok state → Packed Record.bytes room sent rsp records →
    ∃ new ok, Sends (Sound reads) sent records
        (prefetchLoop files session reads dirBase fuel (some state) first used rsp) new ok ∧
      Tail (Prefetched files session reads dirBase) entry (first.filter DirEntry.isDir) new ok

theorem OuterSends.succ (outer : OuterSends files session reads dirBase sent fuel)
    (inner : InnerSends files session reads dirBase sent fuel) :
    OuterSends files session reads dirBase sent (fuel + 1) := by
  intro first used payloads records enough framed within
  by_cases exceeds : first = [] ∨ used ≥ maxPrefetchDirs
  · refine ⟨[], true, ⟨⟨payloads, records, ⟨errorOK, []⟩, ?_, framed, ?_, rfl, ?_⟩, ?_⟩, .ended _⟩
    · simp only [prefetchLoop, if_pos exceeds]
    · rw [List.append_nil]
    · rw [List.append_nil]
    · simp only [prefetchLoop, if_pos exceeds]
      exact fits_concat within (Nat.zero_le _)
  · rcases found : nextPrefetchDir reads dirBase first used with ⟨result, rest, used'⟩
    match result with
    | .error errno =>
      refine ⟨[], false, ⟨⟨payloads, records, errorMessage errorIo "read prefetch dir failed", ?_, framed,
        by rw [List.append_nil], ⟨by decide, by decide⟩, ?_⟩, ?_⟩, .broken _ _⟩
      · simp only [prefetchLoop, if_neg exceeds, found]
      · intro sound
        exact absurd found (nextPrefetchDir_sound sound)
      · simp only [prefetchLoop, if_neg exceeds, found]
        exact fits_concat within (errorMessage_fits _ _)
    | .ok none =>
      have below : used < maxPrefetchDirs := Nat.not_le.mp fun reached => exceeds (.inr reached)
      obtain ⟨rfl, rfl, filtered⟩ := nextPrefetchDir_none below found
      have nonempty := List.length_pos_iff.mpr fun empty => exceeds (.inl empty)
      have enough' : 2 * ([] : List DirEntry).length + 1 ≤ fuel := by
        rw [List.length_nil]
        omega
      obtain ⟨new, ok, sends, stream⟩ := outer [] used' payloads records enough' framed within
      refine ⟨new, ok, ?_, by rwa [filtered]⟩
      simpa only [prefetchLoop, if_neg exceeds, found] using sends
    | .ok (some state) =>
      obtain ⟨entry, filtered, prepared, fewer⟩ := nextPrefetchDir_found found
      obtain ⟨new, ok, sends, failed, whole, later, rfl, complete, writable, stream⟩ :=
        inner entry state rest used used' _ _ (by omega) prepared
          (Packed.mark (.of_framed framed within) false)
      have same : prefetchLoop files session reads dirBase (fuel + 1) none first used ⟨sent ++ payloads, []⟩ =
          prefetchLoop files session reads dirBase fuel (some state) rest used'
            ((⟨sent ++ payloads, []⟩ : Packer).put room (marker false).bytes) := by
        simp only [prefetchLoop, if_neg exceeds, found, writePrefetchIndicator_eq]
        rfl
      refine ⟨_, ok, same ▸ sends.grow, ?_⟩
      rw [filtered]
      exact .next false failed ok entry _ whole later complete writable stream

theorem InnerSends.succ (named : NamedReads reads) (outer : OuterSends files session reads dirBase sent fuel)
    (inner : InnerSends files session reads dirBase sent fuel) :
    InnerSends files session reads dirBase sent (fuel + 1) := by
  intro entry state first opened used rsp records enough prepared packed
  obtain ⟨out, failed, whole, streamed, outPacked, writable, complete, many⟩ :=
    @streamPrefetchDir_sends _ files session _ _ _ _ _ _ _ named prepared packed
  cases failed with
  | false =>
    obtain ⟨payloads, flushed, framed⟩ := outPacked.flush
    obtain ⟨new, ok, sends, stream⟩ := outer first used payloads _ (by omega) framed
      (flushed ▸ outPacked.within_flush)
    refine ⟨_, ok, ?_, false, whole, new, rfl, complete, writable, stream⟩
    simp only [prefetchLoop, streamed, flushed]
    exact sends.grow
  | true =>
    -- What is still in the buffer is never sent, so the records are cut off somewhere.
    have broken : ∀ messages : List Message, messages = out.sent.map partialMessage ++
        [errorMessage errorIo "read prefetch dir failed"] →
        ∃ new ok, Sends (Sound reads) sent records messages new ok ∧
          Tail (Prefetched files session reads dirBase) entry (first.filter DirEntry.isDir) new ok := by
      rintro _ rfl
      obtain ⟨payloads, before, isSent, framed, isPrefix, someSent⟩ := Packed.sent_entries outPacked writable
      refine ⟨whole.map .entry, false, ⟨⟨payloads, before, _, by rw [isSent], framed, isPrefix,
        ⟨by decide, by decide⟩, fun sound => someSent (many rfl sound)⟩,
        fits_concat outPacked.within (errorMessage_fits _ _)⟩,
        true, whole, [], (List.append_nil _).symm, nofun, writable, .broken _ _⟩
    rcases found : nextPrefetchDir reads dirBase first used with ⟨result, rest, used'⟩
    match result with
    | .error errno => exact broken _ (by simp only [prefetchLoop, streamed, found])
    | .ok none => exact broken _ (by simp only [prefetchLoop, streamed, found])
    | .ok (some following) =>
      obtain ⟨dir, filtered, nextPrepared, fewer⟩ := nextPrefetchDir_found found
      obtain ⟨new, ok, sends, failed, nextWhole, later, rfl, nextComplete, nextWritable, stream⟩ :=
        inner dir following rest used used' _ _ (by omega) nextPrepared (Packed.mark outPacked true)
      have same : prefetchLoop files session reads dirBase (fuel + 1) (some state) first used rsp =
          prefetchLoop files session reads dirBase fuel (some following) rest used'
            (out.put room (marker true).bytes) := by
        simp only [prefetchLoop, streamed, found, writePrefetchIndicator_eq]
        rfl
      refine ⟨_, ok, same ▸ sends.grow.grow, true, whole, _, rfl, nofun, writable, ?_⟩
      rw [filtered]
      exact .next true failed ok dir _ nextWhole later nextComplete nextWritable stream

theorem prefetchLoop_sends (named : NamedReads reads) (fuel : Nat) :
    OuterSends files session reads dirBase sent fuel ∧ InnerSends files session reads dirBase sent fuel := by
  induction fuel with
  | zero => exact ⟨fun _ _ _ _ impossible => by omega, fun _ _ _ _ _ _ _ impossible => by omega⟩
  | succ fuel ih => exact ⟨ih.1.succ ih.2, InnerSends.succ named ih.1 ih.2⟩

end Server

end Wsfs.ReadDir
