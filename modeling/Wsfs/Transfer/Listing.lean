/-
The two listing commands of the server send what `ReadDir.Server` makes of the batches that
they read, in whatever way the directories are enumerated. The proofs follow the handlers:
what has been answered so far decides how far the functions of `ReadDir.Server` have come.
-/

import Wsfs.ReadDir.Prefetch
import Wsfs.Transfer.Enumeration

namespace Wsfs.Transfer

open Wsfs.Base Wsfs.Protocol Wsfs.Unix Wsfs.Util Wsfs.Server.Commands
open Wsfs.Server hiding Message
open Wsfs.ReadDir (Message partialMessage rootContents)
open Wsfs.ReadDir.Server (Files Batch DirEntry ReadError ensureDirBase errorMessage contents
  afterRoot maxPrefetchDirs osErrCode streamPrefetchLoop)
open Terms (total_bind total_countdown total_ite total_loop total_pure)

/-! ### What has been answered -/

/-- A command that reads its directories in this way may have been answered like this. -/
def Consistent (opened : List (Except Errno (List Batch))) (reads : ReadDir.Server.Reads) : Prop :=
  ∀ (number : Nat) (answer : Except Errno (List Batch)) (path : Bytes), opened[number]? = some answer →
    match answer with
    | .error err => reads number path = .error err
    | .ok batches => ∃ later, reads number path = .ok (batches ++ later)

section Consistent

variable {before more : List (Except Errno (List Batch))} {batches : List Batch}
  {reads : ReadDir.Server.Reads}

theorem Consistent.earlier (consistent : Consistent (before ++ more) reads) : Consistent before reads := by
  intro number answer path found
  refine consistent number answer path ?_
  rwa [List.getElem?_append_left (List.getElem?_eq_some_iff.mp found).1]

theorem Consistent.last (consistent : Consistent (before ++ [.ok batches]) reads) (path : Bytes) :
    ∃ later, reads before.length path = .ok (batches ++ later) :=
  consistent before.length (.ok batches) path List.getElem?_concat_length

theorem Consistent.last_error {err : Errno} (consistent : Consistent (before ++ [.error err]) reads)
    (path : Bytes) : reads before.length path = .error err :=
  consistent before.length (.error err) path List.getElem?_concat_length

end Consistent

/-! ### The root -/

section Root

variable {ρ : Type} {whole : List Batch → ρ} {go : List Batch → Packer → ρ}
  {listed : List Batch → List DirEntry × Option Errno} {apath : Bytes} {f : Nat} {course : Course}
  {out : Packer}

/-- The root is being read. What `whole` makes of all batches is what `go` makes of those to
come and the messages and the buffer so far. -/
structure Underway (whole : List Batch → ρ) (go : List Batch → Packer → ρ)
    (listed : List Batch → List DirEntry × Option Errno) (apath : Bytes) (f : Nat) (course : Course)
    (out : Packer) : Prop where
  sent : course.sent = out.sent.map partialMessage
  first : course.root.first = some (apath, f)
  others : course.root.others = false
  streak : course.streak.dir = f ∨ course.streak.count = 0
  opened : ∃ batches, course.opened = [.ok batches] ∧ ∀ later, whole (batches ++ later) = go later out ∧
    listed (batches ++ later) = (course.root.entries ++ (contents later).1, (contents later).2)

/-- The root has been read. Unless it failed, all of its entries have been. -/
def RootRead (whole : List Batch → ρ) (listed : List Batch → List DirEntry × Option Errno) (apath : Bytes)
    (f : Nat) (course : Course) (value : ρ) : Prop :=
  course.root.first = some (apath, f) ∧
  ∃ batches, course.opened = [.ok batches] ∧ ∀ later, whole (batches ++ later) = value ∧
    ((listed (batches ++ later)).2 = none →
      course.root.ended = true ∧ course.root.entries = (listed (batches ++ later)).1)

variable (underway : Underway whole go listed apath f course out)
include underway

theorem Underway.root_read (batch : List DirEntry) (err : Option ReadError) :
    (course.reads f batch err).root =
      { course.root with entries := course.root.entries ++ batch, ended := atEnd batch err } := by
  change course.root.read f batch err = _
  rw [Root.read, if_pos ⟨by rw [underway.first]; rfl, underway.others⟩]

theorem Underway.opened_read (batch : List DirEntry) (err : Option ReadError) :
    ∃ batches, (course.reads f batch err).opened = [.ok batches] ∧ ∀ later,
      whole (batches ++ later) = go ((batch, err) :: later) out ∧
      listed (batches ++ later) = (course.root.entries ++ (contents ((batch, err) :: later)).1,
        (contents ((batch, err) :: later)).2) := by
  obtain ⟨batches, isOpen, follows⟩ := underway.opened
  refine ⟨batches ++ [(batch, err)], @Course.reads_opened course [] batches isOpen f batch err, ?_⟩
  intro later
  rw [List.append_assoc, List.singleton_append]
  exact follows _

theorem Underway.goesOn {batch : List DirEntry} (nonempty : batch ≠ []) {out' : Packer}
    (step : ∀ later, go ((batch, none) :: later) out = go later out') :
    Underway whole go listed apath f ((course.reads f batch none).sending out') out' where
  sent := rfl
  first := by
    change (course.reads f batch none).root.first = _
    rw [underway.root_read]
    exact underway.first
  others := by
    change (course.reads f batch none).root.others = _
    rw [underway.root_read]
    exact underway.others
  streak := .inl rfl
  opened := by
    obtain ⟨batches, isOpen, follows⟩ := underway.opened_read batch none
    refine ⟨batches, isOpen, fun later => ?_⟩
    change _ ∧ _ = ((course.reads f batch none).root.entries ++ _, _)
    rw [underway.root_read, (follows later).1, (follows later).2, step, contents, if_neg nonempty,
      List.append_assoc]
    exact ⟨rfl, rfl⟩

theorem Underway.finish {batch : List DirEntry} {err : Option ReadError} (last : err ≠ none ∨ batch = [])
    (sent : List Message) {value : ρ} (step : ∀ later, go ((batch, err) :: later) out = value) :
    RootRead whole listed apath f { course.reads f batch err with sent := sent } value := by
  obtain ⟨batches, isOpen, follows⟩ := underway.opened_read batch err
  refine ⟨?_, batches, isOpen, fun later => ⟨(follows later).1.trans (step later), ?_⟩⟩
  · change (course.reads f batch err).root.first = _
    rw [underway.root_read]
    exact underway.first
  · rw [(follows later).2]
    change _ → (course.reads f batch err).root.ended = _ ∧ (course.reads f batch err).root.entries = _
    rw [underway.root_read]
    intro complete
    match err, last with
    | some (.os errno), _ => cases complete
    | some .eof, _ => exact ⟨rfl, rfl⟩
    | none, .inr empty =>
      rw [empty] at complete ⊢
      exact ⟨rfl, rfl⟩
    | none, .inl absurd => exact (absurd rfl).elim

theorem Underway.spends (batch : List DirEntry) :
    course.streak.count < (course.reads f batch none).streak.count :=
  Streak.lt_read underway.streak

theorem Underway.sending_reads (batch : List DirEntry) (err : Option ReadError) :
    (course.reads f batch err).sending out = course.reads f batch err :=
  Course.sending_self underway.sent

omit underway

end Root

section Loops

variable {files : Files} {clientMark : UInt8} {s : Commands.Session} {course : Course}
  {dirBase apath : Bytes} {f : Nat} {out : Packer}

theorem writeBatch_total {dirents : List DirEntry} {atEnd : Bool}
    {post : Course → Bytes ⊕ Unit → Prop}
    (last : dirents = [] ∨ atEnd →
      post ((course.sending ((dirents.map (files.lookupDirentSafe s.toSession dirBase)).foldl
          ReadDir.Server.writeDirent out)).tells
        ⟨errorOK, ((dirents.map (files.lookupDirentSafe s.toSession dirBase)).foldl
          ReadDir.Server.writeDirent out).buffer⟩) (.inr ()))
    (goesOn : ¬(dirents = [] ∨ atEnd) →
      post (course.sending ((dirents.map (files.lookupDirentSafe s.toSession dirBase)).foldl
          ReadDir.Server.writeDirent out))
        (.inl ((dirents.map (files.lookupDirentSafe s.toSession dirBase)).foldl ReadDir.Server.writeDirent
          out).buffer)) :
    (listTerms files clientMark).Total (course.sending out)
      (s.writeBatch clientMark dirBase out.buffer dirents atEnd) post := by
  apply total_bind
  apply foldlM_total writeDirent_total
  apply total_ite
  · intro ends
    apply total_bind
    apply total_send
    exact total_pure (last ends)
  · intro more
    exact total_pure (goesOn more)

theorem readDirLoop_total {whole : List Batch → List Message}
    (underway : Underway whole (ReadDir.Server.readDirLoop (files.lookupDirentSafe s.toSession dirBase))
      contents apath f course ⟨[], []⟩) :
    (listTerms files clientMark).Total course (s.readDirLoop clientMark dirBase f) fun course _ =>
      RootRead whole contents apath f course course.sent := by
  apply total_loop
    (fun rsp course => ∃ out : Packer, out.buffer = rsp ∧ Underway whole
      (ReadDir.Server.readDirLoop (files.lookupDirentSafe s.toSession dirBase)) contents apath f course out)
    (fun _ => 0) ⟨_, rfl, underway⟩
  rintro _ course ⟨out, rfl, underway⟩
  apply total_readDir
  intro batch err _
  rw [← underway.sending_reads batch err]
  rcases err with _ | _ | errno
  · apply writeBatch_total
    · intro last
      have empty : batch = [] := last.resolve_right Bool.false_ne_true
      refine underway.finish (.inr empty) _ fun later => ?_
      rw [empty]
      rfl
    · intro more
      have nonempty : batch ≠ [] := fun empty => more (.inl empty)
      refine ⟨⟨_, rfl, underway.goesOn nonempty fun later => ?_⟩, .inl (underway.spends batch)⟩
      simp only [ReadDir.Server.readDirLoop]
      rw [if_neg (by simp [nonempty])]
  · apply writeBatch_total
    · intro _
      refine underway.finish (.inl (Option.some_ne_none _)) _ fun later => ?_
      simp only [ReadDir.Server.readDirLoop, or_true, if_true]
      rfl
    · intro goesOn
      exact absurd (.inr rfl) goesOn
  · apply total_bind
    apply total_send
    apply total_pure
    refine underway.finish (.inl (Option.some_ne_none _)) _ fun later => ?_
    rw [underway.sending_reads]
    change _ = course.sent ++ _
    rw [underway.sent]
    rfl

theorem readRootLoop_total {ρ : Type} {whole : List Batch → ρ} {wrap : Packer × Option Errno → ρ}
    (underway : Underway whole (fun later out => wrap
      (ReadDir.Server.readRootLoop (files.lookupDirentSafe s.toSession dirBase) later out)) rootContents apath f
      course out) :
    (listTerms files clientMark).Total course (s.readRootLoop clientMark dirBase f out.buffer)
      fun course result => ∃ out : Packer, course.sent = out.sent.map partialMessage ∧
        match result with
        | .error err => RootRead whole rootContents apath f course (wrap (out, some err))
        | .ok rsp => rsp = out.buffer ∧ RootRead whole rootContents apath f course (wrap (out, none)) := by
  apply total_loop
    (fun rsp course => ∃ out : Packer, out.buffer = rsp ∧ Underway whole (fun later out => wrap
      (ReadDir.Server.readRootLoop (files.lookupDirentSafe s.toSession dirBase) later out)) rootContents apath f
      course out) (fun _ => 0) ⟨_, rfl, underway⟩
  rintro _ course ⟨out, rfl, underway⟩
  apply total_readDir
  intro batch err _
  rw [← underway.sending_reads batch err]
  apply total_bind
  apply foldlM_total writeRootEntry_total
  rcases err with _ | _ | errno
  · apply total_ite
    · intro empty
      refine total_pure ⟨_, rfl, rfl, underway.finish (.inr empty) _ fun later => ?_⟩
      rw [empty]
      rfl
    · intro nonempty
      refine total_pure ⟨⟨_, rfl, underway.goesOn nonempty fun later => ?_⟩,
        .inl (underway.spends batch)⟩
      simp only [ReadDir.Server.readRootLoop, if_neg nonempty]
  · exact total_pure ⟨_, rfl, rfl, underway.finish (.inl (Option.some_ne_none _)) _ fun later => rfl⟩
  · exact total_pure ⟨_, rfl, underway.finish (.inl (Option.some_ne_none _)) _ fun later => rfl⟩

end Loops

/-! ### Prefetched directories -/

/-- The root has been read; what was read of it stays as it is. -/
structure Behind (root : Root) (head : List Batch) (course : Course) : Prop where
  first : course.root.first = root.first
  isOpen : root.first.isSome = true
  entries : course.root.entries = root.entries
  ended : course.root.ended = root.ended
  head : course.opened.head? = some (.ok head)

/-- Another directory is open, the last one, and has been read so far. -/
structure InDir (root : Root) (head : List Batch) (before : List (Except Errno (List Batch)))
    (batches : List Batch) (f : Nat) (course : Course) : Prop extends Behind root head course where
  others : course.root.others = true
  opened : course.opened = before ++ [.ok batches]
  nested : before ≠ []
  streak : course.streak.dir = f ∨ course.streak.count = 0

section Prefetch

variable {files : Files} {clientMark : UInt8} {s : Commands.Session} {course : Course}
  {dirBase : Bytes} {root : Root} {head batches : List Batch} {before : List (Except Errno (List Batch))}
  {f : Nat} {out : Packer} {state : PrefetchDirState}

theorem Behind.opened_ne_nil (behind : Behind root head course) : course.opened ≠ [] := by
  intro empty
  have first := behind.head
  rw [empty] at first
  cases first

theorem Behind.opens (behind : Behind root head course) (path : Bytes) (dir : Nat) :
    InDir root head course.opened [] dir (course.opens path dir) := by
  have isOpen : course.root.first.isSome = true := by
    rw [behind.first]
    exact behind.isOpen
  obtain ⟨known, earlier⟩ := Option.isSome_iff_exists.mp isOpen
  have opened : (course.opens path dir).root = { course.root with others := true } := by
    change course.root.opened path dir = _
    simp only [Root.opened, earlier]
  refine ⟨⟨?_, behind.isOpen, ?_, ?_, ?_⟩, ?_, rfl, behind.opened_ne_nil, .inr rfl⟩
  · rw [opened]
    exact behind.first
  · rw [opened]
    exact behind.entries
  · rw [opened]
    exact behind.ended
  · exact (List.head?_append_of_ne_nil _ behind.opened_ne_nil).trans behind.head
  · rw [opened]

theorem Behind.fails (behind : Behind root head course) (err : Errno) : Behind root head (course.fails err) :=
  { behind with head := (List.head?_append_of_ne_nil _ behind.opened_ne_nil).trans behind.head }

theorem InDir.reads (inDir : InDir root head before batches f course) (batch : List DirEntry)
    (err : Option ReadError) :
    InDir root head before (batches ++ [(batch, err)]) f (course.reads f batch err) := by
  have unchanged : (course.reads f batch err).root = course.root := by
    change course.root.read f batch err = _
    rw [Root.read, if_neg fun counts => by rw [inDir.others] at counts; cases counts.2]
  have opened := course.reads_opened inDir.opened f batch err
  have first := inDir.head
  rw [inDir.opened, List.head?_append_of_ne_nil _ inDir.nested] at first
  refine ⟨⟨?_, inDir.isOpen, ?_, ?_, ?_⟩, ?_, opened, inDir.nested, ?_⟩
  · rw [unchanged]
    exact inDir.first
  · rw [unchanged]
    exact inDir.entries
  · rw [unchanged]
    exact inDir.ended
  · rw [opened, List.head?_append_of_ne_nil _ inDir.nested]
    exact first
  · rw [unchanged]
    exact inDir.others
  · cases err with
    | none => exact .inl rfl
    | some failure => exact .inl rfl

theorem InDir.sends (inDir : InDir root head before batches f course) (sent : List Message) :
    InDir root head before batches f { course with sent := sent } := { inDir with }

theorem streamPending_total {absPath : Bytes} {pending : List DirEntry} {count : Nat}
    {post : Course → Bytes × Nat × Bool → Prop}
    (holds : ∀ out' count' exceeded,
      ReadDir.Server.streamPending (files.lookupDirentSafe s.toSession absPath) pending out count =
        (out', count', exceeded) → post (course.sending out') (out'.buffer, count', exceeded)) :
    (listTerms files clientMark).Total (course.sending out)
      (s.streamPending clientMark absPath pending out.buffer count) post := by
  induction pending generalizing out count with
  | nil => exact total_pure (holds out count false rfl)
  | cons entry rest ih =>
    apply total_ite
    · intro exceeded
      refine total_pure (holds out (count + 1) true ?_)
      rw [ReadDir.Server.streamPending, if_pos exceeded]
    · intro fits
      apply total_bind
      apply lookupDirentSafe_total
      apply total_bind
      apply writeDirentChunk_total
      apply ih
      intro out' count' exceeded streamed
      apply holds
      rw [ReadDir.Server.streamPending, if_neg fits]
      exact streamed

theorem streamLoop_total (inDir : InDir root head before batches state.file course)
    (sent : course.sent = out.sent.map partialMessage) :
    (listTerms files clientMark).Total course (s.streamLoop clientMark state out.buffer)
      fun course' (rsp, failed) => ∃ more out', rsp = out'.buffer ∧
        InDir root head before (batches ++ more) state.file course' ∧
        course'.sent = out'.sent.map partialMessage ∧
        ∀ later, streamPrefetchLoop (files.lookupDirentSafe s.toSession state.absPath)
          (more ++ later) state.pending out 0 = (out', failed) := by
  apply total_loop
    (fun round course => ∃ more out', round.2.1 = out'.buffer ∧
      InDir root head before (batches ++ more) state.file course ∧
      course.sent = out'.sent.map partialMessage ∧
      ∀ later, streamPrefetchLoop (files.lookupDirentSafe s.toSession state.absPath)
          (more ++ later) state.pending out 0 =
        streamPrefetchLoop (files.lookupDirentSafe s.toSession state.absPath) later round.1
          out' round.2.2)
    (fun _ => 0) ⟨[], out, rfl, by rwa [List.append_nil], sent, fun _ => rfl⟩
  rintro ⟨pending, _, count⟩ course ⟨more, now, rfl, inDir, sent, follows⟩
  apply total_bind
  rw [← Course.sending_self sent]
  apply streamPending_total
  intro out' count' exceeded streamed
  have here := inDir.sends (out'.sent.map partialMessage)
  cases exceeded with
  | true =>
    refine total_pure ⟨more, out', rfl, here, rfl, fun later => (follows later).trans ?_⟩
    cases later <;> simp only [streamPrefetchLoop, streamed]
  | false =>
    apply total_readDir
    intro batch err _
    have after := here.reads batch err
    rw [List.append_assoc] at after
    have step : ∀ later, streamPrefetchLoop
        (files.lookupDirentSafe s.toSession state.absPath) (more ++ [(batch, err)] ++ later) state.pending out
        0 = streamPrefetchLoop (files.lookupDirentSafe s.toSession state.absPath)
          ((batch, err) :: later) pending now count := by
      intro later
      rw [List.append_assoc]
      exact follows _
    rcases err with _ | _ | errno
    · refine total_pure ⟨⟨_, out', rfl, after, rfl, fun later => (step later).trans ?_⟩,
        .inl (Streak.lt_read inDir.streak)⟩
      simp only [streamPrefetchLoop, streamed]
    · refine total_pure ⟨_, out', rfl, after, rfl, fun later => (step later).trans ?_⟩
      simp only [streamPrefetchLoop, streamed]
    · refine total_pure ⟨_, out', rfl, after, rfl, fun later => (step later).trans ?_⟩
      simp only [streamPrefetchLoop, streamed]

/-- Either the first batch of the directory has been read, or the directory is closed again and
the root is still behind. Nothing is sent. -/
theorem preparePrefetchDir_total {used : Nat} (behind : Behind root head course)
    (counted : course.opened.length = used + 1) (entry : DirEntry) :
    (listTerms files clientMark).Total course (preparePrefetchDir dirBase entry)
      fun course' prepared => course'.sent = course.sent ∧
        match prepared with
        | .error err => Behind root head course' ∧ ∀ reads, Consistent course'.opened reads →
            Consistent course.opened reads ∧
            ReadDir.Server.preparePrefetchDir reads dirBase used entry = .error err
        | .ok state => ∃ batch, InDir root head course.opened [batch] state.file course' ∧
            ∀ reads later, reads (used + 1) state.absPath = .ok (batch :: later) →
              ReadDir.Server.preparePrefetchDir reads dirBase used entry =
                .ok ⟨state.absPath, later, state.pending⟩ := by
  apply total_openDir
  · intro err
    refine total_pure ⟨rfl, behind.fails err, fun reads consistent => ?_⟩
    have failed := consistent.last_error (dirBase ++ entry.name ++ [slash])
    rw [counted] at failed
    refine ⟨consistent.earlier, ?_⟩
    simp only [ReadDir.Server.preparePrefetchDir, failed]
  · intro dir
    have opened := behind.opens (dirBase ++ entry.name ++ [slash]) dir
    apply total_readDir
    intro batch err _
    have after := opened.reads batch err
    rcases err with _ | _ | errno
    · refine total_pure ⟨rfl, _, after, fun reads later isOpen => ?_⟩
      simp only [ReadDir.Server.preparePrefetchDir, isOpen]
    · refine total_pure ⟨rfl, _, after, fun reads later isOpen => ?_⟩
      simp only [ReadDir.Server.preparePrefetchDir, isOpen]
    · apply total_closeDir
      intro _
      refine total_pure ⟨rfl, after.toBehind, fun reads consistent => ?_⟩
      rw [after.opened] at consistent
      obtain ⟨later, isOpen⟩ := consistent.last (dirBase ++ entry.name ++ [slash])
      rw [counted] at isOpen
      refine ⟨consistent.earlier, ?_⟩
      simp only [ReadDir.Server.preparePrefetchDir, isOpen, List.nil_append, List.singleton_append]

/-- The search for the next directory sends nothing. It leaves fewer entries to look at unless
there is nothing left to do. -/
theorem nextPrefetchDir_total {used : Nat} (behind : Behind root head course)
    (counted : course.opened.length = used + 1) (first : List DirEntry) :
    (listTerms files clientMark).Total course (nextPrefetchDir dirBase first used)
      fun course' (found, rest, used') => course'.sent = course.sent ∧ rest.length ≤ first.length ∧
        (first ≠ [] ∧ used < maxPrefetchDirs ∨ (∃ state, found = .ok (some state)) →
          rest.length < first.length) ∧
        match found with
        | .error err => Behind root head course' ∧ ∀ reads, Consistent course'.opened reads →
            Consistent course.opened reads ∧
            ReadDir.Server.nextPrefetchDir reads dirBase first used = (.error err, rest, used')
        | .ok none => course' = course ∧ used' = used ∧
            ∀ reads, ReadDir.Server.nextPrefetchDir reads dirBase first used = (.ok none, rest, used)
        | .ok (some state) => used' = used + 1 ∧ ∃ batch,
            InDir root head course.opened [batch] state.file course' ∧
            ∀ reads later, reads (used + 1) state.absPath = .ok (batch :: later) →
              ReadDir.Server.nextPrefetchDir reads dirBase first used =
                (.ok (some ⟨state.absPath, later, state.pending⟩), rest, used + 1) := by
  induction first with
  | nil =>
    refine total_pure ⟨rfl, Nat.le_refl _, ?_, rfl, rfl, fun reads => rfl⟩
    rintro (⟨nonempty, _⟩ | ⟨state, nothing⟩)
    · exact absurd rfl nonempty
    · cases nothing
  | cons entry rest ih =>
    apply total_ite
    · intro exhausted
      refine total_pure ⟨rfl, Nat.le_refl _, ?_, rfl, rfl, fun reads => ?_⟩
      · rintro (⟨_, left⟩ | ⟨state, nothing⟩)
        · exact absurd left (Nat.not_lt_of_le exhausted)
        · cases nothing
      · rw [ReadDir.Server.nextPrefetchDir, if_pos exhausted]
    · intro below
      have skip : entry.isDir = false → ∀ reads, ReadDir.Server.nextPrefetchDir reads dirBase (entry :: rest)
          used = ReadDir.Server.nextPrefetchDir reads dirBase rest used := by
        intro notDir reads
        rw [ReadDir.Server.nextPrefetchDir, if_neg below, notDir]
        rfl
      apply total_ite
      · intro notDir
        rw [Bool.not_eq_true'] at notDir
        refine ih.mono ?_
        rintro course' ⟨found, later, used'⟩ ⟨sent, fewer, _, outcome⟩
        refine ⟨sent, Nat.le_succ_of_le fewer, fun _ => Nat.lt_succ_of_le fewer, ?_⟩
        rcases found with err | _ | state
        · refine ⟨outcome.1, fun reads consistent => ?_⟩
          rw [skip notDir]
          exact outcome.2 reads consistent
        · refine ⟨outcome.1, outcome.2.1, fun reads => ?_⟩
          rw [skip notDir]
          exact outcome.2.2 reads
        · obtain ⟨oneMore, batch, inDir, same⟩ := outcome
          refine ⟨oneMore, batch, inDir, fun reads later isOpen => ?_⟩
          rw [skip notDir]
          exact same reads later isOpen
      · intro isDir
        have opensIt : ∀ reads, ReadDir.Server.nextPrefetchDir reads dirBase (entry :: rest) used =
            ((ReadDir.Server.preparePrefetchDir reads dirBase used entry).map some, rest, used + 1) := by
          intro reads
          rw [ReadDir.Server.nextPrefetchDir, if_neg below, if_neg isDir]
        apply total_bind
        refine (preparePrefetchDir_total behind counted entry).mono ?_
        rintro course' prepared ⟨sent, outcome⟩
        refine total_pure ⟨sent, Nat.le_succ _, fun _ => Nat.lt_succ_self _, ?_⟩
        cases prepared with
        | error err =>
          refine ⟨outcome.1, fun reads consistent => ?_⟩
          obtain ⟨earlier, failed⟩ := outcome.2 reads consistent
          exact ⟨earlier, by rw [opensIt, failed]; rfl⟩
        | ok state =>
          obtain ⟨batch, inDir, same⟩ := outcome
          refine ⟨rfl, batch, inDir, fun reads later isOpen => ?_⟩
          rw [opensIt, same reads later isOpen]
          rfl

/-- Between two sections: what the whole command sends, `goal`, is what the loop makes of the
entries that are left. -/
structure Between (files : Files) (s : Commands.Session) (dirBase : Bytes)
    (goal : ReadDir.Server.Reads → List Message) (root : Root) (head : List Batch) (left : List DirEntry)
    (used : Nat) (course : Course) : Prop extends Behind root head course where
  counted : course.opened.length = used + 1
  follows : ∃ fuel payloads, 2 * left.length + 1 ≤ fuel ∧ course.sent = payloads.map partialMessage ∧
    ∀ reads, Consistent course.opened reads → goal reads =
      ReadDir.Server.prefetchLoop files s.toSession reads dirBase fuel none left used ⟨payloads, []⟩

/-- In the section of a directory. -/
def Inside (files : Files) (s : Commands.Session) (dirBase : Bytes)
    (goal : ReadDir.Server.Reads → List Message) (root : Root) (head : List Batch) (state : PrefetchDirState)
    (first : List DirEntry) (used : Nat) (rsp : Bytes) (course : Course) : Prop :=
  ∃ fuel out before batches, rsp = out.buffer ∧ course.sent = out.sent.map partialMessage ∧
    InDir root head before batches state.file course ∧ before.length = used ∧ 2 * first.length + 2 ≤ fuel ∧
    ∀ reads later, Consistent before reads → reads used state.absPath = .ok (batches ++ later) →
      goal reads = ReadDir.Server.prefetchLoop files s.toSession reads dirBase fuel
        (some ⟨state.absPath, later, state.pending⟩) first used out

/-- All has been sent. -/
def Sent (goal : ReadDir.Server.Reads → List Message) (root : Root) (head : List Batch) (more : List Message)
    (course : Course) : Prop :=
  Behind root head course ∧ ∀ reads, Consistent course.opened reads → goal reads = course.sent ++ more

variable {goal : ReadDir.Server.Reads → List Message}

theorem prefetchSections_total {first : List DirEntry} {used : Nat} {rsp : Bytes}
    (inside : Inside files s dirBase goal root head state first used rsp course) :
    (listTerms files clientMark).Total course
      (s.prefetchSections clientMark dirBase state first used rsp) fun course outcome =>
        match outcome with
        | none => Sent goal root head [] course
        | some (rest, used) => Between files s dirBase goal root head rest used course ∧
            rest.length ≤ first.length := by
  apply total_countdown
    (fun round course =>
      Inside files s dirBase goal root head round.1 round.2.1 round.2.2.1 round.2.2.2 course ∧
        round.2.1.length ≤ first.length)
    (fun round => round.2.1.length) ⟨inside, Nat.le_refl _⟩
  rintro ⟨state, rest, used, _⟩ course
    ⟨⟨fuel, out, before, batches, rfl, sent, inDir, rfl, enough, follows⟩, fewer⟩
  dsimp only at enough fewer follows
  obtain ⟨fuel, rfl⟩ : ∃ fuel', fuel = fuel' + 1 := ⟨fuel - 1, by omega⟩
  apply total_bind
  apply total_bind
  refine (streamLoop_total inDir sent).mono ?_
  rintro course' ⟨_, failed⟩ ⟨more, out', rfl, inDir', sent', streamed⟩
  apply total_closeDir
  intro _
  apply total_pure
  have reached : ∀ reads, Consistent course'.opened reads → ∃ later, goal reads =
      ReadDir.Server.prefetchLoop files s.toSession reads dirBase (fuel + 1)
        (some ⟨state.absPath, more ++ later, state.pending⟩) rest before.length out := by
    intro reads consistent
    rw [inDir'.opened] at consistent
    obtain ⟨later, isOpen⟩ := consistent.last state.absPath
    rw [List.append_assoc] at isOpen
    exact ⟨later, follows reads (more ++ later) consistent.earlier isOpen⟩
  have length : course'.opened.length = before.length + 1 := by
    rw [inDir'.opened, List.length_append, List.length_singleton]
  cases failed with
  | false =>
    apply total_bind
    apply total_send
    refine total_pure ⟨⟨{ inDir'.toBehind with }, length, fuel, out'.flush, by omega, ?_, ?_⟩, fewer⟩
    · change course'.sent ++ _ = _
      rw [sent', Packer.flush, List.map_append]
      rfl
    · intro reads consistent
      obtain ⟨later, isGoal⟩ := reached reads consistent
      rw [isGoal]
      simp only [ReadDir.Server.prefetchLoop, ReadDir.Server.streamPrefetchDir, streamed later]
  | true =>
    apply total_bind
    refine (nextPrefetchDir_total inDir'.toBehind length rest).mono ?_
    rintro course'' ⟨found, later, used'⟩ ⟨sent'', _, shorter, outcome⟩
    rw [sent'] at sent''
    rcases found with err | _ | nextState
    · apply total_bind
      apply total_send
      refine total_pure ⟨{ outcome.1 with }, fun reads consistent => ?_⟩
      obtain ⟨earlier, isNext⟩ := outcome.2 reads consistent
      obtain ⟨rest, isGoal⟩ := reached reads earlier
      change _ = course''.sent ++ _ ++ _
      rw [isGoal, sent'', List.append_nil]
      simp only [ReadDir.Server.prefetchLoop, ReadDir.Server.streamPrefetchDir, streamed rest, isNext]
    · obtain ⟨rfl, rfl, isNext⟩ := outcome
      apply total_bind
      apply total_send
      refine total_pure ⟨{ inDir'.toBehind with }, fun reads consistent => ?_⟩
      obtain ⟨rest, isGoal⟩ := reached reads consistent
      change _ = course''.sent ++ _ ++ _
      rw [isGoal, sent'', List.append_nil]
      simp only [ReadDir.Server.prefetchLoop, ReadDir.Server.streamPrefetchDir, streamed rest, isNext reads]
    · obtain ⟨rfl, batch, nextDir, isNext⟩ := outcome
      have fewerStill := shorter (.inr ⟨nextState, rfl⟩)
      have room : 2 * later.length + 2 ≤ fuel := by omega
      apply total_bind
      rw [← Course.sending_self sent'']
      apply writePrefetchIndicator_total
      refine total_pure ⟨⟨⟨fuel, _, course'.opened, [batch], rfl, rfl, nextDir.sends _,
        length, room, ?_⟩, Nat.le_trans (Nat.le_of_lt fewerStill) fewer⟩, fewerStill⟩
      intro reads following consistent isOpen
      obtain ⟨rest, isGoal⟩ := reached reads consistent
      rw [isGoal]
      simp only [ReadDir.Server.prefetchLoop, ReadDir.Server.streamPrefetchDir, streamed rest,
        isNext reads following isOpen]

theorem prefetchLoop_total {first : List DirEntry}
    (between : Between files s dirBase goal root head first 0 course) :
    (listTerms files clientMark).Total course (s.prefetchLoop clientMark dirBase first)
      fun course outcome =>
        match outcome with
        | none => Sent goal root head [] course
        | some () => Sent goal root head [⟨errorOK, []⟩] course := by
  apply total_countdown
    (fun round course => Between files s dirBase goal root head round.1 round.2 course)
    (fun round => round.1.length) between
  rintro ⟨left, used⟩ course ⟨behind, counted, fuel, payloads, enough, sent, follows⟩
  dsimp only at counted enough follows
  obtain ⟨fuel, rfl⟩ : ∃ fuel', fuel = fuel' + 1 := ⟨fuel - 1, by omega⟩
  apply total_ite
  · intro done
    refine total_pure ⟨behind, fun reads consistent => ?_⟩
    rw [follows reads consistent, sent]
    simp only [ReadDir.Server.prefetchLoop, if_pos done]
  · intro goesOn
    apply total_bind
    refine (nextPrefetchDir_total behind counted left).mono ?_
    rintro course' ⟨found, rest, used'⟩ ⟨sent', _, shorter, outcome⟩
    rw [sent] at sent'
    have fewer := shorter (.inl (by rwa [not_or, Nat.not_le] at goesOn))
    rcases found with err | _ | state
    · apply total_bind
      apply total_send
      refine total_pure ⟨{ outcome.1 with }, fun reads consistent => ?_⟩
      obtain ⟨earlier, isNext⟩ := outcome.2 reads consistent
      change _ = course'.sent ++ _ ++ _
      rw [follows reads earlier, sent', List.append_nil]
      simp only [ReadDir.Server.prefetchLoop, if_neg goesOn, isNext]
    · obtain ⟨rfl, rfl, isNext⟩ := outcome
      have room : 2 * rest.length + 1 ≤ fuel := by omega
      refine total_pure ⟨⟨behind, counted, fuel, payloads, room, sent, fun reads consistent => ?_⟩, fewer⟩
      rw [follows reads consistent]
      simp only [ReadDir.Server.prefetchLoop, if_neg goesOn, isNext reads]
    · obtain ⟨rfl, batch, inDir, isNext⟩ := outcome
      apply total_bind
      rw [← @Course.sending_self course' ⟨payloads, []⟩ sent']
      apply writePrefetchIndicator_total
      have inside : Inside files s dirBase goal root head state rest (used + 1)
          (ReadDir.Server.writePrefetchIndicator ⟨payloads, []⟩ readdirplusIndicatorPrefetch).buffer
          (course'.sending
            (ReadDir.Server.writePrefetchIndicator ⟨payloads, []⟩ readdirplusIndicatorPrefetch)) := by
        refine ⟨fuel, _, course.opened, [batch], rfl, rfl, inDir.sends _, counted, by omega, ?_⟩
        intro reads following consistent isOpen
        rw [follows reads consistent]
        simp only [ReadDir.Server.prefetchLoop, if_neg goesOn, isNext reads following isOpen]
      apply total_bind
      refine (prefetchSections_total inside).mono ?_
      intro course'' outcome holds
      cases outcome with
      | none => exact total_pure holds
      | some next => exact total_pure ⟨holds.1, Nat.lt_of_le_of_lt holds.2 fewer⟩

end Prefetch

/-! ### The commands -/

section Commands

variable {files : Files} {clientMark : UInt8} {s : Commands.Session} {path : Bytes} {apath : Bytes}
  {f : Nat} {course : Course} {run : ReadDir.Server.Reads → List Message}
  {listed : List Batch → List DirEntry × Option Errno}

/-- The messages are those of `run` for everything that has been read. If the root was opened
and did not fail, it has been read to its end. -/
def Tells (run : ReadDir.Server.Reads → List Message) (listed : List Batch → List DirEntry × Option Errno)
    (apath : Bytes) (course : Course) : Prop :=
  (∀ reads, Consistent course.opened reads → run reads = course.sent) ∧
  ∃ answer, course.opened.head? = some answer ∧ ∀ batches, answer = .ok batches →
    (listed batches).2 = none → ∃ f, course.root.first = some (apath, f) ∧ course.root.ended = true ∧
      course.root.entries = (listed batches).1

theorem RootRead.told {ρ : Type} {whole : List Batch → ρ} {value : ρ}
    (read : RootRead whole listed apath f course value) {sent : List Message}
    (follows : ∀ reads, Consistent course.opened reads → run reads = sent) :
    Tells run listed apath { course with sent := sent } := by
  obtain ⟨first, batches, opened, reached⟩ := read
  refine ⟨follows, .ok batches, congrArg List.head? opened, ?_⟩
  rintro _ ⟨⟩ complete
  have ended := (reached []).2
  rw [List.append_nil] at ended
  exact ⟨f, first, ended complete⟩

theorem withDir_total {next : Bytes → Nat → Handler Unit} (valid : isUrlValid path = true)
    (failed : ∀ reads err, reads 0 (s.storagePath ++ path) = .error err →
      run reads = [errorMessage (osErrCode err) "open dir failed"])
    (total : ∀ f, (listTerms files clientMark).Total (Course.start.opens (s.storagePath ++ path) f)
      (next (ensureDirBase (s.storagePath ++ path)) f) fun course _ =>
        Tells run listed (s.storagePath ++ path) course) :
    (listTerms files clientMark).Total Course.start (s.withDir clientMark path next) fun course _ =>
      Tells run listed (s.storagePath ++ path) course := by
  have accepted : ¬(!isUrlValid path) = true := by
    rw [valid]
    exact Bool.false_ne_true
  unfold Session.withDir Session.withPath
  rw [if_neg accepted]
  apply total_openDir
  · intro err
    apply total_send
    refine ⟨fun reads consistent => ?_, .error err, rfl, nofun⟩
    exact failed reads err (@Consistent.last_error [] reads err consistent _)
  · intro f
    apply total_bind
    refine (total f).mono ?_
    intro course _ told
    apply total_closeDir
    intro _
    exact total_pure told

theorem cmdReadDir_total (valid : isUrlValid path = true) :
    (listTerms files clientMark).Total Course.start (s.cmdReadDir clientMark path) fun course _ =>
      Tells (fun reads => ReadDir.Server.cmdReadDir files s.toSession reads path) contents
        (s.storagePath ++ path) course := by
  have accepted : ¬(!isUrlValid path) = true := by
    rw [valid]
    exact Bool.false_ne_true
  apply withDir_total valid
  · intro reads err failed
    simp only [ReadDir.Server.cmdReadDir, if_neg accepted, failed]
  · intro f
    refine (@readDirLoop_total _ _ _ _ _ _ _ (fun file => ReadDir.Server.readDirLoop _ file ⟨[], []⟩)
      ⟨rfl, rfl, rfl, .inr rfl, [], rfl, fun later => ⟨rfl, rfl⟩⟩).mono ?_
    intro course _ read
    refine read.told fun reads consistent => ?_
    obtain ⟨_, batches, opened, reached⟩ := read
    rw [opened] at consistent
    obtain ⟨later, isOpen⟩ := @Consistent.last [] batches reads consistent (s.storagePath ++ path)
    simp only [ReadDir.Server.cmdReadDir, if_neg accepted, show reads 0 _ = _ from isOpen]
    exact (reached later).1

theorem Sent.told {goal : ReadDir.Server.Reads → List Message} {root : Root} {head : List Batch}
    (sent : Sent goal root head [] course) (first : root.first = some (apath, f))
    (whole : (rootContents head).2 = none → root.ended = true ∧ root.entries = (rootContents head).1) :
    Tells goal rootContents apath course := by
  obtain ⟨behind, follows⟩ := sent
  refine ⟨fun reads consistent => ?_, .ok head, behind.head, ?_⟩
  · rw [follows reads consistent, List.append_nil]
  · rintro _ ⟨⟩ complete
    rw [behind.first, behind.ended, behind.entries]
    exact ⟨f, first, whole complete⟩

def rootBuffer (files : Files) (session : ReadDir.Server.Session) (dirBase : Bytes) (first : List DirEntry) :
    Packer :=
  (first.map (files.lookupDirentSafe session dirBase)).foldl ReadDir.Server.writeDirentChunk ⟨[], []⟩

/-- The first batch of the root, and what the loop over the others makes of them. -/
def afterFirst (files : Files) (session : ReadDir.Server.Session) (dirBase : Bytes) (first : List DirEntry)
    (file : List Batch) : Option Batch × Packer × Option Errno :=
  (file.head?, ReadDir.Server.readRootLoop (files.lookupDirentSafe session dirBase) file.tail
    (rootBuffer files session dirBase first))

/-- What `cmdReadDirPlus` sends once the root has been read. -/
theorem RootRead.sends {first : List DirEntry} {err : Option ReadError} {out : Packer} {failure : Option Errno}
    (read : RootRead (afterFirst files s.toSession (ensureDirBase (s.storagePath ++ path)) first) listed apath f
      course (some (first, err), (out, failure))) (valid : isUrlValid path = true)
    (noError : ∀ errno, err ≠ some (.os errno)) {reads : ReadDir.Server.Reads}
    (consistent : Consistent course.opened reads) :
    ReadDir.Server.cmdReadDirPlus files s.toSession reads path =
      afterRoot files s.toSession reads (ensureDirBase (s.storagePath ++ path)) first
        (out, failure) := by
  obtain ⟨_, batches, opened, follows⟩ := read
  rw [opened] at consistent
  obtain ⟨later, isOpen⟩ := @Consistent.last [] batches reads consistent (s.storagePath ++ path)
  obtain ⟨atHead, rootRead⟩ := Prod.mk.inj (follows later).1
  generalize batches ++ later = file at isOpen atHead rootRead
  cases file with
  | nil => cases atHead
  | cons batch rest =>
    cases atHead
    rw [← rootRead]
    simp only [ReadDir.Server.cmdReadDirPlus, valid, Bool.not_true, Bool.false_eq_true, if_false,
      show reads 0 _ = _ from isOpen]
    rfl

/-- The first read of the root, with its entries in the buffer. -/
theorem first_underway {first : List DirEntry} {err : Option ReadError} {dirBase : Bytes}
    (noError : ∀ errno, err ≠ some (.os errno)) :
    Underway (afterFirst files s.toSession dirBase first)
      (fun later out => (some (first, err), ReadDir.Server.readRootLoop
        (files.lookupDirentSafe s.toSession dirBase) later out)) rootContents apath f
      (((Course.start.opens apath f).reads f first err).sending
        (rootBuffer files s.toSession dirBase first))
      (rootBuffer files s.toSession dirBase first) := by
  have read : ((Course.start.opens apath f).reads f first err).root =
      ⟨some (apath, f), false, first, atEnd first err⟩ := by
    change Root.read _ f first err = _
    rw [Root.read, if_pos ⟨rfl, rfl⟩]
    rfl
  have opened := @Course.reads_opened (Course.start.opens apath f) [] [] rfl f first err
  have streak : ((Course.start.opens apath f).reads f first err).streak.dir = f := by
    cases err <;> rfl
  generalize (Course.start.opens apath f).reads f first err = course at *
  refine ⟨rfl, congrArg Root.first read, congrArg Root.others read, .inl streak, _, opened,
    fun later => ⟨rfl, ?_⟩⟩
  change rootContents ((first, err) :: later) = (course.root.entries ++ _, _)
  rw [read]
  rcases err with _ | _ | errno
  · rfl
  · rfl
  · exact absurd rfl (noError errno)

theorem sendRoot_total {first : List DirEntry} {err : Option ReadError}
    (noError : ∀ errno, err ≠ some (.os errno)) (valid : isUrlValid path = true) :
    (listTerms files clientMark).Total ((Course.start.opens (s.storagePath ++ path) f).reads f first err)
      (s.sendRoot clientMark (ensureDirBase (s.storagePath ++ path)) f first) fun course _ =>
        Tells (fun reads => ReadDir.Server.cmdReadDirPlus files s.toSession reads path) rootContents
          (s.storagePath ++ path) course := by
  have silent : ((Course.start.opens (s.storagePath ++ path) f).reads f first err).sent =
      (⟨[], []⟩ : Packer).sent.map partialMessage := rfl
  apply total_bind
  rw [← Course.sending_self silent]
  apply foldlM_total writeRootEntry_total
  apply total_bind
  refine (readRootLoop_total (first_underway noError)).mono ?_
  rintro course' result ⟨out, sent, outcome⟩
  cases result with
  | error errno =>
    apply total_send
    refine outcome.told fun reads consistent => (outcome.sends valid noError consistent).trans ?_
    rw [sent]
    rfl
  | ok rsp =>
    obtain ⟨rfl, outcome⟩ := outcome
    apply total_ite
    · intro many
      apply total_send
      refine outcome.told fun reads consistent => (outcome.sends valid noError consistent).trans ?_
      rw [sent]
      exact if_pos many
    · intro few
      apply total_bind
      apply total_send
      obtain ⟨first', batches, isOpen, reached⟩ := id outcome
      have whole := (reached []).2
      rw [List.append_nil] at whole
      have between : Between files s (ensureDirBase (s.storagePath ++ path))
          (fun reads => ReadDir.Server.cmdReadDirPlus files s.toSession reads path) course'.root batches first 0
          (course'.tells ⟨errorPartialResponse, out.buffer⟩) := by
        refine ⟨⟨rfl, by rw [first']; rfl, rfl, rfl, congrArg List.head? isOpen⟩,
          congrArg List.length isOpen, _, out.flush, Nat.le_succ _, ?_, fun reads consistent =>
          (outcome.sends valid noError consistent).trans (if_neg few)⟩
        change course'.sent ++ _ = _
        rw [sent, Packer.flush, List.map_append]
        rfl
      apply total_bind
      refine (prefetchLoop_total between).mono ?_
      intro course'' ended holds
      cases ended with
      | none => exact total_pure (holds.told first' whole)
      | some ended =>
        apply total_send
        refine Sent.told ⟨{ holds.1 with }, fun reads consistent => ?_⟩ first' whole
        rw [holds.2 reads consistent, List.append_nil]
        rfl

theorem cmdReadDirPlus_total (valid : isUrlValid path = true) :
    (listTerms files clientMark).Total Course.start (s.cmdReadDirPlus clientMark path) fun course _ =>
      Tells (fun reads => ReadDir.Server.cmdReadDirPlus files s.toSession reads path) rootContents
        (s.storagePath ++ path) course := by
  apply withDir_total valid
  · intro reads err failed
    simp only [ReadDir.Server.cmdReadDirPlus, valid, Bool.not_true, Bool.false_eq_true, if_false, failed]
  · intro f
    apply total_readDir
    intro batch err _
    rcases err with _ | _ | errno
    · exact sendRoot_total (by simp) valid
    · exact sendRoot_total (by simp) valid
    · apply total_send
      have opened := @Course.reads_opened (Course.start.opens (s.storagePath ++ path) f) [] [] rfl f batch
        (some (.os errno))
      refine ⟨fun reads consistent => ?_, _, congrArg List.head? opened, ?_⟩
      · replace consistent := opened ▸ consistent
        obtain ⟨later, isOpen⟩ := @Consistent.last [] _ reads consistent (s.storagePath ++ path)
        simp only [ReadDir.Server.cmdReadDirPlus, valid, Bool.not_true, Bool.false_eq_true, if_false,
          show reads 0 _ = _ from isOpen]
        rfl
      · rintro _ ⟨⟩ complete
        cases complete

end Commands

end Wsfs.Transfer
