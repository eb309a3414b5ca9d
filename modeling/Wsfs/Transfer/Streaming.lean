/-
What a write stream does to its file. The bytes of a stream are, at every moment, split
into those that `pwrite` took, and those that the task, its channel, the reader and the
client still have; the answers sent on the mark tell how many were taken.
-/

import Wsfs.Server.Stream

namespace Wsfs.Server

open Wsfs.Base Wsfs.Protocol Wsfs.Unix Function

/-! ### One chunk -/

/-- No `pwrite` failed or wrote nothing. -/
def Wrote (results : List (Except Errno Nat)) : Prop :=
  ∀ result ∈ results, ∃ count, result = .ok (count + 1)

variable {offset : UInt64} {results : List (Except Errno Nat)} {data : Bytes} {chunk : Chunk}
  {refers : UInt32 → Bool} {fd : UInt32}

theorem writeStreamWriteChunk_unfailing (wrote : Wrote results)
    (written : writeStreamWriteChunk results offset data = some chunk) : chunk.error = none := by
  induction results generalizing offset data chunk with
  | nil =>
    cases data with
    | nil => cases written; rfl
    | cons byte data => cases written
  | cons result results ih =>
    cases data with
    | nil => cases written; rfl
    | cons byte data =>
      obtain ⟨count, rfl⟩ := wrote result List.mem_cons_self
      simp only [writeStreamWriteChunk] at written
      obtain ⟨rest, restWritten, rfl⟩ := Option.map_eq_some_iff.mp written
      have unfailing :=
        ih (fun later member => wrote later (List.mem_cons_of_mem _ member)) restWritten
      exact unfailing

theorem toNat_add_ofNat {size : Nat} (fits : offset.toNat + size < 2 ^ 64) :
    (offset + UInt64.ofNat size).toNat = offset.toNat + size := by
  rw [UInt64.toNat_add, UInt64.toNat_ofNat_of_lt' (by omega : size < 2 ^ 64), Nat.mod_eq_of_lt fits]

theorem writeStreamWriteChunk_writes (fits : offset.toNat + data.length < 2 ^ 64)
    (written : writeStreamWriteChunk results offset data = some chunk) :
    ∃ count, count ≤ data.length ∧ chunk.written = UInt64.ofNat count ∧
      (∀ file, onto file chunk.calls = writeAt file offset.toNat (data.take count)) ∧
      (chunk.error = none → count = data.length) := by
  induction results generalizing offset data chunk with
  | nil =>
    cases data with
    | nil =>
      cases written
      exact ⟨0, Nat.le_refl 0, rfl, fun file => (writeAt_nil file _).symm, fun _ => rfl⟩
    | cons byte data => cases written
  | cons result results ih =>
    cases data with
    | nil =>
      cases written
      exact ⟨0, Nat.le_refl 0, rfl, fun file => (writeAt_nil file _).symm, fun _ => rfl⟩
    | cons byte data =>
      cases result with
      | error errno =>
        cases written
        exact ⟨0, Nat.zero_le _, rfl, fun file => (writeAt_nil file _).symm, nofun⟩
      | ok count =>
        cases count with
        | zero =>
          cases written
          exact ⟨0, Nat.zero_le _, rfl, fun file => (writeAt_nil file _).symm, nofun⟩
        | succ count =>
          simp only [writeStreamWriteChunk] at written
          obtain ⟨rest, restWritten, rfl⟩ := Option.map_eq_some_iff.mp written
          generalize (byte :: data) = all at *
          generalize sizeEq : min (count + 1) all.length = size at *
          have inside : size ≤ all.length := by omega
          have advanced : (offset + UInt64.ofNat size).toNat = offset.toNat + size :=
            toNat_add_ofNat (by omega)
          obtain ⟨more, moreFits, moreWritten, moreOnto, moreAll⟩ :=
            ih (by rw [advanced, List.length_drop]; omega) restWritten
          rw [List.length_drop] at moreFits moreAll
          refine ⟨size + more, by omega, ?_, ?_, ?_⟩
          · rw [moreWritten, UInt64.ofNat_add]
          · intro file
            have taken : (all.take size).length = size := by
              rw [List.length_take]
              omega
            have after := moreOnto (writeAt file offset.toNat (all.take size))
            rw [advanced] at after
            refine Eq.trans after ?_
            rw [List.take_add, ← writeAt_writeAt, taken]
          · intro unfailing
            rw [moreAll unfailing]
            omega

/-! ### The bytes of a stream -/

/-- What a client sends through a stream, and the file as the stream finds it. -/
structure Upload where
  fd : UInt32
  offset : UInt64
  data : Bytes
  old : Bytes
  fits : offset.toNat + data.length < 2 ^ 64

def Upload.content (upload : Upload) (count : Nat) : Bytes :=
  writeAt upload.old upload.offset.toNat (upload.data.take count)

def bytesOf (inputs : List Input) : Bytes := inputs.flatMap Input.data

def errorsOf (failure : Option WriteFailure) : List Answer :=
  failure.toList.map fun failure => .error failure.error.1 failure.error.2

/-- So many bytes were written, and unless a write failed the others are all there. -/
structure Tally (upload : Upload) (count : Nat) (failure : Option WriteFailure) (stream : Stream)
    (pending : List Input) : Prop where
  descriptor : stream.fd = upload.fd
  within : count ≤ upload.data.length
  total : stream.writtenTotal = UInt64.ofNat count
  sent : stream.writeErrSent = failure.isSome
  position : failure = none → stream.offset = upload.offset + UInt64.ofNat count
  whole : failure = none → upload.data = upload.data.take count ++ bytesOf pending

section Tally

variable {upload : Upload} {count : Nat} {failure : Option WriteFailure} {stream : Stream}
  {pending : List Input}

theorem Tally.frame (tally : Tally upload count failure stream pending) (queue : List Input)
    (pc : StreamPc) : Tally upload count failure { stream with queue := queue, pc := pc } pending :=
  ⟨tally.descriptor, tally.within, tally.total, tally.sent, tally.position, tally.whole⟩

theorem Tally.exhausted (tally : Tally upload count none stream []) : count = upload.data.length := by
  have length := congrArg List.length (tally.whole rfl)
  rw [bytesOf, List.flatMap_nil, List.append_nil, List.length_take] at length
  have within := tally.within
  omega

variable {chunk : Chunk}

theorem errorsOf_round
    (failed : ∀ error, chunk.error = some error → ∃ failure : WriteFailure, failure.error = error) :
    ∃ failure, errorsOf failure = chunk.answers ∧ failure.isSome = chunk.error.isSome := by
  cases error : chunk.error with
  | none => exact ⟨none, by rw [Chunk.answers, error]; rfl, rfl⟩
  | some pair =>
    obtain ⟨failure, rfl⟩ := failed pair error
    exact ⟨some failure, by rw [Chunk.answers, error]; rfl, rfl⟩

variable {results : List (Except Errno Nat)} {input : Input} {rest : List Input}

theorem Tally.writes (tally : Tally upload count none stream (input :: rest))
    (written : writeStreamWriteChunk results stream.offset input.data = some chunk) :
    ∃ count' failure', Tally upload count' failure' (stream.advance input chunk) rest ∧
      onto (upload.content count) chunk.calls = upload.content count' ∧
      errorsOf failure' = chunk.answers ∧ failure'.isSome = chunk.error.isSome := by
  have whole : upload.data = upload.data.take count ++ (input.data ++ bytesOf rest) := tally.whole rfl
  have room := upload.fits
  have within := tally.within
  have lengths := congrArg List.length whole
  rw [List.length_append, List.length_append, List.length_take] at lengths
  have position : stream.offset.toNat = upload.offset.toNat + count := by
    rw [tally.position rfl, toNat_add_ofNat (by omega)]
  obtain ⟨more, inside, moreWritten, onto, all⟩ :=
    writeStreamWriteChunk_writes (by omega) written
  obtain ⟨failure', answers, failed⟩ :=
    errorsOf_round fun _ => writeStreamWriteChunk_failure written
  -- The chunk continues what is already in place.
  have front : (upload.data.take count).length = count := by
    rw [List.length_take]
    omega
  have continued : upload.data.take (count + more) =
      upload.data.take count ++ input.data.take more := by
    have behind := congrArg (List.drop count) whole
    rw [List.drop_left' front] at behind
    rw [List.take_add, behind, List.take_append_of_le_length inside]
  refine ⟨count + more, failure', ?_, ?_, answers, failed⟩
  · refine ⟨tally.descriptor, by omega, ?_, ?_, ?_, ?_⟩
    · rw [UInt64.ofNat_add, ← tally.total, ← moreWritten]
      rfl
    · rw [failed, Stream.advance, tally.sent]
      rfl
    · intro _
      rw [UInt64.ofNat_add, ← UInt64.add_assoc, ← tally.position rfl, ← moreWritten]
      rfl
    · intro unfailing
      rw [unfailing] at failed
      rw [continued, all (Option.not_isSome_iff_eq_none.mp (by rw [← failed]; decide)),
        List.take_length, List.append_assoc]
      exact whole
  · rw [onto, position, Upload.content, Upload.content, continued, ← writeAt_writeAt, front]

theorem Tally.round (tally : Tally upload count failure stream (input :: rest))
    (written : stream.write results input = some chunk) :
    ∃ count' failure', Tally upload count' failure' (stream.advance input chunk) rest ∧
      onto (upload.content count) chunk.calls = upload.content count' ∧
      errorsOf failure' = errorsOf failure ++ chunk.answers ∧
      (Wrote results → failure = none → failure' = none) := by
  unfold Stream.write at written
  split at written
  · rename_i fresh
    obtain rfl : failure = none :=
      Option.not_isSome_iff_eq_none.mp (by rw [← tally.sent, fresh.2]; decide)
    obtain ⟨count', failure', after, onto, answers, failed⟩ := tally.writes written
    refine ⟨count', failure', after, onto, answers, fun wrote _ => ?_⟩
    rw [writeStreamWriteChunk_unfailing wrote written] at failed
    exact Option.not_isSome_iff_eq_none.mp (by rw [failed]; decide)
  · rename_i idle
    cases written
    refine ⟨count, failure, ?_, rfl, (List.append_nil _).symm, fun _ none => none⟩
    refine ⟨tally.descriptor, tally.within, ?_, ?_, ?_, ?_⟩
    · exact (UInt64.add_zero _).trans tally.total
    · rw [← tally.sent]
      exact Bool.or_false _
    · intro none
      exact (UInt64.add_zero _).trans (tally.position none)
    · intro none
      have empty : input.data = [] := by
        by_contra some
        exact idle ⟨some, by rw [tally.sent, none]; rfl⟩
      have whole := tally.whole none
      rw [bytesOf, List.flatMap_cons, empty, List.nil_append] at whole
      exact whole

/-- The file, the errors and the bytes still on their way agree. If the run is clean, no write
has failed. -/
def Upload.Kept (upload : Upload) (clean : Prop) (stream : Stream) (pending : List Input)
    (errors : List Answer) (file : Bytes) : Prop :=
  ∃ count failure, errors = errorsOf failure ∧ file = upload.content count ∧
    Tally upload count failure stream pending ∧ (clean → failure = none)

theorem upkeep_upload (upload : Upload) (clean : Prop) :
    Upkeep (fun results => clean → Wrote results) (upload.Kept clean) where
  frame := by
    rintro _ _ _ _ queue pc ⟨count, failure, told, content, tally, harmless⟩
    exact ⟨count, failure, told, content, tally.frame queue pc, harmless⟩
  round := by
    rintro _ _ _ _ _ results chunk wrote ⟨count, failure, rfl, rfl, tally, harmless⟩ written
    obtain ⟨count', failure', after, onto, errors, clear⟩ := tally.round written
    exact ⟨count', failure', errors.symm, onto, after, fun isClean => clear (wrote isClean) (harmless isClean)⟩

end Tally

/-! ### The file of a session -/

/-- The file after some writes. `refers` tells which descriptors are open on it. -/
def applied (refers : UInt32 → Bool) (file : Bytes) (writes : List (UInt32 × UInt64 × Bytes)) : Bytes :=
  writes.foldl
    (fun file write => if refers write.1 then writeAt file write.2.1.toNat write.2.2 else file) file

def fileAfter (refers : UInt32 → Bool) (old : Bytes) (first last : State) : Bytes :=
  applied refers old (last.writes.drop first.writes.length)

def Alone (mark : Mark) (refers : UInt32 → Bool) (state : State) (action : Action) : Prop :=
  ∀ other results stream, action = .work other results → other ≠ mark →
    state.slot other = some stream → refers stream.fd = false

/-- No `pwrite` of the mark's stream fails or writes nothing. -/
def Unfailing (mark : Mark) (_state : State) (action : Action) : Prop :=
  ∀ results, action = .work mark results → Wrote results

theorem applied_own (own : refers fd = true) (calls : List (UInt64 × Bytes)) (file : Bytes) :
    applied refers file (calls.map fun call => (fd, call)) = onto file calls := by
  rw [applied, List.foldl_map, onto]
  simp only [own, reduceIte]

theorem applied_other (other : refers fd = false) (calls : List (UInt64 × Bytes)) (file : Bytes) :
    applied refers file (calls.map fun call => (fd, call)) = file := by
  rw [applied, List.foldl_map]
  induction calls with
  | nil => rfl
  | cons call calls ih =>
    rw [List.foldl_cons, other, if_neg (by decide)]
    exact ih

section Steps

variable {state next : State} {action : Action}

theorem writes_kept (stepped : step state action = some next)
    (other : ∀ mark results, action ≠ .work mark results) : next.writes = state.writes := by
  cases steps stepped with
  | worked => exact absurd rfl (other _ _)
  | @started task => cases task <;> rfl
  | _ => rfl

end Steps

/-- The writes since a run began, and what they made of the file. -/
structure Filed (refers : UInt32 → Bool) (old : Bytes) (first state : State) (file : Bytes) : Prop where
  later : first.writes.length ≤ state.writes.length
  content : fileAfter refers old first state = file

section Filed

variable {refers : UInt32 → Bool} {old file : Bytes} {first state next : State} {action : Action}
  {mark : Mark} {calls : List (UInt64 × Bytes)}

theorem Filed.add (filed : Filed refers old first state file)
    {writes : List (UInt32 × UInt64 × Bytes)} (more : next.writes = state.writes ++ writes) :
    Filed refers old first next (applied refers file writes) := by
  have later := filed.later
  refine ⟨by rw [more, List.length_append]; omega, ?_⟩
  rw [fileAfter, more, List.drop_append_of_le_length later, applied, List.foldl_append]
  exact congrArg (applied refers · writes) filed.content

theorem Filed.step (filed : Filed refers old first state file)
    (stepped : step state action = some next) (alone : Alone mark refers state action)
    (writes : Writes mark state action next calls)
    (own : ∀ stream input, state.slot mark = some stream → stream.pc = .working input →
      refers stream.fd = true) : Filed refers old first next (onto file calls) := by
  cases writes with
  | round stream input calls occupied working added =>
    rw [← applied_own (own stream input occupied working)]
    exact filed.add added
  | nothing unworked =>
    by_cases work : ∃ moved results, action = .work moved results
    · obtain ⟨moved, results, rfl⟩ := work
      have different : moved ≠ mark := by
        rintro rfl
        exact unworked results rfl
      cases steps stepped with
      | @worked _ stream _ _ chunk occupied =>
        have apart := applied_other (alone moved results stream rfl different occupied) chunk.calls file
        exact Eq.subst (motive := Filed refers old first _) apart (filed.add rfl)
    · have kept := writes_kept stepped fun moved results same => work ⟨moved, results, same⟩
      exact filed.add (kept.trans (List.append_nil _).symm)

end Filed

/-! ### Runs of the stream -/

section Runs

variable {upload : Upload} {clean : Prop} {mark : Mark} {base : List Answer} {refers : UInt32 → Bool}
  {first state next last : State} {action : Action} {actions : List Action} {seen : View}
  {script later : List Command} {file : Bytes}

/-- The stream of the mark, and the file since the run began. -/
inductive Course (upload : Upload) (clean : Prop) (mark : Mark) (base : List Answer)
    (refers : UInt32 → Bool) (first state : State) (script : List Command) : Prop
  | unopened (data : Bytes) (inputs : List Input) (whole : upload.data = data ++ bytesOf inputs)
      (complete : Complete inputs)
      (waits : Unopened mark base upload.fd upload.offset data inputs (view mark state) script)
      (filed : Filed refers upload.old first state upload.old)
  | accepted (file : Bytes) (filed : Filed refers upload.old first state file)
      (carried : Accepted mark base (upload.Kept clean) (view mark state) script file)
  | rejected (refused : Rejected mark base (view mark state) script)

theorem Accepted.descriptor {stream : Stream} {input : Input}
    (accepted : Accepted mark base (upload.Kept clean) seen script file)
    (occupied : seen.slot = some stream) (working : stream.pc = .working input) :
    stream.fd = upload.fd := by
  cases accepted with
  | starting fd offset first rest file complete opened =>
    cases occupied
    cases working
  | running stream reader answers errors fed rest file feeding total progress holds =>
    cases occupied
    obtain ⟨_, _, _, _, tally, _⟩ := holds
    exact tally.descriptor
  | closed slot answers errors final file stale total holds => cases (stale stream occupied).symm.trans working

theorem kept_opened {data : Bytes} {inputs : List Input} (whole : upload.data = data ++ bytesOf inputs) :
    upload.Kept clean ⟨upload.fd, upload.offset, 0, false, [], .unstarted⟩ (⟨data, false⟩ :: inputs) []
      upload.old := by
  refine ⟨0, none, rfl, (writeAt_nil _ _).symm, ?_, fun _ => rfl⟩
  exact ⟨rfl, Nat.zero_le _, rfl, rfl, fun _ => (UInt64.add_zero _).symm, fun _ => whole⟩

theorem Course.step (quiet : Quiet mark state)
    (course : Course upload clean mark base refers first state script)
    (own : refers upload.fd = true) (stepped : step state action = some next)
    (alone : Alone mark refers state action) (unfailing : clean → Unfailing mark state action)
    (split : script = (label mark action).toList ++ later) :
    Quiet mark next ∧ Course upload clean mark base refers first next later := by
  cases course with
  | unopened data inputs whole complete waits filed =>
    have idle (stream : Stream) (input : Input) (occupied : state.slot mark = some stream)
        (working : stream.pc = .working input) : refers stream.fd = true := by
      cases (waits.stale stream occupied).symm.trans working
    have unworked : ∀ results, action ≠ .work mark results := by
      rintro results rfl
      cases steps stepped with
      | worked occupied working => cases (waits.stale _ occupied).symm.trans working
    have filed' := filed.step stepped alone (.nothing unworked) idle
    obtain ⟨quiet', ⟨_, waits' | ⟨_, carried⟩⟩ | ⟨_, refused⟩⟩ :=
      waits.step upload.old quiet complete (kept_opened whole) stepped split
    · exact ⟨quiet', .unopened data inputs whole complete waits' filed'⟩
    · exact ⟨quiet', .accepted upload.old filed' carried⟩
    · exact ⟨quiet', .rejected refused⟩
  | accepted file filed carried =>
    obtain ⟨quiet', calls, writes, after⟩ := carried.step (upkeep_upload upload clean) quiet stepped split
      fun results isWork isClean => unfailing isClean results isWork
    refine ⟨quiet', .accepted _ (filed.step stepped alone writes ?_) after⟩
    intro stream input occupied working
    rw [carried.descriptor occupied working]
    exact own
  | rejected refused =>
    obtain ⟨quiet', after⟩ := refused.step quiet stepped split
    exact ⟨quiet', .rejected after⟩

theorem Course.run (quiet : Quiet mark state)
    (course : Course upload clean mark base refers first state (receivedOn mark actions ++ later))
    (own : refers upload.fd = true) (reached : run Server.step state actions = some last)
    (alone : Guarded Server.step (Alone mark refers) state actions)
    (unfailing : clean → Guarded Server.step (Unfailing mark) state actions) :
    Course upload clean mark base refers first last later := by
  induction actions generalizing state with
  | nil =>
    cases reached
    exact course
  | cons action actions ih =>
    obtain ⟨middle, stepped, reached⟩ := run_cons_some.mp reached
    rw [receivedOn_cons, List.append_assoc] at course
    rw [guarded_cons stepped] at alone
    have clear := fun isClean => (guarded_cons stepped).mp (unfailing isClean)
    obtain ⟨quiet', after⟩ :=
      course.step quiet own stepped alone.1 (fun isClean => (clear isClean).1) rfl
    exact ih quiet' after reached alone.2 fun isClean => (clear isClean).2

/-- The answers of a run, and what they tell about the file. A stream that was turned down
has only refusals; one that has not come to its end has at most its error. -/
inductive Told (upload : Upload) (clean : Prop) (file : Bytes) : List Answer → Prop
  | refused (answers : List Answer) (every : ∀ answer ∈ answers, Refusal answer) :
      Told upload clean file answers
  | underway (failure : Option WriteFailure) (harmless : clean → failure = none) :
      Told upload clean file (errorsOf failure)
  | closed (count : Nat) (failure : Option WriteFailure) (content : file = upload.content count)
      (within : count ≤ upload.data.length)
      (all : failure = none → count = upload.data.length) (harmless : clean → failure = none) :
      Told upload clean file (streamAnswers failure (UInt64.ofNat count))

theorem Course.told
    (course : Course upload clean mark (answersOn mark first.out) refers first last script) :
    Told upload clean (fileAfter refers upload.old first last) (answersSince mark first last) := by
  cases course with
  | unopened data inputs whole complete waits filed =>
    rw [answersSince_of (waits.silent.trans (List.append_nil _).symm)]
    exact .refused [] nofun
  | accepted file filed carried =>
    rw [filed.content]
    generalize sent : view mark last = seen at carried
    replace sent : answersOn mark last.out = seen.answers := congrArg View.answers sent
    cases carried with
    | starting fd offset input rest file complete opened =>
      rw [answersSince_of (sent.trans (List.append_nil _).symm)]
      exact .underway none fun _ => rfl
    | running stream reader answers errors fed rest file feeding total progress holds =>
      obtain ⟨count, failure, rfl, _, _, harmless⟩ := holds
      rw [answersSince_of (sent.trans total)]
      exact .underway failure harmless
    | closed slot answers errors final file stale total holds =>
      obtain ⟨count, failure, rfl, content, tally, harmless⟩ := holds
      rw [answersSince_of (sent.trans (total.trans (List.append_assoc ..))), tally.total]
      refine .closed count failure content tally.within ?_ harmless
      rintro rfl
      exact tally.exhausted
  | rejected refused =>
    obtain ⟨errors, total, refusals⟩ := refused.refusals
    rw [answersSince_of total]
    exact .refused errors refusals

end Runs

end Wsfs.Server
