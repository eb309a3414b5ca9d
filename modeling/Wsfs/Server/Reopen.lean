/-
A mark that is used for one write stream after the other. The task of a stream sends its
close message first and leaves the table after that, so a client that has the message may
open the next stream while the last one is still listed.
-/

import Wsfs.Server.Stream

namespace Wsfs.Server

open Wsfs.Base Wsfs.Protocol

def alreadyOpen : Answer := .error errorInvalid "write stream already open"

/-- The step hands a data message to the stream that is listed for its mark. -/
def Delivers (mark : Mark) (state : State) (action : Action) : Prop :=
  ∃ known data isEnd stream, action = .handle known ∧
    state.reader = .handling (.streamData mark data isEnd) ∧ state.slot mark = some stream

/-- At some moment since the run began, no stream was listed for the mark. What is listed
there later was opened later. -/
def Cleared (mark : Mark) (first : State) (actions : List Action) : Prop :=
  ∃ early late gap, actions = early ++ late ∧ run step first early = some gap ∧ gap.slot mark = none

/-- At no moment of the run does the reader answer that a stream is open already, and every
data message goes to a stream that was opened in the run. -/
def Separate (mark : Mark) (first : State) (actions : List Action) : Prop :=
  ∀ before after middle, actions = before ++ after → run step first before = some middle →
    middle.reader ≠ .replying ⟨mark, alreadyOpen⟩ ∧
      ∀ action rest, after = action :: rest → Delivers mark middle action → Cleared mark first before

/-- When the open command of the mark is handled, its descriptor is known. -/
def KnownFD (mark : Mark) (state : State) (action : Action) : Prop :=
  ∀ known fd offset data, action = .handle known →
    state.reader = .handling (.streamOpen mark fd offset data) → known = true

/-- When the open command of the mark is handled, no task is between the close message of its
stream and its own end. -/
def EarlierLeft (mark : Mark) (state : State) (action : Action) : Prop :=
  ∀ known fd offset data stream, action = .handle known →
    state.reader = .handling (.streamOpen mark fd offset data) → state.slot mark = some stream →
      stream.pc ≠ .closing

section Runs

variable {mark : Mark} {base : List Answer} {first state next : State} {action : Action}
  {before actions : List Action} {script later : List Command}

theorem Cleared.snoc (cleared : Cleared mark first before) (more : List Action) :
    Cleared mark first (before ++ more) := by
  obtain ⟨early, late, gap, rfl, reached, empty⟩ := cleared
  exact ⟨early, late ++ more, gap, List.append_assoc .., reached, empty⟩

theorem run_snoc (reached : run step first before = some state)
    (stepped : step state action = some next) : run step first (before ++ [action]) = some next := by
  rw [run_append, reached]
  change (run step state [action]) = _
  rw [run_cons, stepped]
  rfl

theorem not_replying {answer : Answer}
    (elsewhere : (view mark state).reader ≠ some (.replying ⟨mark, answer⟩)) :
    state.reader ≠ .replying ⟨mark, answer⟩ := by
  intro replying
  apply elsewhere
  change state.reader.focus mark = _
  rw [replying]
  exact focus_own rfl

variable {seen : View} {fd : UInt32} {offset : UInt64} {data : Bytes} {inputs : List Input} {file : Bytes}
  {kept : Stream → List Input → List Answer → Bytes → Prop}

theorem Unopened.not_replying (unopened : Unopened mark base fd offset data inputs seen script)
    (answer : Answer) : seen.reader ≠ some (.replying ⟨mark, answer⟩) := by
  intro replying
  have opening := unopened.opening
  rw [replying] at opening
  cases opening

theorem Unopened.not_delivers (unopened : Unopened mark base fd offset data inputs (view mark state) script) :
    ¬Delivers mark state action := by
  rintro ⟨_, data, isEnd, _, _, handling, _⟩
  have opening := unopened.opening
  rw [view_of rfl (by rw [handling, focus_own rfl]) rfl] at opening
  cases opening

theorem Accepted.not_replying (accepted : Accepted mark base kept seen script file) (answer : Answer) :
    seen.reader ≠ some (.replying ⟨mark, answer⟩) := by
  intro replying
  cases accepted with
  | starting fd offset first rest file complete opened => cases replying
  | running stream reader answers errors fed rest file feeding total progress holds =>
    obtain rfl : reader = _ := replying
    cases feeding
  | closed slot answers errors final file stale total holds => cases replying

def SeparateFrom (mark : Mark) (first : State) (before : List Action) (state : State)
    (actions : List Action) : Prop :=
  ∀ early late middle, actions = early ++ late → run step state early = some middle →
    middle.reader ≠ .replying ⟨mark, alreadyOpen⟩ ∧
      ∀ action rest, late = action :: rest → Delivers mark middle action →
        Cleared mark first (before ++ early)

theorem SeparateFrom.nil (quiet : state.reader ≠ .replying ⟨mark, alreadyOpen⟩) :
    SeparateFrom mark first before state [] := by
  intro early late middle split reached
  obtain ⟨rfl, rfl⟩ := List.append_eq_nil_iff.mp split.symm
  cases reached
  exact ⟨quiet, nofun⟩

theorem SeparateFrom.cons (quiet : state.reader ≠ .replying ⟨mark, alreadyOpen⟩)
    (delivered : Delivers mark state action → Cleared mark first before)
    (stepped : step state action = some next)
    (after : SeparateFrom mark first (before ++ [action]) next actions) :
    SeparateFrom mark first before state (action :: actions) := by
  intro early late middle split reached
  cases early with
  | nil =>
    cases reached
    refine ⟨quiet, ?_⟩
    intro other rest isNext delivers
    obtain ⟨rfl, rfl⟩ := List.cons.inj (split.trans isNext)
    rw [List.append_nil]
    exact delivered delivers
  | cons other early =>
    obtain ⟨rfl, isRest⟩ := List.cons.inj split
    rw [run_cons, stepped] at reached
    have holds := after early late middle isRest reached
    rw [List.append_assoc] at holds
    exact holds

variable {last : State}

theorem separate_of_accepted (upkeep : Upkeep (fun _ => True) kept) (quiet : Quiet mark state)
    (accepted : Accepted mark base kept (view mark state) (receivedOn mark actions ++ later) file)
    (cleared : Cleared mark first before) (reached : run step state actions = some last) :
    SeparateFrom mark first before state actions := by
  have silent := not_replying (accepted.not_replying alreadyOpen)
  induction actions generalizing state before file with
  | nil => exact .nil silent
  | cons action actions ih =>
    obtain ⟨middle, stepped, reached⟩ := run_cons_some.mp reached
    rw [receivedOn_cons, List.append_assoc] at accepted
    obtain ⟨quiet', _, _, after⟩ := accepted.step upkeep quiet stepped rfl fun _ _ => trivial
    refine .cons silent (fun _ => cleared) stepped ?_
    exact ih quiet' after (cleared.snoc [action]) reached
      (not_replying (after.not_replying alreadyOpen))

theorem separate_of_unopened (quiet : Quiet mark state)
    (unopened : Unopened mark base fd offset data inputs (view mark state) (receivedOn mark actions ++ later))
    (complete : Complete inputs) (past : run step first before = some state)
    (reached : run step state actions = some last) (known : Guarded step (KnownFD mark) state actions)
    (left : Guarded step (EarlierLeft mark) state actions) :
    SeparateFrom mark first before state actions := by
  have silent := not_replying (unopened.not_replying alreadyOpen)
  induction actions generalizing state before with
  | nil => exact .nil silent
  | cons action actions ih =>
    obtain ⟨middle, stepped, onward⟩ := run_cons_some.mp reached
    rw [receivedOn_cons, List.append_assoc] at unopened
    rw [guarded_cons stepped] at known left
    refine .cons silent (fun delivers => absurd delivers unopened.not_delivers) stepped ?_
    -- What is still listed has closed, and no such task is left.
    have free : OpensFree mark state action := by
      intro isKnown fd offset data handles handling
      refine ⟨known.1 isKnown fd offset data handles handling, ?_⟩
      cases occupied : state.slot mark with
      | none => rfl
      | some stream =>
        exact absurd (unopened.stale stream occupied)
          (left.1 isKnown fd offset data stream handles handling occupied)
    have opened : ErrorsTold ⟨fd, offset, 0, false, [], .unstarted⟩ (⟨data, false⟩ :: inputs) [] [] := .none
    obtain ⟨quiet', ⟨_, waits | ⟨empty, accepted⟩⟩ | ⟨taken, _⟩⟩ :=
      unopened.step [] quiet complete opened stepped rfl
    · exact ih quiet' waits (run_snoc past stepped) onward known.2 left.2
        (not_replying (waits.not_replying alreadyOpen))
    · exact separate_of_accepted upkeep_errors quiet' accepted ⟨before, [action], state, rfl, past, empty⟩
        onward
    · exact absurd free taken

/-- A client that has the close message of any earlier stream on the mark, and whose
descriptor is known, opens a stream and sends its data: if no earlier task is between its
close message and its end when the open command is handled, the streams are kept apart. -/
theorem reopened_separate (mark : Mark) (first last : State) (actions : List Action) (fd : UInt32)
    (offset : UInt64) (data : Bytes) (inputs : List Input)
    (unread : first.reader.focus mark = none) (quiet : Quiet mark first)
    (closed : Stale (first.slot mark)) (complete : Complete inputs)
    (script : receivedOn mark actions <+: .streamOpen mark fd offset data :: commands mark inputs)
    (reached : run step first actions = some last) (known : Guarded step (KnownFD mark) first actions)
    (left : Guarded step (EarlierLeft mark) first actions) : Separate mark first actions := by
  obtain ⟨later, split⟩ := script
  have unopened : Unopened mark (answersOn mark first.out) fd offset data inputs (view mark first)
      (receivedOn mark actions ++ later) := by
    rw [split, view_of rfl unread rfl]
    exact ⟨.coming, closed, rfl⟩
  have separate : SeparateFrom mark first [] first actions :=
    separate_of_unopened quiet unopened complete rfl reached known left
  intro before after middle isSplit toMiddle
  exact separate before after middle isSplit toMiddle

end Runs

private def closedStream : List Action :=
  [.receive (.streamOpen 0 3 0 [1]), .acquire, .handle true, .start, .enqueue,
    .receive (.streamData 0 [] true), .acquire, .handle true, .take 0, .work 0 [.ok 1], .take 0,
    .work 0 [], .finish 0]

/-- The next stream, opened after the task of the last one has left. -/
private def nextStream : List Action :=
  [.leave 0, .receive (.streamOpen 0 4 0 [2]), .acquire, .handle true, .start, .enqueue,
    .receive (.streamData 0 [3] true), .acquire, .handle true]

private theorem closedStream_runs :
    ∃ first, run step initial closedStream = some first ∧ first.reader = .idle ∧
      Quiet 0 first ∧ Stale (first.slot 0) ∧ answersOn 0 first.out = [.closed 1] := by
  cases reached : run step initial closedStream with
  | none => cases reached
  | some first =>
    cases reached
    refine ⟨_, rfl, rfl, ?_, ?_, rfl⟩
    · intro task member _
      exact List.mem_singleton.mp member
    · rintro stream ⟨⟩
      rfl

theorem reopened_separate_after_leave :
    ∃ first, run step initial closedStream = some first ∧ answersOn 0 first.out = [.closed 1] ∧
      Separate 0 first nextStream := by
  cases ran : run step initial closedStream with
  | none => cases ran
  | some first =>
    cases reached : run step first nextStream with
    | none => cases ran; cases reached
    | some last =>
      obtain ⟨_, same, idle, quiet, closed, answers⟩ := closedStream_runs
      obtain rfl := Option.some.inj (ran.symm.trans same)
      refine ⟨first, rfl, answers, ?_⟩
      refine reopened_separate 0 first last nextStream 4 0 [2] [⟨[3], true⟩]
        (by rw [idle, focus_idle]) quiet closed rfl ⟨[], rfl⟩ reached ?_ ?_
      · refine guarded_of_forall (fun state action member isKnown fd offset data isHandle _ => ?_) _
        subst isHandle
        simpa [nextStream] using member
      · cases ran
        have plain {state : State} {action : Action} (other : ∀ known, action ≠ .handle known) :
            EarlierLeft 0 state action :=
          fun known _ _ _ _ isHandle => absurd isHandle (other known)
        iterate 3 refine .cons rfl (plain nofun) ?_
        refine .cons rfl (fun _ _ _ _ _ _ _ occupied => (by cases occupied)) ?_
        iterate 4 refine .cons rfl (plain nofun) ?_
        exact .cons rfl (fun _ _ _ _ _ _ handling => (by cases handling)) trivial

/-- The client has the close message of its first stream and opens the next one before the task
has left: the open is refused, and the data go to the stream that has been closed. -/
theorem reopened_before_leave :
    ∃ first last, run step initial closedStream = some first ∧
      answersOn 0 first.out = [.closed 1] ∧
      run step first [.receive (.streamOpen 0 4 0 [2]), .acquire, .handle true, .reply,
        .receive (.streamData 0 [3] true), .acquire, .handle true] = some last ∧
      answersSince 0 first last = [alreadyOpen] ∧
      last.slot 0 = some ⟨3, 1, 1, false, [⟨[3], true⟩], .closing⟩ := by
  cases ran : run step initial closedStream with
  | none => cases ran
  | some first =>
    cases ran
    exact ⟨_, _, rfl, rfl, rfl, rfl, rfl⟩

end Wsfs.Server
