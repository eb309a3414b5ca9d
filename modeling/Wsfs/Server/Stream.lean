/-
The answers to one write stream. A run of the whole session is seen from one mark:
its place in the table, the reader while it works for the mark, and the answers
sent on it. Every step of the session is one of the few moves below, and the answers
follow from the moves. What the task keeps of its stream from round to round is left
open, with the bytes that its calls have written.
-/

import Wsfs.Base.Content
import Wsfs.Base.Run
import Wsfs.Client.Closing

namespace Wsfs.Server

open Wsfs.Base Wsfs.Protocol Wsfs.Unix Function

/-! ### The session seen from one mark -/

def Reader.mark? : Reader → Option Mark
  | .idle => none
  | .acquiring cmd => some cmd.mark
  | .handling cmd => some cmd.mark
  | .starting task _ => some task.mark
  | .enqueuing mark _ => some mark
  | .replying message => some message.mark

def Reader.focus (mark : Mark) (reader : Reader) : Option Reader :=
  if reader.mark? = some mark then some reader else none

def answersOn (mark : Mark) (out : List Message) : List Answer :=
  (out.filter fun message => message.mark == mark).map Message.answer

structure View where
  slot : Option Stream
  reader : Option Reader
  answers : List Answer

def view (mark : Mark) (state : State) : View :=
  ⟨state.slot mark, state.reader.focus mark, answersOn mark state.out⟩

def label (mark : Mark) : Action → Option Command
  | .receive cmd => if cmd.mark = mark then some cmd else none
  | _ => none

/-- The reader takes a command of the mark. -/
structure Received (cmd : Command) (before after : View) : Prop where
  idle : before.reader = none
  taken : after = { before with reader := some (if cmd.buffered then .acquiring cmd else .handling cmd) }

/-- Any other step, with the `pwrite` calls that it makes for the mark. -/
inductive Move (mark : Mark) : Action → View → List (UInt64 × Bytes) → View → Prop
  | unseen (action : Action) (seen : View)
      (unhandled : ∀ known, action = .handle known → seen.reader = none)
      (unworked : ∀ results, action ≠ .work mark results) : Move mark action seen [] seen
  | acquire (slot : Option Stream) (answers : List Answer) (cmd : Command) :
      Move mark .acquire ⟨slot, some (.acquiring cmd), answers⟩ [] ⟨slot, some (.handling cmd), answers⟩
  | opened (answers : List Answer) (fd : UInt32) (offset : UInt64) (data : Bytes) :
      Move mark (.handle true) ⟨none, some (.handling (.streamOpen mark fd offset data)), answers⟩ []
        ⟨some ⟨fd, offset, 0, false, [], .unstarted⟩,
          some (.starting (.stream mark) (some ⟨data, false⟩)), answers⟩
  | turnedDown (known : Bool) (slot : Option Stream) (answers : List Answer) (cmd : Command)
      (code : UInt8) (desc : String) (reason : code = errorInvalidFD ∨ code = errorInvalid)
      (taken : ∀ fd offset data, cmd = .streamOpen mark fd offset data → ¬(known = true ∧ slot = none))
      (missing : ∀ data isEnd, cmd = .streamData mark data isEnd → slot = none) :
      Move mark (.handle known) ⟨slot, some (.handling cmd), answers⟩ []
        ⟨slot, some (.replying ⟨mark, .error code desc⟩), answers⟩
  | pushed (known : Bool) (stream : Stream) (answers : List Answer) (data : Bytes) (isEnd : Bool) :
      Move mark (.handle known) ⟨some stream, some (.handling (.streamData mark data isEnd)), answers⟩ []
        ⟨some { stream with queue := stream.queue ++ [⟨data, isEnd⟩] }, none, answers⟩
  | blocked (known : Bool) (stream : Stream) (answers : List Answer) (data : Bytes) (isEnd : Bool) :
      Move mark (.handle known) ⟨some stream, some (.handling (.streamData mark data isEnd)), answers⟩ []
        ⟨some stream, some (.enqueuing mark ⟨data, isEnd⟩), answers⟩
  | plain (known : Bool) (slot : Option Stream) (answers : List Answer) (cmd : Command) (task : Task)
      (single : cmd = .other mark cmd.buffered ∨ ∃ fd lock, cmd = .setFileLockWait mark fd lock) :
      Move mark (.handle known) ⟨slot, some (.handling cmd), answers⟩ []
        ⟨slot, some (.starting task none), answers⟩
  | started (slot : Option Stream) (answers : List Answer) (input : Input) :
      Move mark .start ⟨slot, some (.starting (.stream mark) (some input)), answers⟩ []
        ⟨slot.map fun stream => { stream with pc := .receiving }, some (.enqueuing mark input),
          answers⟩
  | startedPlain (slot after : Option Stream) (answers : List Answer) (task : Task)
      (input : Option Input) (single : task ≠ .stream mark ∨ input = none)
      (reader : Option Reader) :
      Move mark .start ⟨slot, some (.starting task input), answers⟩ [] ⟨after, reader, answers⟩
  | enqueued (stream : Stream) (answers : List Answer) (input : Input) :
      Move mark .enqueue ⟨some stream, some (.enqueuing mark input), answers⟩ []
        ⟨some { stream with queue := stream.queue ++ [input] }, none, answers⟩
  | replied (slot : Option Stream) (answers : List Answer) (answer : Answer) :
      Move mark .reply ⟨slot, some (.replying ⟨mark, answer⟩), answers⟩ []
        ⟨slot, none, answers ++ [answer]⟩
  | took (stream : Stream) (reader : Option Reader) (answers : List Answer) (input : Input)
      (queue : List Input) (receiving : stream.pc = .receiving)
      (queued : stream.queue = input :: queue) :
      Move mark (.take mark) ⟨some stream, reader, answers⟩ []
        ⟨some { stream with queue := queue, pc := .working input }, reader, answers⟩
  | worked (stream : Stream) (reader : Option Reader) (answers : List Answer) (input : Input)
      (results : List (Except Errno Nat)) (chunk : Chunk) (working : stream.pc = .working input)
      (written : stream.write results input = some chunk) :
      Move mark (.work mark results) ⟨some stream, reader, answers⟩ chunk.calls
        ⟨some (stream.advance input chunk), reader, answers ++ chunk.answers⟩
  | finished (stream : Stream) (reader : Option Reader) (answers : List Answer)
      (ending : stream.pc = .ending) :
      Move mark (.finish mark) ⟨some stream, reader, answers⟩ []
        ⟨some { stream with pc := .closing }, reader, answers ++ [.closed stream.writtenTotal]⟩
  | left (stream : Stream) (reader : Option Reader) (answers : List Answer)
      (closing : stream.pc = .closing) :
      Move mark (.leave mark) ⟨some stream, reader, answers⟩ [] ⟨none, reader, answers⟩

/-- A step that the mark takes part in, or not. -/
def Moves (mark : Mark) (state : State) (action : Action) (next : State) : Prop :=
  ∃ calls, Move mark action (view mark state) calls (view mark next)

def Quiet (mark : Mark) (state : State) : Prop :=
  ∀ task ∈ state.tasks, task.mark = mark → task = .stream mark

section Projection

variable {mark : Mark} {state next : State} {reader : Reader} {answers : List Answer} {other : Mark}
  {action : Action}

@[simp] theorem focus_own (own : reader.mark? = some mark) :
    reader.focus mark = some reader := if_pos own

@[simp] theorem focus_foreign (foreign : reader.mark? ≠ some mark) :
    reader.focus mark = none := if_neg foreign

@[simp] theorem focus_idle : Reader.idle.focus mark = none := rfl

variable {slot : Option Stream} {known : Bool} {cmd : Command}

theorem view_of {reader : Option Reader} (atSlot : state.slot mark = slot)
    (focused : state.reader.focus mark = reader) (sent : answersOn mark state.out = answers) :
    view mark state = ⟨slot, reader, answers⟩ := by
  rw [view, atSlot, focused, sent]

theorem move_into {before : View} {calls : List (UInt64 × Bytes)} {reader : Option Reader}
    (shown : view mark state = before) (move : Move mark action before calls ⟨slot, reader, answers⟩)
    (atSlot : next.slot mark = slot) (focused : next.reader.focus mark = reader)
    (sent : answersOn mark next.out = answers) : Moves mark state action next := by
  refine ⟨calls, ?_⟩
  rw [shown, view_of atSlot focused sent]
  exact move

theorem moves_unseen (same : view mark next = view mark state)
    (unhandled : ∀ known, action = .handle known → state.reader.focus mark = none)
    (unworked : ∀ results, action ≠ .work mark results) : Moves mark state action next := by
  refine ⟨[], ?_⟩
  rw [same]
  exact .unseen action _ unhandled unworked

theorem view_congr (slot : next.slot mark = state.slot mark)
    (reader : next.reader.focus mark = state.reader.focus mark)
    (sent : answersOn mark next.out = answersOn mark state.out) :
    view mark next = view mark state := by
  rw [view, view, slot, reader, sent]

theorem answersOn_send (mark : Mark) (state : State) (other : Mark) (answers : List Answer) :
    answersOn mark (state.send other answers).out =
      answersOn mark state.out ++ if other = mark then answers else [] := by
  unfold State.send answersOn
  rw [List.filter_append, List.map_append]
  congr 1
  by_cases own : other = mark
  · rw [if_pos own]
    induction answers with
    | nil => rfl
    | cons answer rest ih => simp [own] at ih ⊢; exact ih
  · rw [if_neg own]
    induction answers with
    | nil => rfl
    | cons answer rest ih => simp [own] at ih ⊢

theorem focus_of_mark? (different : other ≠ mark) (about : reader = .idle ∨ reader.mark? = some other) :
    reader.focus mark = none := by
  apply focus_foreign
  rcases about with rfl | about
  · exact nofun
  · rw [about]
    exact fun same => different (Option.some.inj same)

/-- The reader works on a message: what it does is for the mark of that message. -/
theorem moves_reader (current : state.reader = reader) (about : reader.mark? = some other)
    (found : state.slot other = slot) (after : next.reader = .idle ∨ next.reader.mark? = some other)
    (elsewhere : other ≠ mark → next.slot mark = state.slot mark)
    (sent : other ≠ mark → answersOn mark next.out = answersOn mark state.out)
    (unworked : ∀ results, action ≠ .work mark results)
    (own : other = mark → view mark state = ⟨slot, some reader, answersOn mark state.out⟩ →
      Moves mark state action next) : Moves mark state action next := by
  rw [← current] at about
  by_cases same : other = mark
  · subst same
    exact own rfl (view_of found (by rw [focus_own about, current]) rfl)
  · have before := focus_of_mark? same (.inr about)
    refine moves_unseen (view_congr (elsewhere same) ?_ (sent same)) (fun _ _ => before) unworked
    exact (focus_of_mark? same after).trans before.symm

/-- The task of a stream works: what it does is for the mark of its stream. -/
theorem moves_task {stream : Stream} (occupied : state.slot other = some stream)
    (updated : next.slot = update state.slot other slot) (reader : next.reader = state.reader)
    (sent : other ≠ mark → answersOn mark next.out = answersOn mark state.out)
    (unhandled : ∀ known, action ≠ .handle known)
    (unworked : other ≠ mark → ∀ results, action ≠ .work mark results)
    (own : other = mark →
      view mark state = ⟨some stream, state.reader.focus mark, answersOn mark state.out⟩ →
        Moves mark state action next) : Moves mark state action next := by
  by_cases same : other = mark
  · subst same
    exact own rfl (view_of occupied rfl rfl)
  · refine moves_unseen (view_congr ?_ (by rw [reader]) (sent same)) ?_ (unworked same)
    · rw [updated, update_of_ne (Ne.symm same)]
    · exact fun known isHandle => absurd isHandle (unhandled known)

theorem answersOn_own (state : State) : answersOn mark (state.send mark answers).out =
    answersOn mark state.out ++ answers := by
  rw [answersOn_send, if_pos rfl]

theorem answersOn_other (different : other ≠ mark) (state : State) :
    answersOn mark (state.send other answers).out = answersOn mark state.out := by
  rw [answersOn_send, if_neg different, List.append_nil]

theorem receive_view (stepped : step state (.receive cmd) = some next) :
    label mark (.receive cmd) = some cmd ∧ Received cmd (view mark state) (view mark next) ∨
      label mark (.receive cmd) = none ∧ Moves mark state (.receive cmd) next := by
  obtain ⟨idle⟩ := steps stepped
  have about : (if cmd.buffered then Reader.acquiring cmd else .handling cmd).mark? =
      some cmd.mark := by split <;> rfl
  by_cases own : cmd.mark = mark
  · refine .inl ⟨if_pos own, ?_, ?_⟩
    · rw [view, idle, focus_idle]
    · rw [view, view, focus_own (about.trans (congrArg some own))]
  · refine .inr ⟨if_neg own, moves_unseen (view_congr rfl ?_ rfl) nofun nofun⟩
    rw [idle]
    exact focus_of_mark? own (.inr about)

theorem start_view {task : Task} {input : Option Input} (starting : state.reader = .starting task input) :
    Moves mark state .start
      { state.begin task with tasks := task :: state.tasks, reader := .afterStart task input } := by
  have out : (state.begin task).out = state.out := by cases task <;> rfl
  refine moves_reader starting rfl rfl ?_ ?_ (fun _ => congrArg (answersOn mark) out) nofun ?_
  · cases input <;> simp [Reader.afterStart, Reader.mark?]
  · intro different
    cases task with
    | stream other => exact update_of_ne (Ne.symm different) ..
    | _ => rfl
  · rintro own shown
    by_cases stream : task = .stream mark ∧ input.isSome
    · obtain ⟨rfl, present⟩ := stream
      obtain ⟨first, rfl⟩ := Option.isSome_iff_exists.mp present
      exact move_into shown (.started _ _ first) (update_self ..) (focus_own rfl) rfl
    · have single : task ≠ .stream mark ∨ input = none := by
        rw [Option.isSome_iff_ne_none] at stream
        tauto
      exact move_into shown (.startedPlain _ _ _ task input single _) rfl rfl (congrArg (answersOn mark) out)

/-- The steps of the task of a stream. -/
def OwnStep (mark : Mark) (action : Action) : Prop :=
  action = .take mark ∨ (∃ results, action = .work mark results) ∨ action = .finish mark ∨
    action = .leave mark

theorem Quiet.different (quiet : Quiet mark state) {task : Task} (member : task ∈ state.tasks)
    (plain : ∀ other, task ≠ .stream other) : task.mark ≠ mark :=
  fun same => plain mark (quiet task member same)

theorem moves (quiet : Quiet mark state) (stepped : step state action = some next)
    (unread : ∀ cmd, action ≠ .receive cmd) : Moves mark state action next := by
  cases steps stepped with
  | received => exact absurd rfl (unread _)
  | acquired acquiring =>
    refine moves_reader acquiring rfl rfl (.inr rfl) (fun _ => rfl) (fun _ => rfl) nofun ?_
    rintro rfl shown
    exact move_into shown (.acquire ..) rfl (focus_own rfl) rfl
  | opened handling found free =>
    subst found
    refine moves_reader handling rfl free (.inr rfl) (fun apart => update_of_ne (Ne.symm apart) ..)
      (fun _ => rfl) nofun ?_
    rintro rfl shown
    exact move_into shown (.opened ..) (update_self ..) (focus_own rfl) rfl
  | rejected handling reason taken missing =>
    refine moves_reader handling rfl rfl (.inr rfl) (fun _ => rfl) (fun _ => rfl) nofun ?_
    rintro rfl shown
    exact move_into shown (.turnedDown _ _ _ _ _ _ reason (taken _) (missing _)) rfl (focus_own rfl) rfl
  | pushed handling occupied =>
    refine moves_reader handling rfl occupied (.inl rfl) (fun apart => update_of_ne (Ne.symm apart) ..)
      (fun _ => rfl) nofun ?_
    rintro rfl shown
    exact move_into shown (.pushed ..) (update_self ..) focus_idle rfl
  | blocked handling occupied =>
    refine moves_reader handling rfl occupied (.inr rfl) (fun _ => rfl) (fun _ => rfl) nofun ?_
    rintro rfl shown
    exact move_into shown (.blocked ..) occupied (focus_own rfl) rfl
  | locking handling =>
    refine moves_reader handling rfl rfl (.inr rfl) (fun _ => rfl) (fun _ => rfl) nofun ?_
    rintro rfl shown
    exact move_into shown (.plain _ _ _ _ _ (.inr ⟨_, _, rfl⟩)) rfl (focus_own rfl) rfl
  | spawned handling =>
    refine moves_reader handling rfl rfl (.inr rfl) (fun _ => rfl) (fun _ => rfl) nofun ?_
    rintro rfl shown
    exact move_into shown (.plain _ _ _ _ _ (.inl rfl)) rfl (focus_own rfl) rfl
  | started starting => exact start_view starting
  | enqueued enqueuing occupied =>
    refine moves_reader enqueuing rfl occupied (.inl rfl) (fun apart => update_of_ne (Ne.symm apart) ..)
      (fun _ => rfl) nofun ?_
    rintro rfl shown
    exact move_into shown (.enqueued ..) (update_self ..) focus_idle rfl
  | replied replying =>
    refine moves_reader replying rfl rfl (.inl rfl) (fun _ => rfl) (fun apart => answersOn_other apart state)
      nofun ?_
    rintro rfl shown
    exact move_into shown (.replied ..) rfl focus_idle (answersOn_own state)
  | took occupied receiving queued =>
    refine moves_task occupied rfl rfl (fun _ => rfl) nofun nofun ?_
    rintro rfl shown
    exact move_into shown (.took _ _ _ _ _ receiving queued) (update_self ..) rfl rfl
  | worked occupied working written =>
    refine moves_task occupied rfl rfl (fun apart => answersOn_other apart state) nofun ?_ ?_
    · exact fun apart _ same => apart (Action.work.inj same).1
    · rintro rfl shown
      exact move_into shown (.worked _ _ _ _ _ _ working written) (update_self ..) rfl (answersOn_own state)
  | finished occupied ending =>
    refine moves_task occupied rfl rfl (fun apart => answersOn_other apart state) nofun nofun ?_
    rintro rfl shown
    exact move_into shown (.finished _ _ _ ending) (update_self ..) rfl (answersOn_own state)
  | left occupied closing =>
    refine moves_task occupied rfl rfl (fun _ => rfl) nofun nofun ?_
    rintro rfl shown
    exact move_into shown (.left _ _ _ closing) (update_self ..) rfl rfl
  | granted member | refused member | completed member =>
    have elsewhere := quiet.different member nofun
    exact moves_unseen (view_congr rfl rfl (answersOn_other elsewhere state)) nofun nofun
  | foreign => exact moves_unseen (view_congr rfl rfl rfl) nofun nofun

theorem step_view (quiet : Quiet mark state) (stepped : step state action = some next) :
    (∃ cmd, label mark action = some cmd ∧ Received cmd (view mark state) (view mark next)) ∨
      label mark action = none ∧ Moves mark state action next := by
  cases action with
  | receive cmd => exact (receive_view stepped).imp_left fun own => ⟨cmd, own⟩
  | _ => exact .inr ⟨rfl, moves quiet stepped nofun⟩

theorem step_quiet (quiet : Quiet mark state)
    (streams : ∀ task input, state.reader.focus mark = some (.starting task input) →
      task = .stream mark) (stepped : step state action = some next) : Quiet mark next := by
  intro task member own
  rcases step_tasks stepped with fewer | ⟨started, input, starting, tasks⟩
  · exact quiet task (fewer.subset member) own
  · rw [tasks] at member
    rcases List.mem_cons.mp member with rfl | earlier
    · apply streams task input
      rw [starting]
      exact focus_own (by rw [Reader.mark?, own])
    · exact quiet task earlier own

end Projection

/-! ### The stream on the wire -/

/-- The inputs end with the first one that is marked as the end. -/
def Complete : List Input → Prop
  | [] => False
  | [input] => input.isEnd = true
  | input :: rest => input.isEnd = false ∧ Complete rest

def commands (mark : Mark) (inputs : List Input) : List Command :=
  inputs.map fun input => .streamData mark input.data input.isEnd

theorem Complete.ne_nil {inputs : List Input} (complete : Complete inputs) : inputs ≠ [] := by
  rintro rfl
  exact complete

variable {input : Input} {rest : List Input} {chunk : Chunk} {stream : Stream}

theorem Complete.tail (complete : Complete (input :: rest)) (more : input.isEnd = false) :
    Complete rest := by
  cases rest with
  | nil =>
    rw [Complete, more] at complete
    cases complete
  | cons second rest => exact complete.2

theorem Complete.last (complete : Complete (input :: rest)) (ended : input.isEnd = true) :
    rest = [] := by
  cases rest with
  | nil => rfl
  | cons second rest =>
    have more := complete.1
    rw [ended] at more
    cases more

theorem Complete.cons (more : input.isEnd = false) (complete : Complete rest) :
    Complete (input :: rest) := by
  cases rest with
  | nil => exact complete.elim
  | cons second rest => exact ⟨more, complete⟩

/-! ### An accepted stream -/

/-- What the reader holds for the stream: at most one input on its way. -/
inductive Feeding (mark : Mark) : Option Reader → List Input → Prop
  | idle : Feeding mark none []
  | acquiring (data : Bytes) (isEnd : Bool) :
      Feeding mark (some (.acquiring (.streamData mark data isEnd))) [⟨data, isEnd⟩]
  | handling (data : Bytes) (isEnd : Bool) :
      Feeding mark (some (.handling (.streamData mark data isEnd))) [⟨data, isEnd⟩]
  | enqueuing (input : Input) : Feeding mark (some (.enqueuing mark input)) [input]

/-- The inputs still to be consumed are complete until the end is consumed. -/
def Progress (stream : Stream) (later : List Input) : Prop :=
  match stream.pc with
  | .receiving => Complete (stream.queue ++ later)
  | .working input => Complete (input :: (stream.queue ++ later))
  | .ending => stream.queue ++ later = []
  | _ => False

/-- Nothing in the table, or a stream that has sent its close message. -/
def Stale (slot : Option Stream) : Prop :=
  ∀ stream, slot = some stream → stream.pc = .closing

def onto (file : Bytes) (calls : List (UInt64 × Bytes)) : Bytes :=
  calls.foldl (fun file call => writeAt file call.1.toNat call.2) file

/-- What the task keeps of its stream, of the inputs to come, the errors it has sent and its
file, as long as the results of its calls are allowed. -/
structure Upkeep (allowed : List (Except Errno Nat) → Prop)
    (kept : Stream → List Input → List Answer → Bytes → Prop) : Prop where
  frame : ∀ {stream pending errors file} (queue : List Input) (pc : StreamPc),
    kept stream pending errors file → kept { stream with queue := queue, pc := pc } pending errors file
  round : ∀ {stream input rest errors file results chunk}, allowed results →
    kept stream (input :: rest) errors file → stream.write results input = some chunk →
      kept (stream.advance input chunk) rest (errors ++ chunk.answers) (onto file chunk.calls)

/-- The stream with the commands that are still to come, and its file. -/
inductive Accepted (mark : Mark) (base : List Answer)
    (kept : Stream → List Input → List Answer → Bytes → Prop) : View → List Command → Bytes → Prop
  | starting (fd : UInt32) (offset : UInt64) (first : Input) (rest : List Input) (file : Bytes)
      (complete : Complete (first :: rest))
      (opened : kept ⟨fd, offset, 0, false, [], .unstarted⟩ (first :: rest) [] file) :
      Accepted mark base kept ⟨some ⟨fd, offset, 0, false, [], .unstarted⟩,
        some (.starting (.stream mark) (some first)), base⟩ (commands mark rest) file
  | running (stream : Stream) (reader : Option Reader) (answers errors : List Answer)
      (fed rest : List Input) (file : Bytes) (feeding : Feeding mark reader fed)
      (total : answers = base ++ errors) (progress : Progress stream (fed ++ rest))
      (holds : kept stream (stream.inputs ++ (fed ++ rest)) errors file) :
      Accepted mark base kept ⟨some stream, reader, answers⟩ (commands mark rest) file
  | closed (slot : Option Stream) (answers errors : List Answer) (final : Stream) (file : Bytes)
      (stale : Stale slot) (total : answers = base ++ errors ++ [.closed final.writtenTotal])
      (holds : kept final [] errors file) : Accepted mark base kept ⟨slot, none, answers⟩ [] file

theorem Progress.round {later : List Input} (working : stream.pc = .working input)
    (progress : Progress stream later) : Progress (stream.advance input chunk) later := by
  rw [Progress, working] at progress
  cases ended : input.isEnd with
  | true =>
    simp only [Progress, Stream.advance, ended, reduceIte]
    exact progress.last ended
  | false =>
    simp only [Progress, Stream.advance, ended, Bool.false_eq_true, reduceIte]
    exact progress.tail ended

theorem Progress.push (progress : Progress stream ([input] ++ rest)) :
    Progress { stream with queue := stream.queue ++ [input] } ([] ++ rest) := by
  unfold Progress at progress ⊢
  cases pc : stream.pc <;> simp_all

theorem advance_inputs (stream : Stream) (input : Input) (chunk : Chunk) :
    (stream.advance input chunk).inputs = stream.queue := by
  rw [Stream.inputs, Stream.advance]
  cases input.isEnd <;> rfl

section Moves

variable {mark : Mark} {base : List Answer} {before after : View} {script later : List Command}
  {cmd : Command} {action : Action} {calls : List (UInt64 × Bytes)} {file : Bytes}
  {allowed : List (Except Errno Nat) → Prop} {kept : Stream → List Input → List Answer → Bytes → Prop}

theorem Accepted.received (accepted : Accepted mark base kept before (cmd :: later) file)
    (received : Received cmd before after) : Accepted mark base kept after later file := by
  obtain ⟨idle, rfl⟩ := received
  generalize whole : cmd :: later = script at accepted
  cases accepted with
  | starting fd offset first rest file complete opened => cases idle
  | running stream reader answers errors fed rest file feeding total progress holds =>
    obtain rfl : reader = none := idle
    cases feeding
    cases rest with
    | nil => cases whole
    | cons input rest =>
      cases whole
      exact .running _ _ _ errors [input] rest file (.acquiring _ _) total progress holds
  | closed slot answers errors final file stale total holds => cases whole

theorem Accepted.move (upkeep : Upkeep allowed kept) (accepted : Accepted mark base kept before script file)
    (move : Move mark action before calls after)
    (permitted : ∀ results, action = .work mark results → allowed results) :
    Accepted mark base kept after script (onto file calls) := by
  cases accepted with
  | starting fd offset first rest file complete opened =>
    cases move with
    | unseen => exact .starting fd offset first rest file complete opened
    | started slot answers input =>
      exact .running _ _ _ [] [first] rest file (.enqueuing first) (List.append_nil base).symm complete
        (upkeep.frame _ _ opened)
    | startedPlain slot after answers task input single reader =>
      rcases single with other | absent
      · exact absurd rfl other
      · cases absent
    | took _ _ _ _ _ receiving => cases receiving
    | worked _ _ _ _ _ _ working => cases working
    | finished _ _ _ ending => cases ending
    | left _ _ _ closing => cases closing
  | running stream reader answers errors fed rest file feeding total progress holds =>
    cases move with
    | unseen => exact .running _ _ _ errors fed rest file feeding total progress holds
    | acquire slot answers cmd =>
      cases feeding
      exact .running _ _ _ errors _ rest file (.handling _ _) total progress holds
    | turnedDown known slot answers cmd code desc reason taken missing =>
      cases feeding
      cases missing _ _ rfl
    | pushed _ _ _ _ _ | enqueued _ _ _ =>
      cases feeding
      refine .running _ _ _ errors [] rest file .idle total progress.push ?_
      simpa [Stream.inputs] using upkeep.frame _ _ holds
    | blocked known stream answers data isEnd =>
      cases feeding
      exact .running _ _ _ errors _ rest file (.enqueuing _) total progress holds
    | plain known slot answers cmd task single =>
      cases feeding
      rcases single with impossible | ⟨fd, lock, impossible⟩ <;> cases impossible
    | started _ _ _ | startedPlain _ _ _ _ _ _ _ | replied _ _ _ => cases feeding
    | took stream reader answers input queue receiving queued =>
      rw [Progress, receiving, queued] at progress
      rw [Stream.inputs, receiving, queued] at holds
      exact .running _ _ _ errors fed rest file feeding total progress (upkeep.frame _ _ holds)
    | worked stream reader answers input results chunk working written =>
      refine .running _ _ _ (errors ++ chunk.answers) fed rest _ feeding ?_ (progress.round working) ?_
      · rw [total, List.append_assoc]
      · rw [Stream.inputs, working] at holds
        rw [advance_inputs]
        exact upkeep.round (permitted results rfl) holds written
    | finished stream reader answers ending =>
      rw [Progress, ending] at progress
      obtain ⟨empty, none⟩ := List.append_eq_nil_iff.mp progress
      obtain ⟨rfl, rfl⟩ := List.append_eq_nil_iff.mp none
      cases feeding
      rw [Stream.inputs, ending, empty] at holds
      refine .closed _ _ errors stream file ?_ (by rw [total]) holds
      rintro _ ⟨⟩
      rfl
    | left stream reader answers closing =>
      rw [Progress, closing] at progress
      exact progress.elim
  | closed slot answers errors final file stale total holds =>
    cases move with
    | unseen => exact .closed slot _ errors final file stale total holds
    | took stream _ _ _ _ receiving => cases (stale stream rfl).symm.trans receiving
    | worked stream _ _ _ _ _ working => cases (stale stream rfl).symm.trans working
    | finished stream _ _ ending => cases (stale stream rfl).symm.trans ending
    | left => exact .closed none _ errors final file nofun total holds

/-! ### A stream that was turned down -/

def Refusal (answer : Answer) : Prop :=
  ∃ code desc, answer = .error code desc ∧ (code = errorInvalidFD ∨ code = errorInvalid)

/-- The reader goes through the data of a stream that was never opened. -/
inductive Refusing (mark : Mark) : Option Reader → Prop
  | idle : Refusing mark none
  | acquiring (data : Bytes) (isEnd : Bool) :
      Refusing mark (some (.acquiring (.streamData mark data isEnd)))
  | handling (data : Bytes) (isEnd : Bool) :
      Refusing mark (some (.handling (.streamData mark data isEnd)))
  | enqueuing (input : Input) : Refusing mark (some (.enqueuing mark input))
  | replying (answer : Answer) (refusal : Refusal answer) :
      Refusing mark (some (.replying ⟨mark, answer⟩))

structure Rejected (mark : Mark) (base : List Answer) (seen : View) (script : List Command) : Prop where
  script : ∃ inputs, script = commands mark inputs
  stale : Stale seen.slot
  refusing : Refusing mark seen.reader
  refusals : ∃ errors, seen.answers = base ++ errors ∧ ∀ answer ∈ errors, Refusal answer

theorem Rejected.received (rejected : Rejected mark base before (cmd :: later))
    (received : Received cmd before after) : Rejected mark base after later := by
  obtain ⟨⟨inputs, whole⟩, stale, refusing, refusals⟩ := rejected
  obtain ⟨idle, rfl⟩ := received
  cases inputs with
  | nil => cases whole
  | cons input inputs =>
    cases whole
    exact ⟨⟨inputs, rfl⟩, stale, .acquiring _ _, refusals⟩

theorem Stale.push (stale : Stale (some stream)) :
    Stale (some { stream with queue := stream.queue ++ [input] }) := by
  rintro _ ⟨⟩
  exact stale stream rfl

theorem Rejected.move (rejected : Rejected mark base before script)
    (move : Move mark action before calls after) : Rejected mark base after script := by
  obtain ⟨whole, stale, refusing, refusals⟩ := rejected
  cases move with
  | unseen => exact ⟨whole, stale, refusing, refusals⟩
  | acquire slot answers cmd =>
    cases refusing
    exact ⟨whole, stale, .handling _ _, refusals⟩
  | opened _ _ _ _ | started _ _ _ | startedPlain _ _ _ _ _ _ _ => cases refusing
  | turnedDown known slot answers cmd code desc reason taken missing =>
    exact ⟨whole, stale, .replying _ ⟨code, desc, rfl, reason⟩, refusals⟩
  | pushed _ _ _ _ _ | enqueued _ _ _ => exact ⟨whole, stale.push, .idle, refusals⟩
  | blocked known stream answers data isEnd => exact ⟨whole, stale, .enqueuing _, refusals⟩
  | plain known slot answers cmd task single =>
    cases refusing
    rcases single with impossible | ⟨fd, lock, impossible⟩ <;> cases impossible
  | replied slot answers answer =>
    cases refusing with
    | replying answer refusal =>
      obtain ⟨errors, total, every⟩ := refusals
      refine ⟨whole, stale, .idle, errors ++ [answer], ?_, ?_⟩
      · change answers ++ [answer] = _
        rw [show answers = base ++ errors from total, List.append_assoc]
      · exact List.forall_mem_append.mpr ⟨every, List.forall_mem_singleton.mpr refusal⟩
  | took stream _ _ _ _ receiving => cases (stale stream rfl).symm.trans receiving
  | worked stream _ _ _ _ _ working => cases (stale stream rfl).symm.trans working
  | finished stream _ _ ending => cases (stale stream rfl).symm.trans ending
  | left => exact ⟨whole, nofun, refusing, refusals⟩

/-! ### Before the stream is opened -/

variable {fd : UInt32} {offset : UInt64} {data : Bytes} {inputs : List Input}

/-- The open command is still to come, or in the hands of the reader. -/
inductive Opening (mark : Mark) (fd : UInt32) (offset : UInt64) (data : Bytes) (inputs : List Input) :
    Option Reader → List Command → Prop
  | coming : Opening mark fd offset data inputs none
      (.streamOpen mark fd offset data :: commands mark inputs)
  | acquiring : Opening mark fd offset data inputs (some (.acquiring (.streamOpen mark fd offset data)))
      (commands mark inputs)
  | handling : Opening mark fd offset data inputs (some (.handling (.streamOpen mark fd offset data)))
      (commands mark inputs)

structure Unopened (mark : Mark) (base : List Answer) (fd : UInt32) (offset : UInt64) (data : Bytes)
    (inputs : List Input) (seen : View) (script : List Command) : Prop where
  opening : Opening mark fd offset data inputs seen.reader script
  stale : Stale seen.slot
  silent : seen.answers = base

/-- Where the step opens the stream, its descriptor is known and its place is free. -/
def Opens (mark : Mark) (action : Action) (seen : View) : Prop :=
  ∀ known fd offset data, action = .handle known →
    seen.reader = some (.handling (.streamOpen mark fd offset data)) → known = true ∧ seen.slot = none

theorem Unopened.received (unopened : Unopened mark base fd offset data inputs before (cmd :: later))
    (received : Received cmd before after) :
    Unopened mark base fd offset data inputs after later := by
  obtain ⟨opening, stale, silent⟩ := unopened
  obtain ⟨idle, rfl⟩ := received
  rw [idle] at opening
  cases opening
  exact ⟨.acquiring, stale, silent⟩

/-- Only the step that handles the open command decides, by the descriptor and the table. -/
theorem Unopened.move (unopened : Unopened mark base fd offset data inputs before script)
    (complete : Complete inputs)
    (opened : kept ⟨fd, offset, 0, false, [], .unstarted⟩ (⟨data, false⟩ :: inputs) [] file)
    (move : Move mark action before calls after) :
    Opens mark action before ∧ (Unopened mark base fd offset data inputs after script ∨
        before.slot = none ∧ Accepted mark base kept after script file) ∨
      ¬Opens mark action before ∧ Rejected mark base after script := by
  obtain ⟨opening, stale, silent⟩ := unopened
  cases move with
  | unseen action seen unhandled unworked =>
    refine .inl ⟨fun known _ _ _ handles handling => ?_, .inl ⟨opening, stale, silent⟩⟩
    rw [unhandled known handles] at handling
    cases handling
  | acquire =>
    cases opening
    exact .inl ⟨nofun, .inl ⟨.handling, stale, silent⟩⟩
  | opened answers =>
    cases opening
    cases silent
    exact .inl ⟨fun _ _ _ _ same _ => ⟨(Action.handle.inj same).symm, rfl⟩,
      .inr ⟨rfl, .starting fd offset _ inputs file (.cons rfl complete) opened⟩⟩
  | turnedDown known slot answers cmd code desc reason taken missing =>
    cases opening
    refine .inr ⟨fun opens => taken _ _ _ rfl (opens known _ _ _ rfl rfl), ⟨inputs, rfl⟩, stale,
      .replying _ ⟨code, desc, rfl, reason⟩, [], ?_, nofun⟩
    rw [List.append_nil]
    exact silent
  | plain known slot answers cmd task single =>
    cases opening
    rcases single with impossible | ⟨fd, lock, impossible⟩ <;> cases impossible
  | pushed _ _ _ _ _ | blocked _ _ _ _ _ | started _ _ _ | startedPlain _ _ _ _ _ _ _ | enqueued _ _ _
  | replied _ _ _ => cases opening
  | took stream _ _ _ _ receiving => cases (stale stream rfl).symm.trans receiving
  | worked stream _ _ _ _ _ working => cases (stale stream rfl).symm.trans working
  | finished stream _ _ ending => cases (stale stream rfl).symm.trans ending
  | left => exact .inl ⟨nofun, .inl ⟨opening, nofun, silent⟩⟩

end Moves

/-! ### Whole runs -/

/-- Where the run opens the stream of the mark, its descriptor is known and its place
in the table is free. -/
def OpensFree (mark : Mark) (state : State) (action : Action) : Prop :=
  ∀ known fd offset data, action = .handle known →
    state.reader = .handling (.streamOpen mark fd offset data) →
    known = true ∧ state.slot mark = none

/-- The `pwrite` calls of a step, made by the stream that is listed for the mark. -/
inductive Writes (mark : Mark) (state : State) (action : Action) (next : State) :
    List (UInt64 × Bytes) → Prop
  | nothing (unworked : ∀ results, action ≠ .work mark results) : Writes mark state action next []
  | round (stream : Stream) (input : Input) (calls : List (UInt64 × Bytes))
      (occupied : state.slot mark = some stream) (working : stream.pc = .working input)
      (added : next.writes = state.writes ++ calls.map fun call => (stream.fd, call)) :
      Writes mark state action next calls

def receivedOn (mark : Mark) (actions : List Action) : List Command :=
  actions.filterMap (label mark)

section Runs

variable {mark : Mark} {base : List Answer} {state next last : State} {action : Action}
  {actions : List Action} {seen : View} {script later : List Command} {file : Bytes}
  {calls : List (UInt64 × Bytes)} {fd : UInt32} {offset : UInt64} {data : Bytes} {inputs : List Input}
  {allowed : List (Except Errno Nat) → Prop} {kept : Stream → List Input → List Answer → Bytes → Prop}

theorem Move.writes (move : Move mark action (view mark state) calls seen)
    (stepped : step state action = some next) : Writes mark state action next calls := by
  generalize atSlot : view mark state = before at move
  cases move with
  | worked stream reader answers input results chunk working written =>
    have occupied : state.slot mark = some stream := congrArg View.slot atSlot
    cases steps stepped with
    | worked occupied' working' written' =>
      cases occupied.symm.trans occupied'
      cases working.symm.trans working'
      cases written.symm.trans written'
      exact .round stream input _ occupied working rfl
  | unseen action seen unhandled unworked => exact .nothing unworked
  | _ => exact .nothing nofun

theorem focus_eq_some {reader focused : Reader} (isFocus : reader.focus mark = some focused) :
    reader = focused := by
  unfold Reader.focus at isFocus
  split at isFocus
  · exact Option.some.inj isFocus
  · cases isFocus

theorem opensFree_iff : OpensFree mark state action ↔ Opens mark action (view mark state) := by
  constructor
  · intro free known fd offset data handles focused
    exact free known fd offset data handles (focus_eq_some focused)
  · intro opens known fd offset data handles handling
    apply opens known fd offset data handles
    change state.reader.focus mark = _
    rw [handling]
    exact focus_own rfl

theorem receivedOn_cons (action : Action) (actions : List Action) :
    receivedOn mark (action :: actions) =
      (label mark action).toList ++ receivedOn mark actions := by
  unfold receivedOn
  cases received : label mark action with
  | none => rw [List.filterMap_cons_none received]; rfl
  | some cmd => rw [List.filterMap_cons_some received]; rfl

/-- The mark in a step: a command of the script is received, or something else happens. -/
theorem step_follows (quiet : Quiet mark state) (stepped : step state action = some next)
    (split : script = (label mark action).toList ++ later) :
    (∃ cmd, script = cmd :: later ∧ (∀ results, action ≠ .work mark results) ∧
        (∀ known, action ≠ .handle known) ∧ Received cmd (view mark state) (view mark next)) ∨
      script = later ∧ Moves mark state action next := by
  rcases step_view quiet stepped with ⟨cmd, labelled, received⟩ | ⟨unlabelled, moves⟩
  · rw [labelled] at split
    cases action with
    | receive _ => exact .inl ⟨cmd, split, nofun, nofun, received⟩
    | _ => cases labelled
  · rw [unlabelled] at split
    exact .inr ⟨split, moves⟩

/-! In none of the phases does the reader start anything but the stream. -/

theorem Accepted.streams (accepted : Accepted mark base kept seen script file) (task : Task)
    (input : Option Input) (starting : seen.reader = some (.starting task input)) : task = .stream mark := by
  cases accepted with
  | starting fd offset first rest file complete opened =>
    cases starting
    rfl
  | running stream reader answers errors fed rest file feeding total progress holds =>
    obtain rfl : reader = _ := starting
    cases feeding
  | closed slot answers errors final file stale total holds => cases starting

theorem Accepted.opens (accepted : Accepted mark base kept seen script file) : Opens mark action seen := by
  intro known fd offset data _ handling
  cases accepted with
  | starting fd offset first rest file complete opened => cases handling
  | running stream reader answers errors fed rest file feeding total progress holds =>
    obtain rfl : reader = _ := handling
    cases feeding
  | closed slot answers errors final file stale total holds => cases handling

theorem Rejected.streams (rejected : Rejected mark base seen script) (task : Task) (input : Option Input)
    (starting : seen.reader = some (.starting task input)) : task = .stream mark := by
  have refusing := rejected.refusing
  rw [starting] at refusing
  cases refusing

theorem Unopened.streams (unopened : Unopened mark base fd offset data inputs seen script) (task : Task)
    (input : Option Input) (starting : seen.reader = some (.starting task input)) : task = .stream mark := by
  have opening := unopened.opening
  rw [starting] at opening
  cases opening

theorem Accepted.step (upkeep : Upkeep allowed kept) (quiet : Quiet mark state)
    (accepted : Accepted mark base kept (view mark state) script file)
    (stepped : step state action = some next) (split : script = (label mark action).toList ++ later)
    (permitted : ∀ results, action = .work mark results → allowed results) :
    Quiet mark next ∧ ∃ calls, Writes mark state action next calls ∧
      Accepted mark base kept (view mark next) later (onto file calls) := by
  refine ⟨step_quiet quiet accepted.streams stepped, ?_⟩
  rcases step_follows quiet stepped split with ⟨cmd, rfl, unworked, _, received⟩ | ⟨rfl, calls, move⟩
  · exact ⟨[], .nothing unworked, accepted.received received⟩
  · exact ⟨calls, move.writes stepped, accepted.move upkeep move permitted⟩

theorem Rejected.step (quiet : Quiet mark state) (rejected : Rejected mark base (view mark state) script)
    (stepped : step state action = some next) (split : script = (label mark action).toList ++ later) :
    Quiet mark next ∧ Rejected mark base (view mark next) later := by
  refine ⟨step_quiet quiet rejected.streams stepped, ?_⟩
  rcases step_follows quiet stepped split with ⟨cmd, rfl, _, _, received⟩ | ⟨rfl, calls, move⟩
  · exact rejected.received received
  · exact rejected.move move

theorem Unopened.step (file : Bytes) (quiet : Quiet mark state)
    (unopened : Unopened mark base fd offset data inputs (view mark state) script)
    (complete : Complete inputs)
    (opened : kept ⟨fd, offset, 0, false, [], .unstarted⟩ (⟨data, false⟩ :: inputs) [] file)
    (stepped : step state action = some next) (split : script = (label mark action).toList ++ later) :
    Quiet mark next ∧
      (OpensFree mark state action ∧ (Unopened mark base fd offset data inputs (view mark next) later ∨
          state.slot mark = none ∧ Accepted mark base kept (view mark next) later file) ∨
        ¬OpensFree mark state action ∧ Rejected mark base (view mark next) later) := by
  refine ⟨step_quiet quiet unopened.streams stepped, ?_⟩
  rw [opensFree_iff]
  rcases step_follows quiet stepped split with ⟨cmd, rfl, _, unhandled, received⟩ | ⟨rfl, calls, move⟩
  · refine .inl ⟨fun known _ _ _ handles => absurd handles (unhandled known), .inl ?_⟩
    exact unopened.received received
  · exact unopened.move complete opened move

theorem Accepted.run (upkeep : Upkeep (fun _ => True) kept) (quiet : Quiet mark state)
    (accepted : Accepted mark base kept (view mark state) (receivedOn mark actions ++ later) file)
    (reached : run Server.step state actions = some last) :
    Guarded Server.step (OpensFree mark) state actions ∧ Quiet mark last ∧
      ∃ file, Accepted mark base kept (view mark last) later file := by
  induction actions generalizing state file with
  | nil =>
    cases reached
    exact ⟨trivial, quiet, file, accepted⟩
  | cons action actions ih =>
    obtain ⟨middle, stepped, reached⟩ := run_cons_some.mp reached
    rw [receivedOn_cons, List.append_assoc] at accepted
    obtain ⟨quiet', calls, _, after⟩ := accepted.step upkeep quiet stepped rfl fun _ _ => trivial
    obtain ⟨guarded, ended⟩ := ih quiet' after reached
    exact ⟨.cons stepped (opensFree_iff.mpr accepted.opens) guarded, ended⟩

theorem Rejected.run (quiet : Quiet mark state)
    (rejected : Rejected mark base (view mark state) (receivedOn mark actions ++ later))
    (reached : run Server.step state actions = some last) :
    Quiet mark last ∧ Rejected mark base (view mark last) later := by
  induction actions generalizing state with
  | nil =>
    cases reached
    exact ⟨quiet, rejected⟩
  | cons action actions ih =>
    obtain ⟨middle, stepped, reached⟩ := run_cons_some.mp reached
    rw [receivedOn_cons, List.append_assoc] at rejected
    obtain ⟨quiet', after⟩ := rejected.step quiet stepped rfl
    exact ih quiet' after reached

theorem Opening.ne_nil {reader : Option Reader} (opening : Opening mark fd offset data inputs reader [])
    (complete : Complete inputs) : False := by
  generalize empty : ([] : List Command) = script at opening
  cases opening with
  | coming => cases empty
  | acquiring | handling => exact complete.ne_nil (List.map_eq_nil_iff.mp empty.symm)

theorem Unopened.run (file : Bytes) (upkeep : Upkeep (fun _ => True) kept) (quiet : Quiet mark state)
    (unopened : Unopened mark base fd offset data inputs (view mark state) (receivedOn mark actions))
    (complete : Complete inputs)
    (opened : kept ⟨fd, offset, 0, false, [], .unstarted⟩ (⟨data, false⟩ :: inputs) [] file)
    (reached : run Server.step state actions = some last) :
    Quiet mark last ∧
      (Guarded Server.step (OpensFree mark) state actions ∧
          (∃ file, Accepted mark base kept (view mark last) [] file) ∨
        ¬Guarded Server.step (OpensFree mark) state actions ∧ Rejected mark base (view mark last) []) := by
  induction actions generalizing state with
  | nil => exact (unopened.opening.ne_nil complete).elim
  | cons action actions ih =>
    obtain ⟨middle, stepped, reached⟩ := run_cons_some.mp reached
    rw [receivedOn_cons] at unopened
    rw [guarded_cons stepped]
    obtain ⟨quiet', ⟨free, waits | ⟨_, accepted⟩⟩ | ⟨taken, rejected⟩⟩ :=
      unopened.step file quiet complete opened stepped rfl
    · obtain ⟨ended, ⟨guarded, accepted⟩ | ⟨unguarded, rejected⟩⟩ := ih quiet' waits reached
      · exact ⟨ended, .inl ⟨⟨free, guarded⟩, accepted⟩⟩
      · exact ⟨ended, .inr ⟨fun both => unguarded both.2, rejected⟩⟩
    · rw [← List.append_nil (receivedOn mark actions)] at accepted
      obtain ⟨guarded, ended, closed⟩ := accepted.run upkeep quiet' reached
      exact ⟨ended, .inl ⟨⟨free, guarded⟩, closed⟩⟩
    · rw [← List.append_nil (receivedOn mark actions)] at rejected
      obtain ⟨ended, rejected⟩ := rejected.run quiet' reached
      exact ⟨ended, .inr ⟨fun both => taken both.1, rejected⟩⟩

end Runs

/-! ### The end of the stream -/

/-- The reader has handled what it received, and the stream of the mark has nothing
left to do. -/
structure Settled (mark : Mark) (state : State) : Prop where
  idle : state.reader = .idle
  done : ∀ action, OwnStep mark action → step state action = none

def answersSince (mark : Mark) (first last : State) : List Answer :=
  (answersOn mark last.out).drop (answersOn mark first.out).length

def Answered (answers : List Answer) : Prop :=
  ∃ written, answers = [.closed written] ∨
    ∃ code desc, code ≠ errorOK ∧ answers = [.error code desc, .closed written]

/-- `WriteStream.Close` returns when these answers come for its stream, and no others. -/
def CloseReturns (answers : List Answer) : Prop :=
  ∀ (ws : Client.WriteStream) (last : Bytes), ws.closed = false →
    Completes Client.Wire.step (.ready ws.clientMark (answers.map Answer.message)) (ws.close last)
      fun _ _ => True

theorem Answered.closeReturns {answers : List Answer} (answered : Answered answers) :
    CloseReturns answers := by
  intro ws last opened
  refine Client.completes_close opened last rfl rfl ?_
  obtain ⟨written, rfl | ⟨code, desc, failed, rfl⟩⟩ := answered
  · exact Client.completes_finish_closed rfl rfl trivial
  · exact Client.completes_finish_error failed rfl rfl

theorem passing_refusal {answer : Answer} (refusal : Refusal answer) : Client.Passing answer.message := by
  obtain ⟨code, desc, rfl, rfl | rfl⟩ := refusal
  · exact ⟨(by decide : errorInvalidFD ≠ errorOK), (by decide : errorInvalidFD ≠ errorUnknown),
      fun both => absurd both.1 (by decide : errorInvalidFD ≠ errorIo)⟩
  · exact ⟨(by decide : errorInvalid ≠ errorOK), (by decide : errorInvalid ≠ errorUnknown),
      fun both => absurd both.1 (by decide : errorInvalid ≠ errorIo)⟩

/-- Errors sent so far: one if the stream says so. -/
inductive Errors : Bool → List Answer → Prop
  | none : Errors false []
  | one (code : UInt8) (desc : String) (failed : code ≠ errorOK) :
      Errors true [.error code desc]

theorem Errors.round {errors : List Answer} {results : List (Except Errno Nat)}
    (sent : Errors stream.writeErrSent errors)
    (written : stream.write results input = some chunk) :
    Errors (stream.advance input chunk).writeErrSent (errors ++ chunk.answers) := by
  unfold Stream.write at written
  split at written
  · rename_i fresh
    rw [fresh.2] at sent
    cases sent
    cases failure : chunk.error with
    | none =>
      simp only [Stream.advance, Chunk.answers, fresh.2, failure]
      exact .none
    | some error =>
      obtain ⟨code, desc⟩ := error
      simp only [Stream.advance, Chunk.answers, fresh.2, failure]
      obtain ⟨reason, same⟩ := writeStreamWriteChunk_failure written failure
      refine .one code desc ?_
      have failed := reason.code_ne_errorOK
      rwa [same] at failed
  · cases written
    simpa only [Stream.advance, Chunk.answers, Option.isSome_none, Bool.or_false,
      List.append_nil] using sent

/-- Of the stream only this is kept. -/
def ErrorsTold (stream : Stream) (_pending : List Input) (errors : List Answer) (_file : Bytes) : Prop :=
  Errors stream.writeErrSent errors

theorem upkeep_errors : Upkeep (fun _ => True) ErrorsTold where
  frame _ _ sent := sent
  round _ sent written := Errors.round sent written

section Ends

variable {mark : Mark} {base : List Answer} {state : State} {file : Bytes}
  {kept : Stream → List Input → List Answer → Bytes → Prop}

theorem work_enabled (occupied : state.slot mark = some stream) (working : stream.pc = .working input) :
    step state (.work mark [.error .eio]) ≠ none := by
  have written : ∃ chunk, stream.write [.error .eio] input = some chunk := by
    unfold Stream.write
    split
    · cases input.data <;> exact ⟨_, rfl⟩
    · exact ⟨_, rfl⟩
  obtain ⟨chunk, written⟩ := written
  simp [step, State.work, occupied, working, written]

theorem Accepted.settled (accepted : Accepted mark base kept (view mark state) [] file)
    (settled : Settled mark state) :
    ∃ errors final, kept final [] errors file ∧
      answersOn mark state.out = base ++ errors ++ [.closed final.writtenTotal] := by
  have idle : (view mark state).reader = none := by
    change state.reader.focus mark = none
    rw [settled.idle, focus_idle]
  have slot : (view mark state).slot = state.slot mark := rfl
  have sent : (view mark state).answers = answersOn mark state.out := rfl
  generalize view mark state = seen at accepted idle slot sent
  generalize empty : ([] : List Command) = script at accepted
  cases accepted with
  | starting fd offset first rest file complete opened => cases idle
  | running stream reader answers errors fed rest file feeding total progress holds =>
    obtain rfl : reader = none := idle
    obtain rfl : rest = [] := List.map_eq_nil_iff.mp empty.symm
    cases feeding
    have occupied : state.slot mark = some stream := slot.symm
    unfold Progress at progress
    cases pc : stream.pc with
    | unstarted | closing => rw [pc] at progress; exact progress.elim
    | receiving =>
      rw [pc] at progress
      cases queued : stream.queue with
      | nil => rw [queued] at progress; exact progress.elim
      | cons input queue =>
        have taken := settled.done _ (.inl rfl)
        simp [Server.step, State.take, occupied, pc, queued] at taken
    | working input =>
      exact absurd (settled.done _ (.inr (.inl ⟨_, rfl⟩))) (work_enabled occupied pc)
    | ending =>
      have finished := settled.done _ (.inr (.inr (.inl rfl)))
      simp [Server.step, State.finish, occupied, pc] at finished
  | closed slot answers errors final file stale total holds =>
    exact ⟨errors, final, holds, sent.symm.trans total⟩

def remaining : Option Stream → Nat
  | none => 0
  | some stream =>
      match stream.pc with
      | .working _ => 2 * stream.queue.length + 4
      | .ending => 2
      | .closing => 1
      | _ => 2 * stream.queue.length + 3

theorem OwnStep.decreases {action : Action} {next : State} (own : OwnStep mark action)
    (stepped : step state action = some next) :
    next.reader = state.reader ∧ remaining (next.slot mark) < remaining (state.slot mark) := by
  rcases own with rfl | ⟨results, rfl⟩ | rfl | rfl
  all_goals obtain ⟨⟩ := steps stepped
  · rename_i occupied receiving queued
    refine ⟨rfl, ?_⟩
    simp only [State.setSlot, update_self, occupied, remaining, receiving, queued,
      List.length_cons]
    omega
  · rename_i stream input chunk occupied working written
    refine ⟨rfl, ?_⟩
    simp only [State.setSlot, State.send, update_self, occupied, remaining, working,
      Stream.advance]
    cases input.isEnd <;> simp only [reduceIte, Bool.false_eq_true] <;> omega
  · rename_i occupied ending
    refine ⟨rfl, ?_⟩
    simp only [State.setSlot, State.send, update_self, occupied, remaining, ending]
    omega
  · rename_i occupied closing
    refine ⟨rfl, ?_⟩
    simp only [State.setSlot, update_self, occupied, remaining, closing]
    omega

/-- Once the reader has handed over what it received, the task of the stream comes to its end
by its own steps, whatever becomes of the rest of the session. -/
theorem settles (idle : state.reader = .idle) :
    ∃ actions last, (∀ action ∈ actions, OwnStep mark action) ∧
      run step state actions = some last ∧ Settled mark last := by
  generalize bound : remaining (state.slot mark) = steps
  induction steps using Nat.strongRecOn generalizing state with
  | ind steps ih =>
    by_cases enabled : ∃ action next, OwnStep mark action ∧ step state action = some next
    · obtain ⟨action, next, own, stepped⟩ := enabled
      obtain ⟨reader, fewer⟩ := own.decreases stepped
      obtain ⟨actions, last, all, reached, ended⟩ := ih _ (bound ▸ fewer) (reader.trans idle) rfl
      exact ⟨action :: actions, last, List.forall_mem_cons.mpr ⟨own, all⟩,
        run_cons_some.mpr ⟨next, stepped, reached⟩, ended⟩
    · refine ⟨[], state, nofun, rfl, idle, fun action own => ?_⟩
      cases stepped : step state action with
      | none => rfl
      | some next => exact absurd ⟨action, next, own, stepped⟩ enabled

theorem receivedOn_own {actions : List Action} (own : ∀ action ∈ actions, OwnStep mark action) :
    receivedOn mark actions = [] := by
  refine List.filterMap_eq_nil_iff.mpr fun action member => ?_
  rcases own action member with rfl | ⟨results, rfl⟩ | rfl | rfl <;> rfl

theorem answersSince_of {first last : State} {answers : List Answer}
    (total : answersOn mark last.out = answersOn mark first.out ++ answers) :
    answersSince mark first last = answers := by
  rw [answersSince, total, List.drop_left]

end Ends

/-- The answers to a whole stream, sent on a mark that is free of other commands. When the
reader has handled it, the task of the stream settles by its own steps; wherever it does, the
stream is answered and `Close` returns if and only if it was opened in a free place. -/
theorem stream_answered_iff (mark : Mark) (first last : State) (actions : List Action)
    (fd : UInt32) (offset : UInt64) (data : Bytes) (inputs : List Input)
    (idle : first.reader = .idle) (quiet : Quiet mark first) (stale : Stale (first.slot mark))
    (complete : Complete inputs)
    (script : receivedOn mark actions = .streamOpen mark fd offset data :: commands mark inputs)
    (reached : run step first actions = some last) (handled : last.reader = .idle) :
    (∃ more final, (∀ action ∈ more, OwnStep mark action) ∧ run step last more = some final ∧
        Settled mark final) ∧
      ∀ more final, (∀ action ∈ more, OwnStep mark action) → run step last more = some final →
        Settled mark final →
          (Answered (answersSince mark first final) ∧ CloseReturns (answersSince mark first final) ↔
            Guarded step (OpensFree mark) first actions) := by
  refine ⟨settles handled, fun more final own onward settled => ?_⟩
  have unopened : Unopened mark (answersOn mark first.out) fd offset data inputs (view mark first)
      (receivedOn mark actions) := by
    rw [script, view_of rfl (by rw [idle, focus_idle]) rfl]
    exact ⟨.coming, stale, rfl⟩
  have silent : ([] : List Command) = receivedOn mark more ++ [] := by rw [receivedOn_own own]; rfl
  obtain ⟨quiet', ⟨guarded, file, accepted⟩ | ⟨unguarded, rejected⟩⟩ :=
    unopened.run [] upkeep_errors quiet complete .none reached
  · refine ⟨fun _ => guarded, fun _ => ?_⟩
    rw [silent] at accepted
    obtain ⟨_, _, file', closed⟩ := accepted.run upkeep_errors quiet' onward
    obtain ⟨errors, stream, sent, total⟩ := closed.settled settled
    rw [List.append_assoc] at total
    have answered : Answered (answersSince mark first final) := by
      rw [answersSince_of total]
      refine ⟨stream.writtenTotal, ?_⟩
      unfold ErrorsTold at sent
      generalize stream.writeErrSent = failed at sent
      cases sent with
      | none => exact .inl rfl
      | one code desc failed => exact .inr ⟨code, desc, failed, rfl⟩
    exact ⟨answered, answered.closeReturns⟩
  · refine ⟨fun both => ?_, fun guarded => absurd guarded unguarded⟩
    rw [silent] at rejected
    obtain ⟨errors, total, refusals⟩ := (rejected.run quiet' onward).2.refusals
    have closed : ∃ written, Answer.closed written ∈ errors := by
      rw [← answersSince_of total]
      obtain ⟨written, same | ⟨code, desc, _, same⟩⟩ := both.1
      · exact ⟨written, by rw [same]; exact List.mem_cons_self⟩
      · exact ⟨written, by rw [same]; exact List.mem_cons_of_mem _ List.mem_cons_self⟩
    obtain ⟨written, member⟩ := closed
    obtain ⟨_, _, impossible, _⟩ := refusals _ member
    cases impossible

private def goodStream : List Action :=
  [.receive (.streamOpen 0 3 0 [1]), .acquire, .handle true, .start, .enqueue,
    .receive (.streamData 0 [] true), .acquire, .handle true]

private def goodTask : List Action :=
  [.take 0, .work 0 [.ok 1], .take 0, .work 0 [], .finish 0, .leave 0]

theorem settled_of_free {mark : Mark} {state : State} (idle : state.reader = .idle)
    (free : state.slot mark = none) : Settled mark state := by
  refine ⟨idle, ?_⟩
  rintro action (rfl | ⟨results, rfl⟩ | rfl | rfl) <;>
    simp [step, State.take, State.work, State.finish, State.leave, free]

/-- A stream of one byte on a known descriptor. -/
theorem stream_answered_iff_one_byte :
    ∃ last final, run step initial goodStream = some last ∧ run step last goodTask = some final ∧
      Settled 0 final ∧
      (Answered (answersSince 0 initial final) ∧ CloseReturns (answersSince 0 initial final) ↔
        Guarded step (OpensFree 0) initial goodStream) := by
  cases reached : run step initial goodStream with
  | none => cases reached
  | some last =>
    cases settles : run step last goodTask with
    | none => cases reached; cases settles
    | some final =>
      have settled : Settled 0 final := by
        cases reached
        cases settles
        exact settled_of_free rfl rfl
      refine ⟨last, final, rfl, settles, settled, ?_⟩
      refine (stream_answered_iff 0 initial last goodStream 3 0 [1] [⟨[], true⟩] rfl nofun nofun rfl rfl
        reached (by cases reached; rfl)).2 goodTask final ?_ settles settled
      simp [goodTask, OwnStep]

private def badStream : List Action :=
  [.receive (.streamOpen 0 3 0 [1]), .acquire, .handle false, .reply,
    .receive (.streamData 0 [] true), .acquire, .handle true, .reply]

/-- An unknown descriptor: two errors, no close message, and `Close` waits on. -/
theorem bad_descriptor_never_closed :
    ∃ last, run step initial badStream = some last ∧ Settled 0 last ∧
      receivedOn 0 badStream = .streamOpen 0 3 0 [1] :: commands 0 [⟨[], true⟩] ∧
      answersOn 0 last.out = [.error errorInvalidFD "bad fd",
        .error errorInvalid "write stream not open"] ∧
      ¬Answered (answersOn 0 last.out) ∧ ¬CloseReturns (answersOn 0 last.out) := by
  cases reached : run step initial badStream with
  | none => cases reached
  | some last =>
    cases reached
    refine ⟨_, rfl, settled_of_free rfl rfl, rfl, rfl, ?_, ?_⟩
    · rintro ⟨written, single | ⟨code, desc, _, double⟩⟩
      · cases single
      · cases double
    · intro returns
      obtain ⟨trace, value, wire, runs, ran, _⟩ := returns ⟨0, 0, [], false⟩ [] rfl
      refine Client.close_waits (fun _ _ => False) rfl ?_ trace value wire runs ran
      exact List.forall_mem_cons.mpr ⟨passing_refusal ⟨_, _, rfl, .inl rfl⟩,
        List.forall_mem_singleton.mpr (passing_refusal ⟨_, _, rfl, .inr rfl⟩)⟩

end Wsfs.Server
