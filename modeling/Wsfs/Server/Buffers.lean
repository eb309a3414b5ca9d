/-
The fast buffers of a session, over all of its connections. A buffer is taken by the
reader, goes with its message to a command or into the channel of a write stream, and comes
back when the message is done with.

The session of one connection is extended by what `stopConn` does: the channels of the open
streams are closed, their tasks take what is left in them and end, and the next connection
comes only after that.
-/

import Mathlib.Algebra.BigOperators.Group.Finset.Piecewise
import Mathlib.Data.FinEnum
import Wsfs.Base.Run
import Wsfs.Server.Session

namespace Wsfs.Server.Buffers

open Wsfs.Base Wsfs.Unix Function

/-! ### Connections -/

/-- Where the connection stands: in use, in `clearWriteStreams`, in `cmdGroup.Wait`, or gone. -/
inductive Link
  | up
  | clearing
  | waiting
  | down
deriving DecidableEq, Repr

/-- `cut` are the marks whose stream `clearWriteStreams` has closed and taken out of the
table. The reader does not look into the table until their tasks have ended. -/
structure Life where
  session : State
  cut : Mark → Bool
  link : Link

def newSession : Life := ⟨initial, fun _ => false, .down⟩

inductive Event
  | act (action : Action)
  | takeConn
  | hangUp
  | clear (mark : Mark)
  | cleared
  | exhausted (mark : Mark)
  | stopped

namespace Life

def act (life : Life) (action : Action) : Option Life :=
  match action, life.link with
  | .receive _, .clearing | .receive _, .waiting | .receive _, .down => none
  | _, _ => (step life.session action).map fun next => { life with session := next }

/-- The loop of a task over a closed channel with nothing left in it. -/
def exhausted (life : Life) (mark : Mark) : Option Life :=
  match life.session.slot mark with
  | some stream =>
      if life.cut mark = true ∧ stream.pc = .receiving ∧ stream.queue = [] then
        some { life with
          session := { life.session.setSlot mark none with
            tasks := life.session.tasks.erase (.stream mark) } }
      else none
  | none => none

def isCut (life : Life) : Task → Bool
  | .stream mark => life.cut mark
  | _ => true

def next (life : Life) : Event → Option Life
  | .act action => life.act action
  | .takeConn => if life.link = .down then some { life with link := .up } else none
  -- `readLoop` returns when it reads from the connection, between two messages.
  | .hangUp =>
      if life.link = .up ∧ life.session.reader = .idle then some { life with link := .clearing }
      else none
  | .clear mark =>
      if life.link = .clearing ∧ (life.session.slot mark).isSome then
        some { life with cut := update life.cut mark true }
      else none
  -- `Range` has been at every entry. Each entry has its task, and each task of a stream its entry.
  | .cleared =>
      if life.link = .clearing ∧ life.session.tasks.all life.isCut then
        some { life with link := .waiting }
      else none
  | .exhausted mark => life.exhausted mark
  | .stopped =>
      if life.link = .waiting ∧ life.session.tasks = [] then
        some { life with cut := fun _ => false, link := .down }
      else none

end Life

/-! ### Where the buffers are -/

def taskBuffers : Task → Nat
  | .other _ buffered => buffered.toNat
  | _ => 0

def readerBuffers : Reader → Nat
  | .handling cmd => cmd.buffered.toNat
  | .starting task input => taskBuffers task + input.toList.length
  | .enqueuing _ _ => 1
  | _ => 0

def slotBuffers : Option Stream → Nat
  | some stream => stream.inputs.length
  | none => 0

def streamBuffers (slot : Mark → Option Stream) : Nat := ∑ mark, slotBuffers (slot mark)

def commandBuffers (tasks : List Task) : Nat := (tasks.map taskBuffers).sum

/-- The buffers in the pool, with running commands, with the message being dispatched, and
with streams whose task is running. -/
def accounted (state : State) : Nat :=
  state.buffers + commandBuffers state.tasks + readerBuffers state.reader + streamBuffers state.slot

theorem streamBuffers_update (slot : Mark → Option Stream) (mark : Mark) (value : Option Stream) :
    streamBuffers (update slot mark value) + slotBuffers (slot mark) =
      streamBuffers slot + slotBuffers value := by
  have updated : (fun other => slotBuffers (update slot mark value other)) =
      update (fun other => slotBuffers (slot other)) mark (slotBuffers value) := by
    funext other
    by_cases same : other = mark
    · rw [same, update_self, update_self]
    · rw [update_of_ne same, update_of_ne same]
  have before := Finset.sum_update_of_mem (Finset.mem_univ mark) (fun other => slotBuffers (slot other))
    (slotBuffers (slot mark))
  rw [update_eq_self] at before
  have after := Finset.sum_update_of_mem (Finset.mem_univ mark) (fun other => slotBuffers (slot other))
    (slotBuffers value)
  rw [streamBuffers, streamBuffers, updated, after, before]
  omega

variable {task : Task}

theorem commandBuffers_erase {tasks : List Task} (member : task ∈ tasks) :
    taskBuffers task + commandBuffers (tasks.erase task) = commandBuffers tasks :=
  List.sum_map_erase taskBuffers member

theorem commandBuffers_erase_none (none : taskBuffers task = 0) (tasks : List Task) :
    commandBuffers (tasks.erase task) = commandBuffers tasks := by
  by_cases member : task ∈ tasks
  · have erased := commandBuffers_erase member
    omega
  · rw [List.erase_of_not_mem member]

/-! ### Streams whose end marker comes last -/

/-- A data message is handed to a stream only before the end marker. -/
def EndsLast (state : State) (action : Action) : Prop :=
  ∀ known mark data isEnd stream, action = .handle known →
    state.reader = .handling (.streamData mark data isEnd) → state.slot mark = some stream →
      ¬HasEnd stream

/-- The end flags of the messages of a stream, from an end marker that its task has taken on. -/
def flow (stream : Stream) : List Bool :=
  (if stream.pc = .ending ∨ stream.pc = .closing then [true] else []) ++ stream.inputs.map Input.isEnd

def Ordered (stream : Stream) : Prop := true ∉ (flow stream).dropLast

section Streams

variable {stream : Stream} {input : Input}

theorem hasEnd_iff : HasEnd stream ↔ true ∈ flow stream := by
  rw [HasEnd, ← or_assoc, flow, List.mem_append, List.mem_map]
  refine or_congr ?_ Iff.rfl
  split
  · simp [*]
  · simp [*]

theorem flow_push (stream : Stream) (input : Input) :
    flow { stream with queue := stream.queue ++ [input] } = flow stream ++ [input.isEnd] := by
  simp [flow, Stream.inputs]

theorem ordered_push (opened : ¬HasEnd stream) (input : Input) :
    Ordered { stream with queue := stream.queue ++ [input] } := by
  rw [Ordered, flow_push, List.dropLast_concat]
  exact fun ended => opened (hasEnd_iff.mpr ended)

theorem flow_advance (working : stream.pc = .working input) (chunk : Chunk) :
    flow (stream.advance input chunk) <:+ flow stream := by
  cases isEnd : input.isEnd with
  | true => simp [flow, Stream.inputs, Stream.advance, StreamPc.inputs, working, isEnd]
  | false =>
    refine ⟨[false], ?_⟩
    simp [flow, Stream.inputs, Stream.advance, StreamPc.inputs, working, isEnd]

variable {after : Stream}

theorem Ordered.suffix (ordered : Ordered stream) (rest : flow after <:+ flow stream) :
    Ordered after := by
  obtain ⟨taken, whole⟩ := rest
  intro early
  apply ordered
  have present : flow after ≠ [] := by
    intro empty
    rw [empty] at early
    cases early
  rw [← whole, List.dropLast_append_of_ne_nil present]
  exact List.mem_append_right _ early

theorem Ordered.done (ordered : Ordered stream) (closing : stream.pc = .closing) : stream.queue = [] := by
  cases queued : stream.queue with
  | nil => rfl
  | cons input queue =>
    refine absurd ?_ ordered
    simp [flow, Stream.inputs, StreamPc.inputs, closing, queued]

end Streams

/-- Only messages with bytes wait for a buffer, a task is started for a stream that has none
yet, and nothing is queued behind an end marker. -/
def Fits (slot : Mark → Option Stream) : Reader → Prop
  | .acquiring cmd => cmd.buffered = true
  | .starting (.stream mark) _ =>
      ∃ stream, slot mark = some stream ∧ stream.pc = .unstarted ∧ stream.queue = []
  | .starting _ input => input = none
  | .enqueuing mark _ => ∃ stream, slot mark = some stream ∧ ¬HasEnd stream
  | _ => True

/-- What holds of the reader, the table and the pool while every end marker comes last. -/
structure Tidy (state : State) : Prop where
  fits : Fits state.slot state.reader
  ordered : ∀ mark stream, state.slot mark = some stream → Ordered stream
  running : ∀ mark stream, state.slot mark = some stream →
    .stream mark ∈ state.tasks ∨ ∃ input, state.reader = .starting (.stream mark) input

section Tidy

variable {state next : State}

theorem Tidy.fits_at (tidy : Tidy state) {reader : Reader} (current : state.reader = reader) :
    Fits state.slot reader := by
  rw [← current]
  exact tidy.fits

/-- The reader goes on from another stage than the start of a stream. -/
theorem Tidy.moves (tidy : Tidy state) (slot : next.slot = state.slot)
    (tasks : ∀ mark, .stream mark ∈ state.tasks → .stream mark ∈ next.tasks) {reader : Reader}
    (before : state.reader = reader) (other : ∀ mark input, reader ≠ .starting (.stream mark) input)
    (fits : Fits state.slot next.reader) : Tidy next where
  fits := by rw [slot]; exact fits
  ordered := by rw [slot]; exact tidy.ordered
  running mark stream occupied := by
    rw [slot] at occupied
    rcases tidy.running mark stream occupied with member | ⟨input, isStarting⟩
    · exact .inl (tasks mark member)
    · exact absurd (before.symm.trans isStarting) (other mark input)

theorem Tidy.frame (tidy : Tidy state) (reader : next.reader = state.reader)
    (slot : next.slot = state.slot)
    (tasks : ∀ mark, .stream mark ∈ state.tasks → .stream mark ∈ next.tasks) : Tidy next where
  fits := by rw [reader, slot]; exact tidy.fits
  ordered := by rw [slot]; exact tidy.ordered
  running mark stream occupied := by
    rw [slot] at occupied
    rw [reader]
    exact (tidy.running mark stream occupied).imp_left (tasks mark)

variable {mark : Mark} {stream : Stream}

theorem Fits.update {reader : Reader} (fits : Fits state.slot reader)
    (occupied : state.slot mark = some stream) (started : stream.pc ≠ .unstarted) {value : Option Stream}
    (opened : ∀ input, reader = .enqueuing mark input → ¬HasEnd stream →
      ∃ found, value = some found ∧ ¬HasEnd found) : Fits (update state.slot mark value) reader := by
  cases reader with
  | starting task input =>
    cases task with
    | stream other =>
      obtain ⟨found, same, unstarted, none⟩ := fits
      have different : other ≠ mark := by
        rintro rfl
        cases occupied.symm.trans same
        exact started unstarted
      exact ⟨found, (update_of_ne different ..).trans same, unstarted, none⟩
    | _ => exact fits
  | enqueuing other input =>
    obtain ⟨found, same, isOpen⟩ := fits
    by_cases own : other = mark
    · subst own
      cases occupied.symm.trans same
      obtain ⟨after, rfl, stillOpen⟩ := opened input rfl isOpen
      exact ⟨after, update_self .., stillOpen⟩
    · exact ⟨found, (update_of_ne own ..).trans same, isOpen⟩
  | _ => exact fits

theorem Tidy.works (tidy : Tidy state) {after : Stream} (occupied : state.slot mark = some stream)
    (started : stream.pc ≠ .unstarted) (rest : flow after <:+ flow stream)
    (reader : next.reader = state.reader) (slot : next.slot = update state.slot mark (some after))
    (tasks : next.tasks = state.tasks) : Tidy next where
  fits := by
    rw [reader, slot]
    refine tidy.fits.update occupied started fun _ _ isOpen => ⟨after, rfl, fun ended => isOpen ?_⟩
    exact hasEnd_iff.mpr (rest.mem (hasEnd_iff.mp ended))
  ordered other found same := by
    rw [slot] at same
    rcases update_eq_some same with ⟨new, _⟩ | ⟨old, _⟩
    · cases new
      exact (tidy.ordered mark stream occupied).suffix rest
    · exact tidy.ordered other found old
  running other found same := by
    rw [slot] at same
    rw [reader, tasks]
    rcases update_eq_some same with ⟨_, rfl⟩ | ⟨old, _⟩
    · exact tidy.running other stream occupied
    · exact tidy.running other found old

theorem Tidy.pushes (tidy : Tidy state) {input : Input} (occupied : state.slot mark = some stream)
    (opened : ¬HasEnd stream) {reader : Reader} (before : state.reader = reader)
    (apart : ∀ mark input, reader ≠ .starting (.stream mark) input) (idle : next.reader = .idle)
    (slot : next.slot = update state.slot mark (some { stream with queue := stream.queue ++ [input] }))
    (tasks : next.tasks = state.tasks) : Tidy next where
  fits := by rw [idle]; trivial
  ordered other found same := by
    rw [slot] at same
    rcases update_eq_some same with ⟨new, _⟩ | ⟨old, _⟩
    · cases new
      exact ordered_push opened input
    · exact tidy.ordered other found old
  running other found same := by
    rw [slot] at same
    have listed : ∃ found, state.slot other = some found := by
      rcases update_eq_some same with ⟨_, rfl⟩ | ⟨old, _⟩
      · exact ⟨stream, occupied⟩
      · exact ⟨found, old⟩
    obtain ⟨found, same⟩ := listed
    rw [tasks]
    rcases tidy.running other found same with member | ⟨input, isStarting⟩
    · exact .inl member
    · exact absurd (before.symm.trans isStarting) (apart other input)

theorem Tidy.ends (tidy : Tidy state) (occupied : state.slot mark = some stream)
    (started : stream.pc ≠ .unstarted) (idle : ∀ input, state.reader ≠ .enqueuing mark input)
    (reader : next.reader = state.reader) (slot : next.slot = update state.slot mark none)
    (tasks : next.tasks = state.tasks.erase (.stream mark)) : Tidy next where
  fits := by
    rw [reader, slot]
    exact tidy.fits.update occupied started fun input enqueuing => absurd enqueuing (idle input)
  ordered other found same := by
    rw [slot] at same
    rcases update_eq_some same with ⟨new, _⟩ | ⟨old, _⟩
    · cases new
    · exact tidy.ordered other found old
  running other found same := by
    rw [slot] at same
    rw [reader, tasks]
    rcases update_eq_some same with ⟨new, _⟩ | ⟨old, different⟩
    · cases new
    · refine (tidy.running other found old).imp_left fun member => ?_
      exact (List.mem_erase_of_ne fun equal => different (Task.stream.inj equal)).mpr member

theorem stream_kept {tasks : List Task} {task : Task} (plain : ∀ mark, task ≠ .stream mark) (mark : Mark)
    (member : .stream mark ∈ tasks) : .stream mark ∈ tasks.erase task :=
  (List.mem_erase_of_ne (Ne.symm (plain mark))).mpr member

theorem open_tidy (tidy : Tidy state) {fd : UInt32} {offset : UInt64} {data : Bytes}
    (handling : state.reader = .handling (.streamOpen mark fd offset data)) :
    Tidy { state.setSlot mark (some ⟨fd, offset, 0, false, [], .unstarted⟩) with
      reader := .starting (.stream mark) (some ⟨data, false⟩) } := by
  refine ⟨⟨_, update_self .., rfl, rfl⟩, ?_, ?_⟩
  · intro other found same
    rcases update_eq_some same with ⟨new, _⟩ | ⟨old, _⟩
    · cases new
      exact List.not_mem_nil
    · exact tidy.ordered other found old
  · intro other found same
    rcases update_eq_some same with ⟨_, rfl⟩ | ⟨old, _⟩
    · exact .inr ⟨_, rfl⟩
    · rcases tidy.running other found old with member | ⟨input, isStarting⟩
      · exact .inl member
      · cases handling.symm.trans isStarting

theorem start_tidy (tidy : Tidy state) {task : Task} {input : Option Input}
    (starting : state.reader = .starting task input) :
    Tidy { state.begin task with tasks := task :: state.tasks, reader := .afterStart task input } := by
  cases task with
  | stream mark =>
    obtain ⟨stream, occupied, unstarted, none⟩ := tidy.fits_at starting
    have begun : (state.begin (.stream mark)).slot =
        update state.slot mark (some { stream with pc := .receiving }) := by
      simp only [State.begin, State.setSlot, occupied, Option.map_some]
    have empty : flow { stream with pc := .receiving } = [] := by
      simp [flow, Stream.inputs, StreamPc.inputs, none]
    refine ⟨?_, ?_, ?_⟩
    · cases input with
      | none => trivial
      | some input =>
        refine ⟨{ stream with pc := .receiving }, ?_, ?_⟩
        · change (state.begin (.stream mark)).slot mark = _
          rw [begun, update_self]
        · rw [hasEnd_iff, empty]
          exact List.not_mem_nil
    · intro other found same
      change (state.begin (.stream mark)).slot other = _ at same
      rw [begun] at same
      rcases update_eq_some same with ⟨new, _⟩ | ⟨old, _⟩
      · cases new
        rw [Ordered, empty]
        exact List.not_mem_nil
      · exact tidy.ordered other found old
    · intro other found same
      change (state.begin (.stream mark)).slot other = _ at same
      rw [begun] at same
      left
      rcases update_eq_some same with ⟨_, rfl⟩ | ⟨old, own⟩
      · exact List.mem_cons_self
      · rcases tidy.running other found old with member | ⟨started, isStarting⟩
        · exact List.mem_cons_of_mem _ member
        · cases starting.symm.trans isStarting
          exact absurd rfl own
  | _ =>
    cases show input = none from tidy.fits_at starting
    exact tidy.moves rfl (fun _ member => List.mem_cons_of_mem _ member) starting (by simp) trivial

theorem step_tidy (tidy : Tidy state) {action : Action} (guarded : EndsLast state action)
    (stepped : step state action = some next) : Tidy next := by
  cases steps stepped with
  | @received cmd idle =>
    refine tidy.moves rfl (fun _ member => member) idle (by simp) ?_
    cases buffered : cmd.buffered with
    | false => trivial
    | true => exact buffered
  | opened handling => exact open_tidy tidy handling
  | acquired reader | rejected reader | replied reader =>
    exact tidy.moves rfl (fun _ member => member) reader (by simp) trivial
  | locking handling | spawned handling =>
    exact tidy.moves rfl (fun _ member => member) handling (by simp) rfl
  | pushed handling occupied =>
    exact tidy.pushes occupied (guarded _ _ _ _ _ rfl handling occupied) handling (by simp) rfl rfl rfl
  | blocked handling occupied =>
    exact tidy.moves rfl (fun _ member => member) handling (by simp)
      ⟨_, occupied, guarded _ _ _ _ _ rfl handling occupied⟩
  | started starting => exact start_tidy tidy starting
  | enqueued enqueuing occupied =>
    obtain ⟨found, same, opened⟩ := tidy.fits_at enqueuing
    cases occupied.symm.trans same
    exact tidy.pushes occupied opened enqueuing (by simp) rfl rfl rfl
  | took occupied receiving queued =>
    refine tidy.works occupied (by rw [receiving]; exact nofun) ?_ rfl rfl rfl
    simp [flow, Stream.inputs, StreamPc.inputs, receiving, queued]
  | worked occupied working =>
    exact tidy.works occupied (by rw [working]; exact nofun) (flow_advance working _) rfl rfl rfl
  | finished occupied ending =>
    refine tidy.works occupied (by rw [ending]; exact nofun) ?_ rfl rfl rfl
    simp [flow, Stream.inputs, StreamPc.inputs, ending]
  | left occupied closing =>
    refine tidy.ends occupied (by rw [closing]; exact nofun) ?_ rfl rfl rfl
    intro input enqueuing
    obtain ⟨found, same, opened⟩ := tidy.fits_at enqueuing
    cases occupied.symm.trans same
    exact opened (.inr (.inl closing))
  | granted | refused | completed => exact tidy.frame rfl rfl (stream_kept nofun)
  | foreign => exact tidy.frame rfl rfl fun _ member => member

end Tidy

/-! ### What a step does to the buffers -/

section Steps

variable {state next : State}

theorem accounted_setSlot {mark : Mark} {value : Option Stream}
    (slot : next.slot = update state.slot mark value)
    (balance : next.buffers + commandBuffers next.tasks + readerBuffers next.reader + slotBuffers value =
      state.buffers + commandBuffers state.tasks + readerBuffers state.reader +
        slotBuffers (state.slot mark)) : accounted next = accounted state := by
  have moved := streamBuffers_update state.slot mark value
  rw [accounted, accounted, slot]
  omega

theorem begin_streamBuffers (task : Task)
    (fresh : ∀ mark stream, task = .stream mark → state.slot mark = some stream → stream.pc = .unstarted) :
    streamBuffers (state.begin task).slot = streamBuffers state.slot := by
  cases task with
  | stream mark =>
    cases occupied : state.slot mark with
    | none =>
      have moved := streamBuffers_update state.slot mark none
      rw [occupied] at moved
      simp only [State.begin, State.setSlot, occupied, Option.map_none]
      omega
    | some stream =>
      have moved := streamBuffers_update state.slot mark (some { stream with pc := .receiving })
      simp only [occupied, slotBuffers, Stream.inputs, fresh mark stream rfl occupied, StreamPc.inputs] at moved
      simp only [State.begin, State.setSlot, occupied, Option.map_some]
      omega
  | _ => rfl

theorem start_accounted (tidy : Tidy state) {task : Task} {input : Option Input}
    (starting : state.reader = .starting task input) :
    accounted { state.begin task with tasks := task :: state.tasks, reader := .afterStart task input } =
      accounted state := by
  have streams : streamBuffers (state.begin task).slot = streamBuffers state.slot := by
    apply begin_streamBuffers
    rintro mark stream rfl occupied
    obtain ⟨found, same, unstarted, _⟩ := tidy.fits_at starting
    cases occupied.symm.trans same
    exact unstarted
  have pool : (state.begin task).buffers = state.buffers := by cases task <;> rfl
  have after : readerBuffers (Reader.afterStart task input) = input.toList.length := by
    cases input <;> rfl
  have before : readerBuffers (.starting task input) = taskBuffers task + input.toList.length := rfl
  have added : commandBuffers (task :: state.tasks) = taskBuffers task + commandBuffers state.tasks :=
    List.sum_cons
  simp only [accounted, starting, before, after, streams, pool, added]
  omega

theorem step_accounted (tidy : Tidy state) {action : Action}
    (stepped : step state action = some next) : accounted next = accounted state := by
  cases steps stepped with
  | @received cmd idle => cases buffered : cmd.buffered <;> simp [accounted, idle, readerBuffers, buffered]
  | acquired acquiring available =>
    simp only [accounted, acquiring, readerBuffers, show _ = true from tidy.fits_at acquiring,
      Bool.toNat_true]
    omega
  | opened handling _ free =>
    refine accounted_setSlot rfl ?_
    rw [free, handling]
    rfl
  | @rejected _ cmd _ _ handling =>
    simp only [accounted, handling, State.reject, readerBuffers]
    cases cmd.buffered with
    | false => rfl
    | true =>
      simp only [reduceIte, Bool.toNat_true]
      omega
  | pushed reader occupied | enqueued reader occupied =>
    refine accounted_setSlot rfl ?_
    simp only [occupied, reader, slotBuffers, Stream.inputs, List.length_append, List.length_singleton,
      State.setSlot, readerBuffers, Command.buffered, Bool.toNat_true]
    omega
  | blocked handling | locking handling | spawned handling =>
    simp [accounted, handling, readerBuffers, Command.buffered, taskBuffers]
  | started starting => exact start_accounted tidy starting
  | replied replying => simp only [accounted, replying, State.send, readerBuffers]
  | took occupied receiving queued =>
    refine accounted_setSlot rfl ?_
    simp only [occupied, slotBuffers, Stream.inputs, receiving, queued]
    rfl
  | @worked _ stream input _ chunk occupied working =>
    have idle : slotBuffers (some (stream.advance input chunk)) = stream.queue.length := by
      rw [slotBuffers, Stream.inputs, Stream.advance]
      cases input.isEnd <;> rfl
    refine accounted_setSlot rfl ?_
    rw [idle]
    simp only [occupied, slotBuffers, Stream.inputs, working, StreamPc.inputs, List.length_append,
      List.length_singleton, State.setSlot, State.send]
    omega
  | finished occupied ending =>
    refine accounted_setSlot rfl ?_
    simp only [occupied, slotBuffers, Stream.inputs, ending]
    rfl
  | @left mark _ occupied closing =>
    have erased := commandBuffers_erase_none (show taskBuffers (.stream mark) = 0 from rfl) state.tasks
    refine accounted_setSlot rfl ?_
    simp only [occupied, slotBuffers, Stream.inputs, closing, (tidy.ordered _ _ occupied).done closing,
      erased]
    rfl
  | @granted mark fd lock | @refused mark fd lock =>
    have erased :=
      commandBuffers_erase_none (show taskBuffers (.lockWait mark fd lock) = 0 from rfl) state.tasks
    simp only [accounted, State.send, erased]
  | @completed _ buffered _ _ _ _ running =>
    have erased := commandBuffers_erase running
    cases buffered with
    | false =>
      simp only [taskBuffers, Bool.toNat_false] at erased
      simp only [accounted, State.send, Bool.false_eq_true, reduceIte]
      omega
    | true =>
      simp only [taskBuffers, Bool.toNat_true] at erased
      simp only [accounted, State.send, reduceIte]
      omega
  | foreign => rfl

end Steps

/-! ### Whole lives -/

/-- Every buffer is somewhere; and without a connection the reader is idle. -/
structure Conserved (life : Life) : Prop where
  tidy : Tidy life.session
  all : accounted life.session = sessionFastBuffer
  idle : life.link ≠ .up → life.session.reader = .idle
  cut : ∀ mark, life.cut mark = true → life.link = .clearing ∨ life.link = .waiting

def EndMarkerLast (life : Life) : Event → Prop
  | .act action => EndsLast life.session action
  | _ => True

theorem newSession_conserved : Conserved newSession where
  tidy := ⟨trivial, nofun, nofun⟩
  all := by
    have none : streamBuffers initial.slot = 0 := Finset.sum_eq_zero fun _ _ => rfl
    rw [accounted, show newSession.session = initial from rfl, none]
    rfl
  idle _ := rfl
  cut := nofun

section Lives

variable {life after : Life}

theorem act_some {action : Action} (stepped : life.act action = some after) :
    ∃ session, step life.session action = some session ∧ after = { life with session := session } ∧
      (life.link ≠ .up → ∀ cmd, action ≠ .receive cmd) := by
  unfold Life.act at stepped
  split at stepped
  · cases stepped
  · cases stepped
  · cases stepped
  · rename_i notClearing notWaiting notDown
    obtain ⟨session, inSession, rfl⟩ := Option.map_eq_some_iff.mp stepped
    refine ⟨session, inSession, rfl, ?_⟩
    intro apart cmd isReceive
    cases link : life.link with
    | up => exact apart link
    | clearing => exact notClearing cmd isReceive link
    | waiting => exact notWaiting cmd isReceive link
    | down => exact notDown cmd isReceive link

theorem exhausted_conserved {mark : Mark} (conserved : Conserved life)
    (stepped : life.exhausted mark = some after) : Conserved after := by
  unfold Life.exhausted at stepped
  split at stepped
  · rename_i stream occupied
    split at stepped
    · rename_i ended
      obtain ⟨isCut, receiving, none⟩ := ended
      cases stepped
      have apart : life.link ≠ .up := by
        rcases conserved.cut mark isCut with link | link <;> rw [link] <;> exact nofun
      have idle := conserved.idle apart
      refine ⟨?_, ?_, conserved.idle, conserved.cut⟩
      · refine conserved.tidy.ends occupied (by rw [receiving]; exact nofun) ?_ rfl rfl rfl
        rw [idle]
        exact nofun
      · have erased :=
          commandBuffers_erase_none (show taskBuffers (.stream mark) = 0 from rfl) life.session.tasks
        rw [← conserved.all]
        refine accounted_setSlot rfl ?_
        simp only [occupied, slotBuffers, Stream.inputs, receiving, none, erased]
        rfl
    · cases stepped
  · cases stepped

theorem next_conserved (life : Life) (event : Event) (after : Life) (conserved : Conserved life)
    (guarded : EndMarkerLast life event) (stepped : life.next event = some after) : Conserved after := by
  cases event with
  | act action =>
    obtain ⟨session, inSession, rfl, connected⟩ := act_some stepped
    refine ⟨step_tidy conserved.tidy guarded inSession, ?_, ?_, conserved.cut⟩
    · exact (step_accounted conserved.tidy inSession).trans conserved.all
    · intro apart
      have idle := conserved.idle apart
      exact (reader_kept inSession (.inl ⟨idle, connected apart⟩)).trans idle
  | takeConn =>
    simp only [Life.next, Option.ite_none_right_eq_some] at stepped
    obtain ⟨down, ⟨⟩⟩ := stepped
    refine ⟨conserved.tidy, conserved.all, fun apart => absurd rfl apart, fun mark isCut => ?_⟩
    rcases conserved.cut mark isCut with link | link <;> rw [down] at link <;> cases link
  | hangUp =>
    simp only [Life.next, Option.ite_none_right_eq_some] at stepped
    obtain ⟨⟨_, idle⟩, ⟨⟩⟩ := stepped
    exact ⟨conserved.tidy, conserved.all, fun _ => idle, fun _ _ => .inl rfl⟩
  | clear mark =>
    simp only [Life.next, Option.ite_none_right_eq_some] at stepped
    obtain ⟨⟨clearing, _⟩, ⟨⟩⟩ := stepped
    exact ⟨conserved.tidy, conserved.all, conserved.idle, fun _ _ => .inl clearing⟩
  | cleared =>
    simp only [Life.next, Option.ite_none_right_eq_some] at stepped
    obtain ⟨⟨clearing, _⟩, ⟨⟩⟩ := stepped
    refine ⟨conserved.tidy, conserved.all, fun _ => conserved.idle ?_, fun _ _ => .inr rfl⟩
    rw [clearing]
    exact nofun
  | exhausted mark => exact exhausted_conserved conserved stepped
  | stopped =>
    simp only [Life.next, Option.ite_none_right_eq_some] at stepped
    obtain ⟨⟨waiting, _⟩, ⟨⟩⟩ := stepped
    refine ⟨conserved.tidy, conserved.all, fun _ => conserved.idle ?_, nofun⟩
    rw [waiting]
    exact nofun

theorem accounted_idle {state : State} (idle : state.reader = .idle) (ended : state.tasks = [])
    (empty : ∀ mark, state.slot mark = none) : accounted state = state.buffers := by
  have none : streamBuffers state.slot = 0 :=
    Finset.sum_eq_zero fun mark _ => by rw [empty mark]; rfl
  rw [accounted, idle, ended, none]
  rfl

/-- In every life of a session whose end markers come last, no buffer is lost: they are in the
pool, with a command, with the message being dispatched, or with a stream whose task runs; and
all are in the pool when nothing is in flight. -/
theorem buffers_conserved (events : List Event) (last : Life)
    (guarded : Guarded Life.next EndMarkerLast newSession events)
    (reached : run Life.next newSession events = some last) :
    accounted last.session = sessionFastBuffer ∧
      (last.session.reader = .idle → last.session.tasks = [] →
        last.session.buffers = sessionFastBuffer) := by
  have conserved := run_invariant next_conserved newSession_conserved guarded reached
  refine ⟨conserved.all, fun idle ended => ?_⟩
  have empty : ∀ mark, last.session.slot mark = none := by
    intro mark
    cases occupied : last.session.slot mark with
    | none => rfl
    | some stream =>
      rcases conserved.tidy.running mark stream occupied with member | ⟨input, starting⟩
      · rw [ended] at member
        cases member
      · rw [idle] at starting
        cases starting
  rw [← accounted_idle idle ended empty]
  exact conserved.all

end Lives

private def cutStream : List Event :=
  [.takeConn, .act (.receive (.streamOpen 7 3 0 [1])), .act .acquire, .act (.handle true),
    .act .start, .act .enqueue, .act (.receive (.streamData 7 [2] false)), .act .acquire,
    .act (.handle true), .hangUp, .clear 7, .cleared, .act (.take 7), .act (.work 7 [.ok 1]),
    .act (.take 7), .act (.work 7 [.ok 1]), .exhausted 7, .stopped, .takeConn]

private theorem cutStream_guarded : Guarded Life.next EndMarkerLast newSession cutStream := by
  have plain {life : Life} {action : Action} (other : ∀ known, action ≠ .handle known) :
      EndMarkerLast life (.act action) :=
    fun known _ _ _ _ isHandle => absurd isHandle (other known)
  refine .cons rfl trivial ?_
  iterate 2 refine .cons rfl (plain nofun) ?_
  refine .cons rfl (fun _ _ _ _ _ _ handling => (by cases handling)) ?_
  iterate 4 refine .cons rfl (plain nofun) ?_
  -- The second message of the stream finds the first one in the channel, and no end marker.
  refine .cons rfl ?_ ?_
  · intro _ mark data isEnd stream _ handling occupied
    cases handling
    cases occupied
    rintro (impossible | impossible | ⟨input, member, isEnd⟩)
    · cases impossible
    · cases impossible
    · cases List.mem_singleton.mp member
      cases isEnd
  iterate 3 refine .cons rfl trivial ?_
  iterate 4 refine .cons rfl (plain nofun) ?_
  iterate 3 refine .cons rfl trivial ?_
  trivial

theorem buffers_conserved_cut_stream :
    ∃ last, run Life.next newSession cutStream = some last ∧ last.link = .up ∧
      last.session.buffers = sessionFastBuffer := by
  cases reached : run Life.next newSession cutStream with
  | none => cases reached
  | some last =>
    have conserved := buffers_conserved cutStream last cutStream_guarded reached
    refine ⟨last, rfl, ?_, ?_⟩
    · cases reached
      rfl
    · refine conserved.2 ?_ ?_ <;> cases reached <;> rfl

/-- Data behind the end marker: the message stays in a channel that no task reads. -/
theorem buffer_lost_behind_end :
    ∃ last, run Life.next newSession
        [.takeConn, .act (.receive (.streamOpen 0 3 0 [1])), .act .acquire, .act (.handle true),
          .act .start, .act .enqueue, .act (.receive (.streamData 0 [] true)), .act .acquire,
          .act (.handle true), .act (.receive (.streamData 0 [2] false)), .act .acquire,
          .act (.handle true), .act (.take 0), .act (.work 0 [.ok 1]), .act (.take 0),
          .act (.work 0 []), .act (.finish 0), .act (.leave 0)] = some last ∧
      last.session.reader = .idle ∧ last.session.tasks = [] ∧ last.session.buffers = 31 ∧
      accounted last.session ≠ sessionFastBuffer := by
  refine ⟨_, rfl, rfl, rfl, rfl, ?_⟩
  rw [accounted_idle rfl rfl]
  · decide
  · intro mark
    simp [State.setSlot, State.begin, State.send, Task.mark, newSession, initial]

end Wsfs.Server.Buffers
