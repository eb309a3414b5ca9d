/-
The command pool and the reader. Write streams and blocking lock requests hold a
place of the pool while they wait for messages that the reader has yet to read;
with all places held that way the reader waits in `cmdGroup.Go` for good.
-/

import Wsfs.Base.Run
import Wsfs.Server.Session

namespace Wsfs.Server

open Wsfs.Base Function

/-- The task waits for what only a later message of this connection can bring: the
next input of its stream, or the release of a lock of this session. -/
def Waiting (state : State) : Task → Prop
  | .stream mark =>
      ∃ stream, state.slot mark = some stream ∧ stream.pc = .receiving ∧ stream.queue = []
  | .lockWait _ fd lock =>
      ∃ held ∈ state.held, held.session = true ∧ held.blocks true fd lock = true
  | .other _ _ => False

structure Stuck (state : State) : Prop where
  starting : ∃ task input, state.reader = .starting task input
  full : state.tasks.length = poolLimit
  waiting : ∀ task ∈ state.tasks, Waiting state task

/-! ### Unfinished streams and lock requests -/

def State.pending (state : State) : Task → Bool
  | .stream mark => (state.slot mark).any fun stream => ¬HasEnd stream
  | .lockWait _ _ _ => true
  | .other _ _ => false

def State.unfinished (state : State) : Nat := state.tasks.countP state.pending

def Command.waits : Command → Nat
  | .streamOpen _ _ _ _ => 1
  | .setFileLockWait _ _ _ => 1
  | _ => 0

def Task.waits : Task → Nat
  | .other _ _ => 0
  | _ => 1

/-- Streams and lock requests that the reader is about to start. -/
def Reader.waits : Reader → Nat
  | .acquiring cmd => cmd.waits
  | .handling cmd => cmd.waits
  | .starting task _ => task.waits
  | _ => 0

/-- A stream open or a blocking lock request is received only while fewer than 63 are
unfinished: streams whose end message was not yet received, and lock requests. -/
def Restrained (state : State) : Action → Prop
  | .receive cmd => 0 < cmd.waits → state.unfinished < 63
  | _ => True

variable {state next : State} {task : Task} {mark : Mark} {action : Action} {stream : Stream}

theorem Waiting.pending (waiting : Waiting state task) : state.pending task = true := by
  cases task with
  | stream mark =>
    obtain ⟨stream, occupied, receiving, empty⟩ := waiting
    simp [State.pending, occupied, HasEnd, Stream.inputs, StreamPc.inputs, receiving, empty]
  | lockWait mark fd lock => rfl
  | other mark buffered => exact waiting.elim

theorem Stuck.unfinished_eq (stuck : Stuck state) : state.unfinished = poolLimit := by
  rw [← stuck.full]
  apply List.countP_eq_length.mpr
  intro task member
  exact (stuck.waiting task member).pending

theorem unfinished_le (fewer : next.tasks.Sublist state.tasks)
    (still : ∀ task ∈ next.tasks, next.pending task = true → state.pending task = true) :
    next.unfinished ≤ state.unfinished :=
  Nat.le_trans (List.countP_mono_left still) fewer.countP_le

/-! ### The table and the pool agree -/

def running : Option Stream → Nat
  | some stream => if stream.pc = .unstarted then 0 else 1
  | none => 0

/-- The pool runs one task for each started stream of the table, and the reader
starts no other. -/
structure Accounted (state : State) : Prop where
  started : ∀ mark, state.tasks.count (.stream mark) = running (state.slot mark)
  unstarted : ∀ mark input, state.reader = .starting (.stream mark) input →
    ∃ stream, state.slot mark = some stream ∧ stream.pc = .unstarted

theorem initial_accounted : Accounted initial where
  started _ := rfl
  unstarted _ _ starting := by cases starting

theorem Accounted.setSlot (accounted : Accounted state) {stream : Option Stream}
    (slot : next.slot = update state.slot mark stream) (tasks : next.tasks = state.tasks)
    (same : running stream = running (state.slot mark))
    (reader : ∀ other input, next.reader = .starting (.stream other) input →
      ∃ stream, next.slot other = some stream ∧ stream.pc = .unstarted) : Accounted next where
  started other := by
    rw [tasks, slot, accounted.started other]
    by_cases equal : other = mark
    · subst equal
      rw [update_self, same]
    · rw [update_of_ne equal]
  unstarted := reader

theorem Accounted.frame (accounted : Accounted state) (slot : next.slot = state.slot)
    (tasks : ∀ mark, next.tasks.count (.stream mark) = state.tasks.count (.stream mark))
    (reader : ∀ mark input, next.reader = .starting (.stream mark) input →
      state.reader = .starting (.stream mark) input) : Accounted next where
  started mark := by rw [tasks, slot, accounted.started mark]
  unstarted mark input starting := by
    rw [slot]
    exact accounted.unstarted mark input (reader mark input starting)

theorem Accounted.move (accounted : Accounted state) {before after : Stream}
    (occupied : state.slot mark = some before)
    (slot : next.slot = update state.slot mark (some after)) (tasks : next.tasks = state.tasks)
    (reader : next.reader = state.reader) (runs : before.pc ≠ .unstarted)
    (runsOn : after.pc ≠ .unstarted) : Accounted next := by
  apply accounted.setSlot slot tasks
  · rw [occupied, running, running, if_neg runs, if_neg runsOn]
  · intro other input starting
    rw [reader] at starting
    obtain ⟨stream, found, unstarted⟩ := accounted.unstarted other input starting
    have different : other ≠ mark := by
      rintro rfl
      rw [occupied] at found
      cases found
      exact runs unstarted
    rw [slot, update_of_ne different]
    exact ⟨stream, found, unstarted⟩

private theorem count_stream_cons (plain : ∀ mark, task ≠ .stream mark) (tasks : List Task) (mark : Mark) :
    (task :: tasks).count (.stream mark) = tasks.count (.stream mark) :=
  List.count_cons_of_ne (plain mark)

private theorem count_stream_erase (plain : ∀ mark, task ≠ .stream mark) (tasks : List Task)
    (mark : Mark) : (tasks.erase task).count (.stream mark) = tasks.count (.stream mark) :=
  List.count_erase_of_ne (plain mark).symm

theorem start_accounted (accounted : Accounted state) {input : Option Input}
    (starting : state.reader = .starting task input) :
    Accounted { state.begin task with tasks := task :: state.tasks, reader := .afterStart task input } := by
  have reader : ∀ mark later, Reader.afterStart task input ≠ .starting (.stream mark) later := by
    intro mark later
    cases input <;> exact nofun
  cases task with
  | stream mark =>
    obtain ⟨stream, found, unstarted⟩ := accounted.unstarted mark input starting
    refine ⟨?_, fun other later begun => absurd begun (reader other later)⟩
    intro other
    change (Task.stream mark :: state.tasks).count (.stream other) =
      running (update state.slot mark _ other)
    by_cases equal : other = mark
    · subst equal
      rw [List.count_cons_self, accounted.started, found, update_self, running,
        if_pos unstarted]
      rfl
    · rw [List.count_cons_of_ne (by simpa using fun same => equal same.symm),
        accounted.started, update_of_ne equal]
  | lockWait _ _ _ | other _ _ =>
    exact accounted.frame rfl (count_stream_cons (by simp) _)
      (fun other later begun => absurd begun (reader other later))

theorem leave_accounted (accounted : Accounted state) (occupied : state.slot mark = some stream)
    (closing : stream.pc = .closing) :
    Accounted { state.setSlot mark none with tasks := state.tasks.erase (.stream mark) } := by
  constructor
  · intro other
    change (state.tasks.erase (.stream mark)).count (.stream other) =
      running (update state.slot mark none other)
    by_cases equal : other = mark
    · subst equal
      rw [List.count_erase_self, accounted.started, occupied, update_self, running,
        if_neg (by rw [closing]; exact nofun)]
      rfl
    · rw [List.count_erase_of_ne (by simpa using equal), accounted.started,
        update_of_ne equal]
  · intro other input starting
    obtain ⟨found, occupiedBy, unstarted⟩ := accounted.unstarted other input starting
    have different : other ≠ mark := by
      rintro rfl
      rw [occupied] at occupiedBy
      cases occupiedBy
      rw [closing] at unstarted
      cases unstarted
    exact ⟨found, by rw [← occupiedBy]; exact update_of_ne different .., unstarted⟩

theorem step_accounted (accounted : Accounted state) (stepped : step state action = some next) :
    Accounted next := by
  cases steps stepped with
  | @received cmd =>
    exact accounted.frame rfl (fun _ => rfl) (by cases cmd.buffered <;> rintro _ _ ⟨⟩)
  | opened _ _ free =>
    refine accounted.setSlot rfl rfl ?_ ?_
    · rw [free]
      rfl
    · rintro other input ⟨⟩
      exact ⟨_, update_self .., rfl⟩
  | acquired | rejected | blocked | locking | spawned | replied =>
    exact accounted.frame rfl (fun _ => rfl) (by rintro _ _ ⟨⟩)
  | pushed _ occupied | enqueued _ occupied =>
    exact accounted.setSlot rfl rfl (by rw [occupied]; rfl) (by rintro _ _ ⟨⟩)
  | started starting => exact start_accounted accounted starting
  | took occupied receiving =>
    exact accounted.move occupied rfl rfl rfl (by rw [receiving]; exact nofun) nofun
  | worked occupied working =>
    exact accounted.move occupied rfl rfl rfl (by rw [working]; exact nofun)
      (by unfold Stream.advance; split <;> exact nofun)
  | finished occupied ending =>
    exact accounted.move occupied rfl rfl rfl (by rw [ending]; exact nofun) nofun
  | left occupied closing => exact leave_accounted accounted occupied closing
  | granted | refused | completed =>
    exact accounted.frame rfl (count_stream_erase (by simp) _) (fun _ _ same => same)
  | foreign => exact accounted.frame rfl (fun _ => rfl) (fun _ _ same => same)

/-! ### Fewer than 64 unfinished -/

def State.load (state : State) : Nat := state.unfinished + state.reader.waits

theorem unfinished_congr (tasks : next.tasks.Sublist state.tasks) (slot : next.slot = state.slot) :
    next.unfinished ≤ state.unfinished := by
  apply unfinished_le tasks
  intro task _ pending
  cases task with
  | stream mark =>
    simp only [State.pending, slot] at pending ⊢
    exact pending
  | lockWait mark fd lock => rfl
  | other mark buffered => cases pending

theorem unfinished_setSlot {stream : Option Stream} (tasks : next.tasks.Sublist state.tasks)
    (slot : next.slot = update state.slot mark stream)
    (still : .stream mark ∈ state.tasks → next.pending (.stream mark) = true →
      state.pending (.stream mark) = true) : next.unfinished ≤ state.unfinished := by
  apply unfinished_le tasks
  intro task member pending
  cases task with
  | stream other =>
    by_cases equal : other = mark
    · subst equal
      exact still (tasks.subset member) pending
    · simp only [State.pending, slot, update_of_ne equal] at pending ⊢
      exact pending
  | lockWait mark fd lock => rfl
  | other mark buffered => cases pending

theorem unfinished_move {before after : Stream} (tasks : next.tasks.Sublist state.tasks)
    (occupied : state.slot mark = some before)
    (slot : next.slot = update state.slot mark (some after)) (keeps : HasEnd before → HasEnd after) :
    next.unfinished ≤ state.unfinished := by
  refine unfinished_setSlot tasks slot ?_
  intro _ pending
  simp only [State.pending, slot, update_self, occupied, Option.any_some, decide_eq_true_eq]
    at pending ⊢
  exact fun ended => pending (keeps ended)

theorem HasEnd.push (ended : HasEnd stream) (input : Input) :
    HasEnd { stream with queue := stream.queue ++ [input] } := by
  rcases ended with ending | closing | ⟨found, member, isEnd⟩
  · exact .inl ending
  · exact .inr (.inl closing)
  · refine .inr (.inr ⟨found, ?_, isEnd⟩)
    rw [Stream.inputs, ← List.append_assoc]
    exact List.mem_append_left _ member

theorem begin_unfinished (accounted : Accounted state) {input : Option Input}
    (starting : state.reader = .starting task input) :
    (state.begin task).unfinished ≤ state.unfinished := by
  cases task with
  | stream mark =>
    obtain ⟨stream, found, unstarted⟩ := accounted.unstarted mark input starting
    have begun : (state.begin (.stream mark)).slot =
        update state.slot mark (some { stream with pc := .receiving }) := by
      simp [State.begin, State.setSlot, found]
    refine unfinished_move (.refl _) found begun ?_
    simp [HasEnd, Stream.inputs, StreamPc.inputs, unstarted]
  | lockWait mark fd lock => exact Nat.le_refl _
  | other mark buffered => exact Nat.le_refl _

theorem start_load (accounted : Accounted state) {input : Option Input}
    (starting : state.reader = .starting task input) :
    State.load { state.begin task with tasks := task :: state.tasks, reader := .afterStart task input } ≤
      state.load := by
  have others := begin_unfinished accounted starting
  have idle : (Reader.afterStart task input).waits = 0 := by cases input <;> rfl
  have own : (if (state.begin task).pending task then 1 else 0) ≤ task.waits := by
    cases task with
    | other mark buffered => exact Nat.le_refl 0
    | lockWait mark fd lock => exact Nat.le_refl 1
    | stream mark =>
      change _ ≤ 1
      split <;> omega
  have tasks : (state.begin task).tasks = state.tasks := by cases task <;> rfl
  calc (task :: state.tasks).countP (state.begin task).pending +
        (Reader.afterStart task input).waits
      = (state.begin task).unfinished + (if (state.begin task).pending task then 1 else 0) := by
        rw [idle, Nat.add_zero, List.countP_cons, State.unfinished, tasks]
    _ ≤ state.unfinished + task.waits := Nat.add_le_add others own
    _ = state.load := by rw [State.load, starting]; rfl

theorem step_load (accounted : Accounted state) (quiet : ∀ cmd, action ≠ .receive cmd)
    (stepped : step state action = some next) : next.load ≤ state.load := by
  cases steps stepped with
  | received => exact absurd rfl (quiet _)
  | acquired reader | locking reader | spawned reader =>
    rw [State.load, State.load, reader]
    exact Nat.add_le_add_right (unfinished_congr (.refl _) rfl) _
  | @opened _ mark _ _ _ handling _ free =>
    rw [State.load, State.load, handling]
    apply Nat.add_le_add_right
    refine unfinished_setSlot (.refl _) rfl ?_
    intro member
    have none : state.tasks.count (.stream mark) = 0 := by rw [accounted.started, free]; rfl
    exact absurd member (List.count_eq_zero.mp none)
  | rejected | blocked | replied => exact Nat.le_add_right_of_le (unfinished_congr (.refl _) rfl)
  | pushed _ occupied | enqueued _ occupied =>
    apply Nat.le_add_right_of_le
    exact unfinished_move (.refl _) occupied rfl fun ended => ended.push _
  | started starting => exact start_load accounted starting
  | took occupied receiving queued =>
    apply Nat.add_le_add_right
    refine unfinished_move (.refl _) occupied rfl ?_
    simp [HasEnd, Stream.inputs, StreamPc.inputs, receiving, queued]
  | @worked _ _ input _ _ occupied working =>
    apply Nat.add_le_add_right
    refine unfinished_move (.refl _) occupied rfl ?_
    cases isEnd : input.isEnd <;>
      simp [HasEnd, Stream.inputs, Stream.advance, StreamPc.inputs, working, isEnd]
  | finished occupied =>
    apply Nat.add_le_add_right
    exact unfinished_move (.refl _) occupied rfl fun _ => .inr (.inl rfl)
  | left =>
    apply Nat.add_le_add_right
    refine unfinished_setSlot List.erase_sublist rfl ?_
    intro _ pending
    simp [State.pending, State.setSlot] at pending
  | granted | refused | completed =>
    apply Nat.add_le_add_right
    exact unfinished_congr List.erase_sublist rfl
  | foreign => exact Nat.add_le_add_right (unfinished_congr (.refl _) rfl) _

/-! ### Being stuck -/

theorem Accounted.running_member (accounted : Accounted state) (occupied : state.slot mark = some stream)
    (runs : stream.pc ≠ .unstarted) : .stream mark ∈ state.tasks := by
  apply List.count_pos_iff.mp
  rw [accounted.started, occupied, running, if_neg runs]
  exact Nat.one_pos

theorem Stuck.receiving (stuck : Stuck state) (accounted : Accounted state)
    (occupied : state.slot mark = some stream) (runs : stream.pc ≠ .unstarted) :
    stream.pc = .receiving ∧ stream.queue = [] := by
  obtain ⟨found, same, receiving⟩ :=
    stuck.waiting _ (accounted.running_member occupied runs)
  rw [occupied] at same
  cases same
  exact receiving

theorem relock_keeps {dropped : List Held} {gained : Option (UInt32 × Lock)} {after : List Held}
    (relocked : state.relock false dropped gained = some after) {held : Held}
    (member : held ∈ state.held) (own : held.session = true) : held ∈ after := by
  have kept : held ∈ state.held.filter fun held =>
      held.session != false || !dropped.contains held := by
    rw [List.mem_filter, own]
    exact ⟨member, rfl⟩
  unfold State.relock at relocked
  cases gained with
  | none =>
    cases relocked
    exact kept
  | some pair =>
    simp only at relocked
    split at relocked
    · cases relocked
      exact List.mem_cons_of_mem _ kept
    · cases relocked

/-- A stuck session stays stuck unless the kernel fails a lock request: neither the
reader nor a task nor another party moves it. -/
theorem Stuck.step (stuck : Stuck state) (accounted : Accounted state)
    (stepped : step state action = some next) :
    (∃ mark fd lock errno, action = .refuse mark fd lock errno) ∨ Stuck next := by
  obtain ⟨task, input, starting⟩ := stuck.starting
  cases steps stepped with
  | received reader | acquired reader | opened reader | rejected reader | pushed reader | blocked reader
  | locking reader | spawned reader | enqueued reader | replied reader => cases starting.symm.trans reader
  | started _ room => exact absurd room (by rw [stuck.full]; exact Nat.lt_irrefl _)
  | took occupied receiving queued =>
    cases queued.symm.trans (stuck.receiving accounted occupied (by simp [receiving])).2
  | worked occupied stage | finished occupied stage | left occupied stage =>
    cases stage.symm.trans (stuck.receiving accounted occupied (by simp [stage])).1
  | granted member grantable =>
    obtain ⟨held, isHeld, _, blocks⟩ := stuck.waiting _ member
    have passes := List.all_eq_true.mp grantable held isHeld
    rw [blocks] at passes
    cases passes
  | refused => exact .inl ⟨_, _, _, _, rfl⟩
  | completed member => exact (stuck.waiting _ member).elim
  | foreign relocked =>
    refine .inr ⟨⟨task, input, starting⟩, stuck.full, ?_⟩
    intro task member
    have waits := stuck.waiting task member
    cases task with
    | stream mark => exact waits
    | lockWait mark fd lock =>
      obtain ⟨held, isHeld, own, blocks⟩ := waits
      exact ⟨held, relock_keeps relocked isHeld own, own, blocks⟩
    | other mark buffered => exact waits

/-- Once stuck, a session reads no message again: whatever its tasks, the kernel and other
parties do, the reader waits in `cmdGroup.Go`, unless a lock request fails. -/
theorem stuck_for_good (before after : List Action) (middle last : State)
    (reached : run step initial before = some middle) (stuck : Stuck middle)
    (unrefused : ∀ mark fd lock errno, .refuse mark fd lock errno ∉ after)
    (onward : run step middle after = some last) :
    Stuck last ∧ ∀ cmd, .receive cmd ∉ after := by
  have accounted : Accounted middle :=
    run_invariant (fun _ _ _ accounted _ => step_accounted accounted) initial_accounted
      (guarded_of_forall (fun _ _ _ => trivial) initial) reached
  clear reached
  induction after generalizing middle with
  | nil =>
    cases onward
    exact ⟨stuck, by simp⟩
  | cons action rest ih =>
    obtain ⟨next, stepped, onward⟩ := run_cons_some.mp onward
    rcases stuck.step accounted stepped with ⟨mark, fd, lock, errno, rfl⟩ | still
    · exact absurd List.mem_cons_self (unrefused mark fd lock errno)
    · obtain ⟨stays, unread⟩ := ih next still
        (fun mark fd lock errno member => unrefused mark fd lock errno (List.mem_cons_of_mem _ member))
        onward (step_accounted accounted stepped)
      refine ⟨stays, fun cmd member => ?_⟩
      rcases List.mem_cons.mp member with rfl | later
      · obtain ⟨task, input, starting⟩ := stuck.starting
        cases steps stepped with
        | received idle => cases starting.symm.trans idle
      · exact unread cmd later

/-! ### Clients that hold back -/

structure Bounded (state : State) : Prop where
  accounted : Accounted state
  load : state.load ≤ 63

theorem receive_load {cmd : Command} (load : state.load ≤ 63)
    (restrained : 0 < cmd.waits → state.unfinished < 63)
    (stepped : step state (.receive cmd) = some next) : next.load ≤ 63 := by
  cases steps stepped
  have waits : (if cmd.buffered then Reader.acquiring cmd else .handling cmd).waits = cmd.waits := by
    split <;> rfl
  have most : cmd.waits ≤ 1 := by cases cmd <;> simp [Command.waits]
  have unfinished : state.unfinished ≤ 63 := Nat.le_trans (Nat.le_add_right _ _) load
  change state.unfinished + Reader.waits _ ≤ 63
  rw [waits]
  by_cases heavy : 0 < cmd.waits
  · have fewer := restrained heavy
    omega
  · omega

theorem step_bounded (state : State) (action : Action) (next : State) (bounded : Bounded state)
    (restrained : Restrained state action) (stepped : step state action = some next) :
    Bounded next := by
  refine ⟨step_accounted bounded.accounted stepped, ?_⟩
  cases action with
  | receive cmd => exact receive_load bounded.load restrained stepped
  | _ => exact Nat.le_trans (step_load bounded.accounted (by simp) stepped) bounded.load

/-- Whatever the tasks do, a client that never has more than 63 streams and blocking
lock requests unfinished does not get the reader stuck. A stream is finished as soon as
its end message was received, long before its task has left the pool. -/
theorem restrained_never_stuck (actions : List Action) (last : State)
    (restrained : Guarded step Restrained initial actions)
    (reached : run step initial actions = some last) : ¬Stuck last := by
  have bounded : Bounded last :=
    run_invariant step_bounded ⟨initial_accounted, by decide⟩ restrained reached
  intro stuck
  have unfinished : last.unfinished ≤ 63 := Nat.le_trans (Nat.le_add_right _ _) bounded.load
  rw [stuck.unfinished_eq] at unfinished
  exact absurd unfinished (by decide)

/-! ### Many open streams -/

private def waitingStream : Stream := ⟨0, 0, 0, false, [], .receiving⟩

/-- The session after `count` streams were opened with no data and took their first
input. -/
private def afterOpens : Nat → State
  | 0 => initial
  | count + 1 =>
      { (afterOpens count).setSlot (UInt8.ofNat count) (some waitingStream) with
        tasks := .stream (UInt8.ofNat count) :: (afterOpens count).tasks }

def openActions (mark : Mark) : List Action :=
  [.receive (.streamOpen mark 0 0 []), .acquire, .handle true, .start, .enqueue, .take mark,
    .work mark []]

private theorem afterOpens_reader (count : Nat) : (afterOpens count).reader = .idle := by
  induction count with
  | zero => rfl
  | succ count ih => exact ih

private theorem afterOpens_buffers (count : Nat) :
    (afterOpens count).buffers = sessionFastBuffer := by
  induction count with
  | zero => rfl
  | succ count ih => exact ih

private theorem afterOpens_length (count : Nat) : (afterOpens count).tasks.length = count := by
  induction count with
  | zero => rfl
  | succ count ih =>
    change (afterOpens count).tasks.length + 1 = count + 1
    rw [ih]

private theorem afterOpens_free (count : Nat) (mark : Mark) (later : count ≤ mark.toNat) :
    (afterOpens count).slot mark = none := by
  induction count with
  | zero => rfl
  | succ count ih =>
    have different : mark ≠ UInt8.ofNat count := by
      rintro rfl
      have value := UInt8.toNat_ofNat' (n := count)
      omega
    exact (update_of_ne different ..).trans (ih (by omega))

private theorem open_waits (idle : state.reader = .idle) (free : state.slot mark = none)
    (room : state.tasks.length < poolLimit) (available : 0 < state.buffers) :
    run step state (openActions mark) =
      some { state.setSlot mark (some waitingStream) with
        tasks := .stream mark :: state.tasks } := by
  have buffers : state.buffers - 1 + 1 = state.buffers := Nat.sub_add_cancel available
  simp [openActions, run_cons, step, State.receive, idle, Command.buffered, State.acquire, available,
    State.handle, free, State.start, State.setSlot, State.begin, room, Reader.afterStart, Task.mark,
    State.enqueue, writeStreamInputBuffer, State.take, State.work, Stream.write, Stream.advance,
    State.send, Chunk.answers, waitingStream, buffers]

def openAll : Nat → List Action
  | 0 => []
  | count + 1 => openAll count ++ openActions (UInt8.ofNat count)

private theorem opens_reach (count : Nat) (fits : count ≤ poolLimit) :
    run step initial (openAll count) = some (afterOpens count) := by
  induction count with
  | zero => rfl
  | succ count ih =>
    have small : count < 64 := fits
    rw [openAll, run_append, ih (Nat.le_of_succ_le fits), Option.bind_some,
      open_waits (afterOpens_reader count)
        (afterOpens_free count _ (by rw [UInt8.toNat_ofNat']; omega))
        (by rw [afterOpens_length]; exact fits) (by rw [afterOpens_buffers]; decide)]
    rfl

private theorem opens_restrained (count : Nat) (fits : count ≤ 63) :
    Guarded step Restrained initial (openAll count) := by
  induction count with
  | zero => trivial
  | succ count ih =>
    refine (guarded_append (opens_reach count (Nat.le_trans (Nat.le_of_succ_le fits) (by decide)))).mpr
      ⟨ih (Nat.le_of_succ_le fits), ?_, fun next _ => guarded_of_forall (by simp [Restrained]) next⟩
    intro _
    have few := (afterOpens count).tasks.countP_le_length (p := (afterOpens count).pending)
    rw [afterOpens_length] at few
    exact Nat.lt_of_le_of_lt few fits

private theorem afterOpens_waiting (count : Nat) :
    ∀ task ∈ (afterOpens count).tasks, ∃ mark, task = .stream mark ∧
      (afterOpens count).slot mark = some waitingStream := by
  induction count with
  | zero => intro task member; cases member
  | succ count ih =>
    intro task member
    rcases List.mem_cons.mp member with rfl | earlier
    · exact ⟨_, rfl, update_self ..⟩
    · obtain ⟨mark, rfl, occupied⟩ := ih task earlier
      refine ⟨mark, rfl, ?_⟩
      change update _ _ _ mark = _
      by_cases same : mark = UInt8.ofNat count
      · rw [same, update_self]
      · rw [update_of_ne same, occupied]

/-- 64 streams that wait for their next message, and one more command of any kind. -/
private def full : State := { afterOpens 64 with reader := .starting (.other 64 false) none }

private theorem full_reached :
    run step initial (openAll 64 ++ [.receive (.other 64 false), .handle true]) = some full := by
  rw [run_append, opens_reach 64 (Nat.le_refl _), Option.bind_some]
  simp [run_cons, step, State.receive, afterOpens_reader, Command.buffered, State.handle, full]

private theorem full_stuck : Stuck full := by
  refine ⟨⟨_, _, rfl⟩, afterOpens_length 64, ?_⟩
  intro task member
  obtain ⟨mark, rfl, occupied⟩ := afterOpens_waiting 64 task member
  exact ⟨waitingStream, occupied, rfl, rfl⟩

theorem open_streams_get_stuck : ∃ last, Reaches step initial last ∧ Stuck last :=
  ⟨full, ⟨_, full_reached⟩, full_stuck⟩

/-- Another party gets a lock meanwhile. -/
theorem stuck_for_good_streams :
    ∃ middle, Stuck middle ∧ ∃ last,
      run step middle [.foreign [] (some (5, ⟨1, 0, 9, true⟩))] = some last ∧
      last.held ≠ middle.held ∧ Stuck last := by
  refine ⟨full, full_stuck, _, rfl, List.cons_ne_self _ _, ?_⟩
  exact (stuck_for_good _ [.foreign [] (some (5, ⟨1, 0, 9, true⟩))] full _ full_reached full_stuck
    (by simp) rfl).1

/-- 62 open streams and a blocking lock request; the end message of the first stream was
received, but its task has not ended. -/
private def oneEnded : State :=
  { (afterOpens 62).setSlot 0 (some { waitingStream with queue := [⟨[], true⟩] }) with
    tasks := .lockWait 62 0 ⟨0, 0, 9, true⟩ :: (afterOpens 62).tasks
    buffers := sessionFastBuffer - 1 }

private theorem oneEnded_unfinished : oneEnded.unfinished < 63 := by
  have member : Task.stream 0 ∈ oneEnded.tasks := List.mem_cons_of_mem _ (by decide)
  have finished : oneEnded.pending (.stream 0) = false := by decide
  have others := List.length_eq_countP_add_countP (l := oneEnded.tasks) oneEnded.pending
  have length : oneEnded.tasks.length = 63 := rfl
  have positive : 0 < oneEnded.tasks.countP fun task => ¬oneEnded.pending task = true :=
    List.countP_pos_iff.mpr ⟨_, member, by simp [finished]⟩
  unfold State.unfinished
  omega

/-- One more stream takes the last place in the pool and the reader waits in `cmdGroup.Go`
with the next command, but the first stream has its end to take. -/
theorem restrained_never_stuck_full :
    let beforehand : List Action := openAll 62 ++ [.receive (.setFileLockWait 62 0 ⟨0, 0, 9, true⟩),
      .handle true, .start, .receive (.streamData 0 [] true), .acquire, .handle true]
    let more : List Action := [.receive (.streamOpen 63 0 0 []), .acquire, .handle true,
      .start, .enqueue, .receive (.other 64 false), .handle true]
    ∃ last, Guarded step Restrained initial (beforehand ++ more) ∧
      run step initial (beforehand ++ more) = some last ∧
      last.tasks.length = poolLimit ∧ last.reader = .starting (.other 64 false) none ∧
      ¬Stuck last := by
  intro beforehand more
  have opened := opens_reach 62 (by decide)
  have ended : run step initial beforehand = some oneEnded := by
    have first : (afterOpens 62).slot 0 = some waitingStream := by decide
    rw [run_append, opened, Option.bind_some]
    simp [run_cons, step, State.receive, afterOpens_reader, afterOpens_buffers, afterOpens_length,
      Command.buffered, State.acquire, State.handle, first, State.start, State.setSlot, State.begin,
      Reader.afterStart, writeStreamInputBuffer, waitingStream, oneEnded, poolLimit, sessionFastBuffer]
  have few : (afterOpens 62).unfinished < 63 :=
    Nat.lt_of_le_of_lt List.countP_le_length (by rw [afterOpens_length]; decide)
  have restrained : Guarded step Restrained initial (beforehand ++ more) := by
    refine (guarded_append ended).mpr ⟨(guarded_append opened).mpr ⟨opens_restrained 62 (by decide), ?_⟩, ?_⟩
    · exact ⟨fun _ => few, fun next _ => guarded_of_forall (by simp [Restrained, Command.waits]) next⟩
    · exact ⟨fun _ => oneEnded_unfinished,
        fun next _ => guarded_of_forall (by simp [Restrained, Command.waits]) next⟩
  have reached : run step initial (beforehand ++ more) = run step oneEnded more := by
    rw [run_append, ended, Option.bind_some]
  exact ⟨_, restrained, reached.trans rfl, rfl, rfl,
    restrained_never_stuck _ _ restrained (reached.trans rfl)⟩

end Wsfs.Server
