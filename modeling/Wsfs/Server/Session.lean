/-
One server session on a connection that stays up: the reader goroutine, the
command pool, the write streams with their input channels, the fast buffers and
the file locks that blocking lock commands wait for.

Every goroutine moves in atomic steps, chosen in any order. System calls have
any outcome, given with the step. A step that is blocked has no successor.
-/

import Wsfs.Base.Codec
import Wsfs.Unix.Errno

namespace Wsfs.Server

open Wsfs.Base Wsfs.Protocol Wsfs.Unix

def writeStreamInputBuffer : Nat := 4
def sessionFastBuffer : Nat := 32

/-- `cmdGroup.SetLimit(64)` -/
def poolLimit : Nat := 64

abbrev Mark := UInt8

/-! ### Messages -/

structure Lock where
  file : Nat
  first : Nat
  last : Nat
  exclusive : Bool
deriving DecidableEq, Repr

/-- A command message. `other` is every command that runs as a task of its own and
waits for nothing; `buffered` tells whether its struct holds bytes. -/
inductive Command
  | streamOpen (mark : Mark) (fd : UInt32) (offset : UInt64) (data : Bytes)
  | streamData (mark : Mark) (data : Bytes) (isEnd : Bool)
  | setFileLockWait (mark : Mark) (fd : UInt32) (lock : Lock)
  | other (mark : Mark) (buffered : Bool)
  | malformed (mark : Mark) (buffered : Bool)
  | unknown (mark : Mark)
deriving DecidableEq, Repr

def Command.mark : Command → Mark
  | .streamOpen mark _ _ _ => mark
  | .streamData mark _ _ => mark
  | .setFileLockWait mark _ _ => mark
  | .other mark _ => mark
  | .malformed mark _ => mark
  | .unknown mark => mark

def Command.buffered : Command → Bool
  | .streamOpen _ _ _ _ => true
  | .streamData _ _ _ => true
  | .setFileLockWait _ _ _ => false
  | .other _ buffered => buffered
  | .malformed _ buffered => buffered
  | .unknown _ => false

inductive Answer
  | error (code : UInt8) (desc : String)
  | closed (written : UInt64)
  | reply (code : UInt8)
deriving DecidableEq, Repr

structure Message where
  mark : Mark
  answer : Answer
deriving DecidableEq, Repr

/-! ### State -/

structure Input where
  data : Bytes
  isEnd : Bool
deriving DecidableEq, Repr

/-- Where the task of a write stream stands. `closing` has sent its close message
and has yet to leave the table. -/
inductive StreamPc
  | unstarted
  | receiving
  | working (input : Input)
  | ending
  | closing
deriving DecidableEq, Repr

/-- A stream in the table `writeStreams`, with its channel and its task. -/
structure Stream where
  fd : UInt32
  offset : UInt64
  writtenTotal : UInt64
  writeErrSent : Bool
  queue : List Input
  pc : StreamPc
deriving DecidableEq, Repr

def StreamPc.inputs : StreamPc → List Input
  | .working input => [input]
  | _ => []

def Stream.inputs (stream : Stream) : List Input := stream.pc.inputs ++ stream.queue

def HasEnd (stream : Stream) : Prop :=
  stream.pc = .ending ∨ stream.pc = .closing ∨ ∃ input ∈ stream.inputs, input.isEnd = true

instance (stream : Stream) : Decidable (HasEnd stream) := inferInstanceAs (Decidable (_ ∨ _))

inductive Task
  | stream (mark : Mark)
  | lockWait (mark : Mark) (fd : UInt32) (lock : Lock)
  | other (mark : Mark) (buffered : Bool)
deriving DecidableEq, Repr

def Task.mark : Task → Mark
  | .stream mark => mark
  | .lockWait mark _ _ => mark
  | .other mark _ => mark

/-- The reader goroutine: `acquiring` waits for a fast buffer, `starting` stands in
`cmdGroup.Go`, `enqueuing` waits for room in a channel. -/
inductive Reader
  | idle
  | acquiring (cmd : Command)
  | handling (cmd : Command)
  | starting (task : Task) (input : Option Input)
  | enqueuing (mark : Mark) (input : Input)
  | replying (message : Message)
deriving DecidableEq, Repr

/-- After `cmdGroup.Go` a stream gets its first input. -/
def Reader.afterStart (task : Task) : Option Input → Reader
  | some input => .enqueuing task.mark input
  | none => .idle

/-- A granted lock, of a descriptor of this session or of someone else. It stays
listed until some command or party gives it up. -/
structure Held where
  session : Bool
  fd : UInt32
  lock : Lock
deriving DecidableEq, Repr

structure State where
  reader : Reader
  tasks : List Task
  slot : Mark → Option Stream
  buffers : Nat
  held : List Held
  writes : List (UInt32 × UInt64 × Bytes)
  out : List Message

def initial : State where
  reader := .idle
  tasks := []
  slot := fun _ => none
  buffers := sessionFastBuffer
  held := []
  writes := []
  out := []

/-! ### Write streams -/

structure Chunk where
  written : UInt64
  calls : List (UInt64 × Bytes)
  error : Option (UInt8 × String)

/-- `writeStreamWriteChunk`, with the results of its `pwrite` calls. No result left
for a call means that the step is not yet possible. -/
def writeStreamWriteChunk : List (Except Errno Nat) → UInt64 → Bytes → Option Chunk
  | _, _, [] => some ⟨0, [], none⟩
  | [], _, _ :: _ => none
  | .error errno :: _, _, _ :: _ => some ⟨0, [], some (wsfsErrCode errno, "syscall error")⟩
  | .ok 0 :: _, _, _ :: _ => some ⟨0, [], some (errorIo, "short write")⟩
  | .ok (count + 1) :: results, offset, byte :: data =>
      let size := min (count + 1) (byte :: data).length
      let step := UInt64.ofNat size
      (writeStreamWriteChunk results (offset + step) ((byte :: data).drop size)).map fun chunk =>
        { chunk with
          written := step + chunk.written
          calls := (offset, (byte :: data).take size) :: chunk.calls }

/-- The part of a loop round of `writeStream.run` that writes. -/
def Stream.write (stream : Stream) (results : List (Except Errno Nat)) (input : Input) :
    Option Chunk :=
  if input.data ≠ [] ∧ stream.writeErrSent = false then
    writeStreamWriteChunk results stream.offset input.data
  else some ⟨0, [], none⟩

def Stream.advance (stream : Stream) (input : Input) (chunk : Chunk) : Stream :=
  { stream with
    offset := stream.offset + chunk.written
    writtenTotal := stream.writtenTotal + chunk.written
    writeErrSent := stream.writeErrSent || chunk.error.isSome
    pc := if input.isEnd then .ending else .receiving }

def Chunk.answers (chunk : Chunk) : List Answer :=
  match chunk.error with
  | some (code, desc) => [.error code desc]
  | none => []

/-! ### Locks -/

def Lock.conflicts (left right : Lock) : Bool :=
  left.file == right.file && decide (left.first ≤ right.last) && decide (right.first ≤ left.last) &&
    (left.exclusive || right.exclusive)

def Held.blocks (held : Held) (session : Bool) (fd : UInt32) (lock : Lock) : Bool :=
  !(held.session == session && held.fd == fd) && held.lock.conflicts lock

def State.grantable (state : State) (session : Bool) (fd : UInt32) (lock : Lock) : Bool :=
  state.held.all fun held => !held.blocks session fd lock

/-! ### Steps -/

inductive Action
  | receive (cmd : Command)
  | acquire
  | handle (known : Bool)
  | start
  | enqueue
  | reply
  | take (mark : Mark)
  | work (mark : Mark) (results : List (Except Errno Nat))
  | finish (mark : Mark)
  | leave (mark : Mark)
  | grant (mark : Mark) (fd : UInt32) (lock : Lock)
  | refuse (mark : Mark) (fd : UInt32) (lock : Lock) (errno : Errno)
  | complete (mark : Mark) (buffered : Bool) (answers : List Answer) (dropped : List Held)
      (gained : Option (UInt32 × Lock))
  | foreign (dropped : List Held) (gained : Option (UInt32 × Lock))

namespace State

def setSlot (state : State) (mark : Mark) (stream : Option Stream) : State :=
  { state with slot := Function.update state.slot mark stream }

def send (state : State) (mark : Mark) (answers : List Answer) : State :=
  { state with out := state.out ++ answers.map (Message.mk mark) }

def receive (state : State) (cmd : Command) : Option State :=
  match state.reader with
  | .idle =>
      some { state with reader := if cmd.buffered then .acquiring cmd else .handling cmd }
  | _ => none

/-- `acquireFastBuffer` -/
def acquire (state : State) : Option State :=
  match state.reader with
  | .acquiring cmd =>
      if 0 < state.buffers then
        some { state with buffers := state.buffers - 1, reader := .handling cmd }
      else none
  | _ => none

/-- The reader turns a command down and gives its fast buffer back. -/
def reject (state : State) (cmd : Command) (code : UInt8) (desc : String) : State :=
  { state with
    buffers := if cmd.buffered then state.buffers + 1 else state.buffers
    reader := .replying ⟨cmd.mark, .error code desc⟩ }

/-- The cases of `doCommandCall`. `known` is the outcome of the descriptor lookup in
`cmdWriteStreamOpen`. In `cmdWriteStreamData` the lookup of the stream and the send
are one step: a send that finds room commutes with the steps of the task, which
does not read again once it has seen the end. -/
def handle (state : State) (known : Bool) : Option State :=
  match state.reader with
  | .handling (.streamOpen mark fd offset data) =>
      if !known then
        some (state.reject (.streamOpen mark fd offset data) errorInvalidFD "bad fd")
      else
        match state.slot mark with
        | some _ =>
            some (state.reject (.streamOpen mark fd offset data) errorInvalid
              "write stream already open")
        | none =>
            some { state.setSlot mark (some ⟨fd, offset, 0, false, [], .unstarted⟩) with
              reader := .starting (.stream mark) (some ⟨data, false⟩) }
  | .handling (.streamData mark data isEnd) =>
      match state.slot mark with
      | none =>
          some (state.reject (.streamData mark data isEnd) errorInvalid "write stream not open")
      | some stream =>
          if stream.queue.length < writeStreamInputBuffer then
            some { state.setSlot mark (some { stream with queue := stream.queue ++ [⟨data, isEnd⟩] })
              with reader := .idle }
          else some { state with reader := .enqueuing mark ⟨data, isEnd⟩ }
  | .handling (.setFileLockWait mark fd lock) =>
      some { state with reader := .starting (.lockWait mark fd lock) none }
  | .handling (.other mark buffered) =>
      some { state with reader := .starting (.other mark buffered) none }
  | .handling (.malformed mark buffered) =>
      some (state.reject (.malformed mark buffered) errorInvalid "Bad command format")
  | .handling (.unknown mark) =>
      some (state.reject (.unknown mark) errorInvalid "Unknown command")
  | _ => none

def begin (state : State) : Task → State
  | .stream mark =>
      state.setSlot mark ((state.slot mark).map fun stream => { stream with pc := .receiving })
  | _ => state

/-- `cmdGroup.Go` gets its place. -/
def start (state : State) : Option State :=
  match state.reader with
  | .starting task input =>
      if state.tasks.length < poolLimit then
        some { state.begin task with
          tasks := task :: state.tasks
          reader := .afterStart task input }
      else none
  | _ => none

def enqueue (state : State) : Option State :=
  match state.reader with
  | .enqueuing mark input =>
      match state.slot mark with
      | some stream =>
          if stream.queue.length < writeStreamInputBuffer then
            some { state.setSlot mark (some { stream with queue := stream.queue ++ [input] }) with
              reader := .idle }
          else none
      | none => none
  | _ => none

def reply (state : State) : Option State :=
  match state.reader with
  | .replying message => some { state.send message.mark [message.answer] with reader := .idle }
  | _ => none

def take (state : State) (mark : Mark) : Option State :=
  match state.slot mark with
  | some stream =>
      match stream.pc, stream.queue with
      | .receiving, input :: queue =>
          some (state.setSlot mark (some { stream with queue := queue, pc := .working input }))
      | _, _ => none
  | none => none

def work (state : State) (mark : Mark) (results : List (Except Errno Nat)) : Option State :=
  match state.slot mark with
  | some stream =>
      match stream.pc with
      | .working input =>
          (stream.write results input).map fun chunk =>
            { (state.setSlot mark (some (stream.advance input chunk))).send mark chunk.answers with
              buffers := state.buffers + 1
              writes := state.writes ++ chunk.calls.map fun call => (stream.fd, call) }
      | _ => none
  | none => none

/-- `writeRspWriteStreamClose` -/
def finish (state : State) (mark : Mark) : Option State :=
  match state.slot mark with
  | some stream =>
      match stream.pc with
      | .ending =>
          some ((state.setSlot mark (some { stream with pc := .closing })).send mark
            [.closed stream.writtenTotal])
      | _ => none
  | none => none

/-- The deferred deletion from the table, and the end of the task. -/
def leave (state : State) (mark : Mark) : Option State :=
  match state.slot mark with
  | some stream =>
      match stream.pc with
      | .closing =>
          some { state.setSlot mark none with tasks := state.tasks.erase (.stream mark) }
      | _ => none
  | none => none

def grant (state : State) (mark : Mark) (fd : UInt32) (lock : Lock) : Option State :=
  if .lockWait mark fd lock ∈ state.tasks ∧ state.grantable true fd lock then
    some { state.send mark [.reply errorOK] with
      held := ⟨true, fd, lock⟩ :: state.held
      tasks := state.tasks.erase (.lockWait mark fd lock) }
  else none

def refuse (state : State) (mark : Mark) (fd : UInt32) (lock : Lock) (errno : Errno) :
    Option State :=
  if .lockWait mark fd lock ∈ state.tasks then
    some { state.send mark [.error (wsfsErrCode errno) "syscall error"] with
      tasks := state.tasks.erase (.lockWait mark fd lock) }
  else none

def relock (state : State) (session : Bool) (dropped : List Held)
    (gained : Option (UInt32 × Lock)) : Option (List Held) :=
  let kept := state.held.filter fun held => held.session != session || !dropped.contains held
  match gained with
  | none => some kept
  | some (fd, lock) =>
      if state.grantable session fd lock then some (⟨session, fd, lock⟩ :: kept) else none

/-- Any other command answers and ends. It may unlock, close or lock on the way. -/
def complete (state : State) (mark : Mark) (buffered : Bool) (answers : List Answer)
    (dropped : List Held) (gained : Option (UInt32 × Lock)) : Option State :=
  if .other mark buffered ∈ state.tasks then
    (state.relock true dropped gained).map fun held =>
      { state.send mark answers with
        held := held
        buffers := if buffered then state.buffers + 1 else state.buffers
        tasks := state.tasks.erase (.other mark buffered) }
  else none

def foreign (state : State) (dropped : List Held) (gained : Option (UInt32 × Lock)) :
    Option State :=
  (state.relock false dropped gained).map fun held => { state with held := held }

end State

def step (state : State) : Action → Option State
  | .receive cmd => state.receive cmd
  | .acquire => state.acquire
  | .handle known => state.handle known
  | .start => state.start
  | .enqueue => state.enqueue
  | .reply => state.reply
  | .take mark => state.take mark
  | .work mark results => state.work mark results
  | .finish mark => state.finish mark
  | .leave mark => state.leave mark
  | .grant mark fd lock => state.grant mark fd lock
  | .refuse mark fd lock errno => state.refuse mark fd lock errno
  | .complete mark buffered answers dropped gained =>
      state.complete mark buffered answers dropped gained
  | .foreign dropped gained => state.foreign dropped gained

/-! ### What a step has done -/

/-- The steps, each with what it finds and what it leaves. -/
inductive Steps (state : State) : Action → State → Prop
  | received {cmd : Command} (idle : state.reader = .idle) : Steps state (.receive cmd)
      { state with reader := if cmd.buffered then .acquiring cmd else .handling cmd }
  | acquired {cmd : Command} (acquiring : state.reader = .acquiring cmd) (available : 0 < state.buffers) :
      Steps state .acquire { state with buffers := state.buffers - 1, reader := .handling cmd }
  | opened {known : Bool} {mark : Mark} {fd : UInt32} {offset : UInt64} {data : Bytes}
      (handling : state.reader = .handling (.streamOpen mark fd offset data)) (found : known = true)
      (free : state.slot mark = none) : Steps state (.handle known)
      { state.setSlot mark (some ⟨fd, offset, 0, false, [], .unstarted⟩) with
        reader := .starting (.stream mark) (some ⟨data, false⟩) }
  | rejected {known : Bool} {cmd : Command} {code : UInt8} {desc : String}
      (handling : state.reader = .handling cmd) (reason : code = errorInvalidFD ∨ code = errorInvalid)
      (taken : ∀ mark fd offset data, cmd = .streamOpen mark fd offset data →
        ¬(known = true ∧ state.slot mark = none))
      (missing : ∀ mark data isEnd, cmd = .streamData mark data isEnd → state.slot mark = none) :
      Steps state (.handle known) (state.reject cmd code desc)
  | pushed {known : Bool} {mark : Mark} {data : Bytes} {isEnd : Bool} {stream : Stream}
      (handling : state.reader = .handling (.streamData mark data isEnd))
      (occupied : state.slot mark = some stream) : Steps state (.handle known)
      { state.setSlot mark (some { stream with queue := stream.queue ++ [⟨data, isEnd⟩] }) with
        reader := .idle }
  | blocked {known : Bool} {mark : Mark} {data : Bytes} {isEnd : Bool} {stream : Stream}
      (handling : state.reader = .handling (.streamData mark data isEnd))
      (occupied : state.slot mark = some stream) :
      Steps state (.handle known) { state with reader := .enqueuing mark ⟨data, isEnd⟩ }
  | locking {known : Bool} {mark : Mark} {fd : UInt32} {lock : Lock}
      (handling : state.reader = .handling (.setFileLockWait mark fd lock)) :
      Steps state (.handle known) { state with reader := .starting (.lockWait mark fd lock) none }
  | spawned {known : Bool} {mark : Mark} {buffered : Bool}
      (handling : state.reader = .handling (.other mark buffered)) :
      Steps state (.handle known) { state with reader := .starting (.other mark buffered) none }
  | started {task : Task} {input : Option Input} (starting : state.reader = .starting task input)
      (room : state.tasks.length < poolLimit) : Steps state .start
      { state.begin task with tasks := task :: state.tasks, reader := .afterStart task input }
  | enqueued {mark : Mark} {input : Input} {stream : Stream}
      (enqueuing : state.reader = .enqueuing mark input) (occupied : state.slot mark = some stream) :
      Steps state .enqueue
      { state.setSlot mark (some { stream with queue := stream.queue ++ [input] }) with reader := .idle }
  | replied {message : Message} (replying : state.reader = .replying message) :
      Steps state .reply { state.send message.mark [message.answer] with reader := .idle }
  | took {mark : Mark} {stream : Stream} {input : Input} {queue : List Input}
      (occupied : state.slot mark = some stream) (receiving : stream.pc = .receiving)
      (queued : stream.queue = input :: queue) : Steps state (.take mark)
      (state.setSlot mark (some { stream with queue := queue, pc := .working input }))
  | worked {mark : Mark} {stream : Stream} {input : Input} {results : List (Except Errno Nat)}
      {chunk : Chunk} (occupied : state.slot mark = some stream) (working : stream.pc = .working input)
      (written : stream.write results input = some chunk) : Steps state (.work mark results)
      { (state.setSlot mark (some (stream.advance input chunk))).send mark chunk.answers with
        buffers := state.buffers + 1
        writes := state.writes ++ chunk.calls.map fun call => (stream.fd, call) }
  | finished {mark : Mark} {stream : Stream} (occupied : state.slot mark = some stream)
      (ending : stream.pc = .ending) : Steps state (.finish mark)
      ((state.setSlot mark (some { stream with pc := .closing })).send mark [.closed stream.writtenTotal])
  | left {mark : Mark} {stream : Stream} (occupied : state.slot mark = some stream)
      (closing : stream.pc = .closing) : Steps state (.leave mark)
      { state.setSlot mark none with tasks := state.tasks.erase (.stream mark) }
  | granted {mark : Mark} {fd : UInt32} {lock : Lock} (member : .lockWait mark fd lock ∈ state.tasks)
      (grantable : state.grantable true fd lock = true) : Steps state (.grant mark fd lock)
      { state.send mark [.reply errorOK] with
        held := ⟨true, fd, lock⟩ :: state.held
        tasks := state.tasks.erase (.lockWait mark fd lock) }
  | refused {mark : Mark} {fd : UInt32} {lock : Lock} {errno : Errno}
      (member : .lockWait mark fd lock ∈ state.tasks) : Steps state (.refuse mark fd lock errno)
      { state.send mark [.error (wsfsErrCode errno) "syscall error"] with
        tasks := state.tasks.erase (.lockWait mark fd lock) }
  | completed {mark : Mark} {buffered : Bool} {answers : List Answer} {dropped : List Held}
      {gained : Option (UInt32 × Lock)} {held : List Held} (member : .other mark buffered ∈ state.tasks) :
      Steps state (.complete mark buffered answers dropped gained)
      { state.send mark answers with
        held := held
        buffers := if buffered then state.buffers + 1 else state.buffers
        tasks := state.tasks.erase (.other mark buffered) }
  | foreign {dropped : List Held} {gained : Option (UInt32 × Lock)} {held : List Held}
      (relocked : state.relock false dropped gained = some held) :
      Steps state (.foreign dropped gained) { state with held := held }

section Inversion

variable {state next : State} {action : Action}

theorem handle_steps {known : Bool} (stepped : state.handle known = some next) :
    Steps state (.handle known) next := by
  revert stepped
  fun_cases State.handle state known <;> rintro ⟨⟩
  · exact .rejected ‹_› (.inl rfl) (by grind) (by simp)
  · exact .rejected ‹_› (.inr rfl) (by grind) (by simp)
  · exact .opened ‹_› (by grind) ‹_›
  · exact .rejected ‹_› (.inr rfl) (by simp) (by simp_all)
  · exact .pushed ‹_› ‹_›
  · exact .blocked ‹_› ‹_›
  · exact .locking ‹_›
  · exact .spawned ‹_›
  · exact .rejected ‹_› (.inr rfl) (by simp) (by simp)
  · exact .rejected ‹_› (.inr rfl) (by simp) (by simp)

theorem steps (stepped : step state action = some next) : Steps state action next := by
  revert stepped
  cases action <;> simp only [step]
  case receive cmd =>
    fun_cases State.receive state cmd <;> rintro ⟨⟩
    exact .received ‹_›
  case acquire =>
    fun_cases State.acquire state <;> rintro ⟨⟩
    exact .acquired ‹_› ‹_›
  case handle known => exact handle_steps
  case start =>
    fun_cases State.start state <;> rintro ⟨⟩
    exact .started ‹_› ‹_›
  case enqueue =>
    fun_cases State.enqueue state <;> rintro ⟨⟩
    exact .enqueued ‹_› ‹_›
  case reply =>
    fun_cases State.reply state <;> rintro ⟨⟩
    exact .replied ‹_›
  case take mark =>
    fun_cases State.take state mark <;> rintro ⟨⟩
    exact .took ‹_› ‹_› ‹_›
  case work mark results =>
    fun_cases State.work state mark results
    · intro stepped
      obtain ⟨chunk, written, rfl⟩ := Option.map_eq_some_iff.mp stepped
      exact .worked ‹_› ‹_› written
    all_goals nofun
  case finish mark =>
    fun_cases State.finish state mark <;> rintro ⟨⟩
    exact .finished ‹_› ‹_›
  case leave mark =>
    fun_cases State.leave state mark <;> rintro ⟨⟩
    exact .left ‹_› ‹_›
  case grant mark fd lock =>
    fun_cases State.grant state mark fd lock <;> rintro ⟨⟩
    rename_i ready
    exact .granted ready.1 ready.2
  case refuse mark fd lock errno =>
    fun_cases State.refuse state mark fd lock errno <;> rintro ⟨⟩
    exact .refused ‹_›
  case complete mark buffered answers dropped gained =>
    fun_cases State.complete state mark buffered answers dropped gained
    · intro stepped
      obtain ⟨held, _, rfl⟩ := Option.map_eq_some_iff.mp stepped
      exact .completed ‹_›
    · nofun
  case foreign dropped gained =>
    intro stepped
    obtain ⟨held, relocked, rfl⟩ := Option.map_eq_some_iff.mp stepped
    exact .foreign relocked

theorem step_tasks (stepped : step state action = some next) :
    next.tasks.Sublist state.tasks ∨
      ∃ task input, state.reader = .starting task input ∧ next.tasks = task :: state.tasks := by
  cases steps stepped with
  | started starting => exact .inr ⟨_, _, starting, rfl⟩
  | left | granted | refused | completed => exact .inl List.erase_sublist
  | _ => exact .inl (.refl _)

theorem reader_kept (stepped : step state action = some next)
    (still : (state.reader = .idle ∧ ∀ cmd, action ≠ .receive cmd) ∨
      (∃ cmd, state.reader = .handling cmd) ∧ ∀ known, action ≠ .handle known) :
    next.reader = state.reader := by
  cases steps stepped with
  | took | worked | finished | left | granted | refused | completed | foreign => rfl
  | _ => grind

end Inversion

end Wsfs.Server
