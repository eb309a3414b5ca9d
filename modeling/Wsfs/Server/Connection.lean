/-
One server session over all its connections: the requests that attach a connection, the
reader of each connection, the commands and write streams that it starts, their writes,
and `stopConn`. Every goroutine moves in atomic steps, chosen in any order; a write or a
read may fail at any time.

The fast buffers and the contents of contexts only delay or end what is shown here and
are left out; `Session` has the buffers.
-/

import Wsfs.Base.Run
import Wsfs.Server.Marks
import Wsfs.Server.Session

namespace Wsfs.Server.Connection

open Wsfs.Base Wsfs.Protocol Function
open Wsfs.Server.Commands (Response readWithBuffer doCommandCall_onMark)
open Wsfs.ReadDir.Server (errorMessage)

/-- A message that was received, behind its header. -/
structure Command where
  clientMark : UInt8
  cmd : UInt8
  payload : Bytes
deriving DecidableEq, Repr

/-- Where a goroutine stands between `requireWrite` and the end of `writeDone`. The lock
is held from `checking` on. -/
inductive Writing
  | idle
  | locking (response : Response)
  | checking (response : Response)
  | sending (response : Response)
  | closing (failed : Bool)
  | failing
  | cancelling
  | unlocking
deriving DecidableEq, Repr

namespace Writing

def locked : Writing → Bool
  | .idle | .locking _ => false
  | _ => true

def response? : Writing → Option Response
  | .locking response | .checking response | .sending response => some response
  | _ => none

end Writing

/-- The task of a write stream, in the words of `writeStream.run`. -/
structure StreamTask where
  pc : StreamPc
  writtenTotal : UInt64
  writeErrSent : Bool
deriving DecidableEq, Repr

/-- What runs for a command: the reader itself, a task, or the task of a stream. -/
inductive Kind
  | dispatching
  | command
  | stream (task : StreamTask)
deriving DecidableEq, Repr

/-- `origin` is the connection that the command was received on. No code sees it. -/
structure Worker where
  origin : Nat
  command : Command
  kind : Kind
  writing : Writing
deriving DecidableEq, Repr

/-- A request and then the reader of its connection. The first two are `ServeHTTP` behind
`TryLock` and `takeConn`; from `failed` on it is the deferred function of `readLoop`.
`sweeping` is a round of `CollectInactiveSessions` that has the lock. -/
inductive Pc
  | upgrading
  | installed
  | reading
  | dispatching (worker : Nat)
  | rejecting (worker : Nat)
  | starting (worker : Nat) (first : Option Input)
  | enqueuing (stream : Nat) (input : Input)
  | failed
  | cancelled
  | clearing
  | waiting
  | waited
  | leaving
  | released
  | sweeping
deriving DecidableEq, Repr

namespace Pc

/-- The goroutine has `session.Lock`. -/
def holds : Pc → Bool
  | .released => false
  | _ => true

def serves : Pc → Bool
  | .upgrading | .installed | .waited | .leaving | .released | .sweeping => false
  | _ => true

/-- `s.conn` may be the connection. -/
def connected : Pc → Bool
  | .upgrading | .clearing | .waiting | .waited | .leaving | .released | .sweeping => false
  | _ => true

/-- The connection was given to the session and `stopConn` is not through. -/
def attached : Pc → Bool
  | .upgrading | .released | .sweeping => false
  | _ => true

def worker? : Pc → Option Nat
  | .dispatching worker | .rejecting worker | .starting worker _ => some worker
  | _ => none

end Pc

/-- The channel of a stream. -/
structure Channel where
  queue : List Input
  closed : Bool
deriving DecidableEq, Repr

/-- A message on a connection, and the command for which it was written. -/
structure Sent where
  conn : Nat
  origin : Nat
  command : Command
  response : Response
deriving DecidableEq, Repr

/-- A lock is held by the goroutine with that number. -/
structure Core where
  lock : Option Nat
  parties : Nat → Option Pc
  conn : Option Nat
  writer : Option Nat
  writeLock : Option Nat
  workers : Nat → Option Worker
  group : List Nat
  received : List (Nat × Command)
  out : List Sent

/-- `requests` and `spawned` number the goroutines. -/
structure State extends Core where
  requests : Nat
  spawned : Nat
  connErrLock : Bool
  writeStreams : List (UInt8 × Nat)
  channels : Nat → Channel

def initial : State where
  lock := none
  parties := fun _ => none
  conn := none
  writer := none
  writeLock := none
  workers := fun _ => none
  group := []
  received := []
  out := []
  requests := 0
  spawned := 0
  connErrLock := false
  writeStreams := []
  channels := fun _ => ⟨[], false⟩

inductive Action
  | serve
  | upgrade (party : Nat) (succeeded : Bool)
  | goRead (party : Nat)
  | sweep
  | sweepDone (party : Nat)
  | receive (party : Nat) (command : Command)
  | reject (party : Nat) (response : Response)
  | refuseStream (party : Nat) (known : Bool)
  | handled (party : Nat)
  | spawn (party : Nat)
  | openStream (party : Nat)
  | start (party : Nat)
  | feedStream (party : Nat)
  | enqueue (party : Nat)
  | fail (party : Nat)
  | cancel (party : Nat)
  | detach (party : Nat)
  | clear (party : Nat) (mark : UInt8)
  | cleared (party : Nat)
  | wait (party : Nat)
  | unlockErr (party : Nat)
  | release (party : Nat)
  | quit (party : Nat)
  | write (worker : Nat) (response : Response)
  | finish (worker : Nat)
  | take (worker : Nat)
  | work (worker : Nat) (written : UInt64) (error : Option (UInt8 × String))
  | close (worker : Nat)
  | leave (worker : Nat)
  | acquire (worker : Nat)
  | check (worker : Nat) (succeeded : Bool)
  | send (worker : Nat) (succeeded : Bool)
  | shut (worker : Nat) (succeeded : Bool)
  | failWrite (worker : Nat)
  | cancelWrite (worker : Nat)
  | unlock (worker : Nat)

/-! ### Commands of write streams -/

def isStreamCommand (cmd : UInt8) : Bool := cmd == cmdWriteStreamOpen || cmd == cmdWriteStreamData

/-- `writeRspError` -/
def refusal (clientMark code : UInt8) (desc : String) : Response :=
  ⟨clientMark, (errorMessage code desc).code, (errorMessage code desc).payload⟩

def openInput (command : Command) : Option Input :=
  (readWithBuffer (Codec.u32.pair Codec.u64) command.payload).map fun (_, data) => ⟨data, false⟩

def dataInput (command : Command) : Option Input :=
  (readWithBuffer Codec.u8 command.payload).map fun (isEnd, data) => ⟨data, isEnd != 0⟩

/-- The error that the reader answers to a command of a stream. `known` is the lookup of
the descriptor. -/
def streamRefusal (writeStreams : List (UInt8 × Nat)) (command : Command) (known : Bool) :
    Option Response :=
  if command.cmd = cmdWriteStreamOpen then
    match openInput command with
    | none => some (refusal command.clientMark errorInvalid "Bad command format")
    | some _ =>
        if !known then some (refusal command.clientMark errorInvalidFD "bad fd")
        else if (writeStreams.lookup command.clientMark).isSome then
          some (refusal command.clientMark errorInvalid "write stream already open")
        else none
  else if command.cmd = cmdWriteStreamData then
    match dataInput command with
    | none => some (refusal command.clientMark errorInvalid "Bad command format")
    | some _ =>
        if (writeStreams.lookup command.clientMark).isNone then
          some (refusal command.clientMark errorInvalid "write stream not open")
        else none
  else none

/-! ### Steps -/

namespace State

def setParty (state : State) (party : Nat) (pc : Option Pc) : State :=
  { state with parties := update state.parties party pc }

def setWorker (state : State) (worker : Nat) (value : Option Worker) : State :=
  { state with workers := update state.workers worker value }

def setChannel (state : State) (stream : Nat) (channel : Channel) : State :=
  { state with channels := update state.channels stream channel }

def answer (state : State) (party worker : Nat) (value : Worker) (response : Response) : State :=
  (state.setParty party (some (.rejecting worker))).setWorker worker
    (some { value with writing := .locking response })

/-- `ServeHTTP`, `takeConn` and `CollectInactiveSessions`. -/
def attach (state : State) : Action → Option State
  | .serve =>
      if state.lock = none then
        some { state.setParty state.requests (some .upgrading) with
          lock := some state.requests
          requests := state.requests + 1 }
      else none
  | .upgrade party succeeded =>
      match state.parties party with
      | some .upgrading =>
          if succeeded then
            some { state.setParty party (some .installed) with conn := some party }
          else some { state.setParty party none with lock := none }
      | _ => none
  | .goRead party =>
      match state.parties party with
      | some .installed => some (state.setParty party (some .reading))
      | _ => none
  | .sweep =>
      if state.lock = none then
        some { state.setParty state.requests (some .sweeping) with
          lock := some state.requests
          requests := state.requests + 1 }
      else none
  | .sweepDone party =>
      match state.parties party with
      | some .sweeping => some { state.setParty party none with lock := none }
      | _ => none
  | _ => none

/-- `readLoop` and what it does itself for a command. -/
def read (state : State) : Action → Option State
  | .receive party command =>
      match state.parties party with
      | some .reading =>
          some { (state.setParty party (some (.dispatching state.spawned))).setWorker state.spawned
              (some ⟨party, command, .dispatching, .idle⟩) with
            spawned := state.spawned + 1
            received := (party, command) :: state.received }
      | _ => none
  | .reject party response =>
      match state.parties party with
      | some (.dispatching worker) =>
          (state.workers worker).bind fun value =>
            if value.kind = .dispatching ∧ !isStreamCommand value.command.cmd then
              some (state.answer party worker value response)
            else none
      | _ => none
  | .refuseStream party known =>
      match state.parties party with
      | some (.dispatching worker) =>
          (state.workers worker).bind fun value =>
            if value.kind = .dispatching then
              (streamRefusal state.writeStreams value.command known).map
                (state.answer party worker value)
            else none
      | _ => none
  | .handled party =>
      match state.parties party with
      | some (.rejecting worker) =>
          (state.workers worker).bind fun value =>
            if value.kind = .dispatching ∧ value.writing = .idle then
              some ((state.setParty party (some .reading)).setWorker worker none)
            else none
      | _ => none
  | .spawn party =>
      match state.parties party with
      | some (.dispatching worker) =>
          (state.workers worker).bind fun value =>
            if !isStreamCommand value.command.cmd then
              some (state.setParty party (some (.starting worker none)))
            else none
      | _ => none
  | .openStream party =>
      match state.parties party with
      | some (.dispatching worker) =>
          (state.workers worker).bind fun value =>
            if value.command.cmd = cmdWriteStreamOpen ∧
                state.writeStreams.lookup value.command.clientMark = none then
              (openInput value.command).map fun input =>
                { (state.setParty party (some (.starting worker (some input)))).setChannel worker
                    ⟨[], false⟩ with
                  writeStreams := (value.command.clientMark, worker) :: state.writeStreams }
            else none
      | _ => none
  | .start party =>
      match state.parties party with
      | some (.starting worker first) =>
          (state.workers worker).bind fun value =>
            if state.group.length < poolLimit then
              some { (state.setParty party (some
                  (match first with
                  | some input => .enqueuing worker input
                  | none => .reading))).setWorker worker
                (some { value with
                  kind := if first.isSome then .stream ⟨.receiving, 0, false⟩ else .command }) with
                group := worker :: state.group }
            else none
      | _ => none
  | .feedStream party =>
      match state.parties party with
      | some (.dispatching worker) =>
          (state.workers worker).bind fun value =>
            if value.kind = .dispatching ∧ value.command.cmd = cmdWriteStreamData then
              (dataInput value.command).bind fun input =>
                (state.writeStreams.lookup value.command.clientMark).map fun stream =>
                  (state.setParty party (some (.enqueuing stream input))).setWorker worker none
            else none
      | _ => none
  | .enqueue party =>
      match state.parties party with
      | some (.enqueuing stream input) =>
          if (state.channels stream).queue.length < writeStreamInputBuffer ∧
              (state.channels stream).closed = false then
            some ((state.setParty party (some .reading)).setChannel stream
              { state.channels stream with queue := (state.channels stream).queue ++ [input] })
          else none
      | _ => none
  | .fail party =>
      match state.parties party with
      | some .reading => some { state.setParty party (some .failed) with connErrLock := true }
      | _ => none
  | _ => none

/-- `stopConn`, and the second `Wait` behind it. -/
def stopConn (state : State) : Action → Option State
  | .cancel party =>
      match state.parties party with
      | some .failed => some (state.setParty party (some .cancelled))
      | _ => none
  | .detach party =>
      match state.parties party with
      | some .cancelled =>
          if state.writeLock = none then
            some { state.setParty party (some .clearing) with conn := none }
          else none
      | _ => none
  | .clear party mark =>
      match state.parties party with
      | some .clearing =>
          (state.writeStreams.lookup mark).map fun stream =>
            { state.setChannel stream { state.channels stream with closed := true } with
              writeStreams := state.writeStreams.filter fun entry => entry.1 != mark }
      | _ => none
  | .cleared party =>
      match state.parties party with
      | some .clearing =>
          if state.writeStreams = [] then some (state.setParty party (some .waiting)) else none
      | _ => none
  | .wait party =>
      match state.parties party with
      | some .waiting =>
          if state.group = [] then some (state.setParty party (some .waited)) else none
      | _ => none
  | .unlockErr party =>
      match state.parties party with
      | some .waited =>
          if state.connErrLock then
            some { state.setParty party (some .leaving) with connErrLock := false }
          else none
      | _ => none
  | .release party =>
      match state.parties party with
      | some .leaving => some { state.setParty party (some .released) with lock := none }
      | _ => none
  | .quit party =>
      match state.parties party with
      | some .released => if state.group = [] then some (state.setParty party none) else none
      | _ => none
  | _ => none

/-- A stream after a round of its loop; `written` and `error` are the outcome of
`writeStreamWriteChunk`. -/
def streamRound (task : StreamTask) (input : Input) (written : UInt64)
    (error : Option (UInt8 × String)) : StreamTask :=
  { pc := if input.isEnd then .ending else .receiving
    writtenTotal := task.writtenTotal + written
    writeErrSent := task.writeErrSent || error.isSome }

/-- The tasks, apart from how they write. A command may begin a write or end at any time:
what it sends is what its handler calls for. -/
def work (state : State) : Action → Option State
  | .write worker response =>
      (state.workers worker).bind fun value =>
        if value.kind = .command ∧ value.writing = .idle then
          some (state.setWorker worker (some { value with writing := .locking response }))
        else none
  | .finish worker =>
      (state.workers worker).bind fun value =>
        if value.kind = .command ∧ value.writing = .idle then
          some { state.setWorker worker none with group := state.group.erase worker }
        else none
  | .take worker =>
      (state.workers worker).bind fun value =>
        match value.kind, value.writing, (state.channels worker).queue with
        | .stream ⟨.receiving, total, sent⟩, .idle, input :: queue =>
            some ((state.setWorker worker
                (some { value with kind := .stream ⟨.working input, total, sent⟩ })).setChannel worker
              { state.channels worker with queue := queue })
        | _, _, _ => none
  | .work worker written error =>
      (state.workers worker).bind fun value =>
        match value.kind, value.writing with
        | .stream ⟨.working input, total, sent⟩, .idle =>
            if (input.data = [] ∨ sent = true) ∧ ¬(written = 0 ∧ error = none) then none
            else
              some (state.setWorker worker (some { value with
                kind := .stream (streamRound ⟨.working input, total, sent⟩ input written error)
                writing :=
                  match error with
                  | some (code, desc) => .locking (refusal value.command.clientMark code desc)
                  | none => .idle }))
        | _, _ => none
  | .close worker =>
      (state.workers worker).bind fun value =>
        match value.kind, value.writing with
        | .stream ⟨.ending, total, sent⟩, .idle =>
            some (state.setWorker worker (some { value with
              kind := .stream ⟨.closing, total, sent⟩
              writing := .locking ⟨value.command.clientMark, errorOK,
                (Codec.u64.write total).getD []⟩ }))
        | _, _ => none
  | .leave worker =>
      (state.workers worker).bind fun value =>
        match value.kind, value.writing with
        | .stream ⟨pc, _, _⟩, .idle =>
            if pc = .closing ∨
                (pc = .receiving ∧ state.channels worker = ⟨[], true⟩) then
              some { state.setWorker worker none with
                group := state.group.erase worker
                writeStreams := state.writeStreams.filter fun entry =>
                  entry.1 != value.command.clientMark }
            else none
        | _, _ => none
  | _ => none

/-- `requireWrite`, the write and `writeDone`. -/
def transmit (state : State) : Action → Option State
  | .acquire worker =>
      (state.workers worker).bind fun value =>
        match value.writing with
        | .locking response =>
            if state.writeLock = none then
              some { state.setWorker worker (some { value with writing := .checking response }) with
                writeLock := some worker }
            else none
        | _ => none
  | .check worker succeeded =>
      (state.workers worker).bind fun value =>
        match value.writing, state.conn with
        | .checking _, none =>
            some { state.setWorker worker (some { value with writing := .idle }) with
              writeLock := none }
        | .checking response, some conn =>
            if succeeded then
              some { state.setWorker worker (some { value with writing := .sending response }) with
                writer := some conn }
            else
              some { state.setWorker worker (some { value with writing := .failing }) with
                writer := none }
        | _, _ => none
  | .send worker succeeded =>
      (state.workers worker).bind fun value =>
        match value.writing, state.writer with
        | .sending response, some conn =>
            some { state.setWorker worker (some { value with writing := .closing (!succeeded) }) with
              out := ⟨conn, value.origin, value.command, response⟩ :: state.out }
        | _, _ => none
  | .shut worker succeeded =>
      (state.workers worker).bind fun value =>
        match value.writing with
        | .closing failed =>
            some { state.setWorker worker (some { value with
                writing := if failed || !succeeded then .failing else .unlocking }) with
              writer := none }
        | _ => none
  | .failWrite worker =>
      (state.workers worker).bind fun value =>
        match value.writing with
        | .failing =>
            some { state.setWorker worker (some { value with writing := .cancelling }) with
              conn := none
              connErrLock := true }
        | _ => none
  | .cancelWrite worker =>
      (state.workers worker).bind fun value =>
        match value.writing with
        | .cancelling =>
            some (state.setWorker worker (some { value with writing := .unlocking }))
        | _ => none
  | .unlock worker =>
      (state.workers worker).bind fun value =>
        match value.writing with
        | .unlocking =>
            some { state.setWorker worker (some { value with writing := .idle }) with
              writeLock := none }
        | _ => none
  | _ => none

end State

def step (state : State) (action : Action) : Option State :=
  state.attach action <|> state.read action <|> state.stopConn action <|> state.work action <|>
    state.transmit action

/-! ### Connections apart from each other -/

/-- The reader and the tasks run the handlers: what they send for a command is what
`doCommandCall` sends for it. -/
def Follows (session : Commands.Session) (state : State) : Action → Prop
  | .reject party response =>
      ∀ worker value, state.parties party = some (.dispatching worker) →
        state.workers worker = some value →
          (session.doCommandCall value.command.clientMark value.command.cmd
            value.command.payload).MayCall (.send response.mark response.code response.payload)
  | .write worker response =>
      ∀ value, state.workers worker = some value →
        (session.doCommandCall value.command.clientMark value.command.cmd
          value.command.payload).MayCall (.send response.mark response.code response.payload)
  | _ => True

/-- The message was written for a command of its connection, on the mark of that command. -/
structure Answers (core : Core) (sent : Sent) : Prop where
  received : (sent.conn, sent.command) ∈ core.received
  marked : sent.response.mark = sent.command.clientMark
  own : sent.origin = sent.conn

structure Separate (core : Core) : Prop where
  answers : ∀ sent ∈ core.out, Answers core sent
  single : ∀ party pc party' pc', core.parties party = some pc → pc.attached = true →
    core.parties party' = some pc' → pc'.attached = true → party = party'

/-! ### The invariant -/

/-- The goroutine of the party stands where `fits` asks it to. -/
def Stands (parties : Nat → Option Pc) (party : Nat) (fits : Pc → Prop) : Prop :=
  ∃ pc, parties party = some pc ∧ fits pc

/-- What holds of a worker while its connection serves. -/
structure Valid (core : Core) (worker : Nat) (value : Worker) : Prop where
  served : Stands core.parties value.origin fun pc =>
    pc.serves = true ∧ (value.kind = .dispatching → pc.worker? = some worker)
  grouped : value.kind ≠ .dispatching → worker ∈ core.group
  locked : value.writing.locked = true → core.writeLock = some worker
  opened : ∀ response, value.writing = .sending response → core.writer = some value.origin
  marked : ∀ response, value.writing.response? = some response →
    response.mark = value.command.clientMark
  logged : (value.origin, value.command) ∈ core.received

structure Sound (core : Core) : Prop where
  exclusive : ∀ party pc, core.parties party = some pc → pc.holds = true → core.lock = some party
  workers : ∀ worker value, core.workers worker = some value → Valid core worker value
  connected : ∀ party, core.conn = some party → Stands core.parties party fun pc => pc.connected = true
  answers : ∀ sent ∈ core.out, Answers core sent

theorem initial_sound : Sound initial.toCore where
  exclusive := nofun
  workers := nofun
  connected := nofun
  answers := nofun

theorem Pc.holds_of_active {pc : Pc}
    (active : pc.serves = true ∨ pc.connected = true ∨ pc.attached = true) : pc.holds = true := by
  cases pc with
  | released => simp [Pc.serves, Pc.connected, Pc.attached] at active
  | _ => rfl

section Changes

variable {core next : Core} {party worker : Nat} {value : Worker} {pc pc' : Pc}

theorem Stands.update {parties : Nat → Option Pc} {other : Nat} {fits : Pc → Prop} {after : Option Pc}
    (stands : Stands parties other fits) (before : parties party = some pc)
    (passes : other = party → fits pc → ∃ pc', after = some pc' ∧ fits pc') :
    Stands (update parties party after) other fits := by
  obtain ⟨found, isParty, fit⟩ := stands
  by_cases same : other = party
  · subst same
    cases before.symm.trans isParty
    obtain ⟨pc', rfl, still⟩ := passes rfl fit
    exact ⟨pc', update_self .., still⟩
  · exact ⟨found, (update_of_ne same ..).trans isParty, fit⟩

theorem Sound.answers_of (sound : Sound core) (out : next.out = core.out)
    (received : next.received = core.received) : ∀ sent ∈ next.out, Answers next sent := by
  intro sent member
  have right := sound.answers sent (out ▸ member)
  exact ⟨received ▸ right.received, right.marked, right.own⟩

theorem Valid.congr (valid : Valid core worker value) (parties : next.parties = core.parties)
    (group : next.group = core.group) (writeLock : next.writeLock = core.writeLock)
    (writer : next.writer = core.writer) (received : next.received = core.received) :
    Valid next worker value where
  served := parties ▸ valid.served
  grouped := group ▸ valid.grouped
  locked := writeLock ▸ valid.locked
  opened := writer ▸ valid.opened
  marked := valid.marked
  logged := received ▸ valid.logged

theorem Valid.of_unlocked (valid : Valid core worker value) (unlocked : value.writing.locked = false)
    (parties : next.parties = core.parties) (group : next.group = core.group)
    (received : next.received = core.received) :
    Valid next worker value where
  served := parties ▸ valid.served
  grouped := group ▸ valid.grouped
  locked := by
    intro locked
    rw [unlocked] at locked
    cases locked
  opened := by
    intro response sending
    rw [sending] at unlocked
    cases unlocked
  marked := valid.marked
  logged := received ▸ valid.logged

variable (sound : Sound core)
include sound

theorem Sound.serving (isWorker : core.workers worker = some value) :
    ∃ pc, core.parties value.origin = some pc ∧ pc.serves = true ∧ core.lock = some value.origin := by
  obtain ⟨pc, isOrigin, serves, _⟩ := (sound.workers worker value isWorker).served
  exact ⟨pc, isOrigin, serves, sound.exclusive _ pc isOrigin (Pc.holds_of_active (.inl serves))⟩

theorem Sound.connection (isConn : core.conn = some party) :
    ∃ pc, core.parties party = some pc ∧ pc.connected = true ∧ core.lock = some party := by
  obtain ⟨pc, isParty, connected⟩ := sound.connected party isConn
  exact ⟨pc, isParty, connected,
    sound.exclusive _ pc isParty (Pc.holds_of_active (.inr (.inl connected)))⟩

theorem Sound.separate : Separate core where
  answers := sound.answers
  single := by
    intro party pc party' pc' isParty attached isParty' attached'
    have first := sound.exclusive party pc isParty (Pc.holds_of_active (.inr (.inr attached)))
    have second := sound.exclusive party' pc' isParty' (Pc.holds_of_active (.inr (.inr attached')))
    exact Option.some.inj (first.symm.trans second)

theorem Sound.conn_of_worker (isWorker : core.workers worker = some value)
    (isConn : core.conn = some party) : party = value.origin := by
  obtain ⟨_, _, _, first⟩ := sound.connection isConn
  obtain ⟨_, _, _, second⟩ := sound.serving isWorker
  exact Option.some.inj (first.symm.trans second)

theorem Sound.setParty (before : core.parties party = some pc)
    (holds : pc'.holds = true → pc.holds = true)
    (passes : ∀ worker value, core.workers worker = some value → value.origin = party →
      pc.serves = true → (value.kind = .dispatching → pc.worker? = some worker) →
        pc'.serves = true ∧ (value.kind = .dispatching → pc'.worker? = some worker))
    (connected : core.conn = some party → pc.connected = true → pc'.connected = true) :
    Sound { core with parties := update core.parties party (some pc') } where
  exclusive := by
    intro other value isParty holding
    cases update_eq_some isParty with
    | inl changed =>
      obtain ⟨⟨⟩, rfl⟩ := changed
      exact sound.exclusive other pc before (holds holding)
    | inr unchanged => exact sound.exclusive other value unchanged.1 holding
  workers other value isWorker :=
    have valid := sound.workers other value isWorker
    { valid with
      served := valid.served.update before fun same ⟨serves, dispatches⟩ =>
        ⟨pc', rfl, passes other value isWorker same serves dispatches⟩ }
  connected other isConn := (sound.connected other isConn).update before fun same isConnected =>
    ⟨pc', rfl, connected (same ▸ isConn) isConnected⟩
  answers := sound.answers_of rfl rfl

theorem Sound.move (before : core.parties party = some pc) (holds : pc'.holds = true → pc.holds = true)
    (serves : pc.serves = true → pc'.serves = true) (connected : pc.connected = true → pc'.connected = true)
    (handles : pc.worker? = none ∨ pc'.worker? = pc.worker?) :
    Sound { core with parties := update core.parties party (some pc') } := by
  refine sound.setParty before holds ?_ fun _ => connected
  intro worker value _ _ serving dispatches
  refine ⟨serves serving, ?_⟩
  intro dispatching
  cases handles with
  | inl nothing => cases nothing.symm.trans (dispatches dispatching)
  | inr kept => exact kept.trans (dispatches dispatching)

theorem Sound.moveOn (before : core.parties party = some pc) (isWorker : pc.worker? = some worker)
    (elsewhere : ∀ value, core.workers worker = some value → value.kind ≠ .dispatching)
    (holds : pc'.holds = true → pc.holds = true) (serves : pc.serves = true → pc'.serves = true)
    (connected : pc.connected = true → pc'.connected = true) :
    Sound { core with parties := update core.parties party (some pc') } := by
  refine sound.setParty before holds ?_ fun _ => connected
  intro other value isOther _ serving dispatches
  refine ⟨serves serving, ?_⟩
  intro dispatching
  have same : worker = other := Option.some.inj (isWorker.symm.trans (dispatches dispatching))
  subst same
  exact absurd dispatching (elsewhere value isOther)

theorem Sound.takeLock (free : core.lock = none) (pc : Pc) :
    Sound { core with
      lock := some party
      parties := update core.parties party (some pc) } where
  exclusive := by
    intro other value isParty holding
    cases update_eq_some isParty with
    | inl changed => rw [changed.2]
    | inr unchanged => cases free.symm.trans (sound.exclusive other value unchanged.1 holding)
  workers worker value isWorker := by
    obtain ⟨_, _, _, owner⟩ := sound.serving isWorker
    cases free.symm.trans owner
  connected other isConn := by
    obtain ⟨_, _, _, owner⟩ := sound.connection isConn
    cases free.symm.trans owner
  answers := sound.answers_of rfl rfl

theorem Sound.giveLock {value : Option Pc} (before : core.parties party = some pc) (holds : pc.holds = true)
    (serves : pc.serves = false) (connected : pc.connected = false)
    (gives : ∀ pc', value = some pc' → pc'.holds = false) :
    Sound { core with lock := none, parties := update core.parties party value } := by
  have owner := sound.exclusive party pc before holds
  refine ⟨?_, ?_, ?_, sound.answers_of rfl rfl⟩
  · intro other found isParty holding
    cases update_eq_some isParty with
    | inl changed => cases (gives found changed.1).symm.trans holding
    | inr unchanged =>
      have own := sound.exclusive other found unchanged.1 holding
      exact absurd (Option.some.inj (own.symm.trans owner)) unchanged.2
  · intro worker found isWorker
    obtain ⟨serving, isOrigin, isServing, own⟩ := sound.serving isWorker
    rw [Option.some.inj (own.symm.trans owner), before] at isOrigin
    cases isOrigin
    cases serves.symm.trans isServing
  · intro other isConn
    obtain ⟨found, isParty, isConnected, own⟩ := sound.connection isConn
    rw [Option.some.inj (own.symm.trans owner), before] at isParty
    cases isParty
    cases connected.symm.trans isConnected

theorem Sound.forget (before : core.parties party = some .released) :
    Sound { core with parties := update core.parties party none } where
  exclusive := by
    intro other value isParty holding
    cases update_eq_some isParty with
    | inl changed => cases changed.1
    | inr unchanged => exact sound.exclusive other value unchanged.1 holding
  workers other value isWorker :=
    have valid := sound.workers other value isWorker
    { valid with served := valid.served.update before fun _ served => nomatch served.1 }
  connected other isConn := (sound.connected other isConn).update before nofun
  answers := sound.answers_of rfl rfl

theorem Sound.setConn (isParty : core.parties party = some pc) (connected : pc.connected = true) :
    Sound { core with conn := some party } where
  exclusive := sound.exclusive
  workers other value isWorker := (sound.workers other value isWorker).congr rfl rfl rfl rfl rfl
  connected := by
    rintro other ⟨⟩
    exact ⟨pc, isParty, connected⟩
  answers := sound.answers_of rfl rfl

theorem Sound.clearConn : Sound { core with conn := none } where
  exclusive := sound.exclusive
  workers other value isWorker := (sound.workers other value isWorker).congr rfl rfl rfl rfl rfl
  connected := nofun
  answers := sound.answers_of rfl rfl

theorem Sound.receive (entry : Nat × Command) :
    Sound { core with received := entry :: core.received } where
  exclusive := sound.exclusive
  workers other value isWorker :=
    have valid := sound.workers other value isWorker
    { valid with logged := List.mem_cons_of_mem _ valid.logged }
  connected := sound.connected
  answers sent member :=
    have right := sound.answers sent member
    ⟨List.mem_cons_of_mem _ right.received, right.marked, right.own⟩

theorem Sound.enroll (member : Nat) :
    Sound { core with group := member :: core.group } where
  exclusive := sound.exclusive
  workers other value isWorker :=
    have valid := sound.workers other value isWorker
    { valid with grouped := fun busy => List.mem_cons_of_mem _ (valid.grouped busy) }
  connected := sound.connected
  answers := sound.answers_of rfl rfl

theorem Sound.record {sent : Sent} (right : Answers core sent) :
    Sound { core with out := sent :: core.out } where
  exclusive := sound.exclusive
  workers other value isWorker := (sound.workers other value isWorker).congr rfl rfl rfl rfl rfl
  connected := sound.connected
  answers := by
    intro other member
    rcases List.mem_cons.mp member with rfl | earlier
    · exact ⟨right.received, right.marked, right.own⟩
    · have before := sound.answers other earlier
      exact ⟨before.received, before.marked, before.own⟩

theorem Sound.setWorker {value : Option Worker}
    (valid : ∀ after, value = some after → Valid core worker after) :
    Sound { core with workers := update core.workers worker value } where
  exclusive := sound.exclusive
  workers := by
    intro other after isWorker
    cases update_eq_some isWorker with
    | inl changed =>
      obtain ⟨isValue, rfl⟩ := changed
      exact (valid after isValue).congr rfl rfl rfl rfl rfl
    | inr unchanged => exact (sound.workers other after unchanged.1).congr rfl rfl rfl rfl rfl
  connected := sound.connected
  answers := sound.answers_of rfl rfl

theorem Sound.setLocked {after : Worker} {conn writer writeLock : Option Nat}
    (free : core.writeLock = none ∨ core.writeLock = some worker) (kept : conn = none ∨ conn = core.conn)
    (valid : Valid { core with conn := conn, writer := writer, writeLock := writeLock } worker after) :
    Sound { core with
      conn := conn
      writer := writer
      writeLock := writeLock
      workers := update core.workers worker (some after) } where
  exclusive := sound.exclusive
  workers := by
    intro other value isWorker
    cases update_eq_some isWorker with
    | inl changed =>
      obtain ⟨⟨⟩, rfl⟩ := changed
      exact valid.congr rfl rfl rfl rfl rfl
    | inr unchanged =>
      have before := sound.workers other value unchanged.1
      refine before.of_unlocked ?_ rfl rfl rfl
      by_contra locked
      have owner := before.locked (Bool.eq_true_of_not_eq_false locked)
      cases free with
      | inl nobody => cases nobody.symm.trans owner
      | inr own => exact unchanged.2 (Option.some.inj (owner.symm.trans own))
  connected := by
    intro other isConn
    cases kept with
    | inl nothing =>
      change conn = some other at isConn
      cases nothing.symm.trans isConn
    | inr same =>
      change conn = some other at isConn
      exact sound.connected other (same ▸ isConn)
  answers := sound.answers_of rfl rfl

theorem Sound.endWorker :
    Sound { core with
      workers := update core.workers worker none
      group := core.group.erase worker } where
  exclusive := sound.exclusive
  workers := by
    intro other value isWorker
    cases update_eq_some isWorker with
    | inl changed => cases changed.1
    | inr unchanged =>
      have valid := sound.workers other value unchanged.1
      exact { valid with
        grouped := fun busy => (List.mem_erase_of_ne unchanged.2).mpr (valid.grouped busy) }
  connected := sound.connected
  answers := sound.answers_of rfl rfl

omit sound

theorem Valid.lockFor (valid : Valid core worker value) {response : Response}
    (marked : response.mark = value.command.clientMark) :
    Valid core worker { value with writing := .locking response } where
  served := valid.served
  grouped := valid.grouped
  locked := nofun
  opened := nofun
  marked := by
    rintro _ ⟨⟩
    exact marked
  logged := valid.logged

theorem Valid.setTask {task task' : StreamTask} (valid : Valid core worker value)
    (isStream : value.kind = .stream task) :
    Valid core worker { value with kind := .stream task' } where
  served := by
    obtain ⟨pc, isOrigin, serves, _⟩ := valid.served
    exact ⟨pc, isOrigin, serves, nofun⟩
  grouped := by
    intro _
    apply valid.grouped
    rw [isStream]
    exact nofun
  locked := valid.locked
  opened := valid.opened
  marked := valid.marked
  logged := valid.logged

end Changes

/-! ### Every step -/

section Steps

variable {state next : State} {action : Action}

theorem attach_sound (sound : Sound state.toCore) (stepped : state.attach action = some next) :
    Sound next.toCore := by
  revert stepped
  fun_cases State.attach state action <;> intro stepped <;> cases stepped
  · exact sound.takeLock ‹_› _
  · rename_i party before
    have installed : Sound { state.toCore with
        parties := update state.parties party (some .installed) } :=
      sound.move before id nofun nofun (.inl rfl)
    exact installed.setConn (update_self ..) rfl
  · exact sound.giveLock ‹_› rfl rfl rfl nofun
  · rename_i before
    exact sound.move before id nofun id (.inl rfl)
  · exact sound.takeLock ‹_› _
  · exact sound.giveLock ‹_› rfl rfl rfl nofun

theorem stopConn_sound (sound : Sound state.toCore) (stepped : state.stopConn action = some next) :
    Sound next.toCore := by
  revert stepped
  fun_cases State.stopConn state action <;> intro stepped <;> try cases stepped
  · rename_i before
    exact sound.move before id id id (.inl rfl)
  · have detached : Sound { state.toCore with conn := none } := sound.clearConn
    rename_i before _
    refine detached.setParty before id ?_ nofun
    intro _ _ _ _ serves dispatches
    exact ⟨serves, fun dispatching => nomatch dispatches dispatching⟩
  · obtain ⟨stream, _, rfl⟩ := Option.map_eq_some_iff.mp stepped
    exact sound
  · rename_i before _
    exact sound.move before id id nofun (.inl rfl)
  · rename_i party before nobody
    refine sound.setParty before id ?_ nofun
    intro worker value isWorker _ _ dispatches
    -- every task is in the group, and the reader has no command any more
    by_cases dispatching : value.kind = .dispatching
    · cases dispatches dispatching
    · have member := (sound.workers worker value isWorker).grouped dispatching
      rw [nobody] at member
      cases member
  · rename_i before _
    exact sound.move before id nofun nofun (.inl rfl)
  · refine sound.giveLock ‹_› rfl rfl rfl ?_
    rintro _ ⟨⟩
    rfl
  · exact sound.forget ‹_›

variable {party worker : Nat} {value : Worker} {session : Commands.Session} {response : Response}

theorem answer_sound (sound : Sound state.toCore)
    (before : state.parties party = some (.dispatching worker))
    (isWorker : state.workers worker = some value) (marked : response.mark = value.command.clientMark) :
    Sound (state.answer party worker value response).toCore := by
  have rejecting : Sound { state.toCore with
      parties := update state.parties party (some (.rejecting worker)) } :=
    sound.move before id id id (.inr rfl)
  apply rejecting.setWorker
  rintro _ ⟨⟩
  exact (rejecting.workers worker value isWorker).lockFor marked

theorem streamRefusal_marked {writeStreams : List (UInt8 × Nat)} {command : Command} {known : Bool}
    (refused : streamRefusal writeStreams command known = some response) :
    response.mark = command.clientMark := by
  unfold streamRefusal at refused
  repeat' split at refused
  all_goals cases refused <;> rfl

variable (sound : Sound state.toCore)
include sound

theorem handled_sound {pc pc' : Pc} (before : state.parties party = some pc)
    (isWorker : pc.worker? = some worker) (holds : pc'.holds = true → pc.holds = true)
    (serves : pc.serves = true → pc'.serves = true) (connected : pc.connected = true → pc'.connected = true) :
    Sound ((state.setParty party (some pc')).setWorker worker none).toCore := by
  have ended : Sound { state.toCore with
      workers := update state.workers worker none } := sound.setWorker nofun
  refine ended.moveOn before isWorker ?_ holds serves connected
  intro value impossible
  change update state.workers worker none worker = some value at impossible
  rw [update_self] at impossible
  cases impossible

theorem receive_sound (command : Command) (before : state.parties party = some .reading) :
    Sound { (state.setParty party (some (.dispatching state.spawned))).setWorker state.spawned
        (some ⟨party, command, .dispatching, .idle⟩) with
      received := (party, command) :: state.received }.toCore := by
  have dispatching : Sound { state.toCore with
      received := (party, command) :: state.received
      parties := update state.parties party (some (.dispatching state.spawned)) } :=
    (sound.receive (party, command)).move before id id id (.inl rfl)
  apply dispatching.setWorker
  rintro _ ⟨⟩
  exact ⟨⟨_, update_self .., rfl, fun _ => rfl⟩, fun busy => absurd rfl busy, nofun, nofun,
    nofun, List.mem_cons_self⟩

theorem start_sound {first : Option Input} (before : state.parties party = some (.starting worker first))
    (isWorker : state.workers worker = some value) (kind : Kind) (pc : Pc) (busy : kind ≠ .dispatching)
    (serves : pc.serves = true) (connected : pc.connected = true) :
    Sound { state.toCore with
      group := worker :: state.group
      workers := update state.workers worker (some { value with kind := kind })
      parties := update state.parties party (some pc) } := by
  have enrolled : Sound { state.toCore with group := worker :: state.group } := sound.enroll worker
  have started : Sound { state.toCore with
      group := worker :: state.group
      workers := update state.workers worker (some { value with kind := kind }) } := by
    apply enrolled.setWorker
    rintro _ ⟨⟩
    have valid := enrolled.workers worker value isWorker
    obtain ⟨pc, isOrigin, serves, _⟩ := valid.served
    exact { valid with
      served := ⟨pc, isOrigin, serves, fun dispatching => absurd dispatching busy⟩
      grouped := fun _ => List.mem_cons_self }
  refine started.moveOn before rfl ?_ (fun _ => rfl) (fun _ => serves) fun _ => connected
  intro after isAfter
  change update state.workers worker _ worker = some after at isAfter
  rw [update_self] at isAfter
  cases isAfter
  exact busy

theorem read_sound (follows : Follows session state action) (stepped : state.read action = some next) :
    Sound next.toCore := by
  revert stepped
  -- What a branch asks of the worker becomes a conjunction.
  fun_cases State.read state action <;> intro stepped <;>
    simp only [Option.bind_eq_some_iff, Option.map_eq_some_iff, Option.ite_none_right_eq_some,
      Option.some.injEq, reduceCtorEq] at stepped
  · subst stepped
    exact receive_sound sound _ ‹_›
  · rename_i before
    obtain ⟨value, isWorker, _, rfl⟩ := stepped
    exact answer_sound sound before isWorker
      (doCommandCall_onMark session _ _ _ (follows _ value before isWorker))
  · obtain ⟨value, isWorker, _, response, refused, rfl⟩ := stepped
    exact answer_sound sound ‹_› isWorker (streamRefusal_marked refused)
  · rename_i before
    obtain ⟨value, _, _, rfl⟩ := stepped
    exact handled_sound sound before rfl id id id
  · rename_i before
    obtain ⟨value, _, _, rfl⟩ := stepped
    exact sound.move before id id id (.inr rfl)
  · rename_i before
    obtain ⟨value, _, _, input, _, rfl⟩ := stepped
    exact sound.move before id id id (.inr rfl)
  · rename_i first before
    obtain ⟨value, isWorker, _, rfl⟩ := stepped
    cases first with
    | none => exact start_sound sound before isWorker .command .reading nofun rfl rfl
    | some input =>
      exact start_sound sound before isWorker (.stream ⟨.receiving, 0, false⟩) (.enqueuing _ input)
        nofun rfl rfl
  · rename_i before
    obtain ⟨value, _, _, input, _, stream, _, rfl⟩ := stepped
    exact handled_sound sound before rfl id id id
  · rename_i before _
    subst stepped
    exact sound.move before id id id (.inl rfl)
  · rename_i before
    subst stepped
    exact sound.move before id id id (.inl rfl)

theorem work_sound (follows : Follows session state action) (stepped : state.work action = some next) :
    Sound next.toCore := by
  revert stepped
  fun_cases State.work state action <;> intro stepped <;> try cases stepped
  all_goals obtain ⟨value, isWorker, allowed⟩ := Option.bind_eq_some_iff.mp stepped
  all_goals have valid := sound.workers _ value isWorker
  all_goals split at allowed
  all_goals try cases allowed
  · apply sound.setWorker
    rintro _ ⟨⟩
    exact valid.lockFor (doCommandCall_onMark session _ _ _ (follows value isWorker))
  · exact sound.endWorker
  · apply sound.setWorker
    rintro _ ⟨⟩
    exact valid.setTask ‹_›
  · rename_i error _ _ _ _ _ isStream isIdle
    split at allowed
    · cases allowed
    · cases allowed
      apply sound.setWorker
      rintro _ ⟨⟩
      cases error with
      | none =>
        exact ⟨(valid.setTask isStream).served, (valid.setTask isStream).grouped, nofun, nofun,
          nofun, valid.logged⟩
      | some refused => exact (valid.setTask isStream).lockFor rfl
  · apply sound.setWorker
    rintro _ ⟨⟩
    exact (valid.setTask ‹_›).lockFor rfl
  · split at allowed
    · cases allowed
      exact sound.endWorker
    · cases allowed

omit sound

theorem Sound.pass {core : Core} (sound : Sound core) (isWorker : core.workers worker = some value)
    (held : value.writing.locked = true) {writing : Writing} {conn writer writeLock : Option Nat}
    (kept : conn = none ∨ conn = core.conn) (locked : writing.locked = true → writeLock = core.writeLock)
    (quiet : writing.response? = none) :
    Sound { core with
      conn := conn
      writer := writer
      writeLock := writeLock
      workers := update core.workers worker (some { value with writing := writing }) } := by
  have valid := sound.workers worker value isWorker
  refine sound.setLocked (.inr (valid.locked held)) kept ⟨valid.served, valid.grouped, ?_, ?_, ?_,
    valid.logged⟩
  · exact fun isLocked => (locked isLocked).trans (valid.locked held)
  · rintro response rfl
    cases quiet
  · intro response isResponse
    cases quiet.symm.trans isResponse

theorem transmit_sound (sound : Sound state.toCore) (stepped : state.transmit action = some next) :
    Sound next.toCore := by
  revert stepped
  fun_cases State.transmit state action <;> intro stepped <;> try cases stepped
  all_goals obtain ⟨value, isWorker, allowed⟩ := Option.bind_eq_some_iff.mp stepped
  all_goals have valid := sound.workers _ value isWorker
  all_goals split at allowed
  all_goals try cases allowed
  · rename_i response locking
    split at allowed
    · rename_i free
      cases allowed
      refine sound.setLocked (.inl free) (.inr rfl) ?_
      refine ⟨valid.served, valid.grouped, fun _ => rfl, nofun, ?_, valid.logged⟩
      rintro _ ⟨⟩
      exact valid.marked response (by rw [locking]; rfl)
    · cases allowed
  · rename_i checking _
    exact sound.pass isWorker (by rw [checking]; rfl) (.inr rfl) nofun rfl
  · rename_i response conn checking isConn
    have held : value.writing.locked = true := by rw [checking]; rfl
    split at allowed
    · cases allowed
      have own := sound.conn_of_worker isWorker isConn
      refine sound.setLocked (.inr (valid.locked held)) (.inr rfl) ?_
      refine ⟨valid.served, valid.grouped, fun _ => valid.locked held, ?_, ?_, valid.logged⟩
      · exact fun _ _ => congrArg some own
      · rintro _ ⟨⟩
        exact valid.marked response (by rw [checking]; rfl)
    · cases allowed
      exact sound.pass isWorker held (.inr rfl) (fun _ => rfl) rfl
  · rename_i response conn sending isWriter
    have own : conn = value.origin :=
      Option.some.inj (isWriter.symm.trans (valid.opened response sending))
    have written : Sound { state.toCore with
        out := ⟨conn, value.origin, value.command, response⟩ :: state.out } := by
      apply sound.record
      refine ⟨?_, valid.marked response (by rw [sending]; rfl), own.symm⟩
      rw [own]
      exact valid.logged
    exact written.pass isWorker (by rw [sending]; rfl) (.inr rfl) (fun _ => rfl) rfl
  · rename_i failed closing
    exact sound.pass isWorker (by rw [closing]; rfl) (.inr rfl) (fun _ => rfl) (by split <;> rfl)
  · rename_i failing
    exact sound.pass isWorker (by rw [failing]; rfl) (.inl rfl) (fun _ => rfl) rfl
  · rename_i cancelling
    exact sound.pass isWorker (by rw [cancelling]; rfl) (.inr rfl) (fun _ => rfl) rfl
  · rename_i unlocking
    exact sound.pass isWorker (by rw [unlocking]; rfl) (.inr rfl) nofun rfl

theorem step_sound (state : State) (action : Action) (next : State) (sound : Sound state.toCore)
    (follows : Follows session state action) (stepped : step state action = some next) :
    Sound next.toCore := by
  simp only [step, Option.orElse_eq_some] at stepped
  rcases stepped with attached | ⟨_, reads | ⟨_, stops | ⟨_, works | ⟨_, transmits⟩⟩⟩⟩
  · exact attach_sound sound attached
  · exact read_sound sound follows reads
  · exact stopConn_sound sound stops
  · exact work_sound sound follows works
  · exact transmit_sound sound transmits

end Steps

/-! ### Whole runs -/

/-- In every run of the session every message on a connection answers a command that was
received on this connection, on its mark, and no two connections are attached at once. -/
theorem connections_separate (session : Commands.Session) (actions : List Action) (last : State)
    (follows : Guarded step (Follows session) initial actions)
    (ran : run step initial actions = some last) : Separate last.toCore :=
  (run_invariant step_sound initial_sound follows ran).separate

/-- A `Sync` and a write stream are under way on a first connection when its reader fails. The
answer of the one is lost with the connection, the other ends as its channel is closed, and a
second connection gets the answer to a `Sync` of its own. -/
private def twoConnections : List Action :=
  [.serve, .upgrade 0 true, .goRead 0, .receive 0 ⟨7, cmdSync, [3, 0, 0, 0]⟩, .spawn 0, .start 0,
    .receive 0 ⟨8, cmdWriteStreamOpen, [3, 0, 0, 0, 0, 0, 0, 0, 0, 0, 0, 0, 65]⟩, .openStream 0, .start 0,
    .enqueue 0, .fail 0, .cancel 0, .write 0 ⟨7, errorOK, []⟩, .acquire 0, .check 0 true, .send 0 false,
    .shut 0 true, .failWrite 0, .cancelWrite 0, .unlock 0, .finish 0, .detach 0, .clear 0 8, .cleared 0,
    .take 1, .work 1 1 none, .leave 1, .wait 0, .unlockErr 0, .release 0, .serve, .upgrade 1 true, .goRead 1,
    .receive 1 ⟨9, cmdSync, [3, 0, 0, 0]⟩, .spawn 1, .start 1, .write 2 ⟨9, errorOK, []⟩, .acquire 2,
    .check 2 true, .send 2 true]

private theorem sync_answered (session : Commands.Session) (mark : UInt8) :
    (session.doCommandCall mark cmdSync [3, 0, 0, 0]).MayCall (.send mark errorOK []) :=
  .inr ⟨some 5, .inr ⟨.ok (), .inl rfl⟩⟩

private theorem twoConnections_follows :
    Guarded step (Follows Commands.sampleSession) initial twoConnections := by
  iterate 12 refine .cons rfl trivial ?_
  refine .cons rfl ?_ ?_
  · rintro _ ⟨⟩
    exact sync_answered _ _
  iterate 23 refine .cons rfl trivial ?_
  refine .cons rfl ?_ ?_
  · rintro _ ⟨⟩
    exact sync_answered _ _
  iterate 3 refine .cons rfl trivial ?_
  trivial

theorem connections_separate_resumed :
    ∃ last, Guarded step (Follows Commands.sampleSession) initial twoConnections ∧
      run step initial twoConnections = some last ∧
        last.out.map (fun sent => (sent.conn, sent.response.mark)) = [(1, 9), (0, 7)] ∧
          Separate last.toCore := by
  cases reached : run step initial twoConnections with
  | none => cases reached
  | some last =>
    refine ⟨last, twoConnections_follows, rfl, ?_,
      connections_separate Commands.sampleSession _ last twoConnections_follows reached⟩
    cases reached
    rfl

end Wsfs.Server.Connection
