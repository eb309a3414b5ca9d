/-
The connection fields of a client session around a reconnect, statement by statement:
`takeConn`, `requireWrite` and `writeDone`, `stopConn` and `errorMode`, the ping loops and
`Close`. A connection is the number of its dial, and so is the context that `takeConn`
makes for it.

Every goroutine moves by single statements, in any order. A statement that waits for a
lock has no successor while the lock is taken. Reads, writes and pings may fail at any
time. The failures that goroutines have met and what they did about them are kept for
the theorems; no code sees that.
-/

import Wsfs.Client.Session

namespace Wsfs.Client.Reconnect

open Wsfs.Base Function

/-! ### State -/

/-- A goroutine that has met an error: before `connErrLock.TryLock`, with the lock and
before `s.connErr = err`, or past both. -/
inductive Report
  | met
  | locked
  | told
deriving DecidableEq, Repr

/-- A request that `newClientMark` has admitted. Where it has a connection, that is the
one it found in `s.conn` when it asked for a writer. `cleared` has set `s.conn` to nil and
is about to cancel, `ending` is about to unlock `writeLock`. -/
inductive Writer
  | admitted
  | locking
  | checked
  | writing (conn : Nat)
  | reporting (conn : Nat) (report : Report)
  | cleared (conn : Nat)
  | ending
deriving DecidableEq, Repr

def Writer.conn : Writer → Option Nat
  | .writing conn => some conn
  | .reporting conn _ => some conn
  | .cleared conn => some conn
  | _ => none

/-- The reader goroutine: `readLoop`, from `cancelling` on `stopConn` past its lifecycle
part, then `errorMode`, and from `taking` on `takeConn` with the new connection. There
`placed` has assigned `s.conn`, `given` also `s.connCtx`, and `ready` also
`s.connCtxCancel`. -/
inductive Reader
  | reading (conn : Nat)
  | reporting (conn : Nat) (report : Report)
  | cancelling (conn : Nat) (graceful : Bool)
  | dropping (conn : Nat) (graceful : Bool)
  | logging (conn : Nat) (graceful : Bool)
  | sweeping (conn : Nat) (graceful : Bool)
  | redialing
  | taking (conn : Nat)
  | placed (conn : Nat)
  | given (conn : Nat)
  | ready (conn : Nat)
  | exited
deriving DecidableEq, Repr

/-- The connection that `s.conn` is for. -/
def Reader.attached : Reader → Option Nat
  | .reading conn => some conn
  | .reporting conn _ => some conn
  | .cancelling conn _ => some conn
  | .dropping conn _ => some conn
  | .placed conn => some conn
  | .given conn => some conn
  | .ready conn => some conn
  | _ => none

/-- `takeConn` has assigned `s.conn`, and not yet both of `s.connCtx` and
`s.connCtxCancel`. -/
def Reader.halfway : Reader → Bool
  | .placed _ => true
  | .given _ => true
  | _ => false

/-- What `takeConn` has left to do once it has started the reader, and `errorMode` after
it. -/
inductive Tail
  | ping
  | resume
deriving DecidableEq, Repr

/-- A ping loop waits or pings under the context that it was started with. -/
inductive Ping
  | waiting (ctx : Nat)
  | reporting (report : Report)
deriving DecidableEq, Repr

/-- The call of `Close` that has got past its waiting, with the connection it read. -/
inductive Closer
  | idle
  | chosen (conn : Option Nat)
  | reporting (conn : Nat) (report : Report)
  | waiting
deriving DecidableEq, Repr

def Closer.conn : Closer → Option Nat
  | .chosen conn => conn
  | .reporting conn _ => some conn
  | _ => none

/-- A call of `s.connCtxCancel`, for a failure of one connection, and the context it
cancelled. -/
structure Cancel where
  failure : Nat
  context : Nat
deriving DecidableEq, Repr

/-- An assignment of `s.connErr`, for a failure of one connection, and the connection
whose `stopConn` is the next to read it. -/
structure Record where
  failure : Nat
  slot : Nat
deriving DecidableEq, Repr

/-- What `stopConn` found in `s.connErr` as the reason for the end of its connection: the
connection of the failure. -/
structure Ending where
  conn : Nat
  error : Option Nat
deriving DecidableEq, Repr

structure Wires where
  reader : Reader
  conn : Option Nat
  connCtx : Nat
  connCtxCancel : Nat
  cancelled : Nat → Bool
  writeLock : Option Nat
  writers : Nat → Option Writer

structure State extends Wires where
  state : SessionState
  activeReqs : Nat
  pingInterval : Nat
  connErr : Option Nat
  connErrLock : Bool
  tails : Nat → Option Tail
  pings : Nat → Option Ping
  closer : Closer
  dialed : Nat
  /-- How often `stopConn` has released `connErrLock`. -/
  slot : Nat
  failed : Nat → Bool
  cancels : List Cancel
  records : List Record
  endings : List Ending

/-- `NewSession` and `Start` on connection 0, up to the start of the reader. -/
def initial (pingInterval : Nat) : State where
  reader := .ready 0
  conn := some 0
  connCtx := 0
  connCtxCancel := 0
  cancelled := fun _ => false
  writeLock := none
  writers := fun _ => none
  state := .running
  activeReqs := 0
  pingInterval := pingInterval
  connErr := none
  connErrLock := false
  tails := fun _ => none
  pings := fun _ => none
  closer := .idle
  dialed := 1
  slot := 0
  failed := fun _ => false
  cancels := []
  records := []
  endings := []

/-- The goroutines that report failures. -/
inductive Party
  | writer (id : Nat)
  | ping (conn : Nat)
  | reader
  | closer
deriving DecidableEq, Repr

inductive Action
  | enter (id : Nat)
  | release (id : Nat)
  | lockWrite (id : Nat)
  | check (id : Nat)
  | openWriter (id : Nat) (ok : Bool)
  | writeDone (id : Nat) (ok : Bool)
  | clear (id : Nat)
  | cancelWrite (id : Nat)
  | unlockWrite (id : Nat)
  | tryLock (party : Party)
  | assign (party : Party)
  | readFails
  | stop
  | cancelRead
  | drop
  | log
  | sweep
  | redial (success : Bool)
  | place
  | give
  | arm
  | go
  | startPing (conn : Nat)
  | resume (conn : Nat)
  | pingFails (conn : Nat)
  | pingEnds (conn : Nat)
  | pingCancel (conn : Nat)
  | close
  | closeExit
  | closeFails
  | closeEnds
  | closeCancel
deriving DecidableEq, Repr

/-! ### Steps -/

namespace State

def setWriter (state : State) (id : Nat) (writer : Option Writer) : State :=
  { state with writers := update state.writers id writer }

def setPing (state : State) (conn : Nat) (ping : Option Ping) : State :=
  { state with pings := update state.pings conn ping }

def setTail (state : State) (conn : Nat) (tail : Option Tail) : State :=
  { state with tails := update state.tails conn tail }

def meets (state : State) (conn : Nat) : State :=
  { state with failed := update state.failed conn true }

/-- `s.connCtxCancel()`, after a failure of the connection. -/
def cancel (state : State) (failure : Nat) : State :=
  { state with
    cancelled := update state.cancelled state.connCtxCancel true
    cancels := ⟨failure, state.connCtxCancel⟩ :: state.cancels }

/-- `newClientMark` -/
def enter (state : State) (id : Nat) : Option State :=
  if state.writers id = none ∧ state.state ≠ .closing ∧ state.state ≠ .closed then
    some { state.setWriter id (some .admitted) with activeReqs := state.activeReqs + 1 }
  else none

/-- `releaseClientMark` -/
def release (state : State) (id : Nat) : Option State :=
  match state.writers id with
  | some .admitted => some { state.setWriter id none with activeReqs := state.activeReqs - 1 }
  | _ => none

def lockWrite (state : State) (id : Nat) : Option State :=
  match state.writers id with
  | some .admitted =>
      if state.writeLock = none then
        some { state.setWriter id (some .locking) with writeLock := some id }
      else none
  | _ => none

def check (state : State) (id : Nat) : Option State :=
  match state.writers id with
  | some .locking =>
      if state.conn = none then
        some { state.setWriter id (some .admitted) with writeLock := none }
      else some (state.setWriter id (some .checked))
  | _ => none

/-- `s.conn.Writer(s.connCtx, websocket.MessageBinary)` -/
def openWriter (state : State) (id : Nat) (ok : Bool) : Option State :=
  match state.writers id, state.conn with
  | some .checked, some conn =>
      if ok then some (state.setWriter id (some (.writing conn)))
      else some ((state.meets conn).setWriter id (some (.reporting conn .met)))
  | _, _ => none

/-- The rest of a write, up to where `writeDone` knows if there was an error. -/
def writeDone (state : State) (id : Nat) (ok : Bool) : Option State :=
  match state.writers id with
  | some (.writing conn) =>
      if ok then some { state.setWriter id (some .admitted) with writeLock := none }
      else some ((state.meets conn).setWriter id (some (.reporting conn .met)))
  | _ => none

/-- `s.conn = nil`, in `requireWrite` or in `writeDone`. -/
def clear (state : State) (id : Nat) : Option State :=
  match state.writers id with
  | some (.reporting conn .told) => some { state.setWriter id (some (.cleared conn)) with conn := none }
  | _ => none

def cancelWrite (state : State) (id : Nat) : Option State :=
  match state.writers id with
  | some (.cleared conn) => some ((state.cancel conn).setWriter id (some .ending))
  | _ => none

def unlockWrite (state : State) (id : Nat) : Option State :=
  match state.writers id with
  | some .ending => some { state.setWriter id (some .admitted) with writeLock := none }
  | _ => none

/-- The failure that a goroutine is reporting, and how far it has come with it. -/
def report (state : State) : Party → Option (Nat × Report)
  | .writer id =>
      match state.writers id with
      | some (.reporting conn report) => some (conn, report)
      | _ => none
  | .ping conn =>
      match state.pings conn with
      | some (.reporting report) => some (conn, report)
      | _ => none
  | .reader =>
      match state.reader with
      | .reporting conn report => some (conn, report)
      | _ => none
  | .closer =>
      match state.closer with
      | .reporting conn report => some (conn, report)
      | _ => none

def setReport (state : State) (conn : Nat) (report : Report) : Party → State
  | .writer id => state.setWriter id (some (.reporting conn report))
  | .ping conn => state.setPing conn (some (.reporting report))
  | .reader => { state with reader := .reporting conn report }
  | .closer => { state with closer := .reporting conn report }

/-- `s.connErrLock.TryLock()` -/
def tryLock (state : State) (party : Party) : Option State :=
  match state.report party with
  | some (conn, .met) =>
      if state.connErrLock then some (state.setReport conn .told party)
      else some { state.setReport conn .locked party with connErrLock := true }
  | _ => none

/-- `s.connErr = err` -/
def assign (state : State) (party : Party) : Option State :=
  match state.report party with
  | some (conn, .locked) =>
      some { state.setReport conn .told party with
        connErr := some conn
        records := ⟨conn, state.slot⟩ :: state.records }
  | _ => none

def readFails (state : State) : Option State :=
  match state.reader with
  | .reading conn => some { state.meets conn with reader := .reporting conn .met }
  | _ => none

/-- The lifecycle part of `stopConn`. -/
def stop (state : State) : Option State :=
  match state.reader with
  | .reporting conn .told =>
      some { state with
        state := if state.state = .closing ∨ state.state = .closed then state.state else .recovering
        reader := .cancelling conn (state.state = .closing) }
  | _ => none

def cancelRead (state : State) : Option State :=
  match state.reader with
  | .cancelling conn graceful => some { state.cancel conn with reader := .dropping conn graceful }
  | _ => none

/-- `s.conn = nil` under `writeLock`. -/
def drop (state : State) : Option State :=
  match state.reader with
  | .dropping conn graceful =>
      if state.writeLock = none then some { state with conn := none, reader := .logging conn graceful }
      else none
  | _ => none

/-- `stopConn` logs `s.connErr` and releases `connErrLock`. -/
def log (state : State) : Option State :=
  match state.reader with
  | .logging conn graceful =>
      some { state with
        endings := ⟨conn, state.connErr⟩ :: state.endings
        connErrLock := false
        slot := state.slot + 1
        reader := .sweeping conn graceful }
  | _ => none

/-- All of `notifyAllMarksWithDesc`, and `exit` with `s.connErr` after it if the session is
closing. -/
def sweep (state : State) : Option State :=
  match state.reader with
  | .sweeping conn graceful =>
      if graceful then
        some { state with
          state := .closed
          endings := ⟨conn, state.connErr⟩ :: state.endings
          reader := .exited }
      else some { state with reader := .redialing }
  | _ => none

def redial (state : State) (success : Bool) : Option State :=
  match state.reader with
  | .redialing =>
      if success then
        some { state with reader := .taking state.dialed, dialed := state.dialed + 1 }
      else some { state with state := .closed, reader := .exited }
  | _ => none

/-- `s.conn = conn` -/
def place (state : State) : Option State :=
  match state.reader with
  | .taking conn => some { state with conn := some conn, reader := .placed conn }
  | _ => none

/-- The first assignment of `s.connCtx, s.connCtxCancel = context.WithCancel(..)`. -/
def give (state : State) : Option State :=
  match state.reader with
  | .placed conn => some { state with connCtx := conn, reader := .given conn }
  | _ => none

def arm (state : State) : Option State :=
  match state.reader with
  | .given conn => some { state with connCtxCancel := conn, reader := .ready conn }
  | _ => none

/-- `go s.readLoop(conn)`; the goroutine that called `takeConn` goes on beside it. -/
def go (state : State) : Option State :=
  match state.reader with
  | .ready conn => some { state.setTail conn (some .ping) with reader := .reading conn }
  | _ => none

/-- `go s.pingLoop(conn, s.connCtx)`. `Start` ends here. -/
def startPing (state : State) (conn : Nat) : Option State :=
  match state.tails conn with
  | some .ping =>
      let started :=
        if 0 < state.pingInterval then state.setPing conn (some (.waiting state.connCtx)) else state
      some (started.setTail conn (if conn = 0 then none else some .resume))
  | _ => none

/-- The end of `errorMode`. -/
def resume (state : State) (conn : Nat) : Option State :=
  match state.tails conn with
  | some .resume =>
      some { state.setTail conn none with
        state := if state.state = .recovering then .running else state.state }
  | _ => none

def pingFails (state : State) (conn : Nat) : Option State :=
  match state.pings conn with
  | some (.waiting _) => some ((state.meets conn).setPing conn (some (.reporting .met)))
  | _ => none

def pingEnds (state : State) (conn : Nat) : Option State :=
  match state.pings conn with
  | some (.waiting ctx) => if state.cancelled ctx then some (state.setPing conn none) else none
  | _ => none

def pingCancel (state : State) (conn : Nat) : Option State :=
  match state.pings conn with
  | some (.reporting .told) => some ((state.cancel conn).setPing conn none)
  | _ => none

/-- `Close`, where its waiting ends. -/
def close (state : State) : Option State :=
  if state.state = .running ∧ state.activeReqs = 0 then
    some { state with state := .closing, closer := .chosen state.conn }
  else none

def closeExit (state : State) : Option State :=
  match state.closer with
  | .chosen none => some { state with state := .closed, closer := .waiting }
  | _ => none

def closeFails (state : State) : Option State :=
  match state.closer with
  | .chosen (some conn) => some { state.meets conn with closer := .reporting conn .met }
  | _ => none

def closeEnds (state : State) : Option State :=
  match state.closer with
  | .chosen (some _) => some { state with closer := .waiting }
  | _ => none

def closeCancel (state : State) : Option State :=
  match state.closer with
  | .reporting conn .told => some { state.cancel conn with closer := .waiting }
  | _ => none

end State

def step (state : State) : Action → Option State
  | .enter id => state.enter id
  | .release id => state.release id
  | .lockWrite id => state.lockWrite id
  | .check id => state.check id
  | .openWriter id ok => state.openWriter id ok
  | .writeDone id ok => state.writeDone id ok
  | .clear id => state.clear id
  | .cancelWrite id => state.cancelWrite id
  | .unlockWrite id => state.unlockWrite id
  | .tryLock party => state.tryLock party
  | .assign party => state.assign party
  | .readFails => state.readFails
  | .stop => state.stop
  | .cancelRead => state.cancelRead
  | .drop => state.drop
  | .log => state.log
  | .sweep => state.sweep
  | .redial success => state.redial success
  | .place => state.place
  | .give => state.give
  | .arm => state.arm
  | .go => state.go
  | .startPing conn => state.startPing conn
  | .resume conn => state.resume conn
  | .pingFails conn => state.pingFails conn
  | .pingEnds conn => state.pingEnds conn
  | .pingCancel conn => state.pingCancel conn
  | .close => state.close
  | .closeExit => state.closeExit
  | .closeFails => state.closeFails
  | .closeEnds => state.closeEnds
  | .closeCancel => state.closeCancel

/-- No request asks for a writer while `takeConn` is between its assignments. -/
def Undisturbed (state : State) : Action → Prop
  | .openWriter _ _ => state.reader.halfway = false
  | _ => True

/-! ### The wires -/

/-- `s.conn` is the connection or nil, and the contexts are those of the connection. -/
def Wires.For (wires : Wires) (conn : Nat) : Prop :=
  (wires.connCtx = conn ∧ wires.connCtxCancel = conn) ∧ ∀ other, wires.conn = some other → other = conn

/-- The context of the connection is cancelled, or a writer is about to cancel it. -/
def Wires.Ends (wires : Wires) (conn : Nat) : Prop :=
  wires.cancelled conn = true ∨ ∃ id, wires.writers id = some (.cleared conn)

def Reader.Fits (wires : Wires) : Reader → Prop
  | .placed conn => wires.conn = some conn
  | .given conn => wires.conn = some conn ∧ wires.connCtx = conn
  | .ready conn | .reading conn => wires.For conn ∧ (wires.conn = some conn ∨ wires.Ends conn)
  | .reporting conn _ | .cancelling conn _ | .dropping conn _ => wires.For conn
  | _ => wires.conn = none

/-- The wires are as the stage of the reader asks, and whoever has a connection to write on has
the one that is installed. -/
structure Wired (wires : Wires) : Prop where
  stage : wires.reader.Fits wires
  locked : ∀ id writer, wires.writers id = some writer → writer ≠ .admitted → wires.writeLock = some id
  writing : ∀ id writer conn, wires.writers id = some writer → writer.conn = some conn →
    wires.reader.attached = some conn ∧ wires.reader.halfway = false

theorem initial_wired (pingInterval : Nat) : Wired (initial pingInterval).toWires where
  stage := ⟨⟨⟨rfl, rfl⟩, fun _ stored => (Option.some.inj stored).symm⟩, .inl rfl⟩
  locked _ _ := nofun
  writing _ _ _ := nofun

theorem Writer.ne_admitted {writer : Writer} {conn : Nat} (has : writer.conn = some conn) :
    writer ≠ .admitted := by
  rintro rfl
  cases has

section Changes

variable {wires : Wires} {id conn : Nat} {reader : Reader} {writers : Nat → Option Writer}

theorem Reader.Fits.ends {cancelled : Nat → Bool} {lock : Option Nat} (fits : reader.Fits wires)
    (ends : ∀ conn, wires.Ends conn → Wires.Ends { wires with cancelled := cancelled, writers := writers } conn) :
    reader.Fits { wires with cancelled := cancelled, writers := writers, writeLock := lock } := by
  cases reader with
  | ready conn | reading conn => exact ⟨fits.1, fits.2.imp_right (ends conn)⟩
  | _ => exact fits

theorem Reader.Fits.clear (fits : reader.Fits wires) (attached : reader.attached = some conn)
    (whole : reader.halfway = false) (cleared : writers id = some (.cleared conn)) :
    reader.Fits { wires with writers := writers, conn := none } := by
  cases reader with
  | ready | reading =>
    cases attached
    exact ⟨⟨fits.1.1, nofun⟩, .inr (.inr ⟨id, cleared⟩)⟩
  | reporting | cancelling | dropping => exact ⟨fits.1, nofun⟩
  | placed | given => cases whole
  | _ => cases attached

theorem ends_update {after : Option Writer} (kept : ∀ conn, wires.writers id ≠ some (.cleared conn))
    (conn : Nat) (ends : wires.Ends conn) :
    Wires.Ends { wires with writers := update wires.writers id after } conn := by
  refine ends.imp_right ?_
  rintro ⟨other, cleared⟩
  have apart : other ≠ id := by
    rintro rfl
    exact kept conn cleared
  exact ⟨other, (update_of_ne apart ..).trans cleared⟩

theorem ends_cancel (context : Nat) {conn : Nat} (ends : wires.Ends conn) :
    Wires.Ends { wires with cancelled := update wires.cancelled context true } conn := by
  refine ends.imp_left fun already => ?_
  by_cases same : conn = context
  · rw [same]
    exact update_self ..
  · exact (update_of_ne same ..).trans already

theorem Reader.Fits.attached (fits : reader.Fits wires) (stored : wires.conn = some conn) :
    reader.attached = some conn := by
  cases reader with
  | placed => exact fits.symm.trans stored
  | given => exact fits.1.symm.trans stored
  | ready | reading => exact congrArg some (fits.1.2 conn stored).symm
  | reporting | cancelling | dropping => exact congrArg some (fits.2 conn stored).symm
  | _ => cases stored.symm.trans fits

theorem Reader.Fits.context (fits : reader.Fits wires) (attached : reader.attached = some conn)
    (whole : reader.halfway = false) : wires.connCtxCancel = conn := by
  cases reader with
  | ready | reading => exact fits.1.1.2.trans (Option.some.inj attached)
  | reporting | cancelling | dropping => exact fits.1.2.trans (Option.some.inj attached)
  | placed | given => cases whole
  | _ => cases attached

variable {before : Writer} (wired : Wired wires)
include wired

theorem Wired.stage_at (current : wires.reader = reader) : reader.Fits wires := by
  rw [← current]
  exact wired.stage

theorem Wired.moveWriter {after : Option Writer} {lock : Option Nat}
    (own : ∀ writer, after = some writer → writer ≠ .admitted → lock = some id)
    (others : ∀ other, other ≠ id → wires.writeLock = some other → lock = some other)
    (writing : ∀ writer conn, after = some writer → writer.conn = some conn →
      wires.reader.attached = some conn ∧ wires.reader.halfway = false)
    (kept : ∀ conn, wires.writers id ≠ some (.cleared conn)) :
    Wired { wires with writers := update wires.writers id after, writeLock := lock } where
  stage := wired.stage.ends (ends_update kept)
  locked other writer found busy := by
    rcases update_eq_some found with ⟨same, rfl⟩ | ⟨before, apart⟩
    · exact own writer same busy
    · exact others other apart (wired.locked other writer before busy)
  writing other writer conn found has := by
    rcases update_eq_some found with ⟨same, rfl⟩ | ⟨before, _⟩
    · exact writing writer conn same has
    · exact wired.writing other writer conn before has

theorem Wired.stepWriter {after : Writer} (found : wires.writers id = some before)
    (busy : before ≠ .admitted) (writing : ∀ conn, after.conn = some conn →
      wires.reader.attached = some conn ∧ wires.reader.halfway = false)
    (kept : ∀ conn, before ≠ .cleared conn) :
    Wired { wires with writers := update wires.writers id (some after) } := by
  refine wired.moveWriter (fun _ _ _ => wired.locked id before found busy) (fun _ _ held => held) ?_ ?_
  · intro writer conn same has
    cases same
    exact writing conn has
  · intro conn cleared
    rw [found] at cleared
    exact kept conn (Option.some.inj cleared)

theorem Wired.endWrite (found : wires.writers id = some before) (busy : before ≠ .admitted)
    (kept : ∀ conn, before ≠ .cleared conn) :
    Wired { wires with writers := update wires.writers id (some .admitted), writeLock := none } := by
  refine wired.moveWriter ?_ ?_ ?_ ?_
  · intro writer same notAdmitted
    cases same
    exact (notAdmitted rfl).elim
  · intro other apart held
    rw [wired.locked id before found busy] at held
    exact (apart (Option.some.inj held).symm).elim
  · intro writer conn same has
    cases same
    cases has
  · intro conn cleared
    rw [found] at cleared
    exact kept conn (Option.some.inj cleared)

/-- A step of a writer that has a connection, whatever else it does to the wires. -/
theorem Wired.ownStep {after : Writer} {cancelled : Nat → Bool} {stored : Option Nat}
    (found : wires.writers id = some before) (has : before.conn = some conn)
    (after_has : ∀ other, after.conn = some other → other = conn)
    (fits : wires.reader.Fits { wires with
      cancelled := cancelled, conn := stored, writers := update wires.writers id (some after) }) :
    Wired { wires with
      cancelled := cancelled, conn := stored, writers := update wires.writers id (some after) } := by
  have attached := wired.writing id before conn found has
  refine ⟨fits, ?_, ?_⟩
  · intro other writer inside busy
    rcases update_eq_some inside with ⟨_, rfl⟩ | ⟨earlier, _⟩
    · exact wired.locked other before found (Writer.ne_admitted has)
    · exact wired.locked other writer earlier busy
  · intro other writer otherConn inside own
    rcases update_eq_some inside with ⟨same, rfl⟩ | ⟨earlier, _⟩
    · cases same
      rw [after_has otherConn own]
      exact attached
    · exact wired.writing other writer otherConn earlier own

theorem Wired.clear {report : Report} (found : wires.writers id = some (.reporting conn report)) :
    Wired { wires with writers := update wires.writers id (some (.cleared conn)), conn := none } := by
  have attached := wired.writing id _ conn found rfl
  refine wired.ownStep found rfl (fun _ same => (Option.some.inj same).symm) ?_
  exact wired.stage.clear attached.1 attached.2 (update_self ..)

theorem Wired.cancel (context : Nat) :
    Wired { wires with cancelled := update wires.cancelled context true } :=
  ⟨wired.stage.ends fun _ => ends_cancel context, wired.locked, wired.writing⟩

theorem Wired.cancelWrite (found : wires.writers id = some (.cleared conn)) :
    Wired { wires with
      cancelled := update wires.cancelled wires.connCtxCancel true
      writers := update wires.writers id (some .ending) } := by
  have attached := wired.writing id _ conn found rfl
  have context := wired.stage.context attached.1 attached.2
  refine wired.ownStep found rfl nofun (wired.stage.ends fun stored ends => ?_)
  by_cases same : stored = conn
  · refine .inl ?_
    rw [same, context]
    exact update_self ..
  · refine (ends_cancel wires.connCtxCancel ends).imp_right ?_
    rintro ⟨other, cleared⟩
    have apart : other ≠ id := by
      rintro rfl
      rw [found] at cleared
      exact same (Writer.cleared.inj (Option.some.inj cleared)).symm
    exact ⟨other, (update_of_ne apart ..).trans cleared⟩

theorem Wired.moveReader {after : Reader} (current : wires.reader = reader)
    (fits : after.Fits { wires with reader := after })
    (kept : ∀ conn, reader.attached = some conn ∧ reader.halfway = false →
      after.attached = some conn ∧ after.halfway = false) :
    Wired { wires with reader := after } := by
  refine ⟨fits, wired.locked, fun id writer conn found has => kept conn ?_⟩
  rw [← current]
  exact wired.writing id writer conn found has

theorem Wired.no_conn (idle : wires.reader.attached = none ∨ wires.reader.halfway = true)
    {writer : Writer} (found : wires.writers id = some writer) : writer.conn ≠ some conn := by
  intro has
  obtain ⟨attached, whole⟩ := wired.writing id writer conn found has
  rw [attached, whole] at idle
  rcases idle with ⟨⟨⟩⟩ | ⟨⟨⟩⟩

theorem Wired.drop (unlocked : wires.writeLock = none) (conn : Nat) (graceful : Bool) :
    Wired { wires with conn := none, reader := .logging conn graceful } := by
  refine ⟨rfl, wired.locked, ?_⟩
  intro id writer conn found has
  rw [wired.locked id writer found (Writer.ne_admitted has)] at unlocked
  cases unlocked

theorem Wired.place (taking : wires.reader = .taking conn) :
    Wired { wires with conn := some conn, reader := .placed conn } := by
  refine ⟨rfl, wired.locked, ?_⟩
  intro id writer other found has
  exact (wired.no_conn (.inl (by rw [taking]; rfl)) found has).elim

theorem Wired.give (placed : wires.reader = .placed conn) :
    Wired { wires with connCtx := conn, reader := .given conn } := by
  refine ⟨⟨wired.stage_at placed, rfl⟩, wired.locked, ?_⟩
  intro id writer other found has
  exact (wired.no_conn (.inr (by rw [placed]; rfl)) found has).elim

theorem Wired.arm (given : wires.reader = .given conn) :
    Wired { wires with connCtxCancel := conn, reader := .ready conn } := by
  obtain ⟨stored, context⟩ := wired.stage_at given
  refine ⟨⟨⟨⟨context, rfl⟩, fun other same => ?_⟩, .inl stored⟩, wired.locked, ?_⟩
  · exact Option.some.inj (same.symm.trans stored)
  · intro id writer other found has
    exact (wired.no_conn (.inr (by rw [given]; rfl)) found has).elim

omit wired

end Changes

section Steps

variable {state next : State} {party : Party} {conn : Nat} {report : Report}

theorem eq_of_report (found : state.report party = some (conn, report)) :
    match party with
    | .writer id => state.writers id = some (.reporting conn report)
    | .ping other => other = conn ∧ state.pings other = some (.reporting report)
    | .reader => state.reader = .reporting conn report
    | .closer => state.closer = .reporting conn report := by
  cases party with
  | writer _ | reader | closer =>
    simp only [State.report] at found
    split at found <;> cases found
    assumption
  | ping other =>
    simp only [State.report] at found
    split at found <;> cases found
    exact ⟨rfl, ‹_›⟩

theorem setReport_wired {before after : Report} (wired : Wired state.toWires)
    (found : state.report party = some (conn, before)) :
    Wired (state.setReport conn after party).toWires := by
  have stage := eq_of_report found
  cases party with
  | writer id =>
    refine wired.stepWriter stage nofun ?_ nofun
    intro _ same
    cases same
    exact wired.writing id _ conn stage rfl
  | reader => exact wired.moveReader stage (wired.stage_at stage) fun _ kept => kept
  | ping | closer => exact wired

theorem step_wired (state : State) (action : Action) (next : State) (wired : Wired state.toWires)
    (undisturbed : Undisturbed state action) (stepped : step state action = some next) :
    Wired next.toWires := by
  cases action <;> dsimp only [step] at stepped <;> revert stepped
  case enter id =>
    fun_cases State.enter state id <;> rintro ⟨⟩
    rename_i fresh
    refine wired.moveWriter ?_ (fun _ _ held => held) ?_ ?_
    · rintro _ ⟨⟩ notAdmitted
      exact (notAdmitted rfl).elim
    · rintro _ conn ⟨⟩ ⟨⟩
    · intro conn cleared
      cases fresh.1.symm.trans cleared
  case release id =>
    fun_cases State.release state id <;> rintro ⟨⟩
    rename_i found
    refine wired.moveWriter nofun (fun _ _ held => held) nofun ?_
    intro conn cleared
    cases found.symm.trans cleared
  case lockWrite id =>
    fun_cases State.lockWrite state id <;> rintro ⟨⟩
    rename_i found unlocked
    refine wired.moveWriter (fun _ _ _ => rfl) ?_ ?_ ?_
    · intro other _ held
      cases unlocked.symm.trans held
    · rintro _ conn ⟨⟩ ⟨⟩
    · intro conn cleared
      cases found.symm.trans cleared
  case check id =>
    fun_cases State.check state id <;> rintro ⟨⟩
    · rename_i found _
      exact wired.endWrite found nofun nofun
    · rename_i found _
      exact wired.stepWriter found nofun nofun nofun
  case openWriter id ok =>
    fun_cases State.openWriter state id ok <;> rintro ⟨⟩
    all_goals
      rename_i stored found _
      refine wired.stepWriter found nofun ?_ nofun
      rintro _ ⟨⟩
      exact ⟨wired.stage.attached stored, undisturbed⟩
  case writeDone id ok =>
    fun_cases State.writeDone state id ok <;> rintro ⟨⟩
    · rename_i found _
      exact wired.endWrite found nofun nofun
    · rename_i found _
      refine wired.stepWriter found nofun ?_ nofun
      rintro _ ⟨⟩
      exact wired.writing id _ _ found rfl
  case clear id =>
    fun_cases State.clear state id <;> rintro ⟨⟩
    exact wired.clear ‹_›
  case cancelWrite id =>
    fun_cases State.cancelWrite state id <;> rintro ⟨⟩
    exact wired.cancelWrite ‹_›
  case unlockWrite id =>
    fun_cases State.unlockWrite state id <;> rintro ⟨⟩
    rename_i found
    exact wired.endWrite found nofun nofun
  case tryLock party =>
    fun_cases State.tryLock state party <;> rintro ⟨⟩
    · rename_i found _
      exact setReport_wired wired found
    · rename_i found _
      exact setReport_wired wired found
  case assign party =>
    fun_cases State.assign state party <;> rintro ⟨⟩
    rename_i found
    exact setReport_wired wired found
  case readFails =>
    fun_cases State.readFails state <;> rintro ⟨⟩
    rename_i reading
    exact wired.moveReader reading (wired.stage_at reading).1 fun _ kept => kept
  case stop =>
    fun_cases State.stop state <;> rintro ⟨⟩
    rename_i told
    exact wired.moveReader told (wired.stage_at told) fun _ kept => kept
  case cancelRead =>
    fun_cases State.cancelRead state <;> rintro ⟨⟩
    rename_i cancelling
    exact (wired.cancel state.connCtxCancel).moveReader cancelling (wired.stage_at cancelling)
      fun _ kept => kept
  case drop =>
    fun_cases State.drop state <;> rintro ⟨⟩
    exact wired.drop ‹_› _ _
  case log =>
    fun_cases State.log state <;> rintro ⟨⟩
    rename_i logging
    exact wired.moveReader logging (wired.stage_at logging) fun _ kept => kept
  case sweep =>
    fun_cases State.sweep state <;> rintro ⟨⟩
    · rename_i sweeping
      exact wired.moveReader sweeping (wired.stage_at sweeping) fun _ kept => kept
    · rename_i sweeping _
      exact wired.moveReader sweeping (wired.stage_at sweeping) fun _ kept => kept
  case redial success =>
    fun_cases State.redial state success <;> rintro ⟨⟩
    all_goals
      rename_i redialing _
      exact wired.moveReader redialing (wired.stage_at redialing) fun _ kept => kept
  case place =>
    fun_cases State.place state <;> rintro ⟨⟩
    exact wired.place ‹_›
  case give =>
    fun_cases State.give state <;> rintro ⟨⟩
    exact wired.give ‹_›
  case arm =>
    fun_cases State.arm state <;> rintro ⟨⟩
    exact wired.arm ‹_›
  case go =>
    fun_cases State.go state <;> rintro ⟨⟩
    rename_i ready
    exact wired.moveReader ready (wired.stage_at ready) fun _ kept => kept
  case startPing conn =>
    fun_cases State.startPing state conn <;> rintro ⟨⟩
    all_goals
      rename_i started
      have kept : started.toWires = state.toWires := by
        simp only [started]
        split <;> rfl
      exact (congrArg Wired kept).mpr wired
  -- The ping loops and `Close` touch the wires only where they cancel.
  case resume conn => fun_cases State.resume state conn <;> rintro ⟨⟩; exact wired
  case pingFails conn => fun_cases State.pingFails state conn <;> rintro ⟨⟩; exact wired
  case pingEnds conn => fun_cases State.pingEnds state conn <;> rintro ⟨⟩; exact wired
  case pingCancel conn =>
    fun_cases State.pingCancel state conn <;> rintro ⟨⟩
    exact wired.cancel state.connCtxCancel
  case close => fun_cases State.close state <;> rintro ⟨⟩; exact wired
  case closeExit => fun_cases State.closeExit state <;> rintro ⟨⟩; exact wired
  case closeFails => fun_cases State.closeFails state <;> rintro ⟨⟩; exact wired
  case closeEnds => fun_cases State.closeEnds state <;> rintro ⟨⟩; exact wired
  case closeCancel =>
    fun_cases State.closeCancel state <;> rintro ⟨⟩
    exact wired.cancel state.connCtxCancel

end Steps

/-! ### A live reader is served -/

/-- Not closed, no `errorMode` on its way, and no writer between `s.conn = nil` and the
call of `s.connCtxCancel` that follows it. -/
structure State.Settled (state : State) : Prop where
  notClosed : state.state ≠ .closed
  recovered : ∀ conn, state.tails conn = none
  assigned : ∀ id conn, state.writers id ≠ some (.cleared conn)

/-- Where `takeConn` is not disturbed, a live reader reads what is in `s.conn`, or its
context is cancelled. A writer that has just cleared `s.conn` is about to cancel that
context. -/
theorem live_reader_served (pingInterval : Nat) (actions : List Action) (last : State)
    (reached : run step (initial pingInterval) actions = some last)
    (undisturbed : Guarded step Undisturbed (initial pingInterval) actions) (conn : Nat)
    (live : last.reader = .reading conn) :
    (last.Settled → last.conn = some conn ∨ last.cancelled conn = true) ∧
      ∀ id other, last.writers id = some (.cleared other) → other = conn ∧ last.connCtxCancel = conn := by
  have wired : Wired last.toWires := @run_invariant _ _ _ _ (fun state => Wired state.toWires)
    step_wired _ _ _ (initial_wired pingInterval) undisturbed reached
  constructor
  · intro settled
    rcases (wired.stage_at live).2 with stored | cancelled | ⟨id, cleared⟩
    · exact .inl stored
    · exact .inr cancelled
    · exact (settled.assigned id conn cleared).elim
  · intro id other cleared
    have attached := (wired.writing id _ other cleared rfl).1
    rw [live] at attached
    cases attached
    exact ⟨rfl, (wired.stage_at live).1.1.2⟩

/-- The loss of the first connection, up to the next `takeConn`. -/
def firstLoss : List Action :=
  [.go, .startPing 0, .readFails, .tryLock .reader, .assign .reader, .stop, .cancelRead, .drop, .log,
    .sweep, .redial true]

theorem undisturbed_of_no_writer {state : State} {actions : List Action}
    (none : ∀ action ∈ actions, ∀ id ok, action ≠ .openWriter id ok) :
    Guarded step Undisturbed state actions := by
  apply guarded_of_forall
  intro before action member
  cases action with
  | openWriter id ok => exact (none _ member id ok rfl).elim
  | _ => trivial

theorem live_reader_served_again :
    ∃ last, run step (initial 1) (firstLoss ++ [.place, .give, .arm, .go, .startPing 1, .resume 1]) =
        some last ∧
      last.Settled ∧ last.reader = .reading 1 ∧ (last.conn = some 1 ∨ last.cancelled 1 = true) := by
  cases reached : run step (initial 1)
      (firstLoss ++ [.place, .give, .arm, .go, .startPing 1, .resume 1]) with
  | none => cases reached
  | some last =>
    have settled : last.Settled := by
      cases reached
      refine ⟨nofun, fun conn => ?_, nofun⟩
      match conn with
      | 0 => rfl
      | 1 => rfl
      | _ + 2 => rfl
    have live : last.reader = .reading 1 := by
      cases reached
      rfl
    have served := live_reader_served 1 _ last reached
      (undisturbed_of_no_writer (by simp [firstLoss])) 1 live
    exact ⟨last, rfl, settled, live, served.1 settled⟩

/-- A request that `newClientMark` admits during the recovery asks for a writer between
the assignments of `takeConn`: it gets the new connection with the old context, fails,
and clears `s.conn`. The reader of the new connection then reads for ever while every
write is refused. -/
theorem disturbed_reader_unserved :
    ∃ last, run step (initial 1) (firstLoss ++
        [.enter 0, .lockWrite 0, .place, .check 0, .openWriter 0 false, .tryLock (.writer 0),
          .assign (.writer 0), .clear 0, .cancelWrite 0, .unlockWrite 0, .release 0, .give, .arm, .go,
          .startPing 1, .resume 1]) = some last ∧
      last.Settled ∧ last.state = .running ∧ last.reader = .reading 1 ∧ last.conn = none ∧
      last.cancelled 1 = false := by
  refine ⟨_, rfl, ⟨nofun, fun conn => ?_, fun id conn => ?_⟩, rfl, rfl, rfl, rfl⟩
  · match conn with
    | 0 => rfl
    | 1 => rfl
    | _ + 2 => rfl
  · match id with
    | 0 => exact nofun
    | _ + 1 => exact nofun

end Wsfs.Client.Reconnect
