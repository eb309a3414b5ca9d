/-
One client session over all its connections: the requests with their marks, the
one-slot response channels, the reader goroutine with `stopConn` and
`notifyAllMarksWithDesc`, redials, and the server at the other end.

Every goroutine moves in atomic steps, chosen in any order, and a blocked step has
no successor. A request is one holder of a mark: it writes, receives and releases in
whatever order and number the `Cmd*` methods and write streams do. A write is one
step, since it holds `writeLock` from `beginRequest` to `writeDone`.

A buffer carries the request it was made for. No code sees that.
-/

import Wsfs.Base.Codec
import Wsfs.Base.Run
import Wsfs.Protocol.Const

namespace Wsfs.Client

open Wsfs.Base Wsfs.Protocol Function

abbrev Mark := UInt8

inductive SessionState
  | running
  | recovering
  | closing
  | closed
deriving DecidableEq, Repr

/-! ### Buffers -/

/-- An answer is a message of the server, a notice a synthetic error of
`notifyAllMarksWithDesc`. The last message that the server sends for a command is
terminal. -/
inductive Cause
  | answer (request : Nat) (terminal : Bool)
  | notice (request : Nat)
deriving DecidableEq, Repr

def Cause.request : Cause → Nat
  | .answer request _ => request
  | .notice request => request

structure Buffer where
  mark : Mark
  code : UInt8
  payload : Bytes
  cause : Cause
deriving DecidableEq, Repr

def writeRspError (desc : Bytes) : Option Bytes := Codec.str.write desc

/-- The buffer that the loop of `notifyAllMarksWithDesc` makes for a held mark. -/
def notice (mark : Mark) (desc : String) (request : Nat) : Buffer :=
  let desc := desc.toUTF8.toList.take maxErrorDescLength
  let payload := (writeRspError desc).getD
    ((writeRspError "bad synthetic error response".toUTF8.toList).getD [])
  ⟨mark, errorIo, payload, .notice request⟩

/-! ### State -/

/-- A command as the server has it: the mark on it, and the request that wrote it. -/
structure Command where
  request : Nat
  mark : Mark
deriving DecidableEq, Repr

/-- One connection: the commands that the server has yet to end, and what it has sent
and the reader has not read. -/
structure Link where
  pending : List Command
  wire : List Buffer
deriving DecidableEq, Repr

/-- Where a request stands. `entering` is in the loop of `newClientMark`, with the mark
it is about to try; `leaving` has unlocked its mark and has yet to lower
`activeReqs`. -/
inductive Request
  | entering (candidate : Option Mark)
  | holding (mark : Mark)
  | leaving
  | done
deriving DecidableEq, Repr

/-- The reader goroutine. From `stopping` on it is in `stopConn`: it sets the lifecycle
state, then drops the connection, then goes over the marks. There `probed` has locked
a free mark and unlocks it next, and `notifying` has found the mark held and waits for
room in its channel. -/
inductive Reader
  | reading (conn : Nat)
  | delivering (conn : Nat) (buffer : Buffer)
  | stopping
  | dropping (graceful : Bool)
  | sweeping (graceful : Bool) (index : Nat)
  | probed (graceful : Bool) (index : Nat)
  | notifying (graceful : Bool) (index : Nat) (buffer : Buffer)
  | redialing
  | exited
deriving DecidableEq, Repr

structure Taken where
  request : Nat
  buffer : Buffer
deriving DecidableEq, Repr

structure State where
  state : SessionState
  activeReqs : Nat
  conn : Option Nat
  lastMark : UInt32
  marks : Mark → Option Nat
  responses : Mark → Option Buffer
  requests : Nat → Option Request
  reader : Reader
  /-- Goroutines of lost connections that have installed the next one and are about to
  set the state to running. -/
  resuming : Nat
  links : Nat → Link
  dialed : Nat
  taken : List Taken

/-- `NewSession` and `Start`, on connection 0. -/
def initial : State where
  state := .running
  activeReqs := 0
  conn := some 0
  lastMark := 0
  marks := fun _ => none
  responses := fun _ => none
  requests := fun _ => none
  reader := .reading 0
  resuming := 0
  links := fun _ => ⟨[], []⟩
  dialed := 1
  taken := []

/-- What became of a write on a connection. A write that fails may have reached the
server all the same. -/
inductive Outcome
  | sent
  | failed (arrived : Bool)
deriving DecidableEq, Repr

def Outcome.arrived : Outcome → Bool
  | .sent => true
  | .failed arrived => arrived

inductive Action
  | enter (request : Nat)
  | next (request : Nat)
  | tryLock (request : Nat)
  | write (request : Nat) (continues : Bool) (outcome : Outcome)
  | take (request : Nat)
  | release (request : Nat)
  | leave (request : Nat)
  | answer (conn index : Nat) (code : UInt8) (payload : Bytes) (terminal : Bool)
  | read
  | deliver
  | lose
  | stop
  | drop
  | sweep
  | unlock
  | notify
  | redial (success : Bool)
  | resume
  | close
deriving DecidableEq, Repr

/-! ### Steps -/

namespace State

def setRequest (state : State) (request : Nat) (value : Request) : State :=
  { state with requests := update state.requests request (some value) }

def setMark (state : State) (mark : Mark) (holder : Option Nat) : State :=
  { state with marks := update state.marks mark holder }

def setResponse (state : State) (mark : Mark) (buffer : Option Buffer) : State :=
  { state with responses := update state.responses mark buffer }

def setLink (state : State) (conn : Nat) (link : Link) : State :=
  { state with links := update state.links conn link }

/-- The first part of `newClientMark`. -/
def enter (state : State) (request : Nat) : Option State :=
  if state.requests request = none ∧ state.state ≠ .closing ∧ state.state ≠ .closed then
    some { state.setRequest request (.entering none) with activeReqs := state.activeReqs + 1 }
  else none

/-- `uint8(s.lastMark.Add(1))` -/
def next (state : State) (request : Nat) : Option State :=
  match state.requests request with
  | some (.entering none) =>
      let lastMark := state.lastMark + 1
      some { state.setRequest request (.entering (some lastMark.toUInt8)) with lastMark := lastMark }
  | _ => none

/-- A mark is locked by its holder, or for a moment by the sweep of the reader. -/
def locked (state : State) (mark : Mark) : Bool :=
  (state.marks mark).isSome ||
    match state.reader with
    | .probed _ index => UInt8.ofNat index == mark
    | _ => false

def tryLock (state : State) (request : Nat) : Option State :=
  match state.requests request with
  | some (.entering (some mark)) =>
      if state.locked mark then some (state.setRequest request (.entering none))
      else some ((state.setMark mark (some request)).setRequest request (.holding mark))
  | _ => none

/-- A message on the current connection. `continues` is a further message of a write
stream: it belongs to the command that opened the stream. -/
def write (state : State) (request : Nat) (continues : Bool) (outcome : Outcome) : Option State :=
  match state.requests request with
  | some (.holding mark) =>
      match state.conn with
      | none => some state
      | some conn =>
          let link := state.links conn
          let pending :=
            if outcome.arrived && !continues then link.pending ++ [⟨request, mark⟩] else link.pending
          some { state.setLink conn { link with pending := pending } with
            conn := if outcome = .sent then some conn else none }
  | _ => none

def take (state : State) (request : Nat) : Option State :=
  match state.requests request with
  | some (.holding mark) =>
      (state.responses mark).map fun buffer =>
        { state.setResponse mark none with taken := ⟨request, buffer⟩ :: state.taken }
  | _ => none

/-- `releaseClientMark` up to the unlock of the mark. -/
def release (state : State) (request : Nat) : Option State :=
  match state.requests request with
  | some (.holding mark) => some ((state.setMark mark none).setRequest request .leaving)
  | _ => none

def leave (state : State) (request : Nat) : Option State :=
  match state.requests request with
  | some .leaving =>
      some { state.setRequest request .done with activeReqs := state.activeReqs - 1 }
  | _ => none

/-- The server sends a message for a command that it has not ended. -/
def answer (state : State) (conn index : Nat) (code : UInt8) (payload : Bytes) (terminal : Bool) :
    Option State :=
  let link := state.links conn
  (link.pending[index]?).map fun command =>
    let buffer : Buffer := ⟨command.mark, code, payload, .answer command.request terminal⟩
    state.setLink conn
      ⟨if terminal then link.pending.eraseIdx index else link.pending, link.wire ++ [buffer]⟩

def read (state : State) : Option State :=
  match state.reader with
  | .reading conn =>
      match (state.links conn).wire with
      | buffer :: rest =>
          some { state.setLink conn { state.links conn with wire := rest } with
            reader := .delivering conn buffer }
      | [] => none
  | _ => none

def deliver (state : State) : Option State :=
  match state.reader with
  | .delivering conn buffer =>
      if state.responses buffer.mark = none then
        some { state.setResponse buffer.mark (some buffer) with reader := .reading conn }
      else none
  | _ => none

/-- A read fails: the connection is lost, closed by either side, or cancelled by a
failed write or ping. -/
def lose (state : State) : Option State :=
  match state.reader with
  | .reading _ => some { state with reader := .stopping }
  | _ => none

/-- The lifecycle part of `stopConn`. -/
def stop (state : State) : Option State :=
  match state.reader with
  | .stopping =>
      some { state with
        state := if state.state = .closing ∨ state.state = .closed then state.state else .recovering
        reader := .dropping (state.state = .closing) }
  | _ => none

def drop (state : State) : Option State :=
  match state.reader with
  | .dropping graceful => some { state with conn := none, reader := .sweeping graceful 0 }
  | _ => none

/-- The text of `notifyAllMarksClosed` and of `notifyAllMarksError`. -/
def noticeText (graceful : Bool) : String :=
  if graceful then "Session closed" else "Session error mode"

/-- One round of `notifyAllMarksWithDesc` up to the outcome of `TryLock`, and what
follows the last round. -/
def sweep (state : State) : Option State :=
  match state.reader with
  | .sweeping graceful index =>
      if index < 256 then
        match state.marks (UInt8.ofNat index) with
        | none => some { state with reader := .probed graceful index }
        | some request =>
            some { state with
              reader := .notifying graceful index
                (notice (UInt8.ofNat index) (noticeText graceful) request) }
      else if graceful then some { state with state := .closed, reader := .exited }
      else some { state with reader := .redialing }
  | _ => none

def unlock (state : State) : Option State :=
  match state.reader with
  | .probed graceful index => some { state with reader := .sweeping graceful (index + 1) }
  | _ => none

def notify (state : State) : Option State :=
  match state.reader with
  | .notifying graceful index buffer =>
      if state.responses (UInt8.ofNat index) = none then
        some { state.setResponse (UInt8.ofNat index) (some buffer) with
          reader := .sweeping graceful (index + 1) }
      else none
  | _ => none

/-- `errorMode`, with `takeConn` on success. -/
def redial (state : State) (success : Bool) : Option State :=
  match state.reader with
  | .redialing =>
      if success then
        some { state with
          conn := some state.dialed
          reader := .reading state.dialed
          dialed := state.dialed + 1
          resuming := state.resuming + 1 }
      else some { state with state := .closed, reader := .exited }
  | _ => none

def resume (state : State) : Option State :=
  if 0 < state.resuming then
    some { state with
      resuming := state.resuming - 1
      state := if state.state = .recovering then .running else state.state }
  else none

/-- `Close`, past its waiting. -/
def close (state : State) : Option State :=
  if state.state = .running ∧ state.activeReqs = 0 then
    some { state with state := if state.conn = none then .closed else .closing }
  else none

end State

def step (state : State) : Action → Option State
  | .enter request => state.enter request
  | .next request => state.next request
  | .tryLock request => state.tryLock request
  | .write request continues outcome => state.write request continues outcome
  | .take request => state.take request
  | .release request => state.release request
  | .leave request => state.leave request
  | .answer conn index code payload terminal => state.answer conn index code payload terminal
  | .read => state.read
  | .deliver => state.deliver
  | .lose => state.lose
  | .stop => state.stop
  | .drop => state.drop
  | .sweep => state.sweep
  | .unlock => state.unlock
  | .notify => state.notify
  | .redial success => state.redial success
  | .resume => state.resume
  | .close => state.close

/-! ### Sweeps that find no request -/

def freeRounds (count : Nat) : List Action := (List.replicate count [.sweep, .unlock]).flatten

theorem mem_freeRounds {count : Nat} {action : Action} (member : action ∈ freeRounds count) :
    action = .sweep ∨ action = .unlock := by
  obtain ⟨round, inRounds, inRound⟩ := List.mem_flatten.mp member
  rw [List.eq_of_mem_replicate inRounds] at inRound
  simpa using inRound

theorem freeRounds_run {state : State} (free : ∀ mark, state.marks mark = none) (graceful : Bool)
    (count index : Nat) (inside : index + count ≤ 256) :
    run step { state with reader := .sweeping graceful index } (freeRounds count) =
      some { state with reader := .sweeping graceful (index + count) } := by
  induction count generalizing index with
  | zero => rfl
  | succ count ih =>
    have round : run step { state with reader := .sweeping graceful index } [.sweep, .unlock] =
        some { state with reader := .sweeping graceful (index + 1) } := by
      simp [run_cons, step, State.sweep, State.unlock, free, show index < 256 by omega]
    rw [freeRounds, List.replicate_succ, List.flatten_cons, run_append, round, Option.bind_some]
    have later := ih (index + 1) (by omega)
    rw [Nat.add_assoc, Nat.add_comm 1 count] at later
    exact later

end Wsfs.Client
