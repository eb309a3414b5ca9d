/-
`activeReqs`, the marks and the lifecycle state of a client session, under any number of
goroutines that call methods or use write streams, the reader goroutine with `stopConn`
and recoveries, and calls of `Close`.

The goroutines run their programs. `newClientMark` and `releaseClientMark` are taken
apart into the steps between which other goroutines may come; the other calls of a
program are answered in any way. A mark is a mutex that does not know its owner, and to
unlock one that is not locked is fatal.
-/

import Wsfs.Base.Ledger
import Wsfs.Client.Balance

namespace Wsfs.Client.Accounting

open Wsfs.Base Wsfs.Protocol Function

/-! ### State -/

/-- Between two calls to the session, in the loop of `newClientMark` with the mark it is
about to try, or in `releaseClientMark` with the mark unlocked. -/
inductive Pc
  | between
  | entering (candidate : Option Mark)
  | leaving
deriving DecidableEq, Repr

structure Goroutine where
  job : Job
  trace : List CallEvent
  pc : Pc

/-- The reader goroutine. From `stopping` on it is in `stopConn`. There `probed` has
locked a free mark and unlocks it next, and `notifying` has found the mark locked and
waits for room in its channel. -/
inductive Reader
  | reading
  | stopping
  | dropping (graceful : Bool)
  | sweeping (graceful : Bool) (index : Nat)
  | probed (graceful : Bool) (index : Nat)
  | notifying (graceful : Bool) (index : Nat)
  | redialing
  | exited
deriving DecidableEq, Repr

/-- The call of `Close` that has got past its waiting: it has the connection that it read
under the lock, and then it is in the close handshake. -/
inductive Closer
  | idle
  | chosen (conn : Option Nat)
  | shaking (conn : Nat)
deriving DecidableEq, Repr

structure State where
  state : SessionState
  activeReqs : Int
  conn : Option Nat
  lastMark : UInt32
  marks : Mark → Bool
  calls : Nat → Option Goroutine
  reader : Reader
  /-- Goroutines of lost connections that have installed the next one and are about to
  set the state to running. -/
  resuming : Nat
  dialed : Nat
  closer : Closer
  fatal : Bool

/-- `NewSession` and `Start`, on connection 0. -/
def initial : State where
  state := .running
  activeReqs := 0
  conn := some 0
  lastMark := 0
  marks := fun _ => false
  calls := fun _ => none
  reader := .reading
  resuming := 0
  dialed := 1
  closer := .idle
  fatal := false

inductive Action
  | call (id : Nat) (job : Job)
  | enter (id : Nat)
  | next (id : Nat)
  | tryLock (id : Nat)
  | talk (id : Nat) (event : CallEvent) (lost : Bool)
  | unlock (id : Nat) (clientMark : Mark)
  | leave (id : Nat)
  | lose
  | stop
  | drop
  | sweep
  | unprobe
  | notify
  | redial (success : Bool)
  | resume
  | close
  | handshake

/-! ### Steps -/

namespace State

def setCall (state : State) (id : Nat) (goroutine : Goroutine) : State :=
  { state with calls := update state.calls id (some goroutine) }

def unlockMark (state : State) (clientMark : Mark) : State :=
  if state.marks clientMark then { state with marks := update state.marks clientMark false }
  else { state with fatal := true }

def call (state : State) (id : Nat) (job : Job) : Option State :=
  if (state.calls id).isNone then some (state.setCall id ⟨job, [], .between⟩) else none

/-- The first part of `newClientMark`. -/
def enter (state : State) (id : Nat) : Option State :=
  match state.calls id with
  | some ⟨job, trace, .between⟩ =>
      if state.state = .closing ∨ state.state = .closed then
        some (state.setCall id ⟨job, trace ++ [⟨.newClientMark, none⟩], .between⟩)
      else
        some { state.setCall id ⟨job, trace, .entering none⟩ with activeReqs := state.activeReqs + 1 }
  | _ => none

/-- `uint8(s.lastMark.Add(1))` -/
def next (state : State) (id : Nat) : Option State :=
  match state.calls id with
  | some ⟨job, trace, .entering none⟩ =>
      let lastMark := state.lastMark + 1
      some { state.setCall id ⟨job, trace, .entering (some lastMark.toUInt8)⟩ with lastMark := lastMark }
  | _ => none

def tryLock (state : State) (id : Nat) : Option State :=
  match state.calls id with
  | some ⟨job, trace, .entering (some clientMark)⟩ =>
      if state.marks clientMark then some (state.setCall id ⟨job, trace, .entering none⟩)
      else
        some { state.setCall id ⟨job, trace ++ [⟨.newClientMark, some clientMark⟩], .between⟩ with
          marks := update state.marks clientMark true }
  | _ => none

/-- What a call to the session leaves of `s.conn`, which a failed write clears. A write
may fail in `writeDone` unseen by the caller. -/
def connAfter (state : State) (lost : Bool) : CallEvent → Option Nat
  | ⟨.beginRequest _ _, ok⟩ => if ok then state.conn else none
  | ⟨.writeStruct _, error⟩ => if error.isSome || lost then none else state.conn
  | _ => state.conn

def talk (state : State) (id : Nat) (event : CallEvent) (lost : Bool) : Option State :=
  match state.calls id, event.op with
  | _, .newClientMark => none
  | _, .releaseClientMark _ => none
  | some ⟨job, trace, .between⟩, _ =>
      some { state.setCall id ⟨job, trace ++ [event], .between⟩ with conn := state.connAfter lost event }
  | _, _ => none

/-- `releaseClientMark` up to the unlock of the mark. -/
def unlock (state : State) (id : Nat) (clientMark : Mark) : Option State :=
  match state.calls id with
  | some ⟨job, trace, .between⟩ =>
      some ((state.unlockMark clientMark).setCall id
        ⟨job, trace ++ [⟨.releaseClientMark clientMark, ()⟩], .leaving⟩)
  | _ => none

def leave (state : State) (id : Nat) : Option State :=
  match state.calls id with
  | some ⟨job, trace, .leaving⟩ =>
      some { state.setCall id ⟨job, trace, .between⟩ with activeReqs := state.activeReqs - 1 }
  | _ => none

/-- A read fails, and the deferred `stopConn` begins. -/
def lose (state : State) : Option State :=
  match state.reader with
  | .reading => some { state with reader := .stopping }
  | _ => none

/-- The lifecycle part of `stopConn`. -/
def stop (state : State) : Option State :=
  match state.reader with
  | .stopping =>
      some { state with
        state := if state.state = .closing ∨ state.state = .closed then state.state else .recovering
        reader := .dropping (state.state = .closing) }
  | _ => none

def drop (state : State) : Option State :=
  match state.reader with
  | .dropping graceful => some { state with conn := none, reader := .sweeping graceful 0 }
  | _ => none

/-- One round of `notifyAllMarksWithDesc` up to the outcome of `TryLock`, and what
follows the last round. -/
def sweep (state : State) : Option State :=
  match state.reader with
  | .sweeping graceful index =>
      if index < 256 then
        if state.marks (UInt8.ofNat index) then some { state with reader := .notifying graceful index }
        else
          some { state with
            marks := update state.marks (UInt8.ofNat index) true
            reader := .probed graceful index }
      else if graceful then some { state with state := .closed, reader := .exited }
      else some { state with reader := .redialing }
  | _ => none

def unprobe (state : State) : Option State :=
  match state.reader with
  | .probed graceful index =>
      some { state.unlockMark (UInt8.ofNat index) with reader := .sweeping graceful (index + 1) }
  | _ => none

def notify (state : State) : Option State :=
  match state.reader with
  | .notifying graceful index => some { state with reader := .sweeping graceful (index + 1) }
  | _ => none

/-- `errorMode`, with `takeConn` on success. -/
def redial (state : State) (success : Bool) : Option State :=
  match state.reader with
  | .redialing =>
      if success then
        some { state with
          conn := some state.dialed
          reader := .reading
          dialed := state.dialed + 1
          resuming := state.resuming + 1 }
      else some { state with state := .closed, reader := .exited }
  | _ => none

def resume (state : State) : Option State :=
  if 0 < state.resuming then
    some { state with
      resuming := state.resuming - 1
      state := if state.state = .recovering then .running else state.state }
  else none

/-- `Close`, where its waiting ends. -/
def close (state : State) : Option State :=
  if state.state = .running ∧ state.activeReqs = 0 then
    some { state with state := .closing, closer := .chosen state.conn }
  else none

/-- `Close` outside the lock: `exit` if there is no connection, and `conn.Close`
otherwise. -/
def handshake (state : State) : Option State :=
  match state.closer with
  | .chosen none => some { state with state := .closed, closer := .idle }
  | .chosen (some conn) => some { state with closer := .shaking conn }
  | _ => none

end State

def step (state : State) (action : Action) : Option State :=
  if state.fatal then none
  else
    match action with
    | .call id job => state.call id job
    | .enter id => state.enter id
    | .next id => state.next id
    | .tryLock id => state.tryLock id
    | .talk id event lost => state.talk id event lost
    | .unlock id clientMark => state.unlock id clientMark
    | .leave id => state.leave id
    | .lose => state.lose
    | .stop => state.stop
    | .drop => state.drop
    | .sweep => state.sweep
    | .unprobe => state.unprobe
    | .notify => state.notify
    | .redial success => state.redial success
    | .resume => state.resume
    | .close => state.close
    | .handshake => state.handshake

/-! ### The programs of the goroutines -/

section Programs

variable (s : Session) (depth : Nat)

def State.Offers (state : State) (id : Nat) (event : CallEvent) : Prop :=
  ∀ goroutine, state.calls id = some goroutine →
    (goroutine.job.program s depth).Begins (goroutine.trace ++ [event])

def Follows (state : State) : Action → Prop
  | .enter id => state.Offers s depth id ⟨.newClientMark, none⟩
  | .tryLock id => ∀ clientMark, state.Offers s depth id ⟨.newClientMark, some clientMark⟩
  | .talk id event _ => state.Offers s depth id event
  | .unlock id clientMark => state.Offers s depth id ⟨.releaseClientMark clientMark, ()⟩
  | _ => True

end Programs

/-! ### Marks and requests -/

def Reader.probes (reader : Reader) (clientMark : Mark) : Bool :=
  match reader with
  | .probed _ index => UInt8.ofNat index == clientMark
  | _ => false

def State.requestLocked (state : State) (clientMark : Mark) : Bool :=
  state.marks clientMark && !state.reader.probes clientMark

def everyMark : List Mark := (List.range 256).map UInt8.ofNat

def State.requestMarks (state : State) : List Mark := everyMark.filter state.requestLocked

def Goroutine.hold (goroutine : Goroutine) : Option Mark :=
  match holdAfter goroutine.trace with
  | .holds clientMark => some clientMark
  | _ => none

def State.hold (state : State) (id : Nat) : Option Mark := (state.calls id).bind Goroutine.hold

/-- In `newClientMark` or in `releaseClientMark`. -/
def State.busy (state : State) (id : Nat) : Bool :=
  (state.calls id).any fun goroutine => goroutine.pc ≠ .between

/-- No request is outstanding: no goroutine holds a mark, is about to take one or has yet
to be taken from the count. -/
structure State.Quiet (state : State) : Prop where
  marks : ∀ clientMark, state.requestLocked clientMark = false
  activeReqs : state.activeReqs = 0
  calls : ∀ id, state.busy id = false ∧ state.hold id = none

structure Accounted (state : State) : Prop where
  counted : (state.requestMarks.length : Int) ≤ state.activeReqs
  nonneg : 0 ≤ state.activeReqs
  closing : state.state = .closing → state.Quiet
  handshake : ∀ conn, state.closer = .shaking conn → state.Quiet
  unharmed : state.fatal = false

/-! ### Marks in the programs -/

theorem holdAfter_append (trace : List CallEvent) (event : CallEvent) :
    holdAfter (trace ++ [event]) = (holdAfter trace).watch event := by
  rw [holdAfter, List.foldl_append]
  rfl

variable {hold : Hold}

theorem free_of_newClientMark {answer : Option Mark}
    (unbroken : hold.watch ⟨.newClientMark, answer⟩ ≠ .broken) : hold = .free := by
  by_contra notFree
  apply unbroken
  cases answer with
  | none => exact if_neg notFree
  | some clientMark => exact if_neg notFree

theorem holds_of_release {clientMark : Mark}
    (unbroken : hold.watch ⟨.releaseClientMark clientMark, ()⟩ ≠ .broken) :
    hold = .holds clientMark := by
  by_contra other
  exact unbroken (if_neg other)

theorem watch_of_talk {event : CallEvent} (notNew : event.op ≠ .newClientMark)
    (notRelease : ∀ clientMark, event.op ≠ .releaseClientMark clientMark)
    (unbroken : hold.watch event ≠ .broken) : hold.watch event = hold := by
  obtain ⟨op, answer⟩ := event
  cases op with
  | newClientMark => exact (notNew rfl).elim
  | releaseClientMark clientMark => exact (notRelease clientMark rfl).elim
  | writeStruct body => rfl
  | beginRequest _ _ | receive _ =>
    by_contra changed
    exact unbroken (if_neg fun holds => changed (if_pos holds))

/-! ### What a step changes -/

def State.Shut (state : State) : Prop := state.state = .closing ∨ state.state = .closed

section Invariant

variable (s : Session) (depth : Nat)

/-- The goroutine has come as far in its program as its trace says. -/
def Goroutine.OnTrack (goroutine : Goroutine) : Prop :=
  (goroutine.job.program s depth).Begins goroutine.trace

structure Sound (state : State) : Prop where
  onTrack : ∀ id goroutine, state.calls id = some goroutine → goroutine.OnTrack s depth
  ledger : Ledger state.hold state.busy state.requestLocked state.activeReqs
  probed : ∀ clientMark, state.reader.probes clientMark = true → state.marks clientMark = true
  closing : state.state = .closing ∨ state.closer ≠ .idle →
    state.Shut ∧ ∀ id, state.busy id = false ∧ state.hold id = none
  unharmed : state.fatal = false

/-- What the books see of a step: a goroutine speaks, enters, takes a mark, gives it back
or leaves, the sweep tries a mark, the lifecycle moves, or `Close` gets through. -/
inductive Change (state : State) : State → Prop
  | speaks {conn : Option Nat} {lastMark : UInt32} (id : Nat) (goroutine : Goroutine)
      (onTrack : goroutine.OnTrack s depth) (hold : goroutine.hold = state.hold id)
      (busy : decide (goroutine.pc ≠ .between) = state.busy id) :
      Change state { state.setCall id goroutine with conn := conn, lastMark := lastMark }
  | enters (id : Nat) (goroutine : Goroutine) (admitted : ¬state.Shut) (free : state.hold id = none)
      (idle : state.busy id = false) (onTrack : goroutine.OnTrack s depth)
      (hold : goroutine.hold = none) (busy : goroutine.pc ≠ .between) :
      Change state { state.setCall id goroutine with activeReqs := state.activeReqs + 1 }
  | takes (id : Nat) (goroutine : Goroutine) (clientMark : Mark) (entered : state.busy id = true)
      (unlocked : state.marks clientMark = false) (onTrack : goroutine.OnTrack s depth)
      (hold : goroutine.hold = some clientMark) (idle : goroutine.pc = .between) :
      Change state { state.setCall id goroutine with
        marks := update state.marks clientMark true }
  | gives (id : Nat) (goroutine : Goroutine) (clientMark : Mark)
      (held : state.hold id = some clientMark) (onTrack : goroutine.OnTrack s depth)
      (hold : goroutine.hold = none) (busy : goroutine.pc ≠ .between) :
      Change state { state.setCall id goroutine with
        marks := update state.marks clientMark false }
  | leaves (id : Nat) (goroutine : Goroutine) (entered : state.busy id = true)
      (onTrack : goroutine.OnTrack s depth) (hold : goroutine.hold = state.hold id)
      (idle : goroutine.pc = .between) :
      Change state { state.setCall id goroutine with activeReqs := state.activeReqs - 1 }
  | probes (graceful : Bool) (index : Nat) (sweeping : state.reader = .sweeping graceful index)
      (unlocked : state.marks (UInt8.ofNat index) = false) :
      Change state { state with
        marks := update state.marks (UInt8.ofNat index) true
        reader := .probed graceful index }
  | unprobes (graceful : Bool) (index : Nat) (probed : state.reader = .probed graceful index) :
      Change state { state with
        marks := update state.marks (UInt8.ofNat index) false
        reader := .sweeping graceful (index + 1) }
  | lives {life : SessionState} {conn : Option Nat} {reader : Reader} {resuming dialed : Nat}
      {closer : Closer} (probes : reader.probes = state.reader.probes)
      (closing : life = .closing → state.state = .closing)
      (shut : state.Shut → life = .closing ∨ life = .closed)
      (chosen : closer ≠ .idle → state.closer ≠ .idle) :
      Change state { state with
        state := life
        conn := conn
        reader := reader
        resuming := resuming
        dialed := dialed
        closer := closer }
  | closes (done : state.activeReqs = 0) :
      Change state { state with state := .closing, closer := .chosen state.conn }

end Invariant

section Steps

variable {s : Session} {depth : Nat} {state next : State} {id : Nat} {goroutine : Goroutine}

theorem hold_eq (found : state.calls id = some goroutine) : state.hold id = goroutine.hold := by
  rw [State.hold, found]
  rfl

theorem busy_eq (found : state.calls id = some goroutine) :
    state.busy id = decide (goroutine.pc ≠ .between) := by
  rw [State.busy, found]
  rfl

variable {job : Job} {trace : List CallEvent} {pc : Pc}

theorem hold_of_free (free : holdAfter trace = .free) : Goroutine.hold ⟨job, trace, pc⟩ = none := by
  rw [Goroutine.hold]
  simp only [free]

theorem hold_of_holds {clientMark : Mark} (holds : holdAfter trace = .holds clientMark) :
    Goroutine.hold ⟨job, trace, pc⟩ = some clientMark := by
  rw [Goroutine.hold]
  simp only [holds]

theorem State.Offers.unbroken {event : CallEvent} (offers : state.Offers s depth id event)
    (found : state.calls id = some goroutine) : (holdAfter goroutine.trace).watch event ≠ .broken := by
  rw [← holdAfter_append]
  exact Job.begins_unbroken (offers goroutine found)

theorem step_change (action : Action) (sound : Sound s depth state)
    (follows : Follows s depth state action) (stepped : step state action = some next) :
    Change s depth state next := by
  unfold step at stepped
  rw [sound.unharmed, if_neg Bool.false_ne_true] at stepped
  cases action <;> dsimp only at stepped <;> revert stepped
  case call id job =>
    fun_cases State.call state id job <;> rintro ⟨⟩
    rename_i fresh
    have absent : state.calls id = none := Option.isNone_iff_eq_none.mp fresh
    refine .speaks id ⟨job, [], .between⟩ (Prog.begins_nil _) ?_ ?_
    · rw [State.hold, absent]
      rfl
    · rw [State.busy, absent]
      rfl
  case enter id =>
    fun_cases State.enter state id <;> rintro ⟨⟩
    · rename_i found _
      have free := free_of_newClientMark (follows.unbroken found)
      refine .speaks id _ (follows _ found) ?_ (busy_eq found).symm
      rw [hold_eq found, hold_of_free free]
      apply hold_of_free
      rw [holdAfter_append, free]
      rfl
    · rename_i found admitted
      have free := free_of_newClientMark (follows.unbroken found)
      have onTrack := sound.onTrack id _ found
      refine .enters id _ admitted ?_ (busy_eq found) onTrack (hold_of_free free) nofun
      rw [hold_eq found, hold_of_free free]
  case next id =>
    fun_cases State.next state id <;> rintro ⟨⟩
    rename_i found _
    have onTrack := sound.onTrack id _ found
    exact .speaks id _ onTrack (hold_eq found).symm (busy_eq found).symm
  case tryLock id =>
    fun_cases State.tryLock state id <;> rintro ⟨⟩
    · rename_i found _
      have onTrack := sound.onTrack id _ found
      exact .speaks id _ onTrack (hold_eq found).symm (busy_eq found).symm
    · rename_i clientMark found unlocked
      have free := free_of_newClientMark ((follows clientMark).unbroken found)
      refine .takes id _ clientMark (busy_eq found) (Bool.eq_false_iff.mpr unlocked)
        (follows clientMark _ found) ?_ rfl
      apply hold_of_holds
      rw [holdAfter_append, free]
      rfl
  case talk id event lost =>
    fun_cases State.talk state id event lost <;> rintro ⟨⟩
    rename_i found notNew notRelease
    refine .speaks id _ (follows _ found) ?_ (busy_eq found).symm
    rw [hold_eq found, Goroutine.hold, Goroutine.hold]
    simp only [holdAfter_append, watch_of_talk notNew notRelease (follows.unbroken found)]
  case unlock id clientMark =>
    fun_cases State.unlock state id clientMark <;> intro stepped
    · rename_i found
      have holds := holds_of_release (follows.unbroken found)
      have held : state.hold id = some clientMark := by
        rw [hold_eq found, hold_of_holds holds]
      -- The mark is locked, so the unlock is not fatal.
      have locked := (sound.ledger.held clientMark).mpr ⟨id, held⟩
      rw [State.requestLocked, Bool.and_eq_true] at locked
      rw [State.unlockMark, if_pos locked.1] at stepped
      cases stepped
      refine .gives id _ clientMark held (follows _ found) ?_ nofun
      apply hold_of_free
      rw [holdAfter_append, holds]
      exact if_pos rfl
    · cases stepped
  case leave id =>
    fun_cases State.leave state id <;> rintro ⟨⟩
    rename_i found
    have onTrack := sound.onTrack id _ found
    exact .leaves id _ (busy_eq found) onTrack (hold_eq found).symm rfl
  case sweep =>
    fun_cases State.sweep state <;> rintro ⟨⟩
    · rename_i sweeping _ _
      exact .lives (by rw [sweeping]; rfl) id id id
    · rename_i sweeping _ unlocked
      exact .probes _ _ sweeping (Bool.eq_false_iff.mpr unlocked)
    · rename_i sweeping
      exact .lives (by rw [sweeping]; rfl) nofun (fun _ => .inr rfl) id
    · rename_i sweeping _ _
      exact .lives (by rw [sweeping]; rfl) id id id
  case unprobe =>
    fun_cases State.unprobe state <;> intro stepped
    · rename_i graceful index probed
      have locked := sound.probed (UInt8.ofNat index) (by rw [probed]; exact beq_self_eq_true _)
      rw [State.unlockMark, if_pos locked] at stepped
      cases stepped
      exact .unprobes graceful index probed
    · cases stepped
  case lose =>
    fun_cases State.lose state <;> rintro ⟨⟩
    rename_i reading
    exact .lives (by rw [reading]; rfl) id id id
  case stop =>
    fun_cases State.stop state <;> rintro ⟨⟩
    rename_i stopping
    refine .lives (by rw [stopping]; rfl) ?_ ?_ id
    · intro closing
      split at closing
      · exact closing
      · cases closing
    · intro shut
      rw [if_pos (show state.state = .closing ∨ state.state = .closed from shut)]
      exact shut
  case drop =>
    fun_cases State.drop state <;> rintro ⟨⟩
    rename_i dropping
    exact .lives (by rw [dropping]; rfl) id id id
  case notify =>
    fun_cases State.notify state <;> rintro ⟨⟩
    rename_i notifying
    exact .lives (by rw [notifying]; rfl) id id id
  case redial success =>
    fun_cases State.redial state success <;> rintro ⟨⟩
    · rename_i redialing _
      exact .lives (by rw [redialing]; rfl) id id id
    · rename_i redialing _
      exact .lives (by rw [redialing]; rfl) nofun (fun _ => .inr rfl) id
  case resume =>
    fun_cases State.resume state <;> rintro ⟨⟩
    refine .lives rfl ?_ ?_ id
    · intro closing
      split at closing
      · cases closing
      · exact closing
    · intro shut
      have notRecovering : state.state ≠ .recovering := by
        intro recovering
        rw [State.Shut, recovering] at shut
        exact shut.elim nofun nofun
      rw [if_neg notRecovering]
      exact shut
  case close =>
    fun_cases State.close state <;> rintro ⟨⟩
    rename_i through
    exact .closes through.2
  case handshake =>
    fun_cases State.handshake state <;> rintro ⟨⟩
    · exact .lives rfl nofun (fun _ => .inr rfl) (fun other => (other rfl).elim)
    · rename_i conn chosen
      refine .lives rfl id id ?_
      intro _
      rw [chosen]
      exact nofun

end Steps

/-! ### Books along runs -/

section Runs

variable {s : Session} {depth : Nat} {state next : State} {id : Nat} {goroutine : Goroutine}

theorem initial_sound (s : Session) (depth : Nat) : Sound s depth initial where
  onTrack _ _ := nofun
  ledger := Ledger.empty
  probed _ := nofun
  closing started := started.elim nofun fun other => (other rfl).elim
  unharmed := rfl

variable (calls : next.calls = update state.calls id (some goroutine))
include calls

theorem hold_update :
    next.hold = update state.hold id goroutine.hold := by
  funext other
  rw [State.hold, calls]
  exact apply_update (fun _ found => found.bind Goroutine.hold) state.calls id _ other

theorem busy_update :
    next.busy = update state.busy id (goroutine.pc ≠ .between) := by
  funext other
  rw [State.busy, calls]
  exact apply_update
    (fun _ found => found.any fun goroutine => decide (goroutine.pc ≠ .between)) state.calls id _ other

theorem hold_kept (hold : goroutine.hold = state.hold id) : next.hold = state.hold := by
  rw [hold_update calls, hold, update_eq_self]

theorem busy_kept (busy : decide (goroutine.pc ≠ .between) = state.busy id) : next.busy = state.busy := by
  rw [busy_update calls, busy, update_eq_self]

omit calls

theorem Sound.onTrack_update (sound : Sound s depth state) (onTrack : goroutine.OnTrack s depth)
    (other : Nat) (found : Goroutine)
    (inside : update state.calls id (some goroutine) other = some found) :
    found.OnTrack s depth := by
  rcases update_eq_some inside with ⟨same, _⟩ | ⟨before, _⟩
  · cases same
    exact onTrack
  · exact sound.onTrack other found before

variable {clientMark : Mark} {locked : Bool}

theorem requestLocked_setCall (unprobed : state.reader.probes clientMark = false) :
    State.requestLocked { state.setCall id goroutine with
      marks := update state.marks clientMark locked } =
        update state.requestLocked clientMark locked := by
  funext other
  change (update state.marks clientMark locked other && !state.reader.probes other) = _
  by_cases same : other = clientMark
  · rw [same, update_self, update_self, unprobed]
    exact Bool.and_true locked
  · rw [update_of_ne same, update_of_ne same]
    rfl

theorem Sound.probed_update (sound : Sound s depth state)
    (unprobed : state.reader.probes clientMark = false) (other : Mark)
    (probed : state.reader.probes other = true) :
    update state.marks clientMark locked other = true := by
  have apart : other ≠ clientMark := by
    rintro rfl
    rw [unprobed] at probed
    cases probed
  rw [update_of_ne apart]
  exact sound.probed other probed

theorem requestLocked_probe (marks : next.marks = update state.marks clientMark locked)
    (apart : ∀ other, other ≠ clientMark →
      next.reader.probes other = false ∧ state.reader.probes other = false)
    (before : state.requestLocked clientMark = false)
    (after : (locked && !next.reader.probes clientMark) = false) :
    next.requestLocked = state.requestLocked := by
  funext other
  by_cases same : other = clientMark
  · rw [same, before, State.requestLocked, marks, update_self]
    exact after
  · rw [State.requestLocked, State.requestLocked, marks, update_of_ne same,
      (apart other same).1, (apart other same).2]

theorem Change.keeps_quiet (change : Change s depth state next) (shut : state.Shut)
    (quiet : ∀ id, state.busy id = false ∧ state.hold id = none) :
    next.Shut ∧ ∀ id, next.busy id = false ∧ next.hold id = none := by
  cases change with
  | speaks id goroutine onTrack hold busy =>
    refine ⟨shut, ?_⟩
    rw [hold_kept rfl hold, busy_kept rfl busy]
    exact quiet
  | enters id goroutine admitted => exact (admitted shut).elim
  | takes id goroutine clientMark entered =>
    rw [(quiet id).1] at entered
    cases entered
  | gives id goroutine clientMark held =>
    rw [(quiet id).2] at held
    cases held
  | leaves id goroutine entered =>
    rw [(quiet id).1] at entered
    cases entered
  | probes graceful index sweeping unlocked => exact ⟨shut, quiet⟩
  | unprobes graceful index probed => exact ⟨shut, quiet⟩
  | lives probes closing keepsShut =>
    exact ⟨keepsShut shut, quiet⟩
  | closes done => exact ⟨.inl rfl, quiet⟩

theorem Change.sound (change : Change s depth state next) (sound : Sound s depth state) :
    Sound s depth next := by
  have closing (before : state.state = .closing ∨ state.closer ≠ .idle) :
      next.Shut ∧ ∀ id, next.busy id = false ∧ next.hold id = none :=
    change.keeps_quiet (sound.closing before).1 (sound.closing before).2
  cases change with
  | speaks id goroutine onTrack hold busy =>
    refine ⟨sound.onTrack_update onTrack, ?_, sound.probed, closing, sound.unharmed⟩
    rw [hold_kept rfl hold, busy_kept rfl busy]
    exact sound.ledger
  | enters id goroutine admitted free idle onTrack hold busy =>
    refine ⟨sound.onTrack_update onTrack, ?_, sound.probed, closing, sound.unharmed⟩
    rw [hold_kept rfl (hold.trans free.symm), busy_update rfl, decide_eq_true busy]
    exact sound.ledger.enter free idle
  | takes id goroutine clientMark entered unlocked onTrack hold idle =>
    have unprobed : state.reader.probes clientMark = false := by
      by_contra probed
      rw [sound.probed clientMark (Bool.eq_true_of_not_eq_false probed)] at unlocked
      cases unlocked
    refine ⟨sound.onTrack_update onTrack, ?_, sound.probed_update unprobed, closing, sound.unharmed⟩
    rw [hold_update rfl, busy_update rfl, hold, idle, requestLocked_setCall unprobed]
    apply sound.ledger.acquire entered
    rw [State.requestLocked, unlocked]
    rfl
  | gives id goroutine clientMark held onTrack hold busy =>
    have locked := (sound.ledger.held clientMark).mpr ⟨id, held⟩
    rw [State.requestLocked, Bool.and_eq_true, Bool.not_eq_true'] at locked
    refine ⟨sound.onTrack_update onTrack, ?_, sound.probed_update locked.2, closing, sound.unharmed⟩
    rw [hold_update rfl, busy_update rfl, hold, decide_eq_true busy, requestLocked_setCall locked.2]
    exact sound.ledger.release held
  | leaves id goroutine entered onTrack hold idle =>
    refine ⟨sound.onTrack_update onTrack, ?_, sound.probed, closing, sound.unharmed⟩
    rw [hold_kept rfl hold, busy_update rfl, idle]
    exact sound.ledger.leave entered
  | probes graceful index sweeping unlocked =>
    have apart (other : Mark) (different : other ≠ UInt8.ofNat index) :
        (Reader.probed graceful index).probes other = false ∧ state.reader.probes other = false := by
      refine ⟨beq_eq_false_iff_ne.mpr different.symm, ?_⟩
      rw [sweeping]
      rfl
    have before : state.requestLocked (UInt8.ofNat index) = false := by
      rw [State.requestLocked, unlocked]
      rfl
    have after : (true && !(Reader.probed graceful index).probes (UInt8.ofNat index)) = false := by
      rw [Reader.probes, beq_self_eq_true]
      rfl
    refine ⟨sound.onTrack, ?_, ?_, closing, sound.unharmed⟩
    · rw [requestLocked_probe rfl apart before after]
      exact sound.ledger
    · intro other probed
      rw [← beq_iff_eq.mp probed]
      exact update_self ..
  | unprobes graceful index probed =>
    have apart (other : Mark) (different : other ≠ UInt8.ofNat index) :
        (Reader.sweeping graceful (index + 1)).probes other = false ∧
          state.reader.probes other = false := by
      refine ⟨rfl, ?_⟩
      rw [probed]
      exact beq_eq_false_iff_ne.mpr different.symm
    have before : state.requestLocked (UInt8.ofNat index) = false := by
      rw [State.requestLocked, probed, Reader.probes, beq_self_eq_true]
      exact Bool.and_false _
    refine ⟨sound.onTrack, ?_, nofun, closing, sound.unharmed⟩
    rw [requestLocked_probe rfl apart before rfl]
    exact sound.ledger
  | @lives life conn reader resuming dialed closer probes wasClosing keepsShut chosen =>
    refine ⟨sound.onTrack, ?_, ?_, ?_, sound.unharmed⟩
    · have locked : State.requestLocked { state with
          state := life, conn := conn, reader := reader, resuming := resuming, dialed := dialed,
          closer := closer } = state.requestLocked := by
        funext clientMark
        rw [State.requestLocked, State.requestLocked, probes]
      rw [locked]
      exact sound.ledger
    · rw [probes]
      exact sound.probed
    · intro started
      exact closing (started.imp wasClosing chosen)
  | closes done =>
    refine ⟨sound.onTrack, sound.ledger, sound.probed, fun _ => ⟨.inl rfl, ?_⟩, sound.unharmed⟩
    have ledger := sound.ledger
    rw [done] at ledger
    exact ledger.quiet

theorem step_sound (state : State) (action : Action) (next : State) (sound : Sound s depth state)
    (follows : Follows s depth state action) (stepped : step state action = some next) :
    Sound s depth next :=
  (step_change action sound follows stepped).sound sound

theorem step_settled (state : State) (action : Action) (next : State)
    (settled : Sound s depth state ∧ state.Shut ∧ ∀ id, state.busy id = false ∧ state.hold id = none)
    (follows : Follows s depth state action) (stepped : step state action = some next) :
    Sound s depth next ∧ next.Shut ∧ ∀ id, next.busy id = false ∧ next.hold id = none := by
  obtain ⟨sound, shut, quiet⟩ := settled
  have change := step_change action sound follows stepped
  exact ⟨change.sound sound, change.keeps_quiet shut quiet⟩

theorem Sound.quiet (sound : Sound s depth state)
    (calls : ∀ id, state.busy id = false ∧ state.hold id = none) : state.Quiet where
  marks clientMark := by
    by_contra locked
    obtain ⟨id, holds⟩ := (sound.ledger.held clientMark).mp (Bool.eq_true_of_not_eq_false locked)
    rw [(calls id).2] at holds
    cases holds
  activeReqs := sound.ledger.count_zero calls
  calls := calls

theorem everyMark_nodup : everyMark.Nodup := by
  apply List.Nodup.map_on _ List.nodup_range
  intro left leftIn right rightIn same
  have equal := congrArg UInt8.toNat same
  rw [UInt8.toNat_ofNat', UInt8.toNat_ofNat'] at equal
  rw [List.mem_range] at leftIn rightIn
  omega

theorem Sound.accounted (sound : Sound s depth state) : Accounted state where
  counted := by
    apply sound.ledger.length_le (everyMark_nodup.filter _)
    intro clientMark member
    exact (List.mem_filter.mp member).2
  nonneg := sound.ledger.length_le List.nodup_nil nofun
  closing closing := sound.quiet (sound.closing (.inl closing)).2
  handshake conn shaking := by
    apply sound.quiet
    refine (sound.closing (.inr ?_)).2
    rw [shaking]
    exact nofun
  unharmed := sound.unharmed

end Runs

/-- The counter covers every mark that a request has locked. Once the session is
closing, there is no request, and none gets in whatever happens next; the close
handshake is started in no other state. -/
theorem no_request_while_closing (s : Session) (depth : Nat) (before after : List Action)
    (middle last : State) (reached : run step initial before = some middle)
    (follows : Guarded step (Follows s depth) initial before)
    (continued : run step middle after = some last)
    (followsOn : Guarded step (Follows s depth) middle after) :
    Accounted middle ∧ (middle.state = .closing → last.Shut ∧ last.Quiet) := by
  have sound : Sound s depth middle := run_invariant step_sound (initial_sound s depth) follows reached
  refine ⟨sound.accounted, fun closing => ?_⟩
  have settled := run_invariant step_settled ⟨sound, sound.closing (.inl closing)⟩ followsOn continued
  exact ⟨settled.2.1, settled.1.quiet settled.2.2⟩

/-- One call of `CmdSync`, and `Close` after it. -/
private def syncAndClose : List Action :=
  [.call 0 (.method (.cmdSync 3)), .enter 0, .next 0, .tryLock 0,
    .talk 0 ⟨.beginRequest 1 Protocol.cmdSync, true⟩ false, .talk 0 ⟨.writeStruct (.cmdSync 3), none⟩ false,
    .talk 0 ⟨.receive 1, ⟨errorOK, []⟩⟩ false, .unlock 0 1, .leave 0, .close, .handshake]

private theorem syncAndClose_follows :
    Guarded step (Follows ⟨[], false⟩ 0) initial syncAndClose := by
  refine .cons rfl trivial (.cons rfl ?_ (.cons rfl trivial ?_))
  · intro goroutine found
    cases found
    exact .inr ⟨none, _, rfl, rfl⟩
  refine .cons rfl ?_ (.cons rfl ?_ (.cons rfl ?_ (.cons rfl ?_ (.cons rfl ?_ ?_))))
  · intro clientMark goroutine found
    cases found
    exact .inr ⟨some clientMark, _, rfl, .inl rfl⟩
  · intro goroutine found
    cases found
    exact .inr ⟨some 1, _, rfl, .inr ⟨true, _, rfl, .inl rfl⟩⟩
  · intro goroutine found
    cases found
    exact .inr ⟨some 1, _, rfl, .inr ⟨true, _, rfl, .inr ⟨none, _, rfl, .inl rfl⟩⟩⟩
  · intro goroutine found
    cases found
    exact .inr ⟨some 1, _, rfl, .inr ⟨true, _, rfl, .inr ⟨none, _, rfl, .inr ⟨_, _, rfl, .inl rfl⟩⟩⟩⟩
  · intro goroutine found
    cases found
    exact .inr ⟨some 1, _, rfl, .inr ⟨true, _, rfl, .inr ⟨none, _, rfl, .inr ⟨_, _, rfl,
      .inr ⟨(), _, rfl, rfl⟩⟩⟩⟩⟩
  exact .cons rfl trivial (.cons rfl trivial (.cons rfl trivial trivial))

theorem no_request_while_closing_sync :
    ∃ middle last, run step initial syncAndClose = some middle ∧
      run step middle [.lose, .stop, .drop, .sweep] = some last ∧
      middle.closer = .shaking 0 ∧ Accounted middle ∧ last.Shut ∧ last.Quiet := by
  cases reached : run step initial syncAndClose with
  | none => cases reached
  | some middle =>
    cases continued : run step middle [.lose, .stop, .drop, .sweep] with
    | none => cases reached; cases continued
    | some last =>
      have accounted := no_request_while_closing ⟨[], false⟩ 0 syncAndClose
        [.lose, .stop, .drop, .sweep] middle last reached syncAndClose_follows continued
        ⟨trivial, fun _ _ => ⟨trivial, fun _ _ => ⟨trivial, fun _ _ => ⟨trivial, fun _ _ => trivial⟩⟩⟩⟩
      cases reached
      cases continued
      exact ⟨_, _, rfl, rfl, rfl, accounted.1, accounted.2 rfl⟩

/-- With no request at all, the sweep of `stopConn` locks every free mark for a moment,
after the loss of a connection as well as while the session is closing. -/
theorem sweep_locks_free_mark :
    (∃ state, run step initial [.lose, .stop, .drop, .sweep] = some state ∧
      state.activeReqs = 0 ∧ state.marks 0 = true) ∧
    (∃ state, run step initial [.close, .handshake, .lose, .stop, .drop, .sweep] = some state ∧
      state.state = .closing ∧ state.marks 0 = true) :=
  ⟨⟨_, rfl, rfl, rfl⟩, ⟨_, rfl, rfl, rfl⟩⟩

end Wsfs.Client.Accounting
