/-
Extended attributes under several clients. A value that does not fit into one command is
written by a sequence of requests: read the old value, set the first chunk, append the
others, and on an error put back what was read. The server does with every request what
its system calls do, and an append is two of them.

All calls are about one path and one key. A link and the file that it leads to have
attributes of their own, so the flag `NOFOLLOW` chooses between two objects.
-/

import Wsfs.Client.Commands

namespace Wsfs.Client.XAttr

open Wsfs.Base Wsfs.Protocol Function

/-! ### Requests -/

inductive Body
  | get (mode : UInt32)
  | set (value : Bytes) (mode : UInt32)
  | remove (mode : UInt32)
deriving DecidableEq, Repr

/-- What a call makes a request for: to write its value, to put the old one back, or
neither. -/
inductive Role
  | write
  | restore
  | ask
deriving DecidableEq, Repr

/-- How far the server has come with a request. -/
inductive Phase
  | sent
  | appending (old : Bytes)
  | executed (code : UInt8) (data : Bytes)
deriving DecidableEq, Repr

structure Flight where
  call : Nat
  role : Role
  body : Body
  phase : Phase
deriving DecidableEq, Repr

def setMode (mode : UInt32) : UInt32 := mode &&& ~~~xattrNofollow

def Body.mode : Body → UInt32
  | .get mode => mode
  | .set _ mode => mode
  | .remove mode => mode

/-! ### Clients -/

inductive Kind
  | set (value : Bytes) (mode : UInt32)
  | get (mode : UInt32)
  | remove (mode : UInt32)
deriving DecidableEq, Repr

/-- Where a call stands: it waits for the answer to its only request, to its probe, or to
one of its chunks, with the rest of the value to send. -/
inductive Pc
  | asking
  | probing
  | writing (rest : Bytes)
  | restoring (rest : Bytes) (code : UInt8)
  | returned (code : UInt8)
deriving DecidableEq, Repr

/-- `read` is what the probe has read, `flight` the request that the call waits for. -/
structure Running where
  s : Session
  kind : Kind
  read : Option Bytes
  flight : Nat
  pc : Pc
deriving DecidableEq, Repr

/-- What a call does after an answer: it sends a request, or returns. -/
inductive Next
  | send (role : Role) (body : Body) (pc : Pc)
  | stop (code : UInt8)
deriving DecidableEq, Repr

def Next.pc : Next → Pc
  | .send _ _ pc => pc
  | .stop code => .returned code

def Next.requests (call : Nat) : Next → List Flight
  | .send role body _ => [⟨call, role, body, .sent⟩]
  | .stop _ => []

section Calls

variable (path key : Bytes)

def chunkOf (value : Bytes) : Bytes := value.take (maxXAttrChunkSize path key)

def appendMode (mode : UInt32) : UInt32 := setxattrAppend ||| (mode &&& xattrNofollow)

/-- `restoreXAttr` up to its first request. The call returns `code` in the end. -/
def restoreXAttr (s : Session) (read : Option Bytes) (mode : UInt32) (code : UInt8) : Next :=
  let nofollow := mode &&& xattrNofollow
  match read with
  | none =>
      if s.validateXAttr key nofollow false ≠ errorOK then .stop code
      else .send .restore (.remove nofollow) (.restoring [] code)
  | some old =>
      if setXAttrFits path key old then .send .restore (.set old nofollow) (.restoring [] code)
      else if maxXAttrChunkSize path key = 0 then .stop code
      else
        .send .restore (.set (chunkOf path key old) nofollow)
          (.restoring (old.drop (chunkOf path key old).length) code)

/-- `sendSplitXAttr` up to its first request. -/
def splitXAttr (s : Session) (read : Option Bytes) (value : Bytes) (mode : UInt32) : Next :=
  if maxXAttrChunkSize path key = 0 then restoreXAttr path key s read mode errorRange
  else
    .send .write (.set (chunkOf path key value) mode)
      (.writing (value.drop (chunkOf path key value).length))

/-- The loop of `sendSplitXAttr`, for the value. -/
def appendXAttr (s : Session) (read : Option Bytes) (rest : Bytes) (mode : UInt32) : Next :=
  if rest = [] then .stop errorOK
  else if maxXAttrChunkSize path key = 0 then restoreXAttr path key s read mode errorRange
  else
    .send .write (.set (chunkOf path key rest) (appendMode mode))
      (.writing (rest.drop (chunkOf path key rest).length))

/-- The loop of `sendSplitXAttr`, for the old value. -/
def reappendXAttr (rest : Bytes) (mode : UInt32) (code : UInt8) : Next :=
  if rest = [] then .stop code
  else if maxXAttrChunkSize path key = 0 then .stop code
  else
    .send .restore (.set (chunkOf path key rest) (appendMode mode))
      (.restoring (rest.drop (chunkOf path key rest).length) code)

def cmdSetXAttr (s : Session) (value : Bytes) (mode : UInt32) : Next :=
  let code := s.validateXAttr key mode true
  if code ≠ errorOK then .stop code
  else if setXAttrFits path key value then .send .write (.set value mode) .asking
  else if !s.autoXAttrAppend then .stop errorRange
  else
    let nofollow := mode &&& xattrNofollow
    let code := s.validateXAttr key nofollow false
    if code ≠ errorOK then .stop code else .send .ask (.get nofollow) .probing

def begin (s : Session) : Kind → Next
  | .set value mode => cmdSetXAttr path key s value mode
  | .get mode =>
      let code := s.validateXAttr key mode false
      if code ≠ errorOK then .stop code else .send .ask (.get mode) .asking
  | .remove mode =>
      let code := s.validateXAttr key mode false
      if code ≠ errorOK then .stop code else .send .ask (.remove mode) .asking

/-- A call goes on with an answer, with what it has read from then on. -/
def Running.answered (call : Running) (code : UInt8) (data : Bytes) : Option (Option Bytes × Next) :=
  match call.kind, call.pc with
  | _, .asking => some (call.read, .stop code)
  | .set value mode, .probing =>
      if code = errorOK then some (some data, splitXAttr path key call.s (some data) value mode)
      else if code = errorNoXAttr then some (none, splitXAttr path key call.s none value mode)
      else some (call.read, .stop code)
  | .set _ mode, .writing rest =>
      if code ≠ errorOK then some (call.read, restoreXAttr path key call.s call.read mode code)
      else some (call.read, appendXAttr path key call.s call.read rest mode)
  | .set _ mode, .restoring rest result =>
      if code ≠ errorOK then some (call.read, .stop result)
      else some (call.read, reappendXAttr path key rest mode result)
  | _, _ => none

end Calls

/-! ### Server -/

/-- What one system call leads to: the answer with the value after it, or the second half of
an append. -/
inductive Outcome
  | answer (code : UInt8) (data : Bytes) (after : Option Bytes)
  | append (old : Bytes)
deriving DecidableEq, Repr

/-- `xattr.Get`, `xattr.Set` and `xattr.Remove`. A `fault` is an error that does not come
from the value. -/
def Body.execute (body : Body) (current : Option Bytes) (fault : Option UInt8) : Outcome :=
  match fault with
  | some code => .answer code [] current
  | none =>
      match body with
      | .get mode =>
          if setMode mode ≠ 0 then .answer errorInvalid [] current
          else
            match current with
            | none => .answer errorNoXAttr [] none
            | some value => .answer errorOK value (some value)
      | .remove mode =>
          if setMode mode ≠ 0 then .answer errorInvalid [] current
          else
            match current with
            | none => .answer errorNoXAttr [] none
            | some _ => .answer errorOK [] none
      | .set value mode =>
          if setMode mode = setxattrNormal then .answer errorOK [] (some value)
          else if setMode mode = setxattrAppend then
            match current with
            | none => .answer errorNoXAttr [] none
            | some old => .append old
          else if setMode mode = setxattrCreate then
            match current with
            | none => .answer errorOK [] (some value)
            | some old => .answer errorExists [] (some old)
          else if setMode mode = setxattrReplace then
            match current with
            | none => .answer errorNoXAttr [] none
            | some _ => .answer errorOK [] (some value)
          else .answer errorInvalid [] current

/-- The `set` after the `Get` of an append. -/
def Body.append (body : Body) (old : Bytes) (current : Option Bytes) (fault : Option UInt8) : Outcome :=
  match fault, body with
  | some code, _ => .answer code [] current
  | none, .set value _ => .answer errorOK [] (some (old ++ value))
  | none, _ => .answer errorInvalid [] current

/-- One request that the server has ended. -/
structure Entry where
  call : Nat
  role : Role
  ok : Bool
  changed : Bool
deriving DecidableEq, Repr

structure State where
  attrs : Nat → Option Bytes
  calls : Nat → Option Running
  flights : List Flight
  log : List Entry

def initial (attrs : Nat → Option Bytes) : State := ⟨attrs, fun _ => none, [], []⟩

inductive Action
  | start (call : Nat) (s : Session) (kind : Kind)
  | execute (flight : Nat) (fault : Option UInt8)
  | receive (call : Nat) (lost : Bool)

/-- The call goes on as `next` says. -/
def State.proceed (state : State) (id : Nat) (call : Running) (next : Next) : State :=
  { state with
    calls :=
      update state.calls id
        (some { call with flight := state.flights.length, pc := next.pc })
    flights := state.flights ++ next.requests id }

/-- The object that a request is about: the one that the path leads to, or with `NOFOLLOW`
the link itself. -/
def Body.place (object : Bool → Nat) (body : Body) : Nat :=
  object (decide (body.mode &&& xattrNofollow ≠ 0))

section Steps

variable (path key : Bytes) (object : Bool → Nat)

namespace State

/-- The server has ended a request: with an answer, and with the value `after` in place. -/
def finish (state : State) (index : Nat) (flight : Flight) (code : UInt8) (data : Bytes)
    (after : Option Bytes) : State :=
  let place := flight.body.place object
  { state with
    attrs := update state.attrs place after
    flights := state.flights.set index { flight with phase := .executed code data }
    log := ⟨flight.call, flight.role, code == errorOK, after != state.attrs place⟩ :: state.log }

def execute (state : State) (index : Nat) (fault : Option UInt8) : Option State :=
  match state.flights[index]? with
  | none => none
  | some flight =>
      let place := flight.body.place object
      let outcome :=
        match flight.phase with
        | .sent => some (flight.body.execute (state.attrs place) fault)
        | .appending old => some (flight.body.append old (state.attrs place) fault)
        | .executed _ _ => none
      outcome.map fun outcome =>
        match outcome with
        | .append old =>
            { state with flights := state.flights.set index { flight with phase := .appending old } }
        | .answer code data after => state.finish object index flight code data after

/-- What the client takes for the answer: that of the server, or an error of its session,
whether or not the request has reached the server. -/
def answerTo (state : State) (call : Running) (lost : Bool) : Option (UInt8 × Bytes) :=
  if lost then some (errorIo, [])
  else
    match state.flights[call.flight]? with
    | some ⟨_, _, _, .executed code data⟩ => some (code, data)
    | _ => none

def receive (state : State) (id : Nat) (lost : Bool) : Option State :=
  match state.calls id with
  | none => none
  | some call =>
      match state.answerTo call lost with
      | none => none
      | some (code, data) =>
          (call.answered path key code data).map fun (read, next) =>
            state.proceed id { call with read := read } next

end State

/-- Faults are errors, and none of them says that there is no attribute. -/
def step (state : State) : Action → Option State
  | .start id s kind =>
      if state.calls id = none then
        some (state.proceed id ⟨s, kind, none, 0, .asking⟩ (begin path key s kind))
      else none
  | .execute index fault =>
      if fault = some errorOK ∨ fault = some errorNoXAttr then none
      else state.execute object index fault
  | .receive id lost => state.receive path key id lost

end Steps

/-! ### Calls that create -/

def Running.Creates (call : Running) : Prop :=
  ∃ value mode, call.kind = .set value mode ∧ setMode mode = setxattrCreate

/-- None of the requests with the value of the call has succeeded. -/
def State.Unwritten (state : State) (id : Nat) : Prop :=
  ∀ entry ∈ state.log, entry.call = id → entry.role = .write → entry.ok = false

/-- A call that creates and has written nothing has changed nothing. -/
def Harmless (state : State) : Prop :=
  ∀ id call, state.calls id = some call → call.Creates → state.Unwritten id →
    ∀ entry ∈ state.log, entry.call = id → entry.changed = false

/-- When a request of such a call to put the old value back is executed, the attribute is as
the call has read it, and the old value fits into one request. -/
def Undisturbed (path key : Bytes) (object : Bool → Nat) (state : State) : Action → Prop
  | .execute index _ =>
      ∀ flight call, state.flights[index]? = some flight → flight.role = .restore →
        state.calls flight.call = some call → call.Creates → state.Unwritten flight.call →
        state.attrs (flight.body.place object) = call.read ∧
          ∀ old, call.read = some old → setXAttrFits path key old = true
  | _ => True

/-! ### Requests suit their calls -/

section Invariant

variable {path key : Bytes} {object : Bool → Nat}

def Pc.Rolling : Pc → Prop
  | .restoring _ _ => True
  | .returned _ => True
  | _ => False

/-- A request with which a call that has read `read` puts that back. -/
def Restores (path key : Bytes) : Option Bytes → Body → Prop
  | none, body => ∃ mode, body = .remove mode
  | some old, body =>
      ∃ value mode, body = .set value mode ∧
        (setXAttrFits path key old = true → value = old ∧ setMode mode = setxattrNormal)

def Suits (path key : Bytes) (call : Running) : Role → Body → Prop
  | .write, _ => True
  | .ask, body => call.Creates → ∃ mode, body = .get mode
  | .restore, body => call.pc.Rolling ∧ Restores path key call.read body

/-- There is more of the old value to send only where it did not fit. -/
def Rests (path key : Bytes) (read : Option Bytes) : Pc → Prop
  | .restoring rest _ => rest ≠ [] → ∃ old, read = some old ∧ setXAttrFits path key old = false
  | _ => True

def Sound (path key : Bytes) (call : Running) : Next → Prop
  | .send role body pc =>
      Rests path key call.read pc ∧ Suits path key { call with pc := pc } role body
  | .stop _ => True

variable {read : Option Bytes} {next : Next} {body : Body} {code : UInt8} {call : Running}
  {data old : Bytes} {state : State} {current after : Option Bytes} {fault : Option UInt8}
  {flight : Flight} {index : Nat}

theorem setMode_nofollow (mode : UInt32) : setMode (mode &&& xattrNofollow) = setxattrNormal := by
  unfold setMode
  rw [UInt32.and_assoc, UInt32.and_not_self, UInt32.and_zero]
  rfl

theorem restoreXAttr_sound (call : Running) (mode : UInt32) (code : UInt8) :
    Sound path key call (restoreXAttr path key call.s call.read mode code) := by
  unfold restoreXAttr
  cases read : call.read with
  | none =>
    dsimp only
    split
    · trivial
    · refine ⟨fun more => (more rfl).elim, trivial, ?_⟩
      dsimp only
      rw [read]
      exact ⟨_, rfl⟩
  | some old =>
    dsimp only
    split
    · refine ⟨fun more => (more rfl).elim, trivial, ?_⟩
      dsimp only
      rw [read]
      exact ⟨old, _, rfl, fun _ => ⟨rfl, setMode_nofollow mode⟩⟩
    · rename_i large
      split
      · trivial
      · refine ⟨fun _ => ⟨old, read, Bool.eq_false_iff.mpr large⟩, trivial, ?_⟩
        dsimp only
        rw [read]
        exact ⟨_, _, rfl, fun fits => (large fits).elim⟩

theorem splitXAttr_sound (call : Running) (value : Bytes) (mode : UInt32) :
    Sound path key call (splitXAttr path key call.s call.read value mode) := by
  unfold splitXAttr
  split
  · exact restoreXAttr_sound call mode errorRange
  · exact ⟨trivial, trivial⟩

theorem appendXAttr_sound (call : Running) (rest : Bytes) (mode : UInt32) :
    Sound path key call (appendXAttr path key call.s call.read rest mode) := by
  unfold appendXAttr
  split
  · trivial
  · split
    · exact restoreXAttr_sound call mode errorRange
    · exact ⟨trivial, trivial⟩

/-- More of the old value follows only where it did not fit, so every request with it
suits. -/
theorem reappendXAttr_sound (call : Running) (rest : Bytes) (mode : UInt32) (code : UInt8)
    (rests : Rests path key call.read (.restoring rest code)) :
    Sound path key call (reappendXAttr path key rest mode code) ∧
      (reappendXAttr path key rest mode code).pc.Rolling := by
  unfold reappendXAttr
  split
  · exact ⟨trivial, trivial⟩
  · rename_i more
    obtain ⟨old, read, large⟩ := rests more
    split
    · exact ⟨trivial, trivial⟩
    · refine ⟨⟨fun _ => ⟨old, read, large⟩, trivial, ?_⟩, trivial⟩
      dsimp only
      rw [read]
      exact ⟨_, _, rfl, fun fits => (Bool.eq_false_iff.mp large fits).elim⟩

theorem begin_sound (s : Session) (kind : Kind) (read : Option Bytes) (flight : Nat) (pc : Pc) :
    Sound path key ⟨s, kind, read, flight, pc⟩ (begin path key s kind) := by
  cases kind with
  | set value mode =>
    simp only [begin, cmdSetXAttr]
    split
    · trivial
    · split
      · exact ⟨trivial, trivial⟩
      · split
        · trivial
        · split
          · trivial
          · exact ⟨trivial, fun _ => ⟨_, rfl⟩⟩
  | get mode =>
    simp only [begin]
    split
    · trivial
    · exact ⟨trivial, fun _ => ⟨_, rfl⟩⟩
  | remove mode =>
    simp only [begin]
    split
    · trivial
    · refine ⟨trivial, ?_⟩
      rintro ⟨value, setting, other, _⟩
      cases other

theorem answered_sound (rests : Rests path key call.read call.pc)
    (answered : call.answered path key code data = some (read, next)) :
    Sound path key { call with read := read } next ∧
      (call.pc.Rolling → read = call.read ∧ next.pc.Rolling) := by
  obtain ⟨s, kind, old, flight, pc⟩ := call
  unfold Running.answered at answered
  dsimp only at answered rests ⊢
  split at answered
  · -- The only request of the call.
    cases answered
    exact ⟨trivial, nofun⟩
  · split at answered
    · cases answered
      exact ⟨splitXAttr_sound ⟨s, _, some data, flight, .probing⟩ _ _, nofun⟩
    · split at answered
      · cases answered
        exact ⟨splitXAttr_sound ⟨s, _, none, flight, .probing⟩ _ _, nofun⟩
      · cases answered
        exact ⟨trivial, nofun⟩
  · split at answered
    · cases answered
      exact ⟨restoreXAttr_sound ⟨s, _, _, flight, _⟩ _ _, nofun⟩
    · cases answered
      exact ⟨appendXAttr_sound ⟨s, _, _, flight, _⟩ _ _, nofun⟩
  · rename_i rest result
    split at answered
    · cases answered
      exact ⟨trivial, fun _ => ⟨rfl, trivial⟩⟩
    · cases answered
      obtain ⟨sound, rolling⟩ := reappendXAttr_sound ⟨s, _, _, flight, _⟩ _ _ _ rests
      exact ⟨sound, fun _ => ⟨rfl, rolling⟩⟩
  · cases answered

/-! ### Runs -/

structure Orderly (path key : Bytes) (state : State) : Prop where
  flights : ∀ flight ∈ state.flights,
    (∃ call, state.calls flight.call = some call ∧ Suits path key call flight.role flight.body) ∧
      ∀ old, flight.phase = .appending old → setMode flight.body.mode = setxattrAppend
  rests : ∀ id call, state.calls id = some call → Rests path key call.read call.pc
  entries : ∀ entry ∈ state.log, ∃ call, state.calls entry.call = some call ∧
    (call.Creates → state.Unwritten entry.call → entry.changed = false)

theorem orderly_initial (attrs : Nat → Option Bytes) : Orderly path key (initial attrs) where
  flights := nofun
  rests := nofun
  entries := nofun

theorem proceed_calls {id : Nat} (before : ∀ old, state.calls id = some old → call.kind = old.kind ∧
      (old.pc.Rolling → call.read = old.read ∧ next.pc.Rolling)) {other : Nat} {old : Running}
    (found : state.calls other = some old) :
    ∃ new, (state.proceed id call next).calls other = some new ∧ (new.Creates ↔ old.Creates) ∧
      ∀ role body, Suits path key old role body → Suits path key new role body := by
  by_cases same : other = id
  · subst same
    obtain ⟨kind, rolling⟩ := before old found
    refine ⟨_, update_self _ _ _, ?_, ?_⟩
    · unfold Running.Creates
      rw [kind]
    · intro role body suits
      cases role with
      | write => exact trivial
      | ask =>
        rintro ⟨value, mode, isSet, creates⟩
        exact suits ⟨value, mode, kind ▸ isSet, creates⟩
      | restore =>
        obtain ⟨read, still⟩ := rolling suits.1
        refine ⟨still, ?_⟩
        dsimp only
        rw [read]
        exact suits.2
  · refine ⟨old, ?_, Iff.rfl, fun _ _ suits => suits⟩
    rw [← found]
    exact update_of_ne same _ _

theorem Orderly.proceed (orderly : Orderly path key state) (id : Nat) (call : Running) (next : Next)
    (sound : Sound path key call next)
    (before : ∀ old, state.calls id = some old → call.kind = old.kind ∧
      (old.pc.Rolling → call.read = old.read ∧ next.pc.Rolling)) :
    Orderly path key (state.proceed id call next) := by
  constructor
  · intro flight member
    cases List.mem_append.mp member with
    | inl earlier =>
      obtain ⟨⟨old, found, suits⟩, appends⟩ := orderly.flights flight earlier
      obtain ⟨new, foundNew, _, suitsNew⟩ := proceed_calls before found
      exact ⟨⟨new, foundNew, suitsNew _ _ suits⟩, appends⟩
    | inr sent =>
      cases next with
      | stop code => cases sent
      | send role body pc =>
        cases List.mem_singleton.mp sent
        exact ⟨⟨_, update_self _ _ _, sound.2⟩, nofun⟩
  · intro other found foundIs
    cases update_eq_some foundIs with
    | inl new =>
      obtain ⟨same, _⟩ := new
      cases same
      cases next with
      | stop code => trivial
      | send role body pc => exact sound.1
    | inr old => exact orderly.rests other found old.1
  · intro entry member
    obtain ⟨old, found, harmless⟩ := orderly.entries entry member
    obtain ⟨new, foundNew, creates, _⟩ := @proceed_calls path key _ _ _ _ before _ _ found
    exact ⟨new, foundNew, fun creating unwritten => harmless (creates.mp creating) unwritten⟩

theorem execute_error (executed : body.execute current fault = .answer code data after)
    (error : code ≠ errorOK) : after = current := by
  unfold Body.execute at executed
  cases fault with
  | some fault =>
    cases executed
    rfl
  | none =>
    dsimp only at executed
    repeat' split at executed
    all_goals cases executed
    all_goals first | rfl | exact (error rfl).elim

theorem append_error (executed : body.append old current fault = .answer code data after)
    (error : code ≠ errorOK) : after = current := by
  unfold Body.append at executed
  split at executed
  · cases executed
    rfl
  · cases executed
    exact (error rfl).elim
  · cases executed
    rfl

theorem append_keeps (notSet : ∀ value mode, body ≠ .set value mode)
    (executed : body.append old current fault = .answer code data after) : after = current := by
  unfold Body.append at executed
  split at executed
  · cases executed
    rfl
  · rename_i value mode
    exact (notSet value mode rfl).elim
  · cases executed
    rfl

theorem get_keeps {mode : UInt32}
    (executed : (Body.get mode).execute current fault = .answer code data after) : after = current := by
  unfold Body.execute at executed
  cases fault with
  | some fault =>
    cases executed
    rfl
  | none =>
    dsimp only at executed
    split at executed
    · cases executed
      rfl
    · split at executed <;> (cases executed; rfl)

theorem restore_keeps (restores : Restores path key read body)
    (fits : ∀ old, read = some old → setXAttrFits path key old = true)
    (executed : body.execute read fault = .answer code data after) : after = read := by
  cases fault with
  | some fault =>
    cases executed
    rfl
  | none =>
    cases read with
    | none =>
      obtain ⟨mode, rfl⟩ := restores
      simp only [Body.execute] at executed
      split at executed <;> (cases executed; rfl)
    | some old =>
      obtain ⟨value, mode, rfl, exact_⟩ := restores
      obtain ⟨rfl, normal⟩ := exact_ (fits old rfl)
      simp only [Body.execute, normal, if_true] at executed
      cases executed
      rfl

theorem execute_append (executed : body.execute current fault = .append old) :
    setMode body.mode = setxattrAppend := by
  unfold Body.execute at executed
  cases fault with
  | some fault => cases executed
  | none =>
    dsimp only at executed
    repeat' split at executed
    any_goals cases executed
    assumption

def Answers (flight : Flight) (current : Option Bytes) (fault : Option UInt8) (code : UInt8)
    (data : Bytes) (after : Option Bytes) : Prop :=
  flight.phase = .sent ∧ flight.body.execute current fault = .answer code data after ∨
    ∃ old, flight.phase = .appending old ∧
      flight.body.append old current fault = .answer code data after

theorem Answers.error (answers : Answers flight current fault code data after) (error : code ≠ errorOK) :
    after = current := by
  cases answers with
  | inl executed => exact execute_error executed.2 error
  | inr appended =>
    obtain ⟨old, _, appended⟩ := appended
    exact append_error appended error

theorem execute_cases {next : State} (executed : state.execute object index fault = some next) :
    ∃ flight, state.flights[index]? = some flight ∧
      ((∃ old, setMode flight.body.mode = setxattrAppend ∧
          next = { state with
            flights := state.flights.set index { flight with phase := .appending old } }) ∨
        ∃ code data after,
          Answers flight (state.attrs (flight.body.place object)) fault code data after ∧
          next = state.finish object index flight code data after) := by
  unfold State.execute at executed
  split at executed
  · cases executed
  · rename_i flight found
    refine ⟨flight, found, ?_⟩
    obtain ⟨outcome, isOutcome, same⟩ := Option.map_eq_some_iff.mp executed
    cases phase : flight.phase with
    | sent =>
      rw [phase] at isOutcome
      cases result : flight.body.execute (state.attrs (flight.body.place object)) fault with
      | append old =>
        cases isOutcome.symm.trans (congrArg some result)
        exact .inl ⟨old, execute_append result, same.symm⟩
      | answer code data after =>
        cases isOutcome.symm.trans (congrArg some result)
        exact .inr ⟨code, data, after, .inl ⟨phase, result⟩, same.symm⟩
    | appending old =>
      rw [phase] at isOutcome
      cases result : flight.body.append old (state.attrs (flight.body.place object)) fault with
      | append other =>
        unfold Body.append at result
        split at result <;> cases result
      | answer code data after =>
        cases isOutcome.symm.trans (congrArg some result)
        exact .inr ⟨code, data, after, .inr ⟨old, phase, result⟩, same.symm⟩
    | executed code data =>
      rw [phase] at isOutcome
      cases isOutcome

theorem answer_keeps (answers : Answers flight current fault code data after)
    (suits : Suits path key call flight.role flight.body)
    (appends : ∀ old, flight.phase = .appending old → setMode flight.body.mode = setxattrAppend)
    (creates : call.Creates) (failed : flight.role = .write → code ≠ errorOK)
    (undisturbed : flight.role = .restore → current = call.read ∧
      ∀ old, call.read = some old → setXAttrFits path key old = true) : after = current := by
  obtain ⟨id, role, body, phase⟩ := flight
  dsimp only at appends suits failed undisturbed
  cases role with
  | write => exact answers.error (failed rfl)
  | ask =>
    obtain ⟨mode, rfl⟩ := suits creates
    cases answers with
    | inl executed => exact get_keeps executed.2
    | inr appended =>
      obtain ⟨old, _, appended⟩ := appended
      exact append_keeps (by intro _ _ same; cases same) appended
  | restore =>
    obtain ⟨rfl, fits⟩ := undisturbed rfl
    cases answers with
    | inl executed => exact restore_keeps suits.2 fits executed.2
    | inr appended =>
      obtain ⟨old, atAppend, appended⟩ := appended
      have restores := suits.2
      -- An append puts nothing back that fits.
      cases read : call.read with
      | none =>
        rw [read] at restores appended
        obtain ⟨mode, rfl⟩ := restores
        exact append_keeps (by intro _ _ same; cases same) appended
      | some value =>
        rw [read] at restores
        obtain ⟨_, mode, rfl, whole⟩ := restores
        have normal := (whole (fits value read)).2
        have append := appends old atAppend
        rw [Body.mode, normal] at append
        cases append

theorem Orderly.flights_set (orderly : Orderly path key state) (member : flight ∈ state.flights)
    {phase : Phase} (append : ∀ old, phase = .appending old → setMode flight.body.mode = setxattrAppend) :
    ∀ other ∈ state.flights.set index { flight with phase := phase },
      (∃ call, state.calls other.call = some call ∧ Suits path key call other.role other.body) ∧
        ∀ old, other.phase = .appending old → setMode other.body.mode = setxattrAppend := by
  intro other otherMember
  cases List.mem_or_eq_of_mem_set otherMember with
  | inl earlier => exact orderly.flights other earlier
  | inr same =>
    subst same
    exact ⟨(orderly.flights flight member).1, append⟩

theorem Orderly.execute {next : State} (orderly : Orderly path key state)
    (undisturbed : Undisturbed path key object state (.execute index fault))
    (executed : state.execute object index fault = some next) : Orderly path key next := by
  obtain ⟨flight, found, cases_⟩ := execute_cases executed
  have member := List.mem_of_getElem? found
  cases cases_ with
  | inl half =>
    obtain ⟨old, append, rfl⟩ := half
    exact ⟨orderly.flights_set member fun _ _ => append, orderly.rests, orderly.entries⟩
  | inr whole =>
    obtain ⟨code, data, after, answers, rfl⟩ := whole
    refine ⟨orderly.flights_set member nofun, orderly.rests, ?_⟩
    · intro entry entryMember
      cases List.mem_cons.mp entryMember with
      | inr earlier =>
        obtain ⟨other, otherCalls, harmless⟩ := orderly.entries entry earlier
        refine ⟨other, otherCalls, ?_⟩
        intro creates unwritten
        exact harmless creates fun past pastMember => unwritten past (List.mem_cons_of_mem _ pastMember)
      | inl new =>
        subst new
        obtain ⟨⟨call, calls, suits⟩, appends⟩ := orderly.flights flight member
        refine ⟨call, calls, ?_⟩
        intro creates unwritten
        have before : state.Unwritten flight.call := fun past pastMember =>
          unwritten past (List.mem_cons_of_mem _ pastMember)
        have same := answer_keeps answers suits appends creates
          (fun writes => by simpa using unwritten _ List.mem_cons_self rfl writes)
          (fun restores => undisturbed flight call found restores calls creates before)
        simp [same]

theorem step_orderly (state : State) (action : Action) (next : State)
    (orderly : Orderly path key state) (undisturbed : Undisturbed path key object state action)
    (stepped : step path key object state action = some next) : Orderly path key next := by
  cases action with
  | start id s kind =>
    simp only [step] at stepped
    split at stepped
    · rename_i fresh
      cases stepped
      apply orderly.proceed id _ _ (begin_sound s kind _ _ _)
      intro old found
      rw [fresh] at found
      cases found
    · cases stepped
  | execute index fault =>
    simp only [step] at stepped
    split at stepped
    · cases stepped
    · exact orderly.execute undisturbed stepped
  | receive id lost =>
    simp only [step, State.receive] at stepped
    split at stepped
    · cases stepped
    · rename_i call found
      split at stepped
      · cases stepped
      · obtain ⟨⟨read, following⟩, answered, same⟩ := Option.map_eq_some_iff.mp stepped
        cases same
        obtain ⟨sound, rolling⟩ := answered_sound (orderly.rests id call found) answered
        apply orderly.proceed id _ _ sound
        intro old foundOld
        cases found.symm.trans foundOld
        exact ⟨rfl, rolling⟩

end Invariant

/-- Under any interleaving of the requests of any calls, a call that creates and has written
nothing changes nothing, if its rollback finds what the call has read, and a value that was
read fits into one request. -/
theorem failed_create_changes_nothing (path key : Bytes) (object : Bool → Nat)
    (attrs : Nat → Option Bytes) (actions : List Action) (last : State)
    (undisturbed : Guarded (step path key object) (Undisturbed path key object) (initial attrs) actions)
    (reached : run (step path key object) (initial attrs) actions = some last) : Harmless last := by
  have orderly := run_invariant step_orderly (orderly_initial attrs) undisturbed reached
  intro id call found creates unwritten entry member own
  obtain ⟨recorded, foundRecorded, harmless⟩ := orderly.entries entry member
  rw [own] at foundRecorded harmless
  cases found.symm.trans foundRecorded
  exact harmless creates unwritten

/-! ### A rollback -/

/-- The search finds the greatest size that fits, or more than was asked for. -/
theorem le_searchChunkSize {fits : Nat → Bool}
    (smaller : ∀ size larger, size ≤ larger → fits larger = true → fits size = true)
    {size : Nat} (sizeFits : fits size = true) (fuel low high : Nat) (bounded : size ≤ high)
    (enough : high - low ≤ fuel) : size ≤ searchChunkSize fits fuel low high := by
  induction fuel generalizing low high with
  | zero =>
    rw [searchChunkSize]
    omega
  | succ fuel ih =>
    rw [searchChunkSize]
    split
    · dsimp only
      split
      · apply ih _ _ bounded
        omega
      · rename_i large
        have below : size < low + (high - low + 1) / 2 := by
          by_contra above
          exact large (smaller _ size (by omega) sizeFits)
        apply ih
        · omega
        · omega
    · omega

private def samplePath : Bytes := [47, 97]

-- "user.a"
private def sampleKey : Bytes := [117, 115, 101, 114, 46, 97]

private def sampleSession : Session := ⟨[[117, 115, 101, 114, 46]], true⟩

private def sampleValue : Bytes := List.replicate maxCommandLength 0

private theorem sampleValue_large : setXAttrFits samplePath sampleKey sampleValue = false := by
  simp [setXAttrFits, getCmdSetXAttrStructRequiredSize, sampleValue]
  omega

private theorem sampleChunk_ne : maxXAttrChunkSize samplePath sampleKey ≠ 0 := by
  unfold maxXAttrChunkSize
  rw [if_pos (by decide)]
  apply Nat.one_le_iff_ne_zero.mp
  apply le_searchChunkSize
  · intro size larger le fits
    simp only [setXAttrFits, getCmdSetXAttrStructRequiredSize, List.length_replicate,
      decide_eq_true_eq] at fits ⊢
    omega
  · decide
  · decide
  · exact Nat.le_refl _

private abbrev sampleStep : State → Action → Option State :=
  step samplePath sampleKey fun _ => 0

private abbrev sampleFinish : State → Nat → Flight → UInt8 → Bytes → Option Bytes → State :=
  State.finish fun _ => 0

section Rollback

-- The chunks are variables here, so that the runs below compute without them.
variable {value chunk rest : Bytes}

private def sampleCall (value : Bytes) (pc : Pc) (flight : Nat) : Running :=
  ⟨sampleSession, .set value setxattrCreate, none, flight, pc⟩

/-- A call that creates has asked for the old value, and there is none. -/
private def probed (value : Bytes) : State :=
  let sent := (initial fun _ => none).proceed 0 (sampleCall value .asking 0)
    (.send .ask (.get 0) .probing)
  sampleFinish sent 0 ⟨0, .ask, .get 0, .sent⟩ errorNoXAttr [] none

/-- The value goes in chunks, and the first of them is `chunk`. -/
private structure Chunked (value chunk rest : Bytes) : Prop where
  begins : begin samplePath sampleKey sampleSession (.set value setxattrCreate) =
    .send .ask (.get 0) .probing
  splits : splitXAttr samplePath sampleKey sampleSession none value setxattrCreate =
    .send .write (.set chunk setxattrCreate) (.writing rest)

private theorem probe_sent (chunked : Chunked value chunk rest) :
    sampleStep (initial fun _ => none) (.start 0 sampleSession (.set value setxattrCreate)) =
      some ((initial fun _ => none).proceed 0 (sampleCall value .asking 0)
        (.send .ask (.get 0) .probing)) := by
  simp only [sampleStep, step, initial, chunked.begins, if_true, sampleCall]

private theorem probed_reached (chunked : Chunked value chunk rest) (actions : List Action) :
    run sampleStep (initial fun _ => none)
        (.start 0 sampleSession (.set value setxattrCreate) :: .execute 0 none :: actions) =
      run sampleStep (probed value) actions := by
  rw [run_cons, probe_sent chunked]
  rfl

private def chunkSent (state : State) (value chunk rest : Bytes) : State :=
  state.proceed 0 (sampleCall value .probing 0)
    (.send .write (.set chunk setxattrCreate) (.writing rest))

private theorem chunk_sent (chunked : Chunked value chunk rest) (state : State)
    (found : state.calls 0 = some (sampleCall value .probing 0))
    (absent : state.answerTo (sampleCall value .probing 0) false = some (errorNoXAttr, [])) :
    sampleStep state (.receive 0 false) = some (chunkSent state value chunk rest) := by
  have answered : (sampleCall value .probing 0).answered samplePath sampleKey errorNoXAttr [] =
      some (none, .send .write (.set chunk setxattrCreate) (.writing rest)) := by
    simp only [Running.answered, sampleCall, if_true, show errorNoXAttr ≠ errorOK by decide,
      if_false, chunked.splits]
  simp only [sampleStep, step, State.receive, found, absent, answered, Option.map_some]
  rfl

/-- The disk is full when the first chunk arrives. The rollback finds nothing to remove. -/
private def diskFull (value : Bytes) : List Action :=
  [.start 0 sampleSession (.set value setxattrCreate), .execute 0 none, .receive 0 false,
    .execute 1 (some errorNoSpace), .receive 0 false, .execute 2 none, .receive 0 false]

private theorem diskFull_reached (chunked : Chunked value chunk rest) :
    ∃ last, run sampleStep (initial fun _ => none) (diskFull value) = some last ∧
      (last.calls 0).map Running.pc = some (.returned errorNoSpace) := by
  rw [diskFull, probed_reached chunked, run_cons, chunk_sent chunked (probed value) rfl rfl]
  exact ⟨_, rfl, rfl⟩

private theorem diskFull_undisturbed (chunked : Chunked value chunk rest) :
    Guarded sampleStep (Undisturbed samplePath sampleKey fun _ => 0) (initial fun _ => none)
      (diskFull value) := by
  refine .cons (probe_sent chunked) trivial ?_
  refine .cons (show _ = some (probed value) from rfl) ?_ ?_
  · intro flight call found restores
    cases found
    cases restores
  refine .cons (chunk_sent chunked (probed value) rfl rfl) trivial ?_
  refine .cons rfl ?_ ?_
  · intro flight call found restores
    cases found
    cases restores
  refine .cons rfl trivial ?_
  refine .cons rfl ?_ ?_
  · intro flight call found _ calls _ _
    cases found
    cases calls
    exact ⟨rfl, nofun⟩
  refine .cons rfl trivial trivial

private def overtaken (value : Bytes) : State :=
  let sent := (probed value).proceed 1 ⟨sampleSession, .set [7] setxattrNormal, none, 0, .asking⟩
    (.send .write (.set [7] setxattrNormal) .asking)
  sampleFinish sent 1 ⟨1, .write, .set [7] setxattrNormal, .sent⟩ errorOK [] (some [7])

private def overtakenCreate (value : Bytes) : List Action :=
  [.start 0 sampleSession (.set value setxattrCreate), .execute 0 none,
    .start 1 sampleSession (.set [7] setxattrNormal), .execute 1 none, .receive 0 false,
    .execute 2 none, .receive 0 false, .execute 3 none, .receive 0 false]

private theorem overtakenCreate_reached (chunked : Chunked value chunk rest) :
    ∃ last, run sampleStep (initial fun _ => none) (overtakenCreate value) = some last ∧
      (last.calls 0).map Running.pc = some (.returned errorExists) ∧ last.attrs 0 = none ∧
      ¬ Harmless last := by
  have overtakes : ∀ actions, run sampleStep (probed value)
      (.start 1 sampleSession (.set [7] setxattrNormal) :: .execute 1 none :: actions) =
      run sampleStep (overtaken value) actions := fun _ => rfl
  rw [overtakenCreate, probed_reached chunked, overtakes, run_cons,
    chunk_sent chunked (overtaken value) rfl rfl]
  refine ⟨_, rfl, rfl, rfl, ?_⟩
  intro harmless
  have unwritten : ∀ entry ∈ [(⟨0, .restore, true, true⟩ : Entry), ⟨0, .write, false, false⟩,
      ⟨1, .write, true, true⟩, ⟨0, .ask, false, false⟩], entry.call = 0 → entry.role = .write →
      entry.ok = false := by decide
  have unchanged := harmless 0 _ rfl ⟨value, setxattrCreate, rfl, rfl⟩ unwritten
    ⟨0, .restore, true, true⟩ List.mem_cons_self rfl
  cases unchanged

end Rollback

private theorem sample_chunked :
    Chunked sampleValue (chunkOf samplePath sampleKey sampleValue)
      (sampleValue.drop (chunkOf samplePath sampleKey sampleValue).length) where
  begins := by
    simp only [begin, cmdSetXAttr, sampleValue_large]
    rfl
  splits := if_neg sampleChunk_ne

theorem failed_create_changes_nothing_diskFull :
    ∃ last, run (step samplePath sampleKey fun _ => 0) (initial fun _ => none)
        (diskFull sampleValue) = some last ∧
      (last.calls 0).map Running.pc = some (.returned errorNoSpace) ∧ Harmless last := by
  obtain ⟨last, reached, returned⟩ := diskFull_reached sample_chunked
  have undisturbed := diskFull_undisturbed sample_chunked
  exact ⟨last, reached, returned,
    failed_create_changes_nothing samplePath sampleKey (fun _ => 0) (fun _ => none)
      (diskFull sampleValue) last undisturbed reached⟩

/-- Another client sets the attribute after the probe. The first chunk finds it in place, and
the rollback removes it. -/
theorem rollback_removes_foreign_value :
    ∃ last, run (step samplePath sampleKey fun _ => 0) (initial fun _ => none)
        (overtakenCreate sampleValue) = some last ∧
      (last.calls 0).map Running.pc = some (.returned errorExists) ∧ last.attrs 0 = none ∧
      ¬ Harmless last :=
  overtakenCreate_reached sample_chunked

end Wsfs.Client.XAttr
