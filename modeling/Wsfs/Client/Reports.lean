/-
Which connection the failures of a client session are charged to. A failure that a
goroutine has met on one connection is reported through fields that belong to whatever
connection is installed: `s.connErr` with its lock, and `s.connCtxCancel`.

A report is timely if it is made before `stopConn` of its connection has released
`connErrLock`, and before the next `takeConn` has assigned `s.connCtxCancel`. Writers are
always in time, since `stopConn` waits for `writeLock`, unless they come between the
assignments of `takeConn`. Ping loops and `Close` wait for nobody.
-/

import Wsfs.Client.Reconnect

namespace Wsfs.Client.Reconnect

open Wsfs.Base Function

/-! ### Charges -/

/-- Every failure cancelled the context of its own connection and was recorded as the
error of its own connection, and no end of a connection was put down to another. The
lock is free as long as no failure of the installed connection was met. -/
structure Kept (state : State) : Prop where
  cancels : ∀ entry ∈ state.cancels, entry.context = entry.failure
  cancelled : ∀ conn, state.cancelled conn = true → state.failed conn = true
  records : ∀ entry ∈ state.records, entry.slot = entry.failure
  endings : ∀ entry ∈ state.endings, entry.error = some entry.conn
  lock : ∀ conn, state.reader.attached = some conn → state.failed conn = false →
    state.connErrLock = false

/-- Writers do not come between the assignments of `takeConn`. A ping loop or `Close`
finds `connErrLock` taken or comes before `stopConn` of its connection has released it;
it does not come between the lock and the assignment of `s.connErr` when `stopConn`
reads that; and it cancels before the next `takeConn` has assigned `s.connCtxCancel`. -/
def Timely (state : State) : Action → Prop
  | .openWriter _ _ => state.reader.halfway = false
  | .tryLock (.ping conn) => state.connErrLock = true ∨ state.slot ≤ conn
  | .tryLock .closer => ∀ conn report, state.closer = .reporting conn report →
      state.connErrLock = true ∨ state.slot ≤ conn
  | .log => (∀ conn, state.pings conn ≠ some (.reporting .locked)) ∧
      ∀ conn, state.closer ≠ .reporting conn .locked
  | .pingCancel conn => state.connCtxCancel ≤ conn
  | .closeCancel => ∀ conn report, state.closer = .reporting conn report → state.connCtxCancel = conn
  | _ => True

variable {state : State} {conn : Nat}

theorem Timely.undisturbed {action : Action} (timely : Timely state action) :
    Undisturbed state action := by
  cases action with
  | openWriter id ok => exact timely
  | _ => trivial

/-! ### The invariant -/

/-- Where the counters stand at each stage of the reader goroutine. -/
def Reader.Ordered (connCtxCancel slot dialed : Nat) : Reader → Prop
  | .reading conn | .reporting conn _ | .cancelling conn _ | .dropping conn _ | .logging conn _ | .ready conn =>
      connCtxCancel = conn ∧ slot = conn ∧ dialed = conn + 1
  | .sweeping conn _ => connCtxCancel = conn ∧ slot = conn + 1 ∧ dialed = conn + 1
  | .redialing => slot = connCtxCancel + 1 ∧ dialed = slot
  | .taking conn | .placed conn | .given conn => conn = connCtxCancel + 1 ∧ slot = conn ∧ dialed = conn + 1
  | .exited => connCtxCancel < dialed ∧ dialed ≤ slot + 1

variable {reader : Reader} {connCtxCancel slot dialed : Nat}

theorem Reader.Ordered.bounds (ordered : reader.Ordered connCtxCancel slot dialed) :
    connCtxCancel < dialed ∧ dialed ≤ slot + 1 := by
  cases reader <;> simp only [Reader.Ordered] at ordered <;> omega

theorem Reader.Ordered.attached (ordered : reader.Ordered connCtxCancel slot dialed)
    (attached : reader.attached = some conn) : slot = conn ∧ dialed = conn + 1 := by
  cases reader <;> cases attached <;> exact ordered.2

def Writer.charge : Writer → Option (Nat × Report)
  | .reporting conn report => some (conn, report)
  | .cleared conn => some (conn, .told)
  | _ => none

def Ping.charge (conn : Nat) : Ping → Option (Nat × Report)
  | .reporting report => some (conn, report)
  | .waiting _ => none

def Reader.charge : Reader → Option (Nat × Report)
  | .reporting conn report => some (conn, report)
  | .cancelling conn _ => some (conn, .told)
  | _ => none

def Closer.charge : Closer → Option (Nat × Report)
  | .reporting conn report => some (conn, report)
  | _ => none

/-- The failure that a goroutine has met, until it has cancelled a context for it, and how
far it has come with its report. -/
def State.charge (state : State) : Party → Option (Nat × Report)
  | .writer id => (state.writers id).bind Writer.charge
  | .ping conn => (state.pings conn).bind (Ping.charge conn)
  | .reader => state.reader.charge
  | .closer => state.closer.charge

/-- Who is about to assign `s.connErr` does it for the connection whose `stopConn` reads it
next. -/
def State.Valid (state : State) (charge : Nat × Report) : Prop :=
  state.failed charge.1 = true ∧ charge.1 < state.dialed ∧
    (charge.2 = .locked → charge.1 = state.slot ∧ state.connErrLock = true)

/-- The reader goroutine is past its `TryLock` and has not unlocked. -/
def Reader.reported : Reader → Bool
  | .reporting _ .met => false
  | .reporting _ _ | .cancelling _ _ | .dropping _ _ | .logging _ _ => true
  | _ => false

/-- The counters, and what has been started. -/
structure Numbered (state : State) : Prop where
  order : state.reader.Ordered state.connCtxCancel state.slot state.dialed
  started : ∀ conn, state.pings conn ≠ none ∨ state.tails conn ≠ none →
    conn ≤ state.connCtxCancel ∧ state.reader ≠ .ready conn
  fresh : ∀ conn, state.tails conn = some .ping → state.pings conn = none
  chosen : ∀ conn, state.closer.conn = some conn → conn < state.dialed
  shut : state.closer ≠ .idle → state.state = .closing ∨ state.state = .closed

structure Told (state : State) : Prop extends Numbered state where
  charged : ∀ party charge, state.charge party = some charge → state.Valid charge
  explained : ∀ conn graceful, state.reader = .sweeping conn graceful → state.connErr = some conn
  cancels : ∀ entry ∈ state.cancels, entry.context = entry.failure
  cancelled : ∀ conn, state.cancelled conn = true → state.failed conn = true
  records : ∀ entry ∈ state.records, entry.slot = entry.failure
  endings : ∀ entry ∈ state.endings, entry.error = some entry.conn
  taken : state.reader.reported = true → state.connErrLock = true
  observed : state.connErrLock = true → state.failed state.slot = true
  error : state.connErrLock = true → state.connErr = some state.slot ∨
    ∃ party conn, state.charge party = some (conn, .locked)

theorem initial_told (pingInterval : Nat) : Told (initial pingInterval) where
  order := ⟨rfl, rfl, rfl⟩
  started _ present := present.elim (fun some => (some rfl).elim) fun some => (some rfl).elim
  fresh _ := nofun
  chosen _ := nofun
  shut present := (present rfl).elim
  charged party _ found := by
    cases party with
    | writer _ | ping _ | reader | closer => cases found
  explained _ _ := nofun
  cancels _ := nofun
  cancelled _ := nofun
  records _ := nofun
  endings _ := nofun
  taken := nofun
  observed := nofun
  error := nofun

theorem Told.kept (told : Told state) : Kept state where
  cancels := told.cancels
  cancelled := told.cancelled
  records := told.records
  endings := told.endings
  lock conn attached unfailed := by
    by_contra locked
    have failed := told.observed (eq_true_of_ne_false locked)
    rw [(told.order.attached attached).1, unfailed] at failed
    cases failed

/-! ### Changes -/

section Changes

variable {state : State} {party : Party} {conn id : Nat}

theorem failed_meets (conn other : Nat) (failed : state.failed other = true) :
    (state.meets conn).failed other = true := by
  by_cases same : other = conn
  · rw [same]
    exact update_self ..
  · exact (update_of_ne same ..).trans failed

theorem valid_met (conn : Nat) (dialed : conn < state.dialed) : (state.meets conn).Valid (conn, .met) :=
  ⟨update_self .., dialed, nofun⟩

theorem Told.meets (told : Told state) (conn : Nat) : Told (state.meets conn) :=
  { told with
    charged := fun party charge found =>
      (told.charged party charge found).imp_left (failed_meets conn charge.1)
    cancelled := fun other cancelled => failed_meets conn other (told.cancelled other cancelled)
    observed := fun locked => failed_meets conn _ (told.observed locked) }

theorem Told.cancel (told : Told state) (own : state.connCtxCancel = conn)
    (failed : state.failed conn = true) : Told (state.cancel conn) :=
  { told with
    cancels := List.forall_mem_cons.mpr ⟨own, told.cancels⟩
    cancelled := by
      intro other cancelled
      by_cases same : other = conn
      · rw [same]
        exact failed
      · rw [← own] at same
        exact told.cancelled other ((update_of_ne same ..).symm.trans cancelled) }

/-- One goroutine goes on. It was not about to assign `s.connErr`. -/
theorem Told.move {next : State} (told : Told state) (lock : next.connErrLock = state.connErrLock)
    (connErr : next.connErr = state.connErr) (slot : next.slot = state.slot)
    (kept : ∀ charge, state.Valid charge → next.Valid charge)
    (others : ∀ other, other ≠ party → next.charge other = state.charge other)
    (released : ∀ conn, state.charge party ≠ some (conn, .locked))
    (own : ∀ charge, next.charge party = some charge → next.Valid charge) :
    (∀ other charge, next.charge other = some charge → next.Valid charge) ∧
      (next.connErrLock = true → next.connErr = some next.slot ∨
        ∃ other conn, next.charge other = some (conn, .locked)) := by
  constructor
  · intro other charge found
    by_cases same : other = party
    · rw [same] at found
      exact own charge found
    · exact kept charge (told.charged other charge ((others other same).symm.trans found))
  · intro locked
    rw [connErr, slot]
    refine (told.error (lock.symm.trans locked)).imp_right ?_
    rintro ⟨other, conn, found⟩
    have apart : other ≠ party := by
      rintro rfl
      exact released conn found
    exact ⟨other, conn, (others other apart).trans found⟩

theorem charge_setWriter {after : Option Writer} (other : Party) (apart : other ≠ .writer id) :
    (state.setWriter id after).charge other = state.charge other := by
  cases other with
  | writer otherId =>
    have different : otherId ≠ id := fun same => apart (by rw [same])
    simp only [State.charge, State.setWriter, update_of_ne different]
  | ping _ | reader | closer => rfl

theorem charge_setPing {after : Option Ping} (other : Party) (apart : other ≠ .ping conn) :
    (state.setPing conn after).charge other = state.charge other := by
  cases other with
  | ping otherConn =>
    have different : otherConn ≠ conn := fun same => apart (by rw [same])
    simp only [State.charge, State.setPing, update_of_ne different]
  | writer _ | reader | closer => rfl

theorem Told.setWriter (told : Told state) {after : Option Writer} {activeReqs : Nat}
    {writeLock stored : Option Nat} (released : ∀ conn, state.charge (.writer id) ≠ some (conn, .locked))
    (own : ∀ charge, after.bind Writer.charge = some charge → state.Valid charge) :
    Told { state.setWriter id after with
      activeReqs := activeReqs
      writeLock := writeLock
      conn := stored } := by
  have moved := @Told.move _ (.writer id) (state.setWriter id after) told rfl rfl rfl (fun _ valid => valid)
    charge_setWriter released ?_
  · exact { told with charged := moved.1, error := moved.2 }
  · intro charge found
    apply own
    rw [← show _ = after from update_self id after state.writers]
    exact found

theorem Numbered.restart (numbered : Numbered state) {pings : Nat → Option Ping} {tails : Nat → Option Tail}
    (samePings : ∀ other, other ≠ conn → pings other = state.pings other)
    (sameTails : ∀ other, other ≠ conn → tails other = state.tails other)
    (bound : pings conn ≠ none ∨ tails conn ≠ none →
      conn ≤ state.connCtxCancel ∧ state.reader ≠ .ready conn)
    (fresh : tails conn = some .ping → pings conn = none) :
    Numbered { state with pings := pings, tails := tails } :=
  { numbered with
    started := by
      intro other present
      by_cases same : other = conn
      · rw [same] at present ⊢
        exact bound present
      · change pings other ≠ none ∨ tails other ≠ none at present
        rw [samePings other same, sameTails other same] at present
        exact numbered.started other present
    fresh := by
      intro other tail
      by_cases same : other = conn
      · rw [same] at tail ⊢
        exact fresh tail
      · exact (samePings other same).trans (numbered.fresh other ((sameTails other same).symm.trans tail)) }

theorem Numbered.setPing (numbered : Numbered state) (after : Option Ping) (present : state.pings conn ≠ none) :
    Numbered (state.setPing conn after) :=
  numbered.restart (fun _ apart => update_of_ne apart ..) (fun _ _ => rfl)
    (fun _ => numbered.started conn (.inl present))
    fun tail => (present (numbered.fresh conn tail)).elim

theorem Told.setPing (told : Told state) {before : Ping} {after : Option Ping}
    (found : state.pings conn = some before) (released : before ≠ .reporting .locked)
    (own : ∀ charge, after.bind (Ping.charge conn) = some charge → state.Valid charge) :
    Told (state.setPing conn after) := by
  have present : state.pings conn ≠ none := by
    rw [found]
    exact nofun
  have moved := @Told.move _ (.ping conn) (state.setPing conn after) told rfl rfl rfl (fun _ valid => valid)
    charge_setPing ?_ ?_
  · exact { told.toNumbered.setPing after present, told with charged := moved.1, error := moved.2 }
  · intro other locked
    rw [State.charge, found] at locked
    cases before with
    | waiting _ => cases locked
    | reporting report =>
      cases locked
      exact released rfl
  · intro charge inside
    apply own
    rw [← show _ = after from update_self conn after state.pings]
    exact inside

/-- What has to hold for the reader goroutine to come to a stage. -/
def Reader.Allowed (state : State) : Reader → Prop
  | .reporting conn report => state.Valid (conn, .told) ∧ report = .met
  | .cancelling conn _ => state.Valid (conn, .told) ∧ state.connErrLock = true
  | .dropping _ _ | .logging _ _ => state.connErrLock = true
  | .sweeping _ _ => False
  | .ready conn => state.pings conn = none ∧ state.tails conn = none
  | _ => True

/-- The reader goroutine has no report to assign and goes on, perhaps with a new connection
or a new context or cancel function. -/
theorem Told.advance (told : Told state) {before after : Reader} {stored : Option Nat}
    {connCtx cancel dialed : Nat} (current : state.reader = before)
    (released : ∀ conn, before ≠ .reporting conn .locked) (later : state.connCtxCancel ≤ cancel)
    (grows : state.dialed ≤ dialed) (order : after.Ordered cancel state.slot dialed)
    (allowed : after.Allowed state) :
    Told { state with
      reader := after
      conn := stored
      connCtx := connCtx
      connCtxCancel := cancel
      dialed := dialed } := by
  have wider (charge : Nat × Report) (valid : state.Valid charge) :
      State.Valid { state with dialed := dialed } charge :=
    ⟨valid.1, Nat.lt_of_lt_of_le valid.2.1 grows, valid.2.2⟩
  have moved := @Told.move _ .reader
    { state with
      reader := after
      conn := stored
      connCtx := connCtx
      connCtxCancel := cancel
      dialed := dialed } told rfl rfl rfl wider ?_ ?_ ?_
  · exact
      { told with
        order := order
        started := by
          intro conn present
          refine ⟨Nat.le_trans (told.started conn present).1 later, ?_⟩
          rintro rfl
          exact present.elim (fun some => some allowed.1) fun some => some allowed.2
        chosen := fun conn has => Nat.lt_of_lt_of_le (told.chosen conn has) grows
        charged := moved.1
        explained := by
          rintro conn graceful rfl
          exact allowed.elim
        taken := by
          intro reported
          change after.reported = true at reported
          cases after with
          | reporting conn report =>
            cases allowed.2
            cases reported
          | cancelling _ _ => exact allowed.2
          | dropping _ _ | logging _ _ => exact allowed
          | _ => cases reported
        error := moved.2 }
  · intro other apart
    cases other with
    | reader => exact (apart rfl).elim
    | writer _ | ping _ | closer => rfl
  · intro conn locked
    rw [State.charge, current] at locked
    cases before with
    | reporting other report =>
      cases locked
      exact released conn rfl
    | _ => cases locked
  · intro charge found
    change after.charge = some charge at found
    apply wider
    cases after with
    | reporting conn report =>
      cases found
      obtain ⟨⟨failed, dialed, _⟩, rfl⟩ := allowed
      exact ⟨failed, dialed, nofun⟩
    | cancelling conn graceful =>
      cases found
      exact allowed.1
    | _ => cases found

theorem Told.moveReader (told : Told state) {before after : Reader} {stored : Option Nat} {connCtx : Nat}
    (current : state.reader = before) (released : ∀ conn, before ≠ .reporting conn .locked)
    (order : after.Ordered state.connCtxCancel state.slot state.dialed) (allowed : after.Allowed state) :
    Told { state with reader := after, conn := stored, connCtx := connCtx } :=
  told.advance current released (Nat.le_refl _) (Nat.le_refl _) order allowed

theorem Told.moveCloser (told : Told state) {after : Closer}
    (released : ∀ conn, state.closer ≠ .reporting conn .locked)
    (own : ∀ charge, after.charge = some charge → state.Valid charge)
    (chosen : ∀ conn, after.conn = some conn → conn < state.dialed)
    (shut : state.state = .closing ∨ state.state = .closed) : Told { state with closer := after } := by
  have moved := @Told.move _ .closer { state with closer := after } told rfl rfl rfl (fun _ valid => valid)
    ?_ ?_ own
  · exact { told with chosen := chosen, shut := fun _ => shut, charged := moved.1, error := moved.2 }
  · intro other apart
    cases other with
    | closer => exact (apart rfl).elim
    | writer _ | ping _ | reader => rfl
  · intro conn locked
    change state.closer.charge = _ at locked
    cases current : state.closer with
    | reporting other report =>
      rw [current] at locked
      cases locked
      exact released conn current
    | _ =>
      rw [current] at locked
      cases locked

theorem Told.setState (told : Told state) {life : SessionState}
    (keeps : state.state = .closing ∨ state.state = .closed → life = .closing ∨ life = .closed) :
    Told { state with state := life } :=
  { told with shut := fun present => keeps (told.shut present) }

end Changes

/-! ### Reports -/

section Reports

variable {state next : State} {party : Party} {conn : Nat} {before after report : Report}

theorem charge_of_report (found : state.report party = some (conn, report)) :
    state.charge party = some (conn, report) := by
  have stage := eq_of_report found
  cases party with
  | writer _ | reader | closer =>
    dsimp only at stage
    rw [State.charge, stage]
    rfl
  | ping other =>
    obtain ⟨rfl, inside⟩ := stage
    rw [State.charge, inside]
    rfl

theorem charge_setReport_self (found : state.report party = some (conn, before)) :
    (state.setReport conn after party).charge party = some (conn, after) := by
  cases party with
  | writer id => simp only [State.charge, State.setReport, State.setWriter, update_self, Option.bind, Writer.charge]
  | ping other =>
    rw [(eq_of_report found).1]
    simp only [State.charge, State.setReport, State.setPing, update_self, Option.bind, Ping.charge]
  | reader | closer => rfl

theorem charge_setReport (other : Party) (apart : other ≠ party) :
    (state.setReport conn after party).charge other = state.charge other := by
  cases party with
  | writer id => exact charge_setWriter other apart
  | ping _ => exact charge_setPing other apart
  | reader =>
    cases other with
    | reader => exact (apart rfl).elim
    | writer _ | ping _ | closer => rfl
  | closer =>
    cases other with
    | closer => exact (apart rfl).elim
    | writer _ | ping _ | reader => rfl

theorem Numbered.setReport (numbered : Numbered state) (found : state.report party = some (conn, before)) :
    Numbered (state.setReport conn after party) := by
  have stage := eq_of_report found
  cases party with
  | writer id => exact { numbered with }
  | ping other =>
    refine numbered.setPing _ ?_
    rw [stage.2]
    exact nofun
  | reader =>
    have order := numbered.order
    rw [stage] at order
    exact
      { numbered with
        order := order
        started := fun other present => ⟨(numbered.started other present).1, nofun⟩ }
  | closer =>
    dsimp only at stage
    have shut := numbered.shut
    have chosen := numbered.chosen
    rw [stage] at shut chosen
    exact { numbered with chosen := chosen, shut := fun _ => shut nofun }

theorem Told.charged_setReport (told : Told state) (found : state.report party = some (conn, before))
    (mine : after = .locked → conn = state.slot) (other : Party) (charge : Nat × Report)
    (inside : (state.setReport conn after party).charge other = some charge) :
    State.Valid { state with connErrLock := true } charge := by
  by_cases same : other = party
  · rw [same, charge_setReport_self found] at inside
    cases inside
    obtain ⟨failed, dialed, _⟩ := told.charged party _ (charge_of_report found)
    exact ⟨failed, dialed, fun locked => ⟨mine locked, rfl⟩⟩
  · obtain ⟨failed, dialed, slot⟩ := told.charged other charge ((charge_setReport other same).symm.trans inside)
    exact ⟨failed, dialed, fun locked => ⟨(slot locked).1, rfl⟩⟩

theorem Told.met_slot (told : Told state) (wired : Wired state.toWires)
    (found : state.report party = some (conn, .met)) (free : ¬state.connErrLock = true)
    (timely : Timely state (.tryLock party)) : conn = state.slot := by
  have inTime (early : state.connErrLock = true ∨ state.slot ≤ conn) : conn = state.slot := by
    have dialed : conn < state.dialed := (told.charged party _ (charge_of_report found)).2.1
    have bound := told.order.bounds.2
    have late := early.resolve_left free
    omega
  have stage := eq_of_report found
  cases party with
  | writer id => exact (told.order.attached (wired.writing id _ conn stage rfl).1).1.symm
  | reader =>
    refine (told.order.attached ?_).1.symm
    rw [stage]
    rfl
  | ping other =>
    obtain ⟨rfl, _⟩ := stage
    exact inTime timely
  | closer => exact inTime (timely _ _ stage)

/-- Nobody is between the lock and the assignment while the reader goroutine sweeps: its
connection is given up, and there is no other. -/
theorem Told.unlocked_of_sweeping (told : Told state) {swept : Nat} {graceful : Bool}
    (sweeping : state.reader = .sweeping swept graceful) : state.charge party ≠ some (conn, .locked) := by
  intro found
  have order := told.order
  rw [sweeping] at order
  obtain ⟨_, dialed, mine⟩ := told.charged party _ found
  have numbers : state.slot = swept + 1 ∧ state.dialed = swept + 1 := order.2
  have slot : conn = state.slot := (mine rfl).1
  dsimp only at dialed
  omega

theorem setReport_eq : state.setReport conn after party =
    { state.setReport conn after party with
      connErrLock := state.connErrLock
      connErr := state.connErr
      records := state.records } := by
  cases party with
  | writer _ | ping _ | reader | closer => rfl

theorem Told.setReport (told : Told state) (found : state.report party = some (conn, before))
    (mine : after = .locked → conn = state.slot) {connErr : Option Nat} {records : List Record}
    (explained : ∀ other graceful, state.reader = .sweeping other graceful → connErr = some other)
    (recorded : ∀ entry ∈ records, entry.slot = entry.failure)
    (observed : state.failed state.slot = true)
    (error : connErr = some state.slot ∨
      ∃ other conn', (state.setReport conn after party).charge other = some (conn', .locked)) :
    Told { state.setReport conn after party with
      connErrLock := true
      connErr := connErr
      records := records } := by
  have numbered : Numbered (state.setReport conn after party) := told.toNumbered.setReport found
  have charged := told.charged_setReport found mine
  cases party with
  | writer _ | ping _ | closer =>
    exact
      { numbered, told with
        charged := charged
        explained := explained
        records := recorded
        taken := fun _ => rfl
        observed := fun _ => observed
        error := fun _ => error }
  | reader =>
    exact
      { numbered, told with
        charged := charged
        explained := nofun
        records := recorded
        taken := fun _ => rfl
        observed := fun _ => observed
        error := fun _ => error }

theorem tryLock_told (told : Told state) (wired : Wired state.toWires)
    (timely : Timely state (.tryLock party)) (stepped : state.tryLock party = some next) : Told next := by
  unfold State.tryLock at stepped
  split at stepped
  · rename_i conn found
    split at stepped
    · rename_i locked
      cases stepped
      rw [setReport_eq, locked]
      refine told.setReport found (by simp) told.explained told.records (told.observed locked) ?_
      refine (told.error locked).imp_right ?_
      rintro ⟨other, otherConn, assigning⟩
      have apart : other ≠ party := by
        rintro rfl
        cases (charge_of_report found).symm.trans assigning
      exact ⟨other, otherConn, (charge_setReport other apart).trans assigning⟩
    · rename_i free
      cases stepped
      have mine := told.met_slot wired found free timely
      have failed : state.failed conn = true := (told.charged party _ (charge_of_report found)).1
      rw [setReport_eq]
      rw [mine] at failed
      exact told.setReport found (fun _ => mine) told.explained told.records failed
        (.inr ⟨party, conn, charge_setReport_self found⟩)
  · cases stepped

theorem assign_told (told : Told state) (stepped : state.assign party = some next) : Told next := by
  unfold State.assign at stepped
  split at stepped
  · rename_i conn found
    cases stepped
    have assigning := charge_of_report found
    obtain ⟨failed, _, mine⟩ := told.charged party _ assigning
    have slot : conn = state.slot := (mine rfl).1
    rw [setReport_eq, (mine rfl).2]
    refine told.setReport found (by simp) ?_ ?_ ?_ (.inl ?_)
    · intro other graceful sweeping
      exact (told.unlocked_of_sweeping sweeping assigning).elim
    · exact List.forall_mem_cons.mpr ⟨slot.symm, told.records⟩
    · rw [← slot]
      exact failed
    · rw [slot]
  · cases stepped

end Reports

/-! ### Steps -/

section ReportSteps

variable {state next : State} {id conn : Nat} {before : Writer} {graceful : Bool}

theorem Told.stepWriter (told : Told state) {after : Writer} {writeLock stored : Option Nat}
    (found : state.writers id = some before) (released : ∀ conn, before ≠ .reporting conn .locked)
    (own : ∀ charge, after.charge = some charge → state.Valid charge) :
    Told { state.setWriter id (some after) with writeLock := writeLock, conn := stored } := by
  refine told.setWriter ?_ own
  intro conn locked
  rw [State.charge, found] at locked
  cases before with
  | reporting other report =>
    cases locked
    exact released conn rfl
  | _ => cases locked

theorem Told.failWriter (told : Told state) (found : state.writers id = some before)
    (attached : state.reader.attached = some conn) (released : ∀ conn, before ≠ .reporting conn .locked) :
    Told ((state.meets conn).setWriter id (some (.reporting conn .met))) := by
  refine (told.meets conn).stepWriter found released ?_
  rintro _ ⟨⟩
  refine valid_met conn ?_
  rw [(told.order.attached attached).2]
  exact Nat.lt_succ_self conn

/-! What the stage of a goroutine says. -/

variable {reader : Reader}

theorem Told.order_at (told : Told state) (current : state.reader = reader) :
    reader.Ordered state.connCtxCancel state.slot state.dialed := by
  rw [← current]
  exact told.order

theorem Told.locked_at (told : Told state) (current : state.reader = reader)
    (reported : reader.reported = true) : state.connErrLock = true := by
  rw [← current] at reported
  exact told.taken reported

theorem Told.valid_at (told : Told state) (current : state.reader = reader) {charge : Nat × Report}
    (charged : reader.charge = some charge) : state.Valid charge := by
  rw [← current] at charged
  exact told.charged .reader charge charged

theorem Told.stepCloser (told : Told state) {before after : Closer} (current : state.closer = before)
    (busy : before ≠ .idle) (released : ∀ conn, before ≠ .reporting conn .locked)
    (own : ∀ charge, after.charge = some charge → state.Valid charge)
    (chosen : ∀ conn, after.conn = some conn → conn < state.dialed) :
    Told { state with closer := after } := by
  rw [← current] at busy
  refine told.moveCloser ?_ own chosen (told.shut busy)
  intro conn same
  exact released conn (current.symm.trans same)

theorem unassigned (wired : Wired state.toWires) (timely : Timely state .log)
    (logging : state.reader = .logging conn graceful) (party : Party) (other : Nat) :
    state.charge party ≠ some (other, .locked) := by
  intro found
  cases party with
  | writer id =>
    obtain ⟨writer, inside, charge⟩ := Option.bind_eq_some_iff.mp found
    have detached : state.reader.attached = none := by
      rw [logging]
      rfl
    cases writer with
    | reporting at' report => exact wired.no_conn (.inl detached) inside rfl
    | _ => cases charge
  | reader =>
    rw [State.charge, logging] at found
    cases found
  | ping at' =>
    obtain ⟨ping, inside, charge⟩ := Option.bind_eq_some_iff.mp found
    cases ping with
    | waiting _ => cases charge
    | reporting report =>
      cases charge
      exact timely.1 _ inside
  | closer =>
    cases current : state.closer with
    | reporting at' report =>
      rw [State.charge, current] at found
      cases found
      exact timely.2 _ current
    | _ =>
      rw [State.charge, current] at found
      cases found

theorem Told.log (told : Told state) (wired : Wired state.toWires) (timely : Timely state .log)
    (logging : state.reader = .logging conn graceful) :
    Told { state with
      endings := ⟨conn, state.connErr⟩ :: state.endings
      connErrLock := false
      slot := state.slot + 1
      reader := .sweeping conn graceful } := by
  obtain ⟨cancels, slot, dialed⟩ := told.order_at logging
  have unassigned := unassigned wired timely logging
  have explained : state.connErr = some conn := by
    rcases told.error (told.locked_at logging rfl) with assigned | ⟨party, other, found⟩
    · rw [assigned, slot]
    · exact (unassigned party other found).elim
  exact
    { told with
      order := ⟨cancels, by rw [slot], dialed⟩
      started := fun other present => ⟨(told.started other present).1, nofun⟩
      charged := by
        intro party charge found
        have before : state.charge party = some charge := by
          cases party with
          | reader => cases found
          | writer _ | ping _ | closer => exact found
        obtain ⟨failed, dialed, _⟩ := told.charged party charge before
        refine ⟨failed, dialed, fun locked => ?_⟩
        rw [show charge = (charge.1, .locked) from Prod.ext rfl locked] at before
        exact (unassigned party charge.1 before).elim
      explained := by
        rintro other otherGraceful ⟨⟩
        exact explained
      endings := List.forall_mem_cons.mpr ⟨explained, told.endings⟩
      taken := nofun
      observed := nofun
      error := nofun }

theorem Told.startPing (told : Told state) (tail : state.tails conn = some .ping) {pings : Nat → Option Ping}
    (same : ∀ other, other ≠ conn → pings other = state.pings other)
    (waits : (pings conn).bind (Ping.charge conn) = none) :
    Told { state.setTail conn (if conn = 0 then none else some .resume) with pings := pings } := by
  have absent := told.fresh conn tail
  have moved := @Told.move _ (.ping conn) { state with pings := pings } told rfl rfl rfl
    (fun _ valid => valid) ?_ ?_ ?_
  · have numbered := @Numbered.restart _ conn told.toNumbered pings
      (update state.tails conn (if conn = 0 then none else some .resume)) same
      (fun _ apart => update_of_ne apart ..) (fun _ => told.started conn (.inr (by simp [tail]))) ?_
    · exact { numbered, told with charged := moved.1, error := moved.2 }
    · rw [update_self]
      split <;> nofun
  · intro other apart
    cases other with
    | ping otherConn =>
      have different : otherConn ≠ conn := fun same => apart (by rw [same])
      simp only [State.charge, same otherConn different]
    | writer _ | reader | closer => rfl
  · intro other locked
    rw [State.charge, absent] at locked
    cases locked
  · intro charge found
    cases waits.symm.trans found

theorem stop_told (told : Told state) (stepped : state.stop = some next) : Told next := by
  revert stepped
  fun_cases State.stop state <;> rintro ⟨⟩
  rename_i conn reporting
  have keeps (shut : state.state = .closing ∨ state.state = .closed) :
      (if state.state = .closing ∨ state.state = .closed then state.state else .recovering) = .closing ∨
        (if state.state = .closing ∨ state.state = .closed then state.state else .recovering) =
          .closed := by
    rw [if_pos shut]
    exact shut
  have order := told.order_at reporting
  exact (told.setState keeps).moveReader reporting (by simp) order
    ⟨told.valid_at reporting rfl, told.locked_at reporting rfl⟩

theorem sweep_told (told : Told state) (stepped : state.sweep = some next) : Told next := by
  revert stepped
  fun_cases State.sweep state <;> rintro ⟨⟩
  · rename_i conn sweeping
    have exited : Told { state with reader := .exited } :=
      told.moveReader sweeping (by simp) told.order.bounds trivial
    exact
      { exited with
        shut := fun _ => .inr rfl
        endings := List.forall_mem_cons.mpr ⟨told.explained conn true sweeping, told.endings⟩ }
  · rename_i conn graceful sweeping _
    obtain ⟨own, slot, dialed⟩ := told.order_at sweeping
    refine told.moveReader sweeping (by simp) ⟨?_, ?_⟩ trivial
    · rw [slot, own]
    · rw [slot, dialed]

theorem redial_told (told : Told state) {success : Bool} (stepped : state.redial success = some next) :
    Told next := by
  revert stepped
  fun_cases State.redial state success <;> rintro ⟨⟩
  · rename_i redialing _
    obtain ⟨slot, dialed⟩ := told.order_at redialing
    refine told.advance redialing (by simp) (Nat.le_refl _) (Nat.le_succ _) ?_ trivial
    exact ⟨by rw [dialed, slot], dialed.symm, rfl⟩
  · rename_i redialing _
    have exited : Told { state with reader := .exited } :=
      told.moveReader redialing (by simp) told.order.bounds trivial
    exact { exited with shut := fun _ => .inr rfl }

theorem arm_told (told : Told state) (stepped : state.arm = some next) : Told next := by
  revert stepped
  fun_cases State.arm state <;> rintro ⟨⟩
  rename_i conn given
  obtain ⟨later, slot, dialed⟩ := told.order_at given
  -- Nothing of this connection has been started: it is later than the last one armed.
  have absent : ¬(state.pings conn ≠ none ∨ state.tails conn ≠ none) := by
    intro present
    have bound := (told.started conn present).1
    omega
  simp only [ne_eq, not_or, not_not] at absent
  exact told.advance given (by simp) (by omega) (Nat.le_refl _) ⟨rfl, slot, dialed⟩ absent

theorem go_told (told : Told state) (stepped : state.go = some next) : Told next := by
  revert stepped
  fun_cases State.go state <;> rintro ⟨⟩
  rename_i conn ready
  have order := told.order_at ready
  have reading : Told { state with reader := .reading conn } :=
    told.moveReader ready (by simp) order trivial
  have numbered := reading.toNumbered.restart (fun _ _ => rfl)
    (fun _ apart => update_of_ne apart (some .ping) state.tails)
    (fun _ => ⟨Nat.le_of_eq order.1.symm, by simp⟩) fun _ => ?_
  · exact { numbered, reading with }
  · by_contra present
    exact (told.started conn (.inl present)).2 ready

theorem startPing_told (told : Told state) (stepped : state.startPing conn = some next) : Told next := by
  simp only [State.startPing] at stepped
  split at stepped
  · rename_i tail
    cases stepped
    split
    · exact told.startPing tail (fun _ apart => update_of_ne apart ..) (by simp [State.setPing, Ping.charge])
    · exact told.startPing tail (fun _ _ => rfl) (by rw [told.fresh conn tail]; rfl)
  · cases stepped

theorem resume_told (told : Told state) (stepped : state.resume conn = some next) : Told next := by
  simp only [State.resume] at stepped
  split at stepped
  · rename_i tail
    cases stepped
    have numbered := told.toNumbered.restart (fun _ _ => rfl)
      (fun _ apart => update_of_ne apart none state.tails)
      (fun _ => told.started conn (.inr (by simp [tail]))) (by simp)
    have ended : Told (state.setTail conn none) := { numbered, told with }
    refine ended.setState fun shut => ?_
    have notRecovering : state.state ≠ .recovering := by
      intro recovering
      change state.state = .closing ∨ state.state = .closed at shut
      rw [recovering] at shut
      exact shut.elim (by simp) (by simp)
    rw [if_neg notRecovering]
    exact shut
  · cases stepped

theorem close_told (told : Told state) (wired : Wired state.toWires) (stepped : state.close = some next) :
    Told next := by
  revert stepped
  fun_cases State.close state <;> rintro ⟨⟩
  rename_i through
  have idle : state.closer = .idle := by
    by_contra present
    have shut := told.shut present
    rw [through.1] at shut
    exact shut.elim (by simp) (by simp)
  have closing : Told { state with state := .closing } := told.setState fun _ => .inl rfl
  refine closing.moveCloser ?_ (by rintro _ ⟨⟩) ?_ (.inl rfl)
  · intro conn same
    cases idle.symm.trans same
  · intro conn has
    change conn < state.dialed
    rw [(told.order.attached (wired.stage.attached has)).2]
    exact Nat.lt_succ_self conn

theorem step_told (state : State) (action : Action) (next : State)
    (sound : Wired state.toWires ∧ Told state) (timely : Timely state action)
    (stepped : step state action = some next) : Wired next.toWires ∧ Told next := by
  obtain ⟨wired, told⟩ := sound
  refine ⟨step_wired state action next wired timely.undisturbed stepped, ?_⟩
  cases action <;> dsimp only [step] at stepped <;> revert stepped
  case enter id =>
    fun_cases State.enter state id <;> rintro ⟨⟩
    rename_i fresh
    exact told.setWriter (by simp [State.charge, fresh.1]) (by rintro _ ⟨⟩)
  case release id =>
    fun_cases State.release state id <;> rintro ⟨⟩
    rename_i found
    exact told.setWriter (by simp [State.charge, found, Writer.charge]) (by rintro _ ⟨⟩)
  case lockWrite id =>
    fun_cases State.lockWrite state id <;> rintro ⟨⟩
    rename_i found _
    exact told.stepWriter found (by simp) (by rintro _ ⟨⟩)
  case check id =>
    fun_cases State.check state id <;> rintro ⟨⟩
    · rename_i found _
      exact told.stepWriter found (by simp) (by rintro _ ⟨⟩)
    · rename_i found _
      exact told.stepWriter found (by simp) (by rintro _ ⟨⟩)
  case openWriter id ok =>
    fun_cases State.openWriter state id ok <;> rintro ⟨⟩
    · rename_i found _
      exact told.stepWriter found (by simp) (by rintro _ ⟨⟩)
    · rename_i conn stored found _
      exact told.failWriter found (wired.stage.attached stored) (by simp)
  case writeDone id ok =>
    fun_cases State.writeDone state id ok <;> rintro ⟨⟩
    · rename_i found _
      exact told.stepWriter found (by simp) (by rintro _ ⟨⟩)
    · rename_i conn found _
      exact told.failWriter found (wired.writing id _ conn found rfl).1 (by simp)
  case clear id =>
    fun_cases State.clear state id <;> rintro ⟨⟩
    rename_i conn found
    refine told.stepWriter found (by simp) ?_
    rintro _ ⟨⟩
    exact told.charged (.writer id) _ (by rw [State.charge, found]; rfl)
  case cancelWrite id =>
    fun_cases State.cancelWrite state id <;> rintro ⟨⟩
    rename_i conn found
    obtain ⟨attached, whole⟩ := wired.writing id _ conn found rfl
    have own : state.connCtxCancel = conn := wired.stage.context attached whole
    have failed := (told.charged (.writer id) (conn, .told) (by rw [State.charge, found]; rfl)).1
    exact (told.cancel own failed).stepWriter found (by simp) (by rintro _ ⟨⟩)
  case unlockWrite id =>
    fun_cases State.unlockWrite state id <;> rintro ⟨⟩
    rename_i found
    exact told.stepWriter found (by simp) (by rintro _ ⟨⟩)
  case tryLock party => exact tryLock_told told wired timely
  case assign party => exact assign_told told
  case readFails =>
    fun_cases State.readFails state <;> rintro ⟨⟩
    rename_i conn reading
    have order := told.order_at reading
    refine (told.meets conn).moveReader reading (by simp) order ⟨⟨update_self .., ?_, by simp⟩, rfl⟩
    rw [show (state.meets conn).dialed = conn + 1 from order.2.2]
    exact Nat.lt_succ_self conn
  case stop => exact stop_told told
  case cancelRead =>
    fun_cases State.cancelRead state <;> rintro ⟨⟩
    rename_i conn graceful cancelling
    have order := told.order_at cancelling
    exact (told.cancel order.1 (told.valid_at cancelling rfl).1).moveReader cancelling (by simp) order
      (told.locked_at cancelling rfl)
  case drop =>
    fun_cases State.drop state <;> rintro ⟨⟩
    rename_i conn graceful dropping _
    have order := told.order_at dropping
    exact told.moveReader dropping (by simp) order (told.locked_at dropping rfl)
  case log =>
    fun_cases State.log state <;> rintro ⟨⟩
    exact told.log wired timely ‹_›
  case sweep => exact sweep_told told
  case redial success => exact redial_told told
  case place =>
    fun_cases State.place state <;> rintro ⟨⟩
    rename_i conn taking
    have order := told.order_at taking
    exact told.moveReader taking (by simp) order trivial
  case give =>
    fun_cases State.give state <;> rintro ⟨⟩
    rename_i conn placed
    have order := told.order_at placed
    exact told.moveReader placed (by simp) order trivial
  case arm => exact arm_told told
  case go => exact go_told told
  case startPing conn => exact startPing_told told
  case resume conn => exact resume_told told
  case pingFails conn =>
    fun_cases State.pingFails state conn <;> rintro ⟨⟩
    rename_i found
    refine (told.meets conn).setPing found (by simp) ?_
    rintro _ ⟨⟩
    have bound := (told.started conn (.inl (by simp [found]))).1
    exact valid_met conn (Nat.lt_of_le_of_lt bound told.order.bounds.1)
  case pingEnds conn =>
    fun_cases State.pingEnds state conn <;> rintro ⟨⟩
    rename_i found _
    exact told.setPing found (by simp) (by rintro _ ⟨⟩)
  case pingCancel conn =>
    fun_cases State.pingCancel state conn <;> rintro ⟨⟩
    rename_i found
    have bound := (told.started conn (.inl (by simp [found]))).1
    have failed := (told.charged (.ping conn) (conn, .told) (by rw [State.charge, found]; rfl)).1
    exact (told.cancel (Nat.le_antisymm timely bound) failed).setPing found (by simp) (by rintro _ ⟨⟩)
  case close => exact close_told told wired
  case closeExit =>
    fun_cases State.closeExit state <;> rintro ⟨⟩
    rename_i chosen
    have closed : Told { state with state := .closed } := told.setState fun _ => .inr rfl
    exact closed.stepCloser chosen (by simp) (by simp) (by rintro _ ⟨⟩) (by rintro _ ⟨⟩)
  case closeFails =>
    fun_cases State.closeFails state <;> rintro ⟨⟩
    rename_i conn chosen
    have dialed : conn < state.dialed := told.chosen conn (by rw [chosen]; rfl)
    refine (told.meets conn).stepCloser chosen (by simp) (by simp) ?_ ?_
    · rintro _ ⟨⟩
      exact valid_met conn dialed
    · rintro _ ⟨⟩
      exact dialed
  case closeEnds =>
    fun_cases State.closeEnds state <;> rintro ⟨⟩
    rename_i chosen
    exact told.stepCloser chosen (by simp) (by simp) (by rintro _ ⟨⟩) (by rintro _ ⟨⟩)
  case closeCancel =>
    fun_cases State.closeCancel state <;> rintro ⟨⟩
    rename_i conn reporting
    have failed := (told.charged .closer (conn, .told) (by rw [State.charge, reporting]; rfl)).1
    exact (told.cancel (timely conn _ reporting) failed).stepCloser reporting (by simp) (by simp)
      (by rintro _ ⟨⟩) (by rintro _ ⟨⟩)

end ReportSteps

/-! ### Timely reports -/

/-- Where reports are timely, every failure stays with its connection. -/
theorem timely_reports_kept (pingInterval : Nat) (actions : List Action) (last : State)
    (reached : run step (initial pingInterval) actions = some last)
    (timely : Guarded step Timely (initial pingInterval) actions) : Kept last := by
  have sound : Wired last.toWires ∧ Told last :=
    @run_invariant _ _ _ _ (fun state => Wired state.toWires ∧ Told state) step_told _ _ _
      ⟨initial_wired pingInterval, initial_told pingInterval⟩ timely reached
  exact sound.2.kept

/-- A failed ping that is reported in time, and the reconnect that it leads to. -/
private def pingLoss : List Action :=
  [.go, .startPing 0, .pingFails 0, .tryLock (.ping 0), .assign (.ping 0), .pingCancel 0, .readFails,
    .tryLock .reader, .stop, .cancelRead, .drop, .log, .sweep, .redial true, .place, .give, .arm, .go]

private theorem pingLoss_timely : Guarded step Timely (initial 1) pingLoss := by
  iterate 3 refine .cons rfl trivial ?_
  refine .cons rfl (.inr (Nat.le_refl 0)) (.cons rfl trivial (.cons rfl (Nat.le_refl 0) ?_))
  iterate 5 refine .cons rfl trivial ?_
  refine .cons rfl ⟨fun conn => ?_, nofun⟩ ?_
  · match conn with
    | 0 => exact nofun
    | _ + 1 => exact nofun
  iterate 6 refine .cons rfl trivial ?_
  trivial

theorem timely_reports_kept_ping :
    ∃ last, run step (initial 1) pingLoss = some last ∧ last.reader = .reading 1 ∧
      last.endings = [⟨0, some 0⟩] ∧ Kept last := by
  cases reached : run step (initial 1) pingLoss with
  | none => cases reached
  | some last =>
    have kept := timely_reports_kept 1 pingLoss last reached pingLoss_timely
    cases reached
    exact ⟨_, rfl, rfl, rfl, kept⟩

/-- The ping loop of connection 0 has met its error, which it does at the latest when
`stopConn` cancels its context. It reports after `stopConn` has released `connErrLock`,
and cancels after the next `takeConn`. -/
private def latePing : List Action :=
  [.go, .startPing 0, .readFails, .tryLock .reader, .assign .reader, .stop, .cancelRead, .pingFails 0,
    .drop, .log, .tryLock (.ping 0), .assign (.ping 0), .sweep, .redial true, .place, .give, .arm, .go,
    .pingCancel 0]

/-- Connection 1, on which nothing has failed, is cancelled by the failure of connection
0 and installed with `connErrLock` taken. Its end is then put down to that failure. -/
theorem late_ping_ends_next_connection :
    (∃ state, run step (initial 1) latePing = some state ∧ state.reader = .reading 1 ∧
      state.failed 1 = false ∧ state.connErrLock = true ∧ state.cancelled 1 = true ∧
      ⟨0, 1⟩ ∈ state.cancels ∧ ⟨0, 1⟩ ∈ state.records) ∧
    (∃ state, run step (initial 1)
        (latePing ++ [.readFails, .tryLock .reader, .stop, .cancelRead, .drop, .log]) = some state ∧
      ⟨1, some 0⟩ ∈ state.endings) :=
  ⟨⟨_, rfl, rfl, rfl, rfl, rfl, .head _, .head _⟩, ⟨_, rfl, .head _⟩⟩

end Wsfs.Client.Reconnect
