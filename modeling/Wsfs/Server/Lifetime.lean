/-
How long a WSFS descriptor lives. The sessions of a process gain and lose their
connections, and the commands that a connection has brought run to their end before
the session hibernates; its descriptors stay.

A descriptor is live from the moment `newFD` returns it until a `CmdClose` that names
it is received.
-/

import Wsfs.Server.Descriptor
import Wsfs.Server.Session

namespace Wsfs.Server.Lifetime

open Wsfs.Base Function
open Wsfs.Server.Descriptor (Entry Ordered initial_ordered step_ordered step_table step_closing
  store_some delete_some table_setEntry)

inductive Link
  | hibernated
  | attached
  | stopping
deriving DecidableEq, Repr

/-- What a command is about, as far as the table of descriptors is concerned. -/
inductive Request
  | open
  | close (fd : UInt32)
  | other
deriving DecidableEq, Repr

/-- `running` is the command group, with the session of each task. A request is
`requested` until its task touches the table for the first time. `live` is not part of
the server: the open that returned the descriptor. -/
structure State where
  files : Descriptor.State
  link : Nat → Link
  running : List (Nat × Nat)
  requested : Nat → Option (Nat × Request)
  live : Nat → UInt32 → Option Entry

def initial : State where
  files := Descriptor.initial
  link := fun _ => .hibernated
  running := []
  requested := fun _ => none
  live := fun _ _ => none

inductive Action
  | takeConn (session : Nat)
  | stopConn (session : Nat)
  | hibernate (session : Nat)
  | receive (task session : Nat) (request : Request)
  | fail (task : Nat)
  | files (action : Descriptor.Action)
  | leave (task : Nat)

namespace State

def setLive (state : State) (session : Nat) (fd : UInt32) (value : Option Entry) : State :=
  { state with
    live := update state.live session (update (state.live session) fd value) }

def setRequest (state : State) (task : Nat) (value : Option (Nat × Request)) : State :=
  { state with requested := update state.requested task value }

def giveUp (state : State) (session : Nat) : Request → State
  | .close fd => state.setLive session fd none
  | _ => state

/-- `newFD` returns when `LoadOrStore` has stored. -/
def handOut (state : State) : Descriptor.Action → State
  | .store task =>
      match state.files.tasks task with
      | some ⟨session, .opening entry (some fd)⟩ =>
          if state.files.table session fd = none then state.setLive session fd (some entry)
          else state
      | _ => state
  | _ => state

def begins : Descriptor.Action → Option (Nat × Nat × Request)
  | .open task session _ => some (task, session, .open)
  | .begin task session => some (task, session, .other)
  | .loadClose task session fd => some (task, session, .close fd)
  | _ => none

/-- The first use of the table ends the request; every other one goes on as it may. -/
def take (state : State) (action : Descriptor.Action) : Option State :=
  match begins action with
  | some (task, session, request) =>
      if state.requested task = some (session, request) then some (state.setRequest task none)
      else none
  | none => some (state.handOut action)

/-- A close of a number that is not in the table fails at once; any other command may
fail before it has done anything. -/
def mayFail (state : State) (session : Nat) : Request → Bool
  | .close fd => (state.files.table session fd).isNone
  | _ => true

end State

def step (state : State) : Action → Option State
  | .takeConn session =>
      if state.link session = .hibernated then
        some { state with link := update state.link session .attached }
      else none
  | .stopConn session =>
      if state.link session = .attached then
        some { state with link := update state.link session .stopping }
      else none
  | .hibernate session =>
      if state.link session = .stopping ∧ ∀ member ∈ state.running, member.2 ≠ session then
        some { state with link := update state.link session .hibernated }
      else none
  | .receive task session request =>
      if state.link session = .attached ∧ (∀ member ∈ state.running, member.1 ≠ task) ∧
          state.running.countP (fun member => member.2 == session) < poolLimit then
        some { (state.setRequest task (some (session, request))).giveUp session request with
          running := (task, session) :: state.running }
      else none
  | .fail task =>
      match state.requested task with
      | some (session, request) =>
          if state.mayFail session request then some (state.setRequest task none) else none
      | none => none
  | .files action =>
      (Descriptor.step state.files action).bind fun files =>
        (state.take action).map fun taken => { taken with files := files }
  | .leave task =>
      if (∃ member ∈ state.running, member.1 = task) ∧ state.requested task = none ∧
          state.files.tasks task = none then
        some { state with running := state.running.filter fun member => member.1 != task }
      else none

/-! ### Descriptors that are kept -/

/-- `newFD` is about to return the descriptor. -/
def State.Returns (state : State) (session : Nat) (fd : UInt32) : Prop :=
  ∃ task entry, state.files.tasks task = some ⟨session, .opening entry (some fd)⟩ ∧
    state.files.table session fd = none

structure Kept (state : State) : Prop where
  mapped : ∀ session fd entry, state.live session fd = some entry →
    state.files.table session fd = some entry
  distinct : ∀ session fd fd' entry entry', state.live session fd = some entry →
    state.live session fd' = some entry' → entry.file = entry'.file → fd = fd'
  fresh : ∀ session fd, state.Returns session fd → state.live session fd = none

/-- A `CmdClose` of the descriptor was received and has yet to delete it. -/
def State.Closing (state : State) (session : Nat) (fd : UInt32) : Prop :=
  ∃ task, state.requested task = some (session, .close fd) ∨
    ∃ entry, state.files.tasks task = some ⟨session, .closing fd entry⟩

/-- A number is handed out only when no close of it is in flight. -/
def Settled (state : State) : Action → Prop
  | .files (.store task) =>
      ∀ session entry fd, state.files.tasks task = some ⟨session, .opening entry (some fd)⟩ →
        state.files.table session fd = none → ¬state.Closing session fd
  | _ => True

structure Sound (state : State) : Prop where
  ordered : Ordered state.files
  mapped : ∀ session fd entry, state.live session fd = some entry →
    state.files.table session fd = some entry
  closing : ∀ session fd, state.Closing session fd → state.live session fd = none

theorem initial_sound : Sound initial where
  ordered := initial_ordered
  mapped := nofun
  closing := fun _ _ _ => rfl

theorem Sound.kept {state : State} (sound : Sound state) : Kept state where
  mapped := sound.mapped
  distinct := by
    intro session fd fd' entry entry' atFirst atSecond sameFile
    exact (sound.ordered.placed.unique _ _ _ _ _ _ (sound.mapped _ _ _ atFirst)
      (sound.mapped _ _ _ atSecond) sameFile).2
  fresh := by
    rintro session fd ⟨task, entry, _, free⟩
    cases isLive : state.live session fd with
    | none => rfl
    | some other =>
      rw [sound.mapped _ _ _ isLive] at free
      cases free

section Steps

variable {state next : State}

theorem live_setLive (session : Nat) (fd : UInt32) (value : Option Entry) (session' : Nat)
    (fd' : UInt32) : (state.setLive session fd value).live session' fd' =
      if session' = session ∧ fd' = fd then value else state.live session' fd' := by
  unfold State.setLive
  by_cases sameSession : session' = session
  · subst sameSession
    by_cases sameFd : fd' = fd
    · subst sameFd
      simp
    · simp [sameFd]
  · simp [sameSession]

variable {session task : Nat} {files : Descriptor.State} {fd : UInt32} {request : Request} {other : Nat}
  {value : Nat × Request}

theorem live_receive {session' : Nat} {entry : Entry}
    (isLive : (state.giveUp session request).live session' fd = some entry) :
    state.live session' fd = some entry ∧ ¬(session' = session ∧ request = .close fd) := by
  cases request with
  | close closed =>
    change (state.setLive session closed none).live session' fd = some entry at isLive
    rw [live_setLive] at isLive
    split at isLive
    · cases isLive
    · rename_i elsewhere
      refine ⟨isLive, ?_⟩
      rintro ⟨rfl, ⟨⟩⟩
      exact elsewhere ⟨rfl, rfl⟩
  | «open» => exact ⟨isLive, nofun⟩
  | other => exact ⟨isLive, nofun⟩

theorem Sound.congr (sound : Sound state) (files : next.files = state.files)
    (requested : next.requested = state.requested) (live : next.live = state.live) : Sound next where
  ordered := files ▸ sound.ordered
  mapped := by
    rw [files, live]
    exact sound.mapped
  closing := by
    rw [live]
    intro session fd closing
    apply sound.closing session fd
    rw [State.Closing, files, requested] at closing
    exact closing

theorem requested_ended (found : (state.setRequest task none).requested other = some value) :
    state.requested other = some value := by
  cases update_eq_some found with
  | inl ended => cases ended.1
  | inr before => exact before.1

theorem receive_sound (sound : Sound state)
    (stepped : step state (.receive task session request) = some next) : Sound next := by
  simp only [step] at stepped
  split at stepped
  · cases stepped
    -- nothing but the descriptor that the request names is given up
    have sameFiles : ((state.setRequest task (some (session, request))).giveUp session request).files =
        state.files := by cases request <;> rfl
    have sameRequests : ((state.setRequest task (some (session, request))).giveUp session
        request).requested = update state.requested task (some (session, request)) := by
      cases request <;> rfl
    refine ⟨?_, ?_, ?_⟩
    · exact sameFiles ▸ sound.ordered
    · intro session' fd entry isLive
      rw [sameFiles]
      exact sound.mapped session' fd entry (live_receive isLive).1
    · rintro session' fd ⟨other, closing⟩
      rw [sameFiles, sameRequests] at closing
      by_contra isSome
      obtain ⟨entry, isLive⟩ := Option.ne_none_iff_exists'.mp isSome
      obtain ⟨before, elsewhere⟩ := live_receive isLive
      have earlier : ¬state.Closing session' fd := by
        intro already
        have gone : state.live session' fd = none := sound.closing session' fd already
        cases gone.symm.trans before
      apply earlier
      refine ⟨other, ?_⟩
      cases closing with
      | inr lookedUp => exact .inr lookedUp
      | inl received =>
        cases update_eq_some received with
        | inl new =>
          cases new.1
          exact absurd ⟨rfl, rfl⟩ elsewhere
        | inr before => exact .inl before.1
  · cases stepped

theorem fail_sound (sound : Sound state) (stepped : step state (.fail task) = some next) :
    Sound next := by
  simp only [step] at stepped
  repeat' split at stepped
  · cases stepped
    refine ⟨sound.ordered, sound.mapped, ?_⟩
    rintro session fd ⟨other, received | lookedUp⟩
    · exact sound.closing session fd ⟨other, .inl (requested_ended received)⟩
    · exact sound.closing session fd ⟨other, .inr lookedUp⟩
  all_goals cases stepped

/-! ### The table -/

variable {action : Descriptor.Action} {taken : State}

theorem take_requested (took : state.take action = some taken)
    (found : taken.requested other = some value) : state.requested other = some value := by
  unfold State.take at took
  split at took
  · split at took
    · cases took
      exact requested_ended found
    · cases took
  · cases took
    rw [show (state.handOut action).requested = state.requested by
      unfold State.handOut
      repeat' split
      all_goals rfl] at found
    exact found

theorem take_loadClose (took : state.take (.loadClose task session fd) = some taken) :
    state.requested task = some (session, .close fd) ∧ taken.live = state.live := by
  simp only [State.take, State.begins] at took
  split at took
  · rename_i received
    cases took
    exact ⟨received, rfl⟩
  · cases took

theorem take_live (took : state.take action = some taken) (notStore : ∀ task, action ≠ .store task) :
    taken.live = state.live := by
  unfold State.take at took
  split at took
  · split at took
    · cases took
      rfl
    · cases took
  · cases took
    cases action with
    | store task => exact absurd rfl (notStore task)
    | _ => rfl

theorem store_sound (sound : Sound state) (settled : Settled state (.files (.store task)))
    (stepped : Descriptor.step state.files (.store task) = some files)
    (took : state.take (.store task) = some taken) : Sound { taken with files := files } := by
  have ordered := step_ordered _ _ _ sound.ordered stepped
  have requests : ∀ {session fd}, State.Closing { taken with files := files } session fd →
      state.Closing session fd := by
    rintro session fd ⟨other, received | ⟨entry, lookedUp⟩⟩
    · exact ⟨other, .inl (take_requested took received)⟩
    · cases step_closing stepped lookedUp with
      | inl before => exact ⟨other, .inr ⟨entry, before⟩⟩
      | inr impossible => cases impossible
  cases took
  obtain ⟨session, entry, fd, opening, stored⟩ := store_some stepped
  have handed : state.handOut (.store task) =
      if state.files.table session fd = none then state.setLive session fd (some entry)
      else state := by
    simp only [State.handOut, opening]
  cases stored with
  | inl new =>
    obtain ⟨free, rfl⟩ := new
    have handedOut : state.handOut (.store task) = state.setLive session fd (some entry) := by
      rw [handed, if_pos free]
    rw [handedOut] at requests ⊢
    refine ⟨ordered, ?_, ?_⟩
    · intro session' fd' found isLive
      change (state.setLive session fd (some entry)).live session' fd' = some found at isLive
      change (state.files.setEntry session fd (some entry)).table session' fd' = some found
      rw [live_setLive] at isLive
      rw [table_setEntry]
      split at isLive
      · rename_i here
        rw [if_pos here]
        exact isLive
      · rename_i elsewhere
        rw [if_neg elsewhere]
        exact sound.mapped session' fd' found isLive
    · intro session' fd' closing
      have earlier := requests closing
      change (state.setLive session fd (some entry)).live session' fd' = none
      rw [live_setLive]
      split
      · rename_i here
        rw [here.1, here.2] at earlier
        exact absurd earlier (settled session entry fd opening free)
      · exact sound.closing session' fd' earlier
  | inr again =>
    obtain ⟨⟨other, present⟩, rfl⟩ := again
    have handedOut : state.handOut (.store task) = state := by
      rw [handed, if_neg]
      rw [present]
      exact nofun
    rw [handedOut] at requests ⊢
    exact ⟨ordered, sound.mapped, fun session' fd' closing =>
      sound.closing session' fd' (requests closing)⟩

theorem delete_sound (sound : Sound state)
    (stepped : Descriptor.step state.files (.delete task) = some files)
    (took : state.take (.delete task) = some taken) : Sound { taken with files := files } := by
  have ordered := step_ordered _ _ _ sound.ordered stepped
  cases took
  refine ⟨ordered, ?_, ?_⟩
  · intro session' fd' found isLive
    have before : state.live session' fd' = some found := isLive
    obtain ⟨session, fd, entry, closing, rfl⟩ := delete_some stepped
    change (state.files.setEntry session fd none).table session' fd' = some found
    rw [table_setEntry, if_neg]
    · exact sound.mapped session' fd' found before
    · -- what is deleted has been given up before
      rintro ⟨rfl, rfl⟩
      have gone := sound.closing session' fd' ⟨task, .inr ⟨entry, closing⟩⟩
      cases gone.symm.trans before
  · rintro session fd ⟨other, received | ⟨entry, lookedUp⟩⟩
    · exact sound.closing session fd ⟨other, .inl received⟩
    · cases step_closing stepped lookedUp with
      | inl before => exact sound.closing session fd ⟨other, .inr ⟨entry, before⟩⟩
      | inr impossible => cases impossible

theorem files_sound (sound : Sound state) (settled : Settled state (.files action))
    (stepped : Descriptor.step state.files action = some files) (took : state.take action = some taken) :
    Sound { taken with files := files } := by
  by_cases stores : ∃ task, action = .store task
  · obtain ⟨task, rfl⟩ := stores
    exact store_sound sound settled stepped took
  by_cases deletes : ∃ task, action = .delete task
  · obtain ⟨task, rfl⟩ := deletes
    exact delete_sound sound stepped took
  have notStore : ∀ task, action ≠ .store task := fun task same => stores ⟨task, same⟩
  have sameLive := take_live took notStore
  have sameTable := step_table stepped notStore fun task same => deletes ⟨task, same⟩
  refine ⟨step_ordered _ _ _ sound.ordered stepped, ?_, ?_⟩
  · intro session fd entry isLive
    change files.table session fd = some entry
    rw [sameTable]
    change taken.live session fd = some entry at isLive
    rw [sameLive] at isLive
    exact sound.mapped session fd entry isLive
  · rintro session fd ⟨other, received | ⟨entry, lookedUp⟩⟩
    · change taken.live session fd = none
      rw [sameLive]
      exact sound.closing session fd ⟨other, .inl (take_requested took received)⟩
    · change taken.live session fd = none
      rw [sameLive]
      cases step_closing stepped lookedUp with
      | inl before => exact sound.closing session fd ⟨other, .inr ⟨entry, before⟩⟩
      | inr looksUp =>
        subst looksUp
        exact sound.closing session fd ⟨other, .inl (take_loadClose took).1⟩

theorem step_sound (state : State) (action : Action) (next : State) (sound : Sound state)
    (settled : Settled state action) (stepped : step state action = some next) : Sound next := by
  cases action with
  | receive task session request => exact receive_sound sound stepped
  | fail task => exact fail_sound sound stepped
  | files action =>
    obtain ⟨files, filesStepped, taken⟩ := Option.bind_eq_some_iff.mp stepped
    obtain ⟨taken, took, rfl⟩ := Option.map_eq_some_iff.mp taken
    exact files_sound sound settled filesStepped took
  | _ =>
    simp only [step] at stepped
    split at stepped
    · cases stepped
      exact sound.congr rfl rfl rfl
    · cases stepped

end Steps

/-! ### Whole runs -/

/-- In every run in which no number is handed out while a close of it is in flight, every
live descriptor is mapped to its own open, no two of them to the same one, and `newFD`
returns no live descriptor. -/
theorem settled_descriptors_kept (actions : List Action) (last : State)
    (settled : Guarded step Settled initial actions)
    (ran : run step initial actions = some last) : Kept last :=
  (run_invariant step_sound initial_sound settled ran).kept

/-- A descriptor that is open when its session hibernates and resumes. -/
private def openAndResume : List Action :=
  [.takeConn 0, .receive 0 0 .open, .files (.open 0 0 3), .files (.next 0), .files (.store 0),
    .leave 0, .stopConn 0, .hibernate 0, .takeConn 0]

private theorem openAndResume_settled : Guarded step Settled initial openAndResume := by
  iterate 4 refine .cons rfl trivial ?_
  refine .cons rfl ?_ ?_
  · rintro session entry fd _ _ ⟨task, received | ⟨closed, lookedUp⟩⟩
    · cases update_eq_some received with
      | inl ended => cases ended.1
      | inr before =>
        cases update_eq_some before.1 with
        | inl opening => cases opening.1
        | inr nothing => cases nothing.1
    · cases update_eq_some lookedUp with
      | inl opening => cases opening.1
      | inr before =>
        cases update_eq_some before.1 with
        | inl opening => cases opening.1
        | inr nothing => cases nothing.1
  · iterate 4 refine .cons rfl trivial ?_
    trivial

theorem settled_descriptors_kept_resumed :
    ∃ last, Guarded step Settled initial openAndResume ∧
      run step initial openAndResume = some last ∧ last.live 0 1 = some ⟨3, 0⟩ ∧ Kept last := by
  cases reached : run step initial openAndResume with
  | none => cases reached
  | some last =>
    refine ⟨last, openAndResume_settled, rfl, ?_,
      settled_descriptors_kept _ last openAndResume_settled reached⟩
    cases reached
    rfl

/-! ### A number that comes round again -/

/-- A session on a connection with one command in flight: a close of descriptor 1 that has
looked the descriptor up. -/
private def parked (last : UInt32) (count : Nat) (events : List Descriptor.Event) : State where
  files :=
    { os := fun _ => none
      files := count
      foreign := []
      table := fun _ _ => none
      fdLast := update (fun _ => 0) 0 last
      tasks := update (fun _ => none) 1 (some ⟨0, .closing 1 ⟨3, 0⟩⟩)
      events := events }
  link := update (fun _ => .hibernated) 0 .attached
  running := [(1, 0)]
  requested := fun _ => none
  live := fun _ _ => none

private def openAndClose (fd : UInt32) : List Action :=
  [.receive 3 0 .open, .files (.open 3 0 3), .files (.next 3), .files (.store 3), .leave 3,
    .receive 4 0 (.close fd), .files (.loadClose 4 0 fd), .files (.delete 4), .files (.close 4),
    .leave 4]

private theorem update_free {Value : Type} {table : Nat → Option Value} {key : Nat}
    (free : table key = none) : update table key none = table := by
  have same := update_eq_self key table
  rwa [free] at same

private theorem openAndClose_parked (last : UInt32) (count : Nat) (events : List Descriptor.Event) :
    run step (parked last count events) (openAndClose (last + 1)) =
      some (parked (last + 1) (count + 1) (⟨0, last + 1, true, count, some count⟩ :: events)) := by
  simp [openAndClose, run_cons, step, parked, Descriptor.step, State.take, State.begins,
    State.setRequest, State.handOut, State.giveUp, State.setLive, Descriptor.State.openFile,
    Descriptor.State.setTask, Descriptor.State.setEntry, Descriptor.State.record, poolLimit]
  exact (update_free (by simp)).trans (update_free (by simp))

private theorem parked_reaches (rounds : Nat) (last : UInt32) (count : Nat)
    (events : List Descriptor.Event) : ∃ events', Reaches step (parked last count events)
      (parked (last + UInt32.ofNat rounds) (count + rounds) events') := by
  induction rounds generalizing last count events with
  | zero => exact ⟨events, [], by simp⟩
  | succ rounds ih =>
    obtain ⟨events', actions, ran⟩ := ih (last + 1) (count + 1)
      (⟨0, last + 1, true, count, some count⟩ :: events)
    have number : last + UInt32.ofNat (rounds + 1) = last + 1 + UInt32.ofNat rounds := by
      rw [Nat.add_comm, UInt32.ofNat_add, UInt32.add_assoc]
      rfl
    refine ⟨events', openAndClose (last + 1) ++ actions, ?_⟩
    rw [run_append, openAndClose_parked, Option.bind_some, ran, number, Nat.add_assoc,
      Nat.add_comm 1]

/-- Two closes of one descriptor have looked it up, and one of them is through. -/
private theorem parked_reachable : ∃ events, Reaches step initial (parked 1 1 events) := by
  refine ⟨[⟨0, 1, true, 0, some 0⟩], [.takeConn 0, .receive 0 0 .open, .files (.open 0 0 3),
    .files (.next 0), .files (.store 0), .leave 0, .receive 1 0 (.close 1),
    .files (.loadClose 1 0 1), .receive 2 0 (.close 1), .files (.loadClose 2 0 1), .files (.delete 2),
    .files (.close 2), .leave 2], ?_⟩
  simp [initial, Descriptor.initial, run_cons, step, parked, Descriptor.step, State.take, State.begins,
    State.setRequest, State.handOut, State.giveUp, State.setLive, Descriptor.State.openFile,
    Descriptor.State.setTask, Descriptor.State.setEntry, Descriptor.State.record, poolLimit]

/-- The counter has gone round, and the number of the late close is handed out. -/
private theorem parked_overtakes (count : Nat) (events : List Descriptor.Event) :
    ∃ last, Reaches step (parked 0 count events) last ∧ last.live 0 1 = some ⟨3, count⟩ ∧
      last.files.table 0 1 = none := by
  let actions : List Action := [.receive 3 0 .open, .files (.open 3 0 3), .files (.next 3),
    .files (.store 3), .leave 3, .files (.delete 1)]
  cases reached : run step (parked 0 count events) actions with
  | none => cases reached
  | some last =>
    refine ⟨last, ⟨actions, reached⟩, ?_, ?_⟩
    · cases reached
      rfl
    · cases reached
      rfl

/-- A close has looked descriptor 1 up when another one closes it. After all other numbers
a new open gets number 1, and the late close takes it out of the table. -/
theorem late_close_deletes_live_descriptor :
    ∃ last entry, Reaches step initial last ∧ last.live 0 1 = some entry ∧
      last.files.table 0 1 = none ∧ ¬Kept last := by
  obtain ⟨first, prologue, started⟩ := parked_reachable
  obtain ⟨second, laps, counted⟩ := parked_reaches (2 ^ 32 - 1) 1 1 first
  have wrapped : (1 : UInt32) + UInt32.ofNat (2 ^ 32 - 1) = 0 := by decide
  rw [wrapped] at counted
  obtain ⟨last, ⟨epilogue, ended⟩, isLive, unmapped⟩ := parked_overtakes (1 + (2 ^ 32 - 1)) second
  refine ⟨last, ⟨3, 1 + (2 ^ 32 - 1)⟩, ⟨prologue ++ laps ++ epilogue, ?_⟩, isLive, unmapped, ?_⟩
  · rw [run_append, run_append, started, Option.bind_some, counted, Option.bind_some, ended]
  · intro kept
    cases (kept.mapped 0 1 _ isLive).symm.trans unmapped

end Wsfs.Server.Lifetime
