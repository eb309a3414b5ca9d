/-
Descriptors of all sessions of one server process. A command looks a WSFS
descriptor up and makes its system calls later; `cmdClose` looks up, deletes and
closes in three steps; the kernel hands closed numbers out again, to any session
or to other code of the process.

Every open file has an identity of its own, which no code sees. It tells whether
a system call reaches the file that was opened for its descriptor.
-/

import Wsfs.Base.Run

namespace Wsfs.Server.Descriptor

open Wsfs.Base Function

/-- A value of the table `fds`: the OS descriptor, and the open file behind it when
it was stored. -/
structure Entry where
  sfd : Nat
  file : Nat
deriving DecidableEq, Repr

/-- Where a command in flight stands. `opening` is in the loop of `newFD`, with the
number it is about to try; `closing` is `cmdClose` or one round of `clearFDs` after
the lookup, `deleted` after the deletion. Every other command is `using`, with
what it has looked up. -/
inductive Pc
  | opening (entry : Entry) (candidate : Option UInt32)
  | using (held : List (UInt32 × Entry))
  | closing (fd : UInt32) (entry : Entry)
  | deleted (fd : UInt32) (entry : Entry)
deriving DecidableEq, Repr

structure Task where
  session : Nat
  pc : Pc
deriving DecidableEq, Repr

def Pc.entries : Pc → List Entry
  | .opening entry _ => [entry]
  | .using held => held.map Prod.snd
  | .closing _ entry => [entry]
  | .deleted _ entry => [entry]

/-- One system call on a descriptor: the file it was meant for, and the file that the
kernel had behind the number. -/
structure Event where
  session : Nat
  fd : UInt32
  closes : Bool
  expected : Nat
  actual : Option Nat
deriving DecidableEq, Repr

structure State where
  os : Nat → Option Nat
  files : Nat
  foreign : List Nat
  table : Nat → UInt32 → Option Entry
  fdLast : Nat → UInt32
  tasks : Nat → Option Task
  events : List Event

def initial : State where
  os := fun _ => none
  files := 0
  foreign := []
  table := fun _ _ => none
  fdLast := fun _ => 0
  tasks := fun _ => none
  events := []

inductive Action
  | open (task session sfd : Nat)
  | next (task : Nat)
  | store (task : Nat)
  | begin (task session : Nat)
  | load (task : Nat) (fd : UInt32)
  | call (task index : Nat)
  | finish (task : Nat)
  | loadClose (task session : Nat) (fd : UInt32)
  | delete (task : Nat)
  | close (task : Nat)
  | foreignOpen (sfd : Nat)
  | foreignClose (sfd : Nat)

namespace State

def setTask (state : State) (task : Nat) (value : Option Task) : State :=
  { state with tasks := update state.tasks task value }

def setEntry (state : State) (session : Nat) (fd : UInt32) (value : Option Entry) : State :=
  { state with
    table := update state.table session
      (update (state.table session) fd value) }

def openFile (state : State) (sfd : Nat) : State :=
  { state with os := update state.os sfd (some state.files), files := state.files + 1 }

def record (state : State) (session : Nat) (fd : UInt32) (closes : Bool) (entry : Entry) : State :=
  { state with
    events := ⟨session, fd, closes, entry.file, state.os entry.sfd⟩ :: state.events }

end State

def step (state : State) : Action → Option State
  | .open task session sfd =>
      if state.tasks task = none ∧ state.os sfd = none then
        some ((state.openFile sfd).setTask task
          (some ⟨session, .opening ⟨sfd, state.files⟩ none⟩))
      else none
  | .next task =>
      match state.tasks task with
      | some ⟨session, .opening entry none⟩ =>
          let fd := state.fdLast session + 1
          some { state.setTask task (some ⟨session, .opening entry (some fd)⟩) with
            fdLast := update state.fdLast session fd }
      | _ => none
  | .store task =>
      match state.tasks task with
      | some ⟨session, .opening entry (some fd)⟩ =>
          match state.table session fd with
          | none => some ((state.setEntry session fd (some entry)).setTask task none)
          | some _ => some (state.setTask task (some ⟨session, .opening entry none⟩))
      | _ => none
  | .begin task session =>
      if state.tasks task = none then some (state.setTask task (some ⟨session, .using []⟩)) else none
  | .load task fd =>
      match state.tasks task with
      | some ⟨session, .using held⟩ =>
          (state.table session fd).map fun entry =>
            state.setTask task (some ⟨session, .using ((fd, entry) :: held)⟩)
      | _ => none
  | .call task index =>
      match state.tasks task with
      | some ⟨session, .using held⟩ =>
          (held[index]?).map fun found => state.record session found.1 false found.2
      | _ => none
  | .finish task =>
      match state.tasks task with
      | some ⟨_, .using _⟩ => some (state.setTask task none)
      | _ => none
  | .loadClose task session fd =>
      if state.tasks task = none then
        (state.table session fd).map fun entry =>
          state.setTask task (some ⟨session, .closing fd entry⟩)
      else none
  | .delete task =>
      match state.tasks task with
      | some ⟨session, .closing fd entry⟩ =>
          some ((state.setEntry session fd none).setTask task (some ⟨session, .deleted fd entry⟩))
      | _ => none
  | .close task =>
      match state.tasks task with
      | some ⟨session, .deleted fd entry⟩ =>
          some { (state.record session fd true entry).setTask task none with
            os := update state.os entry.sfd none }
      | _ => none
  | .foreignOpen sfd =>
      if state.os sfd = none then
        some { state.openFile sfd with foreign := state.files :: state.foreign }
      else none
  | .foreignClose sfd =>
      match state.os sfd with
      | some file =>
          if file ∈ state.foreign then some { state with os := update state.os sfd none }
          else none
      | none => none

/-! ### Right calls -/

def State.closings (state : State) (file : Nat) : Nat :=
  state.events.countP fun event => event.closes && event.expected == file

/-- Every call reached the file of its descriptor, and no file was closed twice. -/
structure Faithful (state : State) : Prop where
  reaches : ∀ event ∈ state.events, event.actual = some event.expected
  once : ∀ file, state.closings file ≤ 1

/-- A file is closed only when no other command in flight has looked its descriptor
up. -/
def Exclusive (state : State) : Action → Prop
  | .close task =>
      ∀ session fd entry, state.tasks task = some ⟨session, .deleted fd entry⟩ →
        ∀ other otherTask, other ≠ task → state.tasks other = some otherTask →
          ∀ held ∈ otherTask.pc.entries, held.file ≠ entry.file
  | _ => True

/-! ### Who refers to a file -/

/-- What can refer to an open file: a row of a table, or a command in flight. -/
inductive Place
  | listed (session : Nat) (fd : UInt32)
  | held (task : Nat)
deriving DecidableEq

def State.Refers (state : State) : Place → Entry → Prop
  | .listed session fd, entry => state.table session fd = some entry
  | .held task, entry => ∃ value, state.tasks task = some value ∧ entry ∈ value.pc.entries

/-- The table and the commands in flight: a file stands in the table at most once,
an opening command has its file for itself, and a closing one has taken it out. -/
structure Placed (state : State) : Prop where
  unique : ∀ session fd entry session' fd' entry', state.table session fd = some entry →
    state.table session' fd' = some entry' → entry.file = entry'.file → session = session' ∧ fd = fd'
  opening : ∀ task session entry candidate,
    state.tasks task = some ⟨session, .opening entry candidate⟩ →
    ∀ place other, place ≠ .held task → state.Refers place other → other.file ≠ entry.file
  closing : ∀ task session fd entry, state.tasks task = some ⟨session, .closing fd entry⟩ →
    ∀ session' fd' listed, state.table session' fd' = some listed → listed.file = entry.file →
      session' = session ∧ fd' = fd
  deleted : ∀ task session fd entry, state.tasks task = some ⟨session, .deleted fd entry⟩ →
    ∀ session' fd' listed, state.table session' fd' = some listed → listed.file ≠ entry.file

/-- Files are numbered as they are opened, whether or not they are still open. -/
structure Ordered (state : State) : Prop where
  placed : Placed state
  below : ∀ place entry, state.Refers place entry → entry.file < state.files

/-- Every descriptor that is referred to has its own file behind it. -/
structure Live (state : State) : Prop where
  injective : ∀ sfd sfd' file, state.os sfd = some file → state.os sfd' = some file → sfd = sfd'
  fresh : ∀ sfd file, state.os sfd = some file → file < state.files
  backed : ∀ place entry, state.Refers place entry → state.os entry.sfd = some entry.file
  foreign : ∀ file ∈ state.foreign, file < state.files ∧
    ∀ place entry, state.Refers place entry → entry.file ≠ file

/-- All calls so far were right, and what was closed is behind no number any more. -/
structure Logged (state : State) : Prop where
  faithful : Faithful state
  closed : ∀ file, 0 < state.closings file → file < state.files ∧ ∀ sfd, state.os sfd ≠ some file

structure Sound (state : State) : Prop where
  placed : Placed state
  live : Live state
  logged : Logged state

theorem not_refers_initial (place : Place) (entry : Entry) : ¬initial.Refers place entry := by
  cases place with
  | listed session fd => exact nofun
  | held task =>
    rintro ⟨value, none, _⟩
    cases none

theorem initial_ordered : Ordered initial :=
  ⟨⟨nofun, nofun, nofun, nofun⟩, fun place entry refers => (not_refers_initial place entry refers).elim⟩

theorem Live.ordered {state : State} (live : Live state) (placed : Placed state) : Ordered state :=
  ⟨placed, fun place entry refers => live.fresh _ _ (live.backed place entry refers)⟩

theorem initial_sound : Sound initial where
  placed := initial_ordered.placed
  live := ⟨nofun, nofun, fun place entry refers => (not_refers_initial place entry refers).elim, nofun⟩
  logged := ⟨⟨nofun, fun _ => Nat.zero_le 1⟩, fun _ impossible => absurd impossible (Nat.lt_irrefl 0)⟩

section Changes

variable {state next : State} {task : Nat} {value : Option Task} {entry found : Entry}
  {session sfd number file : Nat} {fd : UInt32}

theorem refers_of_eq (place : Place) (table : next.table = state.table) (tasks : next.tasks = state.tasks)
    (refers : next.Refers place entry) : state.Refers place entry := by
  cases place with
  | listed session fd => exact (congrFun₂ table session fd).symm.trans refers
  | held task =>
    obtain ⟨value, found, member⟩ := refers
    exact ⟨value, (congrFun tasks task).symm.trans found, member⟩

theorem refers_setTask (place : Place) (refers : (state.setTask task value).Refers place entry) :
    place ≠ .held task ∧ state.Refers place entry ∨
      place = .held task ∧ ∃ after, value = some after ∧ entry ∈ after.pc.entries := by
  cases place with
  | listed session fd => exact .inl ⟨nofun, refers⟩
  | held other =>
    obtain ⟨found, atTask, member⟩ := refers
    rcases update_eq_some atTask with ⟨isValue, rfl⟩ | ⟨before, different⟩
    · exact .inr ⟨rfl, found, isValue, member⟩
    · exact .inl ⟨fun same => different (Place.held.inj same), found, before, member⟩

/-- A task goes on with what it or the table knows. -/
structure Onward (state : State) (task : Nat) (value : Option Task) : Prop where
  known : ∀ after, value = some after → ∀ entry ∈ after.pc.entries,
    ∃ place, state.Refers place entry ∧ ∀ other, place = .held other → other = task
  opening : ∀ session entry candidate, value = some ⟨session, .opening entry candidate⟩ →
    ∀ place other, place ≠ .held task → state.Refers place other → other.file ≠ entry.file
  closing : ∀ session fd entry, value = some ⟨session, .closing fd entry⟩ →
    state.table session fd = some entry
  deleted : ∀ session fd entry, value = some ⟨session, .deleted fd entry⟩ →
    ∀ session' fd' listed, state.table session' fd' = some listed → listed.file ≠ entry.file

theorem Placed.setTask (placed : Placed state) (onward : Onward state task value) :
    Placed (state.setTask task value) where
  unique := placed.unique
  opening := by
    intro other session entry candidate atOther place held apart refers
    rcases update_eq_some atOther with ⟨isValue, rfl⟩ | ⟨before, different⟩
    · rcases refers_setTask place refers with ⟨_, refers⟩ | ⟨same, _⟩
      · exact onward.opening session entry candidate isValue place held apart refers
      · exact absurd same apart
    · rcases refers_setTask place refers with ⟨_, refers⟩ | ⟨rfl, after, isValue, member⟩
      · exact placed.opening other session entry candidate before place held apart refers
      · obtain ⟨source, refers, own⟩ := onward.known after isValue held member
        exact placed.opening other session entry candidate before source held
          (fun same => different (own other same)) refers
  closing := by
    intro other session fd entry atOther
    rcases update_eq_some atOther with ⟨isValue, _⟩ | ⟨before, _⟩
    · intro session' fd' listed atPlace sameFile
      exact placed.unique _ _ _ _ _ _ atPlace (onward.closing session fd entry isValue) sameFile
    · exact placed.closing other session fd entry before
  deleted := by
    intro other session fd entry atOther
    rcases update_eq_some atOther with ⟨isValue, _⟩ | ⟨before, _⟩
    · exact onward.deleted session fd entry isValue
    · exact placed.deleted other session fd entry before

theorem Placed.openTask (placed : Placed state) (session : Nat)
    (unknown : ∀ place other, state.Refers place other → other.file ≠ entry.file) :
    Placed (state.setTask task (some ⟨session, .opening entry none⟩)) where
  unique := placed.unique
  opening := by
    intro other session' opened candidate atOther place held apart refers
    rcases update_eq_some atOther with ⟨⟨⟩, rfl⟩ | ⟨before, _⟩
    · rcases refers_setTask place refers with ⟨_, refers⟩ | ⟨same, _⟩
      · exact unknown place held refers
      · exact absurd same apart
    · rcases refers_setTask place refers with ⟨_, refers⟩ | ⟨_, _, ⟨⟩, member⟩
      · exact placed.opening other session' opened candidate before place held apart refers
      · rw [List.mem_singleton.mp member]
        exact (unknown (.held other) opened ⟨_, before, List.mem_singleton_self _⟩).symm
  closing := by
    intro other session' fd closed atOther
    rcases update_eq_some atOther with ⟨⟨⟩, _⟩ | ⟨before, _⟩
    exact placed.closing other session' fd closed before
  deleted := by
    intro other session' fd closed atOther
    rcases update_eq_some atOther with ⟨⟨⟩, _⟩ | ⟨before, _⟩
    exact placed.deleted other session' fd closed before

theorem Live.setTask (live : Live state) (backed : ∀ after, value = some after →
      ∀ entry ∈ after.pc.entries, state.os entry.sfd = some entry.file ∧ entry.file ∉ state.foreign) :
    Live (state.setTask task value) where
  injective := live.injective
  fresh := live.fresh
  backed := by
    intro place entry refers
    rcases refers_setTask place refers with ⟨_, before⟩ | ⟨_, after, isValue, member⟩
    · exact live.backed place entry before
    · exact (backed after isValue entry member).1
  foreign := by
    intro file isForeign
    obtain ⟨below, unknown⟩ := live.foreign file isForeign
    refine ⟨below, ?_⟩
    intro place entry refers
    rcases refers_setTask place refers with ⟨_, before⟩ | ⟨_, after, isValue, member⟩
    · exact unknown place entry before
    · rintro rfl
      exact (backed after isValue entry member).2 isForeign

theorem Logged.congr {next : State} (logged : Logged state) (events : next.events = state.events)
    (files : next.files = state.files) (os : next.os = state.os) : Logged next where
  faithful := by
    refine ⟨?_, ?_⟩
    · rw [events]
      exact logged.faithful.reaches
    · intro file
      rw [State.closings, events]
      exact logged.faithful.once file
  closed := by
    intro file
    rw [State.closings, events, files, os]
    exact logged.closed file

theorem Live.frame (live : Live state) (os : next.os = state.os) (files : next.files = state.files)
    (foreign : next.foreign = state.foreign) (table : next.table = state.table)
    (tasks : next.tasks = state.tasks) : Live next := by
  refine ⟨?_, ?_, ?_, ?_⟩
  · rw [os]
    exact live.injective
  · rw [os, files]
    exact live.fresh
  · intro place entry refers
    rw [os]
    exact live.backed place entry (refers_of_eq place table tasks refers)
  · rw [foreign, files]
    intro file member
    obtain ⟨below, unknown⟩ := live.foreign file member
    exact ⟨below, fun place entry refers => unknown place entry (refers_of_eq place table tasks refers)⟩

theorem table_setEntry (session : Nat) (fd : UInt32) (value : Option Entry) (session' : Nat)
    (fd' : UInt32) : (state.setEntry session fd value).table session' fd' =
      if session' = session ∧ fd' = fd then value else state.table session' fd' := by
  unfold State.setEntry
  by_cases sameSession : session' = session
  · subst sameSession
    by_cases sameFd : fd' = fd
    · subst sameFd
      simp
    · simp [sameFd]
  · simp [sameSession]

theorem refers_removed (place : Place) (refers : (state.setEntry session fd none).Refers place entry) :
    place ≠ .listed session fd ∧ state.Refers place entry := by
  cases place with
  | held task => exact ⟨nofun, refers⟩
  | listed session' fd' =>
    replace refers : (state.setEntry session fd none).table session' fd' = some entry := refers
    rw [table_setEntry] at refers
    split at refers
    · cases refers
    · rename_i elsewhere
      exact ⟨fun same => elsewhere (Place.listed.inj same), refers⟩

theorem Placed.remove (placed : Placed state) (session : Nat) (fd : UInt32) :
    Placed (state.setEntry session fd none) := by
  have before : ∀ {session' fd' entry}, (state.setEntry session fd none).table session' fd' = some entry →
      state.table session' fd' = some entry := fun found => (refers_removed (.listed _ _) found).2
  constructor
  · intro first firstFd entry second secondFd entry' atFirst atSecond
    exact placed.unique _ _ _ _ _ _ (before atFirst) (before atSecond)
  · intro task session entry candidate atTask place other apart refers
    exact placed.opening task session entry candidate atTask place other apart (refers_removed place refers).2
  · intro task session fd entry atTask session' fd' listed found
    exact placed.closing task session fd entry atTask _ _ _ (before found)
  · intro task session fd entry atTask session' fd' listed found
    exact placed.deleted task session fd entry atTask _ _ _ (before found)

theorem Live.remove (live : Live state) (session : Nat) (fd : UInt32) :
    Live (state.setEntry session fd none) where
  injective := live.injective
  fresh := live.fresh
  backed place entry refers := live.backed place entry (refers_removed place refers).2
  foreign file member := (live.foreign file member).imp_right
    fun unknown place entry refers => unknown place entry (refers_removed place refers).2

theorem refers_added (place : Place) (refers : (state.setEntry session fd (some entry)).Refers place found) :
    place = .listed session fd ∧ found = entry ∨ state.Refers place found := by
  cases place with
  | held task => exact .inr refers
  | listed session' fd' =>
    replace refers : (state.setEntry session fd (some entry)).table session' fd' = some found := refers
    rw [table_setEntry] at refers
    split at refers
    · rename_i same
      cases refers
      exact .inl ⟨by rw [same.1, same.2], rfl⟩
    · exact .inr refers

theorem Placed.add (placed : Placed state) (session : Nat) (fd : UInt32)
    (unknown : ∀ place other, state.Refers place other → other.file ≠ entry.file) :
    Placed (state.setEntry session fd (some entry)) := by
  have listed : ∀ {session' fd' other}, state.table session' fd' = some other → other.file ≠ entry.file :=
    fun found => unknown (.listed _ _) _ found
  constructor
  · intro first firstFd found second secondFd found' atFirst atSecond sameFile
    rcases refers_added (.listed first firstFd) atFirst with ⟨⟨⟩, rfl⟩ | beforeFirst
    · rcases refers_added (.listed second secondFd) atSecond with ⟨⟨⟩, _⟩ | beforeSecond
      · exact ⟨rfl, rfl⟩
      · exact absurd sameFile.symm (listed beforeSecond)
    · rcases refers_added (.listed second secondFd) atSecond with ⟨⟨⟩, rfl⟩ | beforeSecond
      · exact absurd sameFile (listed beforeFirst)
      · exact placed.unique _ _ _ _ _ _ beforeFirst beforeSecond sameFile
  · intro task session opened candidate atTask place other apart refers
    rcases refers_added place refers with ⟨_, rfl⟩ | before
    · exact (unknown (.held task) opened ⟨_, atTask, List.mem_singleton_self _⟩).symm
    · exact placed.opening task session opened candidate atTask place other apart before
  · intro task session fd closed atTask session' fd' other atPlace sameFile
    rcases refers_added (.listed session' fd') atPlace with ⟨_, rfl⟩ | before
    · exact absurd sameFile.symm (unknown (.held task) closed ⟨_, atTask, List.mem_singleton_self _⟩)
    · exact placed.closing task session fd closed atTask _ _ _ before sameFile
  · intro task session fd closed atTask session' fd' other atPlace
    rcases refers_added (.listed session' fd') atPlace with ⟨_, rfl⟩ | before
    · exact (unknown (.held task) closed ⟨_, atTask, List.mem_singleton_self _⟩).symm
    · exact placed.deleted task session fd closed atTask _ _ _ before

theorem Live.add (live : Live state) (session : Nat) (fd : UInt32)
    (behind : state.os entry.sfd = some entry.file) (own : entry.file ∉ state.foreign) :
    Live (state.setEntry session fd (some entry)) where
  injective := live.injective
  fresh := live.fresh
  backed := by
    intro place found refers
    rcases refers_added place refers with ⟨_, rfl⟩ | before
    · exact behind
    · exact live.backed place found before
  foreign := by
    intro file member
    obtain ⟨below, unknown⟩ := live.foreign file member
    refine ⟨below, ?_⟩
    intro place found refers
    rcases refers_added place refers with ⟨_, rfl⟩ | before
    · exact fun same => own (same ▸ member)
    · exact unknown place found before

theorem os_opened (behind : (state.openFile sfd).os number = some file) :
    number = sfd ∧ file = state.files ∨ number ≠ sfd ∧ state.os number = some file := by
  rcases update_eq_some behind with ⟨isNew, same⟩ | ⟨before, different⟩
  · exact .inl ⟨same, (Option.some.inj isNew).symm⟩
  · exact .inr ⟨different, before⟩

theorem os_kept (free : state.os sfd = none) (behind : state.os number = some file) :
    (state.openFile sfd).os number = some file := by
  have different : number ≠ sfd := by
    rintro rfl
    rw [free] at behind
    cases behind
  exact (update_of_ne different ..).trans behind

theorem Live.openFile (live : Live state) (free : state.os sfd = none) :
    Live (state.openFile sfd) where
  injective := by
    intro first second file atFirst atSecond
    rcases os_opened atFirst with ⟨rfl, rfl⟩ | ⟨_, beforeFirst⟩
    · rcases os_opened atSecond with ⟨rfl, _⟩ | ⟨_, beforeSecond⟩
      · rfl
      · exact absurd (live.fresh _ _ beforeSecond) (Nat.lt_irrefl _)
    · rcases os_opened atSecond with ⟨rfl, rfl⟩ | ⟨_, beforeSecond⟩
      · exact absurd (live.fresh _ _ beforeFirst) (Nat.lt_irrefl _)
      · exact live.injective _ _ _ beforeFirst beforeSecond
  fresh := by
    intro number file behind
    rcases os_opened behind with ⟨_, rfl⟩ | ⟨_, before⟩
    · exact Nat.lt_succ_self _
    · exact Nat.lt_succ_of_lt (live.fresh number file before)
  backed place entry refers := os_kept free (live.backed place entry refers)
  foreign := by
    intro file member
    obtain ⟨below, rest⟩ := live.foreign file member
    exact ⟨Nat.lt_succ_of_lt below, rest⟩

theorem Logged.openFile (logged : Logged state) (sfd : Nat) : Logged (state.openFile sfd) where
  faithful := ⟨logged.faithful.reaches, logged.faithful.once⟩
  closed := by
    intro file closed
    obtain ⟨below, gone⟩ := logged.closed file closed
    refine ⟨Nat.lt_succ_of_lt below, ?_⟩
    intro number behind
    rcases os_opened behind with ⟨_, rfl⟩ | ⟨_, before⟩
    · exact absurd below (Nat.lt_irrefl _)
    · exact gone number before

theorem os_closed (behind : update state.os sfd none number = some file) :
    number ≠ sfd ∧ state.os number = some file := by
  rcases update_eq_some behind with ⟨⟨⟩, _⟩ | ⟨before, different⟩
  exact ⟨different, before⟩

theorem Live.closeFile (live : Live state)
    (unused : ∀ place entry, state.Refers place entry → entry.sfd ≠ sfd) :
    Live { state with os := update state.os sfd none } where
  injective first second file atFirst atSecond :=
    live.injective first second file (os_closed atFirst).2 (os_closed atSecond).2
  fresh number file behind := live.fresh number file (os_closed behind).2
  backed place entry refers :=
    (update_of_ne (unused place entry refers) ..).trans (live.backed place entry refers)
  foreign := live.foreign

theorem Logged.call (logged : Logged state) (session : Nat) (fd : UInt32)
    (behind : state.os entry.sfd = some entry.file) :
    Logged (state.record session fd false entry) where
  faithful := by
    refine ⟨?_, logged.faithful.once⟩
    intro event member
    rcases List.mem_cons.mp member with rfl | earlier
    · exact behind
    · exact logged.faithful.reaches event earlier
  closed := logged.closed

theorem closings_close (session : Nat) (fd : UInt32) (entry : Entry) (file : Nat) :
    (state.record session fd true entry).closings file =
      state.closings file + if entry.file = file then 1 else 0 := by
  unfold State.closings State.record
  rw [List.countP_cons]
  simp

theorem Logged.close (logged : Logged state) (live : Live state) (session : Nat) (fd : UInt32)
    (behind : state.os entry.sfd = some entry.file) :
    Logged { state.record session fd true entry with
      os := update state.os entry.sfd none } where
  faithful := by
    refine ⟨?_, ?_⟩
    · intro event member
      rcases List.mem_cons.mp member with rfl | earlier
      · exact behind
      · exact logged.faithful.reaches event earlier
    · intro file
      change (state.record session fd true entry).closings file ≤ 1
      rw [closings_close]
      by_cases same : entry.file = file
      · rw [if_pos same]
        have unclosed : state.closings file = 0 := by
          by_contra closed
          exact (logged.closed file (Nat.pos_of_ne_zero closed)).2 entry.sfd (same ▸ behind)
        omega
      · rw [if_neg same]
        exact logged.faithful.once file
  closed := by
    intro file closed
    change 0 < (state.record session fd true entry).closings file at closed
    rw [closings_close] at closed
    by_cases same : entry.file = file
    · subst same
      refine ⟨live.fresh _ _ behind, ?_⟩
      intro number behindToo
      obtain ⟨different, before⟩ := os_closed behindToo
      exact different (live.injective _ _ _ before behind)
    · rw [if_neg same] at closed
      obtain ⟨below, gone⟩ := logged.closed file closed
      exact ⟨below, fun number behindToo => gone number (os_closed behindToo).2⟩

end Changes

/-! ### Every step -/

section Steps

variable {state next : State} {task session : Nat} {fd : UInt32} {entry : Entry}

theorem store_some (stepped : step state (.store task) = some next) :
    ∃ session entry fd, state.tasks task = some ⟨session, .opening entry (some fd)⟩ ∧
      (state.table session fd = none ∧
          next = (state.setEntry session fd (some entry)).setTask task none ∨
        (∃ other, state.table session fd = some other) ∧
          next = state.setTask task (some ⟨session, .opening entry none⟩)) := by
  simp only [step] at stepped
  split at stepped
  · rename_i session entry fd opening
    refine ⟨session, entry, fd, opening, ?_⟩
    split at stepped
    · exact .inl ⟨‹_›, (Option.some.inj stepped).symm⟩
    · exact .inr ⟨⟨_, ‹_›⟩, (Option.some.inj stepped).symm⟩
  · cases stepped

theorem delete_some (stepped : step state (.delete task) = some next) :
    ∃ session fd entry, state.tasks task = some ⟨session, .closing fd entry⟩ ∧
      next = (state.setEntry session fd none).setTask task (some ⟨session, .deleted fd entry⟩) := by
  simp only [step] at stepped
  split at stepped
  · exact ⟨_, _, _, ‹_›, (Option.some.inj stepped).symm⟩
  · cases stepped

theorem onward_end : Onward state task none := ⟨nofun, nofun, nofun, nofun⟩

theorem known_own {value : Task} (found : state.tasks task = some value) (member : entry ∈ value.pc.entries) :
    ∃ place, state.Refers place entry ∧ ∀ other, place = .held other → other = task :=
  ⟨.held task, ⟨value, found, member⟩, fun _ same => (Place.held.inj same).symm⟩

theorem known_listed (found : state.table session fd = some entry) :
    ∃ place, state.Refers place entry ∧ ∀ other, place = .held other → other = task :=
  ⟨.listed session fd, found, nofun⟩

theorem onward_opening (placed : Placed state) {candidate : Option UInt32}
    (opening : state.tasks task = some ⟨session, .opening entry candidate⟩)
    (candidate' : Option UInt32) :
    Onward state task (some ⟨session, .opening entry candidate'⟩) := by
  refine ⟨?_, ?_, nofun, nofun⟩
  · rintro _ ⟨⟩ other member
    exact known_own opening member
  · rintro _ _ _ ⟨⟩
    exact placed.opening task session entry candidate opening

theorem onward_begin : Onward state task (some ⟨session, .using []⟩) := by
  refine ⟨?_, nofun, nofun, nofun⟩
  rintro _ ⟨⟩ other member
  cases member

theorem onward_load {held : List (UInt32 × Entry)}
    (inUse : state.tasks task = some ⟨session, .using held⟩)
    (found : state.table session fd = some entry) :
    Onward state task (some ⟨session, .using ((fd, entry) :: held)⟩) := by
  refine ⟨?_, nofun, nofun, nofun⟩
  rintro _ ⟨⟩ other member
  rcases List.mem_cons.mp member with rfl | earlier
  · exact known_listed found
  · exact known_own inUse earlier

theorem onward_loadClose (found : state.table session fd = some entry) :
    Onward state task (some ⟨session, .closing fd entry⟩) := by
  refine ⟨?_, nofun, ?_, nofun⟩
  · rintro _ ⟨⟩ other member
    rw [List.mem_singleton.mp member]
    exact known_listed found
  · rintro _ _ _ ⟨⟩
    exact found

theorem onward_delete (placed : Placed state)
    (closing : state.tasks task = some ⟨session, .closing fd entry⟩) :
    Onward (state.setEntry session fd none) task (some ⟨session, .deleted fd entry⟩) := by
  refine ⟨?_, nofun, nofun, ?_⟩
  · rintro _ ⟨⟩ other member
    exact @known_own (state.setEntry session fd none) _ _ _ closing member
  · rintro _ _ _ ⟨⟩ session' fd' listed found sameFile
    obtain ⟨elsewhere, before⟩ := refers_removed (.listed session' fd') found
    obtain ⟨rfl, rfl⟩ := placed.closing task session fd entry closing _ _ _ before sameFile
    exact elsewhere rfl

variable {value : Option Task} {sfd : Nat}

theorem Ordered.setTask (ordered : Ordered state) (onward : Onward state task value) :
    Ordered (state.setTask task value) := by
  refine ⟨ordered.placed.setTask onward, ?_⟩
  intro place entry refers
  rcases refers_setTask place refers with ⟨_, before⟩ | ⟨_, after, isValue, member⟩
  · exact ordered.below place entry before
  · obtain ⟨source, before, _⟩ := onward.known after isValue entry member
    exact ordered.below source entry before

theorem Ordered.frame (ordered : Ordered state) (table : next.table = state.table)
    (tasks : next.tasks = state.tasks) (files : state.files ≤ next.files) : Ordered next := by
  have before : ∀ place entry, next.Refers place entry → state.Refers place entry :=
    fun place _ => refers_of_eq place table tasks
  refine ⟨⟨?_, ?_, ?_, ?_⟩, ?_⟩
  · rw [table]
    exact ordered.placed.unique
  · intro task session entry candidate opening place other apart refers
    rw [tasks] at opening
    exact ordered.placed.opening task session entry candidate opening place other apart (before _ _ refers)
  · rw [table, tasks]
    exact ordered.placed.closing
  · rw [table, tasks]
    exact ordered.placed.deleted
  · intro place entry refers
    exact Nat.lt_of_lt_of_le (ordered.below place entry (before place entry refers)) files

theorem Ordered.unknown (ordered : Ordered state) :
    ∀ place entry, state.Refers place entry → entry.file ≠ state.files :=
  fun place entry refers => Nat.ne_of_lt (ordered.below place entry refers)

theorem Ordered.open (ordered : Ordered state) (sfd : Nat) :
    Ordered ((state.openFile sfd).setTask task (some ⟨session, .opening ⟨sfd, state.files⟩ none⟩)) := by
  have opened : Ordered (state.openFile sfd) := ordered.frame rfl rfl (Nat.le_succ _)
  refine ⟨opened.placed.openTask session fun place entry refers => ?_, ?_⟩
  · exact ordered.unknown place entry (refers_of_eq place rfl rfl refers)
  · intro place entry refers
    rcases refers_setTask place refers with ⟨_, before⟩ | ⟨_, _, ⟨⟩, member⟩
    · exact opened.below place entry before
    · rw [List.mem_singleton.mp member]
      exact Nat.lt_succ_self _

theorem Ordered.store (ordered : Ordered state)
    (opening : state.tasks task = some ⟨session, .opening entry (some fd)⟩) :
    Ordered ((state.setEntry session fd (some entry)).setTask task none) := by
  -- the command leaves before its entry is stored: nothing else refers to the file
  have left : Ordered (state.setTask task none) := ordered.setTask onward_end
  refine ⟨left.placed.add session fd fun place other refers => ?_, fun place other refers => ?_⟩
  · rcases refers_setTask place refers with ⟨apart, before⟩ | ⟨_, _, ⟨⟩, _⟩
    exact ordered.placed.opening task session entry _ opening place other apart before
  · rcases @refers_added (state.setTask task none) _ _ _ _ place
        (refers_of_eq place rfl rfl refers) with
      ⟨_, rfl⟩ | before
    · exact ordered.below (.held task) other ⟨_, opening, List.mem_singleton_self _⟩
    · exact left.below place other before

theorem Ordered.remove (ordered : Ordered state) (session : Nat) (fd : UInt32) :
    Ordered (state.setEntry session fd none) :=
  ⟨ordered.placed.remove session fd, fun place entry refers =>
    ordered.below place entry (refers_removed place refers).2⟩

theorem step_ordered (state : State) (action : Action) (next : State) (ordered : Ordered state)
    (stepped : step state action = some next) : Ordered next := by
  revert stepped
  fun_cases step state action <;> intro stepped <;> try cases stepped
  · exact ordered.open _
  · rename_i opening fd
    exact (ordered.setTask (onward_opening ordered.placed opening (some fd))).frame rfl rfl (Nat.le_refl _)
  · exact ordered.store ‹_›
  · rename_i opening _ _
    exact ordered.setTask (onward_opening ordered.placed opening none)
  · exact ordered.setTask onward_begin
  · obtain ⟨entry, found, rfl⟩ := Option.map_eq_some_iff.mp stepped
    exact ordered.setTask (onward_load ‹_› found)
  · obtain ⟨_, _, rfl⟩ := Option.map_eq_some_iff.mp stepped
    exact ordered.frame rfl rfl (Nat.le_refl _)
  · exact ordered.setTask onward_end
  · obtain ⟨entry, found, rfl⟩ := Option.map_eq_some_iff.mp stepped
    exact ordered.setTask (onward_loadClose found)
  · exact (ordered.remove _ _).setTask (onward_delete ordered.placed ‹_›)
  · rename_i task _ _ _ _
    have left : Ordered (state.setTask task none) := ordered.setTask onward_end
    exact left.frame rfl rfl (Nat.le_refl _)
  · exact ordered.frame rfl rfl (Nat.le_succ _)
  · exact ordered.frame rfl rfl (Nat.le_refl _)

variable {action : Action}

theorem step_table (stepped : step state action = some next) (notStore : ∀ task, action ≠ .store task)
    (notDelete : ∀ task, action ≠ .delete task) : next.table = state.table := by
  cases action with
  | store task => exact absurd rfl (notStore task)
  | delete task => exact absurd rfl (notDelete task)
  | _ =>
    simp only [step] at stepped
    repeat' split at stepped
    all_goals first
      | obtain ⟨_, _, rfl⟩ := Option.map_eq_some_iff.mp stepped; rfl
      | cases stepped <;> rfl

/-- A step changes at most one task, and only a lookup brings a task into `closing`. -/
theorem step_task (stepped : step state action = some next) :
    next.tasks = state.tasks ∨
      ∃ task value, next.tasks = (state.setTask task value).tasks ∧
        ∀ session fd entry, value = some ⟨session, .closing fd entry⟩ →
          action = .loadClose task session fd := by
  revert stepped
  fun_cases step state action <;> intro stepped <;>
    first
    | cases stepped
    | obtain ⟨_, _, rfl⟩ := Option.map_eq_some_iff.mp stepped
  -- the lookup itself, and then the steps that change no task
  case case16 =>
    refine .inr ⟨_, _, rfl, ?_⟩
    rintro _ _ _ ⟨⟩
    rfl
  case case12 | case22 | case24 => exact .inl rfl
  all_goals exact .inr ⟨_, _, rfl, nofun⟩

theorem step_closing (stepped : step state action = some next)
    (closing : next.tasks task = some ⟨session, .closing fd entry⟩) :
    state.tasks task = some ⟨session, .closing fd entry⟩ ∨ action = .loadClose task session fd := by
  rcases step_task stepped with unchanged | ⟨changed, value, tasks, looksUp⟩
  · exact .inl (unchanged ▸ closing)
  · rw [tasks] at closing
    rcases update_eq_some closing with ⟨isValue, rfl⟩ | ⟨before, _⟩
    · exact .inr (looksUp _ _ _ isValue)
    · exact .inl before

/-! ### The files behind the numbers -/

theorem Sound.ordered (sound : Sound state) : Ordered state := sound.live.ordered sound.placed

theorem Sound.setTask (sound : Sound state) (onward : Onward state task value) :
    Sound (state.setTask task value) := by
  refine ⟨sound.placed.setTask onward, sound.live.setTask ?_, sound.logged.congr rfl rfl rfl⟩
  intro after isValue entry member
  obtain ⟨place, refers, _⟩ := onward.known after isValue entry member
  exact ⟨sound.live.backed place entry refers,
    fun isForeign => (sound.live.foreign _ isForeign).2 place entry refers rfl⟩

theorem Sound.remove (sound : Sound state) (session : Nat) (fd : UInt32) :
    Sound (state.setEntry session fd none) :=
  ⟨sound.placed.remove session fd, sound.live.remove session fd, sound.logged.congr rfl rfl rfl⟩

theorem Sound.open (sound : Sound state) (free : state.os sfd = none) :
    Sound ((state.openFile sfd).setTask task (some ⟨session, .opening ⟨sfd, state.files⟩ none⟩)) := by
  refine ⟨(sound.ordered.open sfd).placed, ?_, (sound.logged.openFile sfd).congr rfl rfl rfl⟩
  apply (sound.live.openFile free).setTask
  rintro _ ⟨⟩ entry member
  rw [List.mem_singleton.mp member]
  exact ⟨update_self ..,
    fun isForeign => absurd (sound.live.foreign _ isForeign).1 (Nat.lt_irrefl _)⟩

theorem Sound.store (sound : Sound state)
    (opening : state.tasks task = some ⟨session, .opening entry (some fd)⟩) :
    Sound ((state.setEntry session fd (some entry)).setTask task none) := by
  have refers : state.Refers (.held task) entry := ⟨_, opening, List.mem_singleton_self _⟩
  have left : Live (state.setTask task none) := sound.live.setTask nofun
  have added := left.add session fd (sound.live.backed _ entry refers)
    fun isForeign => (sound.live.foreign _ isForeign).2 _ entry refers rfl
  exact ⟨(sound.ordered.store opening).placed, added.frame rfl rfl rfl rfl rfl,
    sound.logged.congr rfl rfl rfl⟩

theorem close_live (sound : Sound state) (exclusive : Exclusive state (.close task))
    (deleted : state.tasks task = some ⟨session, .deleted fd entry⟩) :
    Live { state.setTask task none with os := update state.os entry.sfd none } := by
  have behind := sound.live.backed (.held task) entry ⟨_, deleted, List.mem_singleton_self _⟩
  have left : Live (state.setTask task none) := sound.live.setTask nofun
  apply left.closeFile
  intro place other refers sameNumber
  rcases refers_setTask place refers with ⟨apart, before⟩ | ⟨_, _, ⟨⟩, _⟩
  -- a reference to the same number would be a reference to the same file
  have sameFile : other.file = entry.file := by
    have own := sound.live.backed place other before
    rw [sameNumber, behind] at own
    exact (Option.some.inj own).symm
  cases place with
  | listed session' fd' => exact sound.placed.deleted task session fd entry deleted _ _ _ before sameFile
  | held otherTask =>
    obtain ⟨value, atOther, member⟩ := before
    exact exclusive session fd entry deleted otherTask value (fun same => apart (same ▸ rfl)) atOther other
      member sameFile

theorem foreignClose_live {file : Nat} (sound : Sound state) (behind : state.os sfd = some file)
    (isForeign : file ∈ state.foreign) :
    Live { state with os := update state.os sfd none } := by
  apply sound.live.closeFile
  rintro place entry refers rfl
  have own := sound.live.backed place entry refers
  rw [behind] at own
  exact (sound.live.foreign file isForeign).2 place entry refers (Option.some.inj own).symm

theorem step_sound (state : State) (action : Action) (next : State) (sound : Sound state)
    (exclusive : Exclusive state action) (stepped : step state action = some next) : Sound next := by
  have placed := (step_ordered state action next sound.ordered stepped).placed
  revert stepped
  fun_cases step state action <;> intro stepped <;> try cases stepped
  · rename_i ready
    exact sound.open ready.2
  · rename_i opening fd
    have changed := (sound.setTask (onward_opening sound.placed opening (some fd))).live
    exact ⟨placed, changed.frame rfl rfl rfl rfl rfl, sound.logged.congr rfl rfl rfl⟩
  · exact sound.store ‹_›
  · rename_i opening _ _
    exact sound.setTask (onward_opening sound.placed opening none)
  · exact sound.setTask onward_begin
  · obtain ⟨entry, found, rfl⟩ := Option.map_eq_some_iff.mp stepped
    exact sound.setTask (onward_load ‹_› found)
  · rename_i inUse
    obtain ⟨⟨fd, entry⟩, found, rfl⟩ := Option.map_eq_some_iff.mp stepped
    have behind := sound.live.backed (.held _) entry
      ⟨_, inUse, List.mem_map.mpr ⟨(fd, entry), List.mem_of_getElem? found, rfl⟩⟩
    exact ⟨placed, sound.live.frame rfl rfl rfl rfl rfl, sound.logged.call _ fd behind⟩
  · exact sound.setTask onward_end
  · obtain ⟨entry, found, rfl⟩ := Option.map_eq_some_iff.mp stepped
    exact sound.setTask (onward_loadClose found)
  · exact (sound.remove _ _).setTask (onward_delete sound.placed ‹_›)
  · rename_i task session fd entry deleted
    have behind := sound.live.backed (.held task) entry ⟨_, deleted, List.mem_singleton_self _⟩
    exact ⟨placed, (close_live sound exclusive deleted).frame rfl rfl rfl rfl rfl,
      (sound.logged.close sound.live session fd behind).congr rfl rfl rfl⟩
  · rename_i sfd free
    have live := sound.live.openFile free
    refine ⟨placed, ⟨live.injective, live.fresh, ?_, ?_⟩, (sound.logged.openFile sfd).congr rfl rfl rfl⟩
    · exact fun place entry refers => live.backed place entry (refers_of_eq place rfl rfl refers)
    · refine List.forall_mem_cons.mpr ⟨⟨Nat.lt_succ_self _, ?_⟩, ?_⟩
      · exact fun place entry refers => sound.ordered.unknown place entry (refers_of_eq place rfl rfl refers)
      · exact fun file member => (live.foreign file member).imp_right
          fun unknown place entry refers => unknown place entry (refers_of_eq place rfl rfl refers)
  · rename_i behind isForeign
    refine ⟨placed, foreignClose_live sound behind isForeign,
      ⟨⟨sound.logged.faithful.reaches, sound.logged.faithful.once⟩, ?_⟩⟩
    intro closedFile closed
    obtain ⟨below, gone⟩ := sound.logged.closed closedFile closed
    exact ⟨below, fun number behindToo => gone number (os_closed behindToo).2⟩

end Steps

/-! ### Whole runs -/

/-- In every run in which a file is closed only when no other command in flight has
looked it up, every call reaches the file of its descriptor and no file is closed
twice. -/
theorem exclusive_calls_faithful (actions : List Action) (last : State)
    (exclusive : Guarded step Exclusive initial actions)
    (ran : run step initial actions = some last) : Faithful last :=
  (run_invariant step_sound initial_sound exclusive ran).logged.faithful

/-- Two files of one session: the first is closed while another command has looked the
second one up, which then reads it. -/
private def readAndClose : List Action :=
  [.open 0 0 3, .next 0, .store 0, .open 1 0 4, .next 1, .store 1, .begin 2 0, .load 2 1, .call 2 0,
    .finish 2, .begin 3 0, .load 3 2, .loadClose 4 0 1, .delete 4, .close 4, .call 3 0]

private theorem readAndClose_exclusive : Guarded step Exclusive initial readAndClose := by
  iterate 14 refine .cons rfl trivial ?_
  refine .cons rfl ?_ ⟨trivial, fun _ _ => trivial⟩
  intro session fd entry deleted other otherTask different atOther held member
  cases deleted
  by_cases isReader : other = 3
  · subst isReader
    cases atOther
    rw [List.mem_singleton.mp member]
    decide
  · have nothing : (none : Option Task) = some otherTask := by
      rw [← atOther]
      simp only [State.setTask, State.openFile, State.setEntry, State.record, update_apply]
      by_cases isZero : other = 0 <;> by_cases isOne : other = 1 <;> by_cases isTwo : other = 2 <;>
        simp [isZero, isOne, isTwo, isReader, different]
      rfl
    cases nothing

theorem exclusive_calls_faithful_two_files :
    ∃ last, Guarded step Exclusive initial readAndClose ∧
      run step initial readAndClose = some last ∧ last.events.length = 3 ∧ Faithful last := by
  cases reached : run step initial readAndClose with
  | none => cases reached
  | some last =>
    refine ⟨last, readAndClose_exclusive, rfl, ?_,
      exclusive_calls_faithful _ last readAndClose_exclusive reached⟩
    cases reached
    rfl

/-- However the commands overtake each other, no file is listed under two descriptors, of
one session or of two. -/
theorem listed_once (actions : List Action) (last : State) (ran : run step initial actions = some last)
    (session session' : Nat) (fd fd' : UInt32) (entry entry' : Entry)
    (listed : last.table session fd = some entry) (listed' : last.table session' fd' = some entry')
    (same : entry.file = entry'.file) : session = session' ∧ fd = fd' := by
  have ordered : Ordered last :=
    run_invariant (fun state action next ordered _ => step_ordered state action next ordered)
      initial_ordered (guarded_of_forall (fun _ _ _ => trivial) initial) ran
  exact ordered.placed.unique _ _ _ _ _ _ listed listed' same

theorem listed_once_opened :
    ∃ last, run step initial (readAndClose.take 3) = some last ∧
      ∀ session fd, last.table session fd = some ⟨3, 0⟩ → session = 0 ∧ fd = 1 :=
  ⟨_, rfl, fun session fd listed =>
    listed_once (readAndClose.take 3) _ rfl session 0 fd 1 _ _ listed rfl rfl⟩

/-! ### A number that is handed out again -/

/-- A read that has looked its descriptor up is overtaken by the close; another
session then opens a file of its own, under the same number. -/
theorem read_reaches_file_of_other_session :
    ∃ last, Reaches step initial last ∧
      last.events = [⟨0, 1, false, 0, some 1⟩, ⟨0, 1, true, 0, some 0⟩] ∧
      last.table 1 1 = some ⟨3, 1⟩ ∧ ¬Faithful last := by
  let actions : List Action :=
    [.open 0 0 3, .next 0, .store 0, .begin 1 0, .load 1 1, .loadClose 2 0 1, .delete 2, .close 2,
      .open 3 1 3, .next 3, .store 3, .call 1 0]
  cases reached : run step initial actions with
  | none => cases reached
  | some last =>
    have events : last.events = [⟨0, 1, false, 0, some 1⟩, ⟨0, 1, true, 0, some 0⟩] := by
      cases reached
      rfl
    refine ⟨last, ⟨actions, reached⟩, events, ?_, ?_⟩
    · cases reached
      rfl
    · intro faithful
      have right := faithful.reaches ⟨0, 1, false, 0, some 1⟩ (by simp [events])
      cases right

end Wsfs.Server.Descriptor
