/-
Requests to reload: `IssueReload` and the goroutines that it starts. A request that finds
the lock taken leaves a flag behind, and a reload that ends looks for it after it has
released the lock; nothing ties the two together.
-/

import Wsfs.Base.Run

namespace Wsfs.Hub.Requests

open Wsfs.Base Function

/-- Where a call of `IssueReload` stands: before its `TryLock`, or after one that failed
or succeeded. -/
inductive Call
  | begun
  | failed
  | locked
deriving DecidableEq, Repr

/-- Where a goroutine in `doReload` stands: before its `GetConfig`, past it, past the
`Unlock` of the deferred function, or past a `CompareAndSwap` that found the flag set. -/
inductive Reload
  | started
  | configured
  | unlocked
  | reissuing
deriving DecidableEq, Repr

/-- The beginnings of calls of `IssueReload` and of `GetConfig`. -/
inductive Event
  | issue
  | getConfig
deriving DecidableEq, Repr

/-- Calls and goroutines that have returned are gone. The newest event comes first. -/
structure State where
  lock : Bool
  reloadReentrant : Bool
  calls : Nat → Option Call
  reloads : Nat → Option Reload
  events : List Event

def initial : State := ⟨false, false, fun _ => none, fun _ => none, []⟩

inductive Action
  | issue (call : Nat)
  | tryLock (call : Nat)
  | store (call : Nat)
  | spawn (call reload : Nat)
  | getConfig (reload : Nat)
  | unlock (reload : Nat)
  | compareAndSwap (reload : Nat)
  | reissue (reload call : Nat)

namespace State

def setCall (state : State) (call : Nat) (value : Option Call) : State :=
  { state with calls := update state.calls call value }

def setReload (state : State) (reload : Nat) (value : Option Reload) : State :=
  { state with reloads := update state.reloads reload value }

def record (state : State) (event : Event) : State := { state with events := event :: state.events }

end State

def step (state : State) : Action → Option State
  | .issue call =>
      if state.calls call = none then some ((state.setCall call (some .begun)).record .issue) else none
  | .tryLock call =>
      if state.calls call = some .begun then
        if state.lock then some (state.setCall call (some .failed))
        else some { state.setCall call (some .locked) with lock := true }
      else none
  | .store call =>
      if state.calls call = some .failed then
        some { state.setCall call none with reloadReentrant := true }
      else none
  | .spawn call reload =>
      if state.calls call = some .locked ∧ state.reloads reload = none then
        some ((state.setCall call none).setReload reload (some .started))
      else none
  | .getConfig reload =>
      if state.reloads reload = some .started then
        some ((state.setReload reload (some .configured)).record .getConfig)
      else none
  -- The deferred function runs however the reload ended, by a panic too.
  | .unlock reload =>
      if state.reloads reload = some .configured then
        some { state.setReload reload (some .unlocked) with lock := false }
      else none
  | .compareAndSwap reload =>
      if state.reloads reload = some .unlocked then
        if state.reloadReentrant then
          some { state.setReload reload (some .reissuing) with reloadReentrant := false }
        else some (state.setReload reload none)
      else none
  -- The goroutine makes the call itself, as the last thing it does.
  | .reissue reload call =>
      if state.reloads reload = some .reissuing ∧ state.calls call = none then
        some (((state.setReload reload none).setCall call (some .begun)).record .issue)
      else none

def Quiet (state : State) : Prop :=
  (∀ call, state.calls call = none) ∧ ∀ reload, state.reloads reload = none

/-- After every call of `IssueReload` began, a `GetConfig` was started. -/
def NothingLost (state : State) : Prop :=
  ∀ newer older, state.events = newer ++ .issue :: older → .getConfig ∈ newer

def State.WillSwap (state : State) : Prop :=
  ∃ reload, state.reloads reload = some .started ∨ state.reloads reload = some .configured ∨
    state.reloads reload = some .unlocked

def Noticed (state : State) : Action → Prop
  | .store _ => state.WillSwap
  | _ => True

/-! ### Requests under way -/

/-- Something is left that leads to a `GetConfig`. -/
inductive UnderWay (state : State) : Prop
  | call (call : Nat) (pc : Call) (atCall : state.calls call = some pc)
  | started (reload : Nat) (atReload : state.reloads reload = some .started)
  | reissuing (reload : Nat) (atReload : state.reloads reload = some .reissuing)
  | flagged (flag : state.reloadReentrant = true) (willSwap : state.WillSwap)

/-- The newest request is under way unless a `GetConfig` has been started since. -/
def Kept (state : State) : Prop := state.events.head? = some .issue → UnderWay state

variable {state : State}

theorem setReload_other {reload other : Nat} {before pc : Reload}
    (atReload : state.reloads reload = some before) (atOther : state.reloads other = some pc)
    (different : pc ≠ before) (value : Option Reload) :
    (state.setReload reload value).reloads other = some pc := by
  have another : other ≠ reload := by
    rintro rfl
    rw [atOther] at atReload
    exact different (Option.some.inj atReload)
  exact (update_of_ne another ..).trans atOther

theorem step_kept (state : State) (action : Action) (next : State) (kept : Kept state)
    (noticed : Noticed state action) (stepped : step state action = some next) : Kept next := by
  cases action with
  | issue call =>
    simp only [step] at stepped
    split at stepped
    · cases stepped
      exact fun _ => .call call .begun (update_self ..)
    · cases stepped
  | tryLock call =>
    simp only [step] at stepped
    split at stepped
    · split at stepped
      · cases stepped
        exact fun _ => .call call .failed (update_self ..)
      · cases stepped
        exact fun _ => .call call .locked (update_self ..)
    · cases stepped
  | store call =>
    simp only [step] at stepped
    split at stepped
    · cases stepped
      exact fun _ => .flagged rfl noticed
    · cases stepped
  | spawn call reload =>
    simp only [step] at stepped
    split at stepped
    · cases stepped
      exact fun _ => .started reload (update_self ..)
    · cases stepped
  | getConfig reload =>
    simp only [step] at stepped
    split at stepped
    · cases stepped
      exact nofun
    · cases stepped
  | unlock reload =>
    simp only [step] at stepped
    split at stepped
    · rename_i atReload
      cases stepped
      intro newest
      cases kept newest with
      | call call pc atCall => exact .call call pc atCall
      | started other atOther => exact .started other (setReload_other atReload atOther nofun _)
      | reissuing other atOther => exact .reissuing other (setReload_other atReload atOther nofun _)
      | flagged flag willSwap =>
        exact .flagged flag ⟨reload, .inr (.inr (update_self ..))⟩
    · cases stepped
  | compareAndSwap reload =>
    simp only [step] at stepped
    split at stepped
    · rename_i atReload
      split at stepped
      · cases stepped
        exact fun _ => .reissuing reload (update_self ..)
      · rename_i unset
        cases stepped
        intro newest
        cases kept newest with
        | call call pc atCall => exact .call call pc atCall
        | started other atOther => exact .started other (setReload_other atReload atOther nofun _)
        | reissuing other atOther =>
          exact .reissuing other (setReload_other atReload atOther nofun _)
        | flagged flag willSwap => exact absurd flag unset
    · cases stepped
  | reissue reload call =>
    simp only [step] at stepped
    split at stepped
    · cases stepped
      exact fun _ => .call call .begun (update_self ..)
    · cases stepped

theorem not_underWay_of_quiet (quiet : Quiet state) : ¬UnderWay state := by
  obtain ⟨noCall, noReload⟩ := quiet
  intro underWay
  cases underWay with
  | call call pc atCall => cases (noCall call).symm.trans atCall
  | started reload atReload => cases (noReload reload).symm.trans atReload
  | reissuing reload atReload => cases (noReload reload).symm.trans atReload
  | flagged flag willSwap =>
    obtain ⟨reload, atReload⟩ := willSwap
    simp [noReload reload] at atReload

theorem nothingLost_of_newest (newest : state.events.head? ≠ some .issue) : NothingLost state := by
  intro newer older split
  cases newer with
  | nil =>
    rw [split] at newest
    exact absurd rfl newest
  | cons event rest =>
    cases event with
    | getConfig => exact List.mem_cons_self
    | issue =>
      rw [split] at newest
      exact absurd rfl newest

/-- Where every flag is noticed, no request is lost. -/
theorem noticed_requests_served (actions : List Action) (last : State)
    (noticed : Guarded step Noticed initial actions)
    (reached : run step initial actions = some last) (quiet : Quiet last) : NothingLost last := by
  have initially : Kept initial := fun newest => by cases newest
  have kept : Kept last := run_invariant step_kept initially noticed reached
  exact nothingLost_of_newest fun newest => not_underWay_of_quiet quiet (kept newest)

/-- The second call comes while the first one's reload is at work, and leaves the flag. -/
private def postponed : List Action :=
  [.issue 0, .tryLock 0, .spawn 0 0, .getConfig 0, .issue 1, .tryLock 1, .store 1, .unlock 0,
    .compareAndSwap 0, .reissue 0 2, .tryLock 2, .spawn 2 1, .getConfig 1, .unlock 1, .compareAndSwap 1]

private theorem postponed_noticed : Guarded step Noticed initial postponed := by
  iterate 6 refine .cons rfl trivial ?_
  -- The first reload is past its `GetConfig` when the flag is set.
  refine .cons rfl ⟨0, .inr (.inl rfl)⟩ ?_
  iterate 8 refine .cons rfl trivial ?_
  trivial

theorem noticed_requests_served_postponed :
    ∃ last, run step initial postponed = some last ∧ Quiet last ∧ NothingLost last ∧
      last.events = [.getConfig, .issue, .issue, .getConfig, .issue] := by
  cases reached : run step initial postponed with
  | none => cases reached
  | some last =>
    have quiet : Quiet last := by
      cases reached
      constructor
      · intro call
        match call with
        | 0 | 1 | 2 | _ + 3 => rfl
      · intro reload
        match reload with
        | 0 | 1 | _ + 2 => rfl
    refine ⟨last, rfl, quiet,
      noticed_requests_served postponed last postponed_noticed reached quiet, ?_⟩
    cases reached
    rfl

/-- The reload looks at the flag between the failed `TryLock` of the second call and its
`Store`. -/
theorem request_lost :
    ∃ last, Reaches step initial last ∧ Quiet last ∧
      last.events = [.issue, .getConfig, .issue] ∧ ¬NothingLost last := by
  let actions : List Action :=
    [.issue 0, .tryLock 0, .spawn 0 0, .getConfig 0, .issue 1, .tryLock 1, .unlock 0,
      .compareAndSwap 0, .store 1]
  cases reached : run step initial actions with
  | none => cases reached
  | some last =>
    have events : last.events = [.issue, .getConfig, .issue] := by
      cases reached
      rfl
    refine ⟨last, ⟨actions, reached⟩, ?_, events, ?_⟩
    · cases reached
      constructor
      · intro call
        match call with
        | 0 | 1 | _ + 2 => rfl
      · intro reload
        match reload with
        | 0 | _ + 1 => rfl
    · intro kept
      have served := kept [] _ events
      cases served

end Wsfs.Hub.Requests
