/-
Finite runs of a partial step function.

An action that is not enabled has no successor, so a list of actions is a run
exactly when every action is enabled in turn. A guard is a condition on the
state before an action; the invariant rule asks for one step under the guard
and gives every state that a guarded run reaches.
-/

import Mathlib.Data.List.Basic

namespace Wsfs.Base

variable {State Action : Type}

def run (step : State → Action → Option State) : State → List Action → Option State
  | state, [] => some state
  | state, action :: rest => (step state action).bind fun next => run step next rest

/-- Every action of the run meets the guard in the state before it. -/
def Guarded (step : State → Action → Option State) (guard : State → Action → Prop) :
    State → List Action → Prop
  | _, [] => True
  | state, action :: rest =>
      guard state action ∧
        ∀ next, step state action = some next → Guarded step guard next rest

def Reaches (step : State → Action → Option State) (first last : State) : Prop :=
  ∃ actions, run step first actions = some last

section Rules

variable {step : State → Action → Option State} {guard : State → Action → Prop}

@[simp] theorem run_nil (state : State) : run step state [] = some state := rfl

theorem run_cons (state : State) (action : Action) (rest : List Action) :
    run step state (action :: rest) =
      (step state action).bind fun next => run step next rest := rfl

theorem run_cons_some {state last : State} {action : Action} {rest : List Action} :
    run step state (action :: rest) = some last ↔
      ∃ next, step state action = some next ∧ run step next rest = some last :=
  Option.bind_eq_some_iff

theorem run_append (state : State) (first second : List Action) :
    run step state (first ++ second) =
      (run step state first).bind fun middle => run step middle second := by
  induction first generalizing state with
  | nil => rfl
  | cons action rest ih =>
    rw [List.cons_append, run_cons, run_cons]
    cases stepped : step state action with
    | none => rfl
    | some next => exact ih next

theorem guarded_cons {state next : State} {action : Action} {rest : List Action}
    (stepped : step state action = some next) :
    Guarded step guard state (action :: rest) ↔ guard state action ∧ Guarded step guard next rest := by
  constructor
  · rintro ⟨atStep, after⟩
    exact ⟨atStep, after next stepped⟩
  · rintro ⟨atStep, after⟩
    refine ⟨atStep, ?_⟩
    intro other otherStep
    rw [stepped] at otherStep
    cases otherStep
    exact after

theorem Guarded.cons {state next : State} {action : Action} {rest : List Action}
    (stepped : step state action = some next) (atStep : guard state action)
    (after : Guarded step guard next rest) : Guarded step guard state (action :: rest) :=
  (guarded_cons stepped).mpr ⟨atStep, after⟩

theorem guarded_append {first middle : State} {actions more : List Action}
    (reached : run step first actions = some middle) :
    Guarded step guard first (actions ++ more) ↔
      Guarded step guard first actions ∧ Guarded step guard middle more := by
  induction actions generalizing first with
  | nil =>
    cases reached
    exact (iff_of_eq (true_and _)).symm
  | cons action rest ih =>
    obtain ⟨next, stepped, reached⟩ := run_cons_some.mp reached
    rw [List.cons_append, guarded_cons stepped, guarded_cons stepped, ih reached, and_assoc]

theorem guarded_run_cons {state next : State} {action : Action} {rest : List Action}
    {post : State → Prop} (stepped : step state action = some next) (atStep : guard state action)
    (after : Guarded step guard next rest ∧ ∃ last, run step next rest = some last ∧ post last) :
    Guarded step guard state (action :: rest) ∧
      ∃ last, run step state (action :: rest) = some last ∧ post last := by
  obtain ⟨guarded, last, reached, holds⟩ := after
  exact ⟨.cons stepped atStep guarded, last, run_cons_some.mpr ⟨_, stepped, reached⟩, holds⟩

theorem run_invariant {invariant : State → Prop}
    (preserved : ∀ state action next, invariant state → guard state action →
      step state action = some next → invariant next)
    {first last : State} {actions : List Action} (initially : invariant first)
    (guarded : Guarded step guard first actions)
    (reached : run step first actions = some last) : invariant last := by
  induction actions generalizing first with
  | nil => cases reached; exact initially
  | cons action rest ih =>
    obtain ⟨atStep, after⟩ := guarded
    obtain ⟨next, stepped, reached⟩ := run_cons_some.mp reached
    exact ih (preserved first action next initially atStep stepped)
      (after next stepped) reached

theorem guarded_of_forall {actions : List Action}
    (always : ∀ state, ∀ action ∈ actions, guard state action) (state : State) :
    Guarded step guard state actions := by
  induction actions generalizing state with
  | nil => trivial
  | cons action rest ih =>
    refine ⟨always state action List.mem_cons_self, fun next _ => ?_⟩
    exact ih (fun state other member => always state other (List.mem_cons_of_mem _ member)) next

/-- A run of one system as a run of another, which sees some of the actions. -/
theorem run_simulates {Shown Visible : Type} (shown : Shown → Visible → Option Shown)
    (visible : Action → Option Visible) {related : State → Shown → Prop}
    (simulated : ∀ state action next other, related state other → guard state action →
      step state action = some next →
      (visible action = none → related next other) ∧
        ∀ seen, visible action = some seen →
          ∃ after, shown other seen = some after ∧ related next after)
    {first last : State} {other : Shown} {actions : List Action} (initially : related first other)
    (guarded : Guarded step guard first actions) (reached : run step first actions = some last) :
    ∃ after, run shown other (actions.filterMap visible) = some after ∧ related last after := by
  induction actions generalizing first other with
  | nil =>
    cases reached
    exact ⟨other, rfl, initially⟩
  | cons action rest ih =>
    obtain ⟨atStep, after⟩ := guarded
    obtain ⟨next, stepped, reached⟩ := run_cons_some.mp reached
    obtain ⟨hidden, matched⟩ := simulated first action next other initially atStep stepped
    cases isVisible : visible action with
    | none =>
      rw [List.filterMap_cons_none isVisible]
      exact ih (hidden isVisible) (after next stepped) reached
    | some seen =>
      obtain ⟨middle, shownStep, relatedNext⟩ := matched seen isVisible
      rw [List.filterMap_cons_some isVisible, run_cons, shownStep]
      exact ih relatedNext (after next stepped) reached

end Rules

theorem update_eq_some {Key Value : Type} [DecidableEq Key] {table : Key → Option Value}
    {key other : Key} {value : Option Value} {found : Value}
    (atOther : Function.update table key value other = some found) :
    value = some found ∧ other = key ∨ table other = some found ∧ other ≠ key := by
  by_cases same : other = key
  · rw [same, Function.update_self] at atOther
    exact .inl ⟨atOther, same⟩
  · rw [Function.update_of_ne same] at atOther
    exact .inr ⟨atOther, same⟩

end Wsfs.Base
