/-
A program and its partner: a system that takes part in every call of the program, with
the answer, or lets the call wait. The system is a partial step function over the events
of the program, so an execution of both is an execution of the program whose events are a
run of the system.

A program completes if some execution of both ends. Where the system decides every answer
this is the only execution, and what holds at its end holds whenever the program returns.
-/

import Wsfs.Base.Prog
import Wsfs.Base.Run

namespace Wsfs.Base

section Partner

variable {Op : Type} {Res : Op → Type} {α β σ State : Type}

def Completes (step : State → Event Op Res → Option State) (state : State) (prog : Prog Op Res α)
    (post : State → α → Prop) : Prop :=
  ∃ trace value last, prog.Runs trace value ∧ run step state trace = some last ∧ post last value

def Returns (step : State → Event Op Res → Option State) (state : State) (prog : Prog Op Res α)
    (post : State → α → Prop) : Prop :=
  ∀ trace value last, prog.Runs trace value → run step state trace = some last → post last value

/-- The program comes to its end, and the postcondition holds whenever it does. -/
def Ensures (step : State → Event Op Res → Option State) (state : State) (prog : Prog Op Res α)
    (post : State → α → Prop) : Prop :=
  Completes step state prog (fun _ _ => True) ∧ Returns step state prog post

def Decides (step : State → Event Op Res → Option State) : Prop :=
  ∀ state op answer answer', (step state ⟨op, answer⟩).isSome → (step state ⟨op, answer'⟩).isSome →
    answer = answer'

variable {step : State → Event Op Res → Option State} {state : State}

/-! ### Rules -/

section Rules

variable {post post' : State → α → Prop} {prog : Prog Op Res α}

theorem Completes.mono (completes : Completes step state prog post)
    (weaker : ∀ last value, post last value → post' last value) : Completes step state prog post' := by
  obtain ⟨trace, value, last, runs, reached, holds⟩ := completes
  exact ⟨trace, value, last, runs, reached, weaker last value holds⟩

theorem completes_pure {value : α} (holds : post state value) :
    Completes step state (pure value : Prog Op Res α) post :=
  ⟨[], value, state, ⟨rfl, rfl⟩, rfl, holds⟩

theorem completes_bind {next : α → Prog Op Res β} {after : State → β → Prop}
    (completes : Completes step state prog fun middle value =>
      Completes step middle (next value) after) : Completes step state (prog >>= next) after := by
  obtain ⟨first, value, middle, runs, reached, rest, result, last, runs', reached', holds⟩ := completes
  refine ⟨first ++ rest, result, last, Prog.runs_append runs runs', ?_, holds⟩
  rw [run_append, reached]
  exact reached'

theorem completes_perform {op : Op} (answer : Res op) {next : Res op → Prog Op Res α} {middle : State}
    (stepped : step state ⟨op, answer⟩ = some middle)
    (completes : Completes step middle (next answer) post) :
    Completes step state (Prog.perform op >>= next) post := by
  obtain ⟨trace, value, last, runs, reached, holds⟩ := completes
  refine ⟨⟨op, answer⟩ :: trace, value, last, ⟨answer, trace, rfl, runs⟩, ?_, holds⟩
  rw [run_cons, stepped]
  exact reached

theorem completes_ite {condition : Prop} [Decidable condition] {left right : Prog Op Res α}
    (whenTrue : condition → Completes step state left post)
    (whenFalse : ¬condition → Completes step state right post) :
    Completes step state (if condition then left else right) post := by
  split
  · exact whenTrue ‹_›
  · exact whenFalse ‹_›

theorem Completes.equiv {prog' : Prog Op Res α} (same : prog ≈ prog')
    (completes : Completes step state prog' post) : Completes step state prog post := by
  obtain ⟨trace, value, last, runs, reached, holds⟩ := completes
  exact ⟨trace, value, last, (same trace value).mpr runs, reached, holds⟩

theorem completes_round {body : σ → Prog Op Res (σ ⊕ α)} {start : σ}
    (completes : Completes step state (body start) fun middle outcome =>
      match outcome with
      | .inl again => Completes step middle (Prog.loop body again) post
      | .inr value => post middle value) :
    Completes step state (Prog.loop body start) post := by
  refine Completes.equiv (Prog.loop_equiv body start) (completes_bind (completes.mono ?_))
  intro middle outcome holds
  cases outcome with
  | inl again => exact holds
  | inr value => exact completes_pure holds

end Rules

/-! ### One execution -/

variable {rest first : List (Event Op Res)}

theorem run_isSome_cons {event : Event Op Res} (possible : (run step state (event :: rest)).isSome) :
    ∃ middle, step state event = some middle ∧ (run step middle rest).isSome := by
  rw [run_cons] at possible
  cases stepped : step state event with
  | none => rw [stepped] at possible; cases possible
  | some middle => rw [stepped] at possible; exact ⟨middle, rfl, possible⟩

theorem run_isSome_append (possible : (run step state (first ++ rest)).isSome) :
    ∃ middle, run step state first = some middle ∧ (run step middle rest).isSome := by
  rw [run_append] at possible
  cases reached : run step state first with
  | none => rw [reached] at possible; cases possible
  | some middle => rw [reached] at possible; exact ⟨middle, rfl, possible⟩

variable {prog : Prog Op Res α} {post : State → α → Prop}

theorem decided_not_fork (decides : Decides step) {second : List (Event Op Res)}
    (possible : (run step state first).isSome) (possible' : (run step state second).isSome) :
    ¬Prog.Forks first second := by
  rintro ⟨common, op, answer, answer', tail, tail', different, rfl, rfl⟩
  obtain ⟨middle, reached, later⟩ := run_isSome_append possible
  obtain ⟨middle', reached', later'⟩ := run_isSome_append possible'
  obtain rfl : middle = middle' := Option.some.inj (reached.symm.trans reached')
  obtain ⟨_, stepped, _⟩ := run_isSome_cons later
  obtain ⟨_, stepped', _⟩ := run_isSome_cons later'
  exact different (decides middle op answer answer' (Option.isSome_of_eq_some stepped)
    (Option.isSome_of_eq_some stepped'))

/-- Where the partner decides every answer, what one execution shows holds of all. -/
theorem Completes.returns (decides : Decides step) (completes : Completes step state prog post) :
    Returns step state prog post := by
  obtain ⟨trace, value, last, runs, reached, holds⟩ := completes
  intro trace' value' last' runs' reached'
  obtain ⟨rfl, rfl⟩ := (Prog.runs_fork runs runs').resolve_right
    (decided_not_fork decides (Option.isSome_of_eq_some reached) (Option.isSome_of_eq_some reached'))
  obtain rfl : last = last' := Option.some.inj (reached.symm.trans reached')
  exact holds

theorem Completes.ensures (decides : Decides step) (completes : Completes step state prog post) :
    Ensures step state prog post :=
  ⟨completes.mono fun _ _ _ => trivial, completes.returns decides⟩

theorem Ensures.completes (ensures : Ensures step state prog post) : Completes step state prog post := by
  obtain ⟨⟨trace, value, last, runs, reached, _⟩, returns⟩ := ensures
  exact ⟨trace, value, last, runs, reached, returns trace value last runs reached⟩

end Partner

end Wsfs.Base
