/-
Executions that have not come to their end. A trace is the beginning of an execution if
the program can have made just these calls so far; it may go on, be stuck in a loop, or
wait for an answer for ever.

The logic keeps a condition on the ghost state at every point of every execution, next to
what holds at its end.
-/

import Wsfs.Base.Prog

namespace Wsfs.Base

variable {Op : Type} {Res : Op → Type} {α β σ Ghost : Type}

namespace Prog

/-- Whole rounds of a loop that goes on. -/
inductive Going (body : σ → List (Event Op Res) → σ ⊕ β → Prop) :
    σ → List (Event Op Res) → σ → Prop
  | start {state : σ} : Going body state [] state
  | again {state next last : σ} {first rest : List (Event Op Res)} :
      body state first (.inl next) → Going body next rest last → Going body state (first ++ rest) last

def Begins : {α : Type} → Prog Op Res α → List (Event Op Res) → Prop
  | _, .done _, trace => trace = []
  | _, .halt, trace => trace = []
  | _, .call op next, trace =>
      trace = [] ∨ ∃ answer rest, trace = ⟨op, answer⟩ :: rest ∧ (next answer).Begins rest
  | _, .iterate body start next, trace =>
      (∃ state looped rest, trace = looped ++ rest ∧
          Going (fun state => (body state).Runs) start looped state ∧ (body state).Begins rest) ∨
        ∃ value looped rest, trace = looped ++ rest ∧
          Rounds (fun state => (body state).Runs) start looped value ∧ (next value).Begins rest

theorem begins_nil (prog : Prog Op Res α) : prog.Begins [] := by
  induction prog with
  | done value => rfl
  | halt => rfl
  | call op next _ => exact .inl rfl
  | iterate body start next ih _ => exact .inl ⟨start, [], [], rfl, .start, ih start⟩

variable {prog : Prog Op Res α} {trace : List (Event Op Res)}

theorem Runs.begins {value : α} (runs : prog.Runs trace value) : prog.Begins trace := by
  induction prog generalizing trace with
  | done _ => exact runs.1
  | halt => exact runs.elim
  | call op next ih =>
    obtain ⟨answer, rest, same, after⟩ := runs
    exact .inr ⟨answer, rest, same, ih answer after⟩
  | iterate body start next _ ih =>
    obtain ⟨exit, looped, rest, same, rounds, after⟩ := runs
    exact .inr ⟨exit, looped, rest, same, rounds, ih exit after⟩

theorem begins_bind {next : α → Prog Op Res β} (begins : (prog.bind next).Begins trace) :
    prog.Begins trace ∨ ∃ value first rest, trace = first ++ rest ∧ prog.Runs first value ∧
      (next value).Begins rest := by
  induction prog generalizing trace with
  | done value => exact .inr ⟨value, [], trace, rfl, ⟨rfl, rfl⟩, begins⟩
  | halt => exact .inl begins
  | call op next' ih =>
    rcases begins with nothing | ⟨answer, rest, rfl, after⟩
    · exact .inl (.inl nothing)
    · rcases ih answer after with before | ⟨value, first, last, rfl, left, right⟩
      · exact .inl (.inr ⟨answer, rest, rfl, before⟩)
      · exact .inr ⟨value, ⟨op, answer⟩ :: first, last, rfl, ⟨answer, first, rfl, left⟩, right⟩
  | iterate body start next' _ ih =>
    rcases begins with inLoop | ⟨exit, looped, rest, rfl, rounds, after⟩
    · exact .inl (.inl inLoop)
    · rcases ih exit after with before | ⟨value, first, last, rfl, left, right⟩
      · exact .inl (.inr ⟨exit, looped, rest, rfl, rounds, before⟩)
      · exact .inr ⟨value, looped ++ first, last, by rw [List.append_assoc],
          ⟨exit, looped, first, rfl, rounds, left⟩, right⟩

end Prog

/-- The condition holds of the ghost state all the way, and the postcondition at the
end. -/
structure Throughout (watch : Ghost → Event Op Res → Ghost) (good : Ghost → Prop) (ghost : Ghost)
    (prog : Prog Op Res α) (post : Ghost → α → Prop) : Prop where
  always : ∀ trace, prog.Begins trace → good (trace.foldl watch ghost)
  yields : Yields watch ghost prog post

section Rules

variable {watch : Ghost → Event Op Res → Ghost} {good : Ghost → Prop} {ghost : Ghost}
  {post post' : Ghost → α → Prop} {prog : Prog Op Res α}

theorem Throughout.mono (throughout : Throughout watch good ghost prog post)
    (weaker : ∀ ghost value, post ghost value → post' ghost value) :
    Throughout watch good ghost prog post' :=
  ⟨throughout.always, throughout.yields.mono weaker⟩

theorem Throughout.now (throughout : Throughout watch good ghost prog post) : good ghost :=
  throughout.always [] prog.begins_nil

theorem Throughout.ends (throughout : Throughout watch good ghost prog post) :
    Throughout watch good ghost prog fun ghost value => good ghost ∧ post ghost value :=
  ⟨throughout.always, fun trace value runs =>
    ⟨throughout.always trace runs.begins, throughout.yields trace value runs⟩⟩

theorem throughout_pure {value : α} (now : good ghost) (holds : post ghost value) :
    Throughout watch good ghost (pure value : Prog Op Res α) post where
  always := by
    rintro _ rfl
    exact now
  yields := yields_pure holds

theorem throughout_halt (now : good ghost) :
    Throughout watch good ghost (.halt : Prog Op Res α) post where
  always := by
    rintro _ rfl
    exact now
  yields := yields_halt

theorem throughout_bind {next : α → Prog Op Res β} {after : Ghost → β → Prop}
    (throughout : Throughout watch good ghost prog fun ghost value =>
      Throughout watch good ghost (next value) after) :
    Throughout watch good ghost (prog >>= next) after where
  always := by
    intro trace begins
    rcases Prog.begins_bind begins with inFirst | ⟨value, first, rest, rfl, runs, later⟩
    · exact throughout.always trace inFirst
    · rw [List.foldl_append]
      exact (throughout.yields first value runs).always rest later
  yields := by
    apply yields_bind
    exact throughout.yields.mono fun _ _ later => later.yields

theorem throughout_perform {op : Op} {next : Res op → Prog Op Res α} (now : good ghost)
    (rest : ∀ answer, Throughout watch good (watch ghost ⟨op, answer⟩) (next answer) post) :
    Throughout watch good ghost (Prog.perform op >>= next) post where
  always := by
    rintro _ (rfl | ⟨answer, later, rfl, begins⟩)
    · exact now
    · exact (rest answer).always later begins
  yields := yields_perform fun answer => (rest answer).yields

theorem throughout_loop {body : σ → Prog Op Res (σ ⊕ α)} {start : σ} (invariant : σ → Ghost → Prop)
    (initially : invariant start ghost)
    (round : ∀ state ghost, invariant state ghost →
      Throughout watch good ghost (body state) fun ghost outcome =>
        match outcome with
        | .inl state => invariant state ghost
        | .inr value => post ghost value) :
    Throughout watch good ghost (Prog.loop body start) post where
  always := by
    rintro trace (⟨state, looped, rest, rfl, going, begins⟩ | ⟨value, looped, rest, rfl, rounds, rfl⟩)
    · rw [List.foldl_append]
      induction going generalizing ghost with
      | start => exact (round _ _ initially).always rest begins
      | again runs _ ih =>
        rw [List.foldl_append]
        exact ih ((round _ _ initially).yields _ _ runs) begins
    · rw [List.append_nil]
      induction rounds generalizing ghost with
      | last runs => exact ((round _ _ initially).ends.yields _ _ runs).1
      | again runs _ ih =>
        rw [List.foldl_append]
        exact ih ((round _ _ initially).yields _ _ runs)
  yields := by
    exact yields_loop invariant initially fun state ghost holds => (round state ghost holds).yields

end Rules

end Wsfs.Base
