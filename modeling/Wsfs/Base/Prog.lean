/-
Programs over an interface of effects, as data: a program calls an operation and goes
on with the answer, loops, halts without a result, or is done. Nothing is assumed about
the answers, so a program has one execution for every way the world may answer it.

The logic is partial correctness with a ghost state that only watches the calls: a
program yields a postcondition if every execution that ends meets it, about the result
and the ghost state that the calls have led to.
-/

import Mathlib.Data.List.Basic
import Mathlib.Logic.Relation

namespace Wsfs.Base

inductive Prog (Op : Type) (Res : Op → Type) : Type → Type 1
  | done {α : Type} (value : α) : Prog Op Res α
  | halt {α : Type} : Prog Op Res α
  | call {α : Type} (op : Op) (next : Res op → Prog Op Res α) : Prog Op Res α
  | iterate {σ β α : Type} (body : σ → Prog Op Res (σ ⊕ β)) (start : σ)
      (next : β → Prog Op Res α) : Prog Op Res α

structure Event (Op : Type) (Res : Op → Type) where
  op : Op
  result : Res op

namespace Prog

variable {Op : Type} {Res : Op → Type} {α β σ : Type}

def bind : Prog Op Res α → (α → Prog Op Res β) → Prog Op Res β
  | .done value, rest => rest value
  | .halt, _ => .halt
  | .call op next, rest => .call op fun result => (next result).bind rest
  | .iterate body start next, rest => .iterate body start fun value => (next value).bind rest

instance : Monad (Prog Op Res) where
  pure := .done
  bind := .bind

def perform (op : Op) : Prog Op Res (Res op) := .call op .done

def loop (body : σ → Prog Op Res (σ ⊕ β)) (start : σ) : Prog Op Res β := .iterate body start .done

/-! ### Executions -/

inductive Rounds (body : σ → List (Event Op Res) → σ ⊕ β → Prop) :
    σ → List (Event Op Res) → β → Prop
  | last {state : σ} {trace : List (Event Op Res)} {value : β} :
      body state trace (.inr value) → Rounds body state trace value
  | again {state state' : σ} {first rest : List (Event Op Res)} {value : β} :
      body state first (.inl state') → Rounds body state' rest value →
        Rounds body state (first ++ rest) value

/-- The program can make these calls, with these answers, and then return the value. -/
def Runs : {α : Type} → Prog Op Res α → List (Event Op Res) → α → Prop
  | _, .done value, trace, result => trace = [] ∧ result = value
  | _, .halt, _, _ => False
  | _, .call op next, trace, result =>
      ∃ answer rest, trace = ⟨op, answer⟩ :: rest ∧ (next answer).Runs rest result
  | _, .iterate body start next, trace, result =>
      ∃ value first rest, trace = first ++ rest ∧
        Rounds (fun state => (body state).Runs) start first value ∧ (next value).Runs rest result

variable {prog : Prog Op Res α} {next : α → Prog Op Res β} {result : β} {goal : Op}

theorem runs_bind {trace : List (Event Op Res)} (runs : (prog.bind next).Runs trace result) :
    ∃ value first rest, trace = first ++ rest ∧ prog.Runs first value ∧
      (next value).Runs rest result := by
  induction prog generalizing trace with
  | done value => exact ⟨value, [], trace, rfl, ⟨rfl, rfl⟩, runs⟩
  | halt => exact runs.elim
  | call op next' ih =>
    obtain ⟨answer, rest, rfl, after⟩ := runs
    obtain ⟨value, first, last, rfl, left, right⟩ := ih answer after
    exact ⟨value, ⟨op, answer⟩ :: first, last, rfl, ⟨answer, first, rfl, left⟩, right⟩
  | iterate body start next' _ ih =>
    obtain ⟨exit, looped, rest, rfl, rounds, after⟩ := runs
    obtain ⟨value, first, last, rfl, left, right⟩ := ih exit after
    exact ⟨value, looped ++ first, last, by rw [List.append_assoc],
      ⟨exit, looped, first, rfl, rounds, left⟩, right⟩

theorem runs_append {first rest : List (Event Op Res)} {value : α} (left : prog.Runs first value)
    (right : (next value).Runs rest result) : (prog.bind next).Runs (first ++ rest) result := by
  induction prog generalizing first with
  | done returned =>
    obtain ⟨rfl, rfl⟩ := left
    exact right
  | halt => exact left.elim
  | call op next' ih =>
    obtain ⟨answer, last, rfl, after⟩ := left
    exact ⟨answer, last ++ rest, rfl, ih answer after right⟩
  | iterate body start next' _ ih =>
    obtain ⟨exit, looped, last, rfl, rounds, after⟩ := left
    exact ⟨exit, looped, last ++ rest, by rw [List.append_assoc], rounds, ih exit after right⟩

/-! ### Calls on the way -/

def MayCall : {α : Type} → Prog Op Res α → Op → Prop
  | _, .done _, _ => False
  | _, .halt, _ => False
  | _, .call op next, goal => goal = op ∨ ∃ answer, (next answer).MayCall goal
  | _, .iterate body start next, goal =>
      (∃ state, Relation.ReflTransGen
          (fun before after => ∃ trace, (body before).Runs trace (.inl after)) start state ∧
        (body state).MayCall goal) ∨
      ∃ value trace, Rounds (fun state => (body state).Runs) start trace value ∧
        (next value).MayCall goal

theorem mayCall_bind (mayCall : (prog.bind next).MayCall goal) :
    prog.MayCall goal ∨ ∃ trace value, prog.Runs trace value ∧ (next value).MayCall goal := by
  induction prog with
  | done value => exact .inr ⟨[], value, ⟨rfl, rfl⟩, mayCall⟩
  | halt => exact mayCall.elim
  | call op next' ih =>
    cases mayCall with
    | inl here => exact .inl (.inl here)
    | inr later =>
      obtain ⟨answer, after⟩ := later
      cases ih answer after with
      | inl earlier => exact .inl (.inr ⟨answer, earlier⟩)
      | inr rest =>
        obtain ⟨trace, value, runs, last⟩ := rest
        exact .inr ⟨⟨op, answer⟩ :: trace, value, ⟨answer, trace, rfl, runs⟩, last⟩
  | iterate body start next' _ ih =>
    cases mayCall with
    | inl inLoop => exact .inl (.inl inLoop)
    | inr afterLoop =>
      obtain ⟨exit, looped, rounds, after⟩ := afterLoop
      cases ih exit after with
      | inl earlier => exact .inl (.inr ⟨exit, looped, rounds, earlier⟩)
      | inr rest =>
        obtain ⟨trace, value, runs, last⟩ := rest
        exact .inr ⟨looped ++ trace, value, ⟨exit, looped, trace, rfl, rounds, runs⟩, last⟩

theorem MayCall.bind (mayCall : prog.MayCall goal) (next : α → Prog Op Res β) :
    (prog >>= next).MayCall goal := by
  change (prog.bind next).MayCall goal
  induction prog with
  | done value => exact mayCall.elim
  | halt => exact mayCall.elim
  | call op next' ih => exact mayCall.imp id fun ⟨answer, later⟩ => ⟨answer, ih answer later next⟩
  | iterate body start next' _ ih =>
    exact mayCall.imp id fun ⟨value, trace, rounds, later⟩ => ⟨value, trace, rounds, ih value later next⟩

/-! ### Executions that part -/

/-- The same calls and answers in front, and then two answers to one call. -/
def Forks (first second : List (Event Op Res)) : Prop :=
  ∃ common op answer answer' tail tail', answer ≠ answer' ∧
    first = common ++ ⟨op, answer⟩ :: tail ∧ second = common ++ ⟨op, answer'⟩ :: tail'

section Forks

variable {first second script full : List (Event Op Res)} {goal : Op}

theorem Forks.append (forks : Forks first second) (rest rest' : List (Event Op Res)) :
    Forks (first ++ rest) (second ++ rest') := by
  obtain ⟨common, op, answer, answer', tail, tail', different, rfl, rfl⟩ := forks
  refine ⟨common, op, answer, answer', tail ++ rest, tail' ++ rest', different, ?_, ?_⟩
  · rw [List.append_assoc, List.cons_append]
  · rw [List.append_assoc, List.cons_append]

theorem Forks.left (forks : Forks first second) (rest : List (Event Op Res)) :
    Forks (first ++ rest) second := by
  have apart := forks.append rest []
  rwa [List.append_nil] at apart

theorem Forks.right (forks : Forks first second) (rest : List (Event Op Res)) :
    Forks first (second ++ rest) := by
  have apart := forks.append [] rest
  rwa [List.append_nil] at apart

theorem Forks.after (forks : Forks first second) (before : List (Event Op Res)) :
    Forks (before ++ first) (before ++ second) := by
  obtain ⟨common, op, answer, answer', tail, tail', different, rfl, rfl⟩ := forks
  refine ⟨before ++ common, op, answer, answer', tail, tail', different, ?_, ?_⟩
  · rw [List.append_assoc]
  · rw [List.append_assoc]

variable {body : σ → Prog Op Res (σ ⊕ β)} {start : σ}

theorem rounds_fork (round : ∀ state {first second outcome outcome'}, (body state).Runs first outcome →
      (body state).Runs second outcome' → first = second ∧ outcome = outcome' ∨ Forks first second)
    {exit exit' : β} (rounds : Rounds (fun state => (body state).Runs) start first exit)
    (rounds' : Rounds (fun state => (body state).Runs) start second exit') :
    first = second ∧ exit = exit' ∨ Forks first second := by
  induction rounds generalizing second with
  | last ends =>
    cases rounds' with
    | last ends' => exact (round _ ends ends').imp_left fun same => ⟨same.1, Sum.inr.inj same.2⟩
    | again ends' _ =>
      cases round _ ends ends' with
      | inl same => cases same.2
      | inr forks => exact .inr (forks.right _)
  | again ends _ ih =>
    cases rounds' with
    | last ends' =>
      cases round _ ends ends' with
      | inl same => cases same.2
      | inr forks => exact .inr (forks.left _)
    | again ends' later =>
      cases round _ ends ends' with
      | inl same =>
        obtain ⟨rfl, sameState⟩ := same
        cases sameState
        exact (ih later).imp (fun same => ⟨by rw [same.1], same.2⟩) fun forks => forks.after _
      | inr forks => exact .inr (forks.append _ _)

theorem runs_fork {prog : Prog Op Res α} {value value' : α} (runs : prog.Runs first value)
    (runs' : prog.Runs second value') : first = second ∧ value = value' ∨ Forks first second := by
  induction prog generalizing first second with
  | done returned =>
    obtain ⟨rfl, rfl⟩ := runs
    obtain ⟨rfl, rfl⟩ := runs'
    exact .inl ⟨rfl, rfl⟩
  | halt => exact runs.elim
  | call op next ih =>
    obtain ⟨answer, tail, rfl, after⟩ := runs
    obtain ⟨answer', tail', rfl, after'⟩ := runs'
    by_cases same : answer = answer'
    · subst same
      exact (ih _ after after').imp (fun same => ⟨by rw [same.1], same.2⟩) fun forks => forks.after [_]
    · exact .inr ⟨[], op, answer, answer', tail, tail', same, rfl, rfl⟩
  | iterate body start next ihBody ihNext =>
    obtain ⟨exit, looped, tail, rfl, rounds, after⟩ := runs
    obtain ⟨exit', looped', tail', rfl, rounds', after'⟩ := runs'
    cases rounds_fork (fun state _ _ _ _ => ihBody state) rounds rounds' with
    | inl same =>
      obtain ⟨rfl, rfl⟩ := same
      exact (ihNext _ after after').imp (fun same => ⟨by rw [same.1], same.2⟩) fun forks => forks.after _
    | inr forks => exact .inr (forks.append _ _)

/-- The execution has these answers in front of the call, or parts from them. -/
def Meets (script : List (Event Op Res)) (goal : Op) (full : List (Event Op Res)) : Prop :=
  (∃ answer rest, full = script ++ ⟨goal, answer⟩ :: rest) ∨ Forks script full

theorem Meets.append (meets : Meets script goal full) (rest : List (Event Op Res)) :
    Meets script goal (full ++ rest) := by
  cases meets with
  | inl reached =>
    obtain ⟨answer, later, rfl⟩ := reached
    exact .inl ⟨answer, later ++ rest, by rw [List.append_assoc, List.cons_append]⟩
  | inr forks => exact .inr (forks.right rest)

theorem Meets.after (meets : Meets script goal full) (before : List (Event Op Res)) :
    Meets (before ++ script) goal (before ++ full) := by
  cases meets with
  | inl reached =>
    obtain ⟨answer, later, rfl⟩ := reached
    exact .inl ⟨answer, later, by rw [List.append_assoc]⟩
  | inr forks => exact .inr (forks.after before)

theorem rounds_meet {state : σ} (reach : Relation.ReflTransGen
      (fun before after => ∃ trace, (body before).Runs trace (.inl after)) start state)
    (meets : ∀ full outcome, (body state).Runs full outcome → Meets script goal full) :
    ∃ script, ∀ looped exit, Rounds (fun state => (body state).Runs) start looped exit →
      Meets script goal looped := by
  induction reach using Relation.ReflTransGen.head_induction_on with
  | refl =>
    refine ⟨script, ?_⟩
    intro looped exit rounds
    cases rounds with
    | last ends => exact meets _ _ ends
    | again ends _ => exact (meets _ _ ends).append _
  | head step _ ih =>
    obtain ⟨trace, runs⟩ := step
    obtain ⟨script, later⟩ := ih
    refine ⟨trace ++ script, ?_⟩
    intro looped exit rounds
    cases rounds with
    | last ends =>
      cases runs_fork runs ends with
      | inl same => cases same.2
      | inr forks => exact .inr (forks.left script)
    | again ends rounds =>
      cases runs_fork runs ends with
      | inl same =>
        obtain ⟨rfl, sameState⟩ := same
        cases sameState
        exact (later _ _ rounds).after trace
      | inr forks => exact .inr (forks.append _ _)

/-- Answers that lead to the call, in every execution that does not part from them. -/
theorem MayCall.meets {prog : Prog Op Res α} (mayCall : prog.MayCall goal) :
    ∃ script, ∀ full value, prog.Runs full value → Meets script goal full := by
  induction prog with
  | done _ => exact mayCall.elim
  | halt => exact mayCall.elim
  | call op next ih =>
    cases mayCall with
    | inl here =>
      subst here
      refine ⟨[], ?_⟩
      rintro full value ⟨answer, rest, rfl, _⟩
      exact .inl ⟨answer, rest, rfl⟩
    | inr later =>
      obtain ⟨answer, later⟩ := later
      obtain ⟨script, meets⟩ := ih answer later
      refine ⟨⟨op, answer⟩ :: script, ?_⟩
      rintro full value ⟨answer', rest, rfl, runs⟩
      by_cases same : answer = answer'
      · subst same
        exact (meets _ _ runs).after [_]
      · exact .inr ⟨[], op, answer, answer', script, rest, same, rfl, rfl⟩
  | iterate body start next ihBody ihNext =>
    cases mayCall with
    | inl inside =>
      obtain ⟨state, reach, mayCall⟩ := inside
      obtain ⟨_, meets⟩ := ihBody state mayCall
      obtain ⟨script, meets⟩ := rounds_meet reach meets
      refine ⟨script, ?_⟩
      rintro full value ⟨exit, looped, tail, rfl, rounds, _⟩
      exact (meets looped exit rounds).append tail
    | inr behind =>
      obtain ⟨value, trace, rounds, mayCall⟩ := behind
      obtain ⟨script, meets⟩ := ihNext value mayCall
      refine ⟨trace ++ script, ?_⟩
      rintro full result ⟨exit, looped, tail, rfl, rounds', runs⟩
      cases rounds_fork (fun _ _ _ _ _ => runs_fork) rounds rounds' with
      | inl same =>
        obtain ⟨rfl, rfl⟩ := same
        exact (meets _ _ runs).after trace
      | inr forks => exact .inr (forks.append _ _)

end Forks

/-! ### Equal executions -/

theorem bind_assoc {γ : Type} (prog : Prog Op Res α) (next : α → Prog Op Res β)
    (last : β → Prog Op Res γ) :
    (prog.bind next).bind last = prog.bind fun value => (next value).bind last := by
  induction prog with
  | done value => rfl
  | halt => rfl
  | call op next' ih => simp only [bind, ih]
  | iterate body start next' _ ih => simp only [bind, ih]

theorem bind_done (prog : Prog Op Res α) : prog.bind .done = prog := by
  induction prog with
  | done value => rfl
  | halt => rfl
  | call op next' ih => simp only [bind, ih]
  | iterate body start next' _ ih => simp only [bind, ih]

instance : LawfulMonad (Prog Op Res) :=
  LawfulMonad.mk' _ (fun prog => bind_done prog) (fun _ _ => rfl)
    (fun prog next last => bind_assoc prog next last)

/-- Programs with the same executions. Loops keep their rounds, so a loop and its first
round with the loop after it are not one term. -/
instance : Setoid (Prog Op Res α) where
  r first second := ∀ trace value, first.Runs trace value ↔ second.Runs trace value
  iseqv :=
    { refl := fun _ _ _ => Iff.rfl
      symm := fun same trace value => (same trace value).symm
      trans := fun same same' trace value => (same trace value).trans (same' trace value) }

theorem bind_equiv {prog' : Prog Op Res α} {next' : α → Prog Op Res β} (same : prog ≈ prog')
    (after : ∀ value, next value ≈ next' value) : prog >>= next ≈ prog' >>= next' := by
  intro trace result
  constructor
  · intro runs
    obtain ⟨value, first, rest, rfl, left, right⟩ := runs_bind runs
    exact runs_append ((same first value).mp left) ((after value rest result).mp right)
  · intro runs
    obtain ⟨value, first, rest, rfl, left, right⟩ := runs_bind runs
    exact runs_append ((same first value).mpr left) ((after value rest result).mpr right)

theorem loop_equiv (body : σ → Prog Op Res (σ ⊕ β)) (start : σ) :
    loop body start ≈ body start >>= Sum.elim (loop body) pure := by
  intro trace result
  constructor
  · rintro ⟨_, looped, _, rfl, rounds, rfl, rfl⟩
    cases rounds with
    | last runs => exact runs_append runs ⟨rfl, rfl⟩
    | again runs later =>
      rw [List.append_nil]
      exact runs_append runs ⟨_, _, [], (List.append_nil _).symm, later, rfl, rfl⟩
  · intro runs
    obtain ⟨outcome, first, rest, rfl, left, right⟩ := runs_bind runs
    cases outcome with
    | inl state =>
      obtain ⟨_, looped, _, rfl, rounds, rfl, rfl⟩ := right
      rw [List.append_nil]
      exact ⟨result, first ++ looped, [], (List.append_nil _).symm, .again left rounds, rfl, rfl⟩
    | inr value =>
      obtain ⟨rfl, rfl⟩ := right
      exact ⟨result, first, [], rfl, .last left, rfl, rfl⟩

end Prog

/-! ### Partial correctness -/

section Yields

variable {Op : Type} {Res : Op → Type} {α β σ Ghost : Type}

def Yields (watch : Ghost → Event Op Res → Ghost) (ghost : Ghost) (prog : Prog Op Res α)
    (post : Ghost → α → Prop) : Prop :=
  ∀ trace value, prog.Runs trace value → post (trace.foldl watch ghost) value

variable {watch : Ghost → Event Op Res → Ghost} {ghost : Ghost} {post post' : Ghost → α → Prop}
  {prog : Prog Op Res α}

theorem Yields.mono (yields : Yields watch ghost prog post)
    (weaker : ∀ ghost value, post ghost value → post' ghost value) : Yields watch ghost prog post' :=
  fun trace value runs => weaker _ _ (yields trace value runs)

theorem yields_pure {value : α} (holds : post ghost value) :
    Yields watch ghost (pure value : Prog Op Res α) post := by
  rintro trace result ⟨rfl, rfl⟩
  exact holds

theorem yields_halt : Yields watch ghost (.halt : Prog Op Res α) post :=
  fun _ _ runs => runs.elim

theorem yields_bind {next : α → Prog Op Res β} {after : Ghost → β → Prop}
    (yields : Yields watch ghost prog fun ghost value => Yields watch ghost (next value) after) :
    Yields watch ghost (prog >>= next) after := by
  intro trace result runs
  obtain ⟨value, first, rest, rfl, left, right⟩ := Prog.runs_bind runs
  rw [List.foldl_append]
  exact yields first value left rest result right

variable {op : Op}

theorem yields_perform {next : Res op → Prog Op Res α}
    (yields : ∀ answer, Yields watch (watch ghost ⟨op, answer⟩) (next answer) post) :
    Yields watch ghost (Prog.perform op >>= next) post := by
  rintro trace value ⟨answer, rest, rfl, runs⟩
  exact yields answer rest value runs

theorem yields_call {after : Ghost → Res op → Prop}
    (holds : ∀ answer, after (watch ghost ⟨op, answer⟩) answer) :
    Yields watch ghost (Prog.perform op) after := by
  rintro trace value ⟨answer, rest, rfl, rfl, rfl⟩
  exact holds value

theorem yields_ite {condition : Prop} [Decidable condition] {left right : Prog Op Res α}
    (whenTrue : condition → Yields watch ghost left post)
    (whenFalse : ¬condition → Yields watch ghost right post) :
    Yields watch ghost (if condition then left else right) post := by
  split
  · exact whenTrue ‹_›
  · exact whenFalse ‹_›

/-- A loop yields what its last round does, as long as every round keeps the
invariant. -/
theorem yields_loop {body : σ → Prog Op Res (σ ⊕ α)} {start : σ} (invariant : σ → Ghost → Prop)
    (initially : invariant start ghost)
    (round : ∀ state ghost, invariant state ghost →
      Yields watch ghost (body state) fun ghost outcome =>
        match outcome with
        | .inl state => invariant state ghost
        | .inr value => post ghost value) :
    Yields watch ghost (Prog.loop body start) post := by
  rintro trace value ⟨_, first, _, rfl, rounds, rfl, rfl⟩
  rw [List.append_nil]
  induction rounds generalizing ghost with
  | last runs => exact round _ _ initially _ _ runs
  | again runs _ ih =>
    rw [List.foldl_append]
    exact ih (round _ _ initially _ _ runs)

end Yields

/-! ### Safety of every call -/

section Only

variable {Op : Type} {Res : Op → Type} {α β σ : Type}

/-- Every call of every execution is allowed, whether or not the execution ends. -/
def Only (allowed : Op → Prop) (prog : Prog Op Res α) : Prop :=
  ∀ op, prog.MayCall op → allowed op

variable {allowed : Op → Prop}

theorem only_pure {value : α} : Only allowed (pure value : Prog Op Res α) := fun _ mayCall => mayCall.elim

theorem only_halt : Only allowed (.halt : Prog Op Res α) := fun _ mayCall => mayCall.elim

variable {prog : Prog Op Res α} {op : Op}

theorem only_bind {next : α → Prog Op Res β} (first : Only allowed prog)
    (rest : ∀ value, Only allowed (next value)) : Only allowed (prog >>= next) := by
  intro op mayCall
  cases Prog.mayCall_bind mayCall with
  | inl here => exact first op here
  | inr later =>
    obtain ⟨_, value, _, last⟩ := later
    exact rest value op last

theorem only_map (f : α → β) (only : Only allowed prog) : Only allowed (f <$> prog) :=
  only_bind only fun _ => only_pure

theorem only_perform {next : Res op → Prog Op Res α} (isAllowed : allowed op)
    (rest : ∀ answer, Only allowed (next answer)) : Only allowed (Prog.perform op >>= next) := by
  rintro other (rfl | ⟨answer, later⟩)
  · exact isAllowed
  · exact rest answer other later

theorem only_call (isAllowed : allowed op) : Only allowed (Prog.perform op : Prog Op Res (Res op)) := by
  rintro other (rfl | ⟨answer, later⟩)
  · exact isAllowed
  · exact later.elim

theorem only_ite {condition : Prop} [Decidable condition] {left right : Prog Op Res α}
    (whenTrue : condition → Only allowed left) (whenFalse : ¬condition → Only allowed right) :
    Only allowed (if condition then left else right) := by
  split
  · exact whenTrue ‹_›
  · exact whenFalse ‹_›

theorem only_loop {body : σ → Prog Op Res (σ ⊕ α)} {start : σ}
    (round : ∀ state, Only allowed (body state)) : Only allowed (Prog.loop body start) := by
  rintro op (⟨state, _, mayCall⟩ | ⟨_, _, _, mayCall⟩)
  · exact round state op mayCall
  · exact mayCall.elim

end Only

end Wsfs.Base
