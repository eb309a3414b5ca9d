/-
Total correctness of programs. A world answers every call, in any way and with regard
to all that was called before; in one world a program has at most one execution, and the
logic shows that it has one and what holds at its end.

A loop that tries again has to end in the worlds in question, so the terms under which
programs run bound what a world may spend on trying again.
-/

import Mathlib.Algebra.Ring.Nat
import Wsfs.Base.Prog

namespace Wsfs.Base

variable {Op : Type} {Res : Op → Type} {α β σ Ghost : Type}

abbrev World (Op : Type) (Res : Op → Type) : Type := List (Event Op Res) → (op : Op) → Res op

/-- After the history the world gives the answers of the trace. -/
inductive Follows (world : World Op Res) : List (Event Op Res) → List (Event Op Res) → Prop
  | nil {history : List (Event Op Res)} : Follows world history []
  | cons {history rest : List (Event Op Res)} (op : Op) :
      Follows world (history ++ [⟨op, world history op⟩]) rest →
        Follows world history (⟨op, world history op⟩ :: rest)

namespace Follows

variable {world : World Op Res} {history first rest : List (Event Op Res)}

theorem append (follows : Follows world history first)
    (later : Follows world (history ++ first) rest) : Follows world history (first ++ rest) := by
  induction follows with
  | nil => rwa [List.append_nil] at later
  | cons op _ ih =>
    refine .cons op (ih ?_)
    rwa [List.append_assoc, List.singleton_append]

theorem reach (follows : Follows world [] history) (later : Follows world history rest) :
    Follows world [] (history ++ rest) :=
  follows.append later

theorem split (follows : Follows world history (first ++ rest)) :
    Follows world history first ∧ Follows world (history ++ first) rest := by
  induction first generalizing history with
  | nil => exact ⟨.nil, by rwa [List.append_nil]⟩
  | cons event first ih =>
    cases follows with
    | cons op later =>
      obtain ⟨before, after⟩ := ih later
      refine ⟨.cons op before, ?_⟩
      rwa [List.append_assoc, List.singleton_append] at after

end Follows

/-! ### One execution -/

variable {prog : Prog Op Res α} {world : World Op Res} {history trace : List (Event Op Res)} {value : α}

theorem Follows.not_fork {world : World Op Res} {history first second : List (Event Op Res)}
    (follows : Follows world history first) (follows' : Follows world history second) :
    ¬Prog.Forks first second := by
  rintro ⟨common, op, answer, answer', tail, tail', different, rfl, rfl⟩
  cases follows.split.2 with
  | cons _ _ =>
    cases follows'.split.2 with
    | cons _ _ => exact different rfl

theorem Prog.runs_once {prog : Prog Op Res α} {world : World Op Res}
    {history trace trace' : List (Event Op Res)} {value value' : α} (runs : prog.Runs trace value)
    (runs' : prog.Runs trace' value') (follows : Follows world history trace)
    (follows' : Follows world history trace') : trace = trace' ∧ value = value' :=
  (Prog.runs_fork runs runs').resolve_right (follows.not_fork follows')

/-- In this world the program ends after the history, and the postcondition holds of all
that has been called by then and of the result. -/
def Ends (world : World Op Res) (history : List (Event Op Res)) (prog : Prog Op Res α)
    (post : List (Event Op Res) → α → Prop) : Prop :=
  ∃ trace value, prog.Runs trace value ∧ Follows world history trace ∧ post (history ++ trace) value

theorem ends_bind {next : α → Prog Op Res β} {post : List (Event Op Res) → β → Prop}
    (ends : Ends world history prog fun history value => Ends world history (next value) post) :
    Ends world history (prog >>= next) post := by
  obtain ⟨first, value, runs, follows, rest, result, runs', follows', holds⟩ := ends
  refine ⟨first ++ rest, result, Prog.runs_append runs runs', follows.append follows', ?_⟩
  rwa [← List.append_assoc]

variable {post : List (Event Op Res) → α → Prop} {body : σ → Prog Op Res (σ ⊕ α)} {start : σ}

theorem ends_last (runs : (body start).Runs trace (.inr value)) (follows : Follows world history trace)
    (holds : post (history ++ trace) value) : Ends world history (Prog.loop body start) post :=
  ⟨trace, value, ⟨value, trace, [], (List.append_nil _).symm, .last runs, rfl, rfl⟩, follows, holds⟩

theorem ends_again {state : σ} (runs : (body start).Runs trace (.inl state))
    (follows : Follows world history trace)
    (ends : Ends world (history ++ trace) (Prog.loop body state) post) :
    Ends world history (Prog.loop body start) post := by
  obtain ⟨rest, value, ⟨_, looped, _, rfl, rounds, rfl, rfl⟩, later, holds⟩ := ends
  rw [List.append_nil] at later holds
  rw [List.append_assoc] at holds
  exact ⟨trace ++ looped, value,
    ⟨value, trace ++ looped, [], (List.append_nil _).symm, .again runs rounds, rfl, rfl⟩,
    follows.append later, holds⟩

/-! ### Terms -/

/-- What answers are lawful, what is watched of the calls, and how much of it is spent on
trying again. -/
structure Terms (Op : Type) (Res : Op → Type) (Ghost : Type) where
  lawful : Event Op Res → Prop
  start : Ghost
  watch : Ghost → Event Op Res → Ghost
  spent : Ghost → Nat

namespace Terms

variable (terms : Terms Op Res Ghost)

def ghostAt (history : List (Event Op Res)) : Ghost := history.foldl terms.watch terms.start

structure Admits (world : World Op Res) : Prop where
  lawful : ∀ history op, terms.lawful ⟨op, world history op⟩
  settles : ∃ bound, ∀ trace, Follows world [] trace → terms.spent (terms.ghostAt trace) ≤ bound

/-- From this ghost state on, in every world that the terms admit, the program ends with
the postcondition. -/
def Total (ghost : Ghost) (prog : Prog Op Res α) (post : Ghost → α → Prop) : Prop :=
  ∀ world, terms.Admits world → ∀ history, Follows world [] history →
    terms.ghostAt history = ghost →
      Ends world history prog fun history value => post (terms.ghostAt history) value

variable {terms} {ghost : Ghost} {post post' : Ghost → α → Prop}

theorem Total.mono {prog : Prog Op Res α} (total : terms.Total ghost prog post)
    (weaker : ∀ ghost value, post ghost value → post' ghost value) :
    terms.Total ghost prog post' := by
  intro world admits history follows same
  obtain ⟨trace, value, runs, later, holds⟩ := total world admits history follows same
  exact ⟨trace, value, runs, later, weaker _ _ holds⟩

theorem total_pure {value : α} (holds : post ghost value) :
    terms.Total ghost (pure value : Prog Op Res α) post := by
  intro world admits history follows same
  refine ⟨[], value, ⟨rfl, rfl⟩, .nil, ?_⟩
  subst same
  rwa [List.append_nil]

theorem total_bind {prog : Prog Op Res α} {next : α → Prog Op Res β} {after : Ghost → β → Prop}
    (total : terms.Total ghost prog fun ghost value => terms.Total ghost (next value) after) :
    terms.Total ghost (prog >>= next) after := by
  intro world admits history follows same
  obtain ⟨trace, value, runs, later, rest⟩ := total world admits history follows same
  exact ends_bind ⟨trace, value, runs, later,
    rest world admits (history ++ trace) (follows.reach later) rfl⟩

variable {op : Op} {body : σ → Prog Op Res (σ ⊕ α)} {start : σ}

theorem total_perform {next : Res op → Prog Op Res α} (total : ∀ answer, terms.lawful ⟨op, answer⟩ →
      terms.Total (terms.watch ghost ⟨op, answer⟩) (next answer) post) :
    terms.Total ghost (Prog.perform op >>= next) post := by
  intro world admits history follows same
  have called : Follows world history [⟨op, world history op⟩] := .cons op .nil
  obtain ⟨trace, value, runs, later, holds⟩ :=
    total (world history op) (admits.lawful history op) world admits
      (history ++ [⟨op, world history op⟩]) (follows.reach called)
      (by rw [ghostAt, List.foldl_append, ← same]; rfl)
  refine ⟨⟨op, world history op⟩ :: trace, value, ⟨_, trace, rfl, runs⟩, .cons op later, ?_⟩
  rwa [List.append_assoc, List.singleton_append] at holds

theorem total_call {post : Ghost → Res op → Prop}
    (holds : ∀ answer, terms.lawful ⟨op, answer⟩ → post (terms.watch ghost ⟨op, answer⟩) answer) :
    terms.Total ghost (Prog.perform op) post := by
  change terms.Total ghost (Prog.perform op >>= pure) post
  apply total_perform
  intro answer lawful
  exact total_pure (holds answer lawful)

theorem total_ite {condition : Prop} [Decidable condition] {left right : Prog Op Res α}
    (whenTrue : condition → terms.Total ghost left post)
    (whenFalse : ¬condition → terms.Total ghost right post) :
    terms.Total ghost (if condition then left else right) post := by
  split
  · exact whenTrue ‹_›
  · exact whenFalse ‹_›

/-- A loop ends if every round that is not the last spends something, or spends nothing
back and comes closer to the end by itself. -/
theorem total_loop (invariant : σ → Ghost → Prop) (measure : σ → Nat) (initially : invariant start ghost)
    (round : ∀ state ghost, invariant state ghost →
      terms.Total ghost (body state) fun ghost' outcome =>
        match outcome with
        | .inl state' => invariant state' ghost' ∧ (terms.spent ghost < terms.spent ghost' ∨
            terms.spent ghost = terms.spent ghost' ∧ measure state' < measure state)
        | .inr value => post ghost' value) : terms.Total ghost (Prog.loop body start) post := by
  intro world admits history follows same
  obtain ⟨bound, settles⟩ := admits.settles
  -- The rounds to come: first by what is left to spend, then by the measure.
  obtain ⟨left, leftEq⟩ : ∃ left, bound - terms.spent (terms.ghostAt history) = left := ⟨_, rfl⟩
  obtain ⟨height, heightEq⟩ : ∃ height, measure start = height := ⟨_, rfl⟩
  induction left using Nat.strongRecOn generalizing start history ghost height with
  | ind left ihLeft =>
    induction height using Nat.strongRecOn generalizing start history ghost with
    | ind height ihHeight =>
      obtain ⟨trace, outcome, runs, later, holds⟩ :=
        round start ghost initially world admits history follows same
      have reached := follows.reach later
      have within := settles _ reached
      cases outcome with
      | inr value => exact ends_last runs later holds
      | inl state =>
        obtain ⟨kept, progress⟩ := holds
        apply ends_again runs later
        rw [← same] at progress
        cases progress with
        | inl spends =>
          exact ihLeft (bound - terms.spent (terms.ghostAt (history ++ trace)))
            (by omega) kept (history ++ trace) reached rfl rfl _ rfl
        | inr comesCloser =>
          exact ihHeight (measure state) (by omega) kept (history ++ trace) reached rfl
            (by omega) rfl

theorem total_countdown (invariant : σ → Ghost → Prop) (measure : σ → Nat)
    (initially : invariant start ghost) (round : ∀ state ghost, invariant state ghost →
      terms.Total ghost (body state) fun ghost' outcome =>
        match outcome with
        | .inl state' => invariant state' ghost' ∧ measure state' < measure state
        | .inr value => post ghost' value) : terms.Total ghost (Prog.loop body start) post := by
  intro world admits history follows same
  obtain ⟨height, heightEq⟩ : ∃ height, measure start = height := ⟨_, rfl⟩
  induction height using Nat.strongRecOn generalizing start history ghost with
  | ind height ih =>
    obtain ⟨trace, outcome, runs, later, holds⟩ :=
      round start ghost initially world admits history follows same
    cases outcome with
    | inr value => exact ends_last runs later holds
    | inl state =>
      obtain ⟨kept, closer⟩ := holds
      apply ends_again runs later
      exact ih (measure state) (by omega) kept (history ++ trace) (follows.reach later) rfl rfl

/-! ### From the end back to every call -/

open Classical in
/-- The answers of the script as long as they are asked for, and others elsewhere. -/
noncomputable def scripted (script : List (Event Op Res)) (idle : (op : Op) → Res op) : World Op Res :=
  fun history op =>
    if asked : ∃ answer, script[history.length]? = some ⟨op, answer⟩ then asked.choose else idle op

section Scripted

variable {script : List (Event Op Res)} {idle : (op : Op) → Res op}

theorem scripted_cases (history : List (Event Op Res)) (op : Op) :
    script[history.length]? = some ⟨op, scripted script idle history op⟩ ∨
      scripted script idle history op = idle op := by
  by_cases asked : ∃ answer, script[history.length]? = some ⟨op, answer⟩
  · simp only [scripted, asked, dite_true]
    exact .inl asked.choose_spec
  · simp only [scripted, asked, dite_false]
    exact .inr trivial

theorem scripted_follows (before after : List (Event Op Res)) (same : script = before ++ after) :
    Follows (scripted script idle) before after := by
  induction after generalizing before with
  | nil => exact .nil
  | cons event rest ih =>
    obtain ⟨op, answer⟩ := event
    have place : script[before.length]? = some ⟨op, answer⟩ := by simp [same]
    have given : scripted script idle before op = answer := by
      have asked : ∃ answer, script[before.length]? = some ⟨op, answer⟩ := ⟨answer, place⟩
      have found := asked.choose_spec.symm.trans place
      rw [scripted, dif_pos asked]
      simpa using found
    subst given
    refine .cons op (ih _ ?_)
    rwa [List.append_assoc, List.singleton_append]

theorem scripted_cost (cost : Event Op Res → Nat) (free : ∀ op, cost ⟨op, idle op⟩ = 0)
    {history trace : List (Event Op Res)} (follows : Follows (scripted script idle) history trace) :
    (trace.map cost).sum ≤ ((script.drop history.length).map cost).sum := by
  induction follows with
  | nil => exact Nat.zero_le _
  | @cons history rest op _ ih =>
    rw [List.length_append, List.length_singleton] at ih
    rw [List.map_cons, List.sum_cons]
    cases @scripted_cases _ _ script idle history op with
    | inl asked =>
      obtain ⟨inside, found⟩ := List.getElem?_eq_some_iff.mp asked
      rw [List.drop_eq_getElem_cons inside, found, List.map_cons, List.sum_cons]
      omega
    | inr unasked =>
      rw [unasked, free, Nat.zero_add]
      rw [← List.drop_drop] at ih
      generalize script.drop history.length = left at ih ⊢
      cases left with
      | nil => exact ih
      | cons event left => exact Nat.le_trans ih (Nat.le_add_left _ _)

end Scripted

/-- A program that always ends well makes no call after which it could not. -/
theorem Total.only {prog : Prog Op Res α} {allowed : Op → Prop} (lost : Ghost → Prop)
    (cost : Event Op Res → Nat) (idle : (op : Op) → Res op)
    (total : terms.Total terms.start prog post) (lawful : ∀ event, terms.lawful event)
    (spends : ∀ ghost event, terms.spent (terms.watch ghost event) = terms.spent ghost + cost event)
    (free : ∀ op, cost ⟨op, idle op⟩ = 0) (wins : ∀ ghost value, post ghost value → ¬lost ghost)
    (forever : ∀ ghost event, lost ghost → lost (terms.watch ghost event))
    (loses : ∀ ghost op answer, ¬allowed op → lost (terms.watch ghost ⟨op, answer⟩)) :
    Only allowed prog := by
  intro op mayCall
  by_contra forbidden
  obtain ⟨script, meets⟩ := mayCall.meets
  have spent (start : Ghost) (trace : List (Event Op Res)) :
      terms.spent (trace.foldl terms.watch start) = terms.spent start + (trace.map cost).sum := by
    induction trace generalizing start with
    | nil => rfl
    | cons event rest ih =>
      rw [List.foldl_cons, ih, spends, List.map_cons, List.sum_cons, Nat.add_assoc]
  have stays (start : Ghost) (trace : List (Event Op Res)) (gone : lost start) :
      lost (trace.foldl terms.watch start) := by
    induction trace generalizing start with
    | nil => exact gone
    | cons event rest ih => exact ih _ (forever start event gone)
  have admits : terms.Admits (scripted script idle) := by
    refine ⟨fun _ _ => lawful _, terms.spent terms.start + (script.map cost).sum, ?_⟩
    intro trace follows
    have bounded := scripted_cost cost free follows
    rw [List.length_nil, List.drop_zero] at bounded
    rw [ghostAt, spent]
    omega
  obtain ⟨full, value, runs, follows, holds⟩ := total _ admits [] .nil rfl
  have same : Follows (scripted script idle) [] script := scripted_follows [] script rfl
  obtain ⟨answer, rest, rfl⟩ := (meets full value runs).resolve_right (same.not_fork follows)
  apply wins _ _ holds
  rw [List.nil_append, ghostAt, List.foldl_append, List.foldl_cons]
  exact stays _ _ (loses _ op answer forbidden)

end Terms

end Wsfs.Base
