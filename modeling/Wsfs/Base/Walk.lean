/-
Walks along a path, component by component. A component stays where it is, steps up to
the parent, or steps down to a name; the parent of the root is the root.

A walk that begins at some place never leaves it exactly if at no point it has stepped
up more often than down, or if it began at the root, which nothing leaves.
-/

import Mathlib.Data.List.Basic

namespace Wsfs.Base

variable {α : Type}

inductive Move (α : Type)
  | stay
  | up
  | down (name : α)
deriving DecidableEq, Repr

namespace Move

def isUp : Move α → Bool
  | .up => true
  | _ => false

def isDown : Move α → Bool
  | .down _ => true
  | _ => false

/-- The place after one move; places are the names from the root on. -/
def walk (place : List α) : Move α → List α
  | .stay => place
  | .up => place.dropLast
  | .down name => place ++ [name]

/-- Every place of the walk, its ends included, is the base or below it. -/
def Stays (base : List α) (moves : List (Move α)) : Prop :=
  ∀ n, base <+: (moves.take n).foldl walk base

variable {base : List α}

private theorem stays_below_iff (nonempty : base ≠ []) (extra : List α) (moves : List (Move α)) :
    (∀ n, base <+: (moves.take n).foldl walk (base ++ extra)) ↔
      ∀ n, (moves.take n).countP isUp ≤ extra.length + (moves.take n).countP isDown := by
  induction moves generalizing extra with
  | nil => simp
  | cons move rest ih =>
    refine Nat.and_forall_add_one.symm.trans (Iff.trans ?_ Nat.and_forall_add_one)
    simp only [List.take_zero, List.take_succ_cons, List.foldl_nil, List.prefix_append,
      List.countP_nil, Nat.zero_le, true_and, List.foldl_cons, List.countP_cons]
    cases move with
    | stay => simpa [walk, isUp, isDown] using ih extra
    | down name =>
      have later := ih (extra ++ [name])
      rw [List.length_append, List.length_singleton] at later
      simp only [walk, isUp, isDown, List.append_assoc, later]
      refine forall_congr' fun n => ?_
      simp only [Bool.false_eq_true, if_false, if_true]
      omega
    | up =>
      rcases List.eq_nil_or_concat extra with rfl | ⟨before, last, rfl⟩
      · -- One more step up leaves the base at once.
        simp only [walk, List.append_nil, isUp, isDown, if_true, List.length_nil]
        constructor
        · intro inside
          have leaves := (inside 0).length_le
          simp only [List.take_zero, List.foldl_nil, List.length_dropLast] at leaves
          have positive := List.length_pos_iff.mpr nonempty
          omega
        · intro balanced
          have first := balanced 0
          simp at first
      · have later := ih before
        simp only [walk, List.concat_eq_append, ← List.append_assoc, List.dropLast_concat, later,
          isUp, isDown, List.length_append, List.length_singleton]
        refine forall_congr' fun n => ?_
        simp only [Bool.false_eq_true, if_false, if_true]
        omega

variable {moves : List (Move α)}

theorem stays_iff :
    Stays base moves ↔
      base = [] ∨ ∀ n, (moves.take n).countP isUp ≤ (moves.take n).countP isDown := by
  by_cases atRoot : base = []
  · simp only [atRoot, true_or, iff_true, Stays]
    exact fun n => List.nil_prefix
  · have below := stays_below_iff atRoot [] moves
    simp only [List.append_nil, List.length_nil, Nat.zero_add] at below
    rw [Stays, below]
    exact (or_iff_right atRoot).symm

theorem stays_of_no_up (plain : .up ∉ moves) : Stays base moves := by
  refine stays_iff.mpr (.inr fun n => ?_)
  have none : (moves.take n).countP isUp = 0 := by
    refine List.countP_eq_zero.mpr fun move member up => ?_
    cases move with
    | up => exact plain (List.mem_of_mem_take member)
    | stay => cases up
    | down name => cases up
  omega

end Move

end Wsfs.Base
