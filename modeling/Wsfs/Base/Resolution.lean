/-
How paths are resolved in a tree with symbolic links. A walk needs a directory for every
move. A name that is a link is replaced by the target of the link, relative to the
directory that holds it, and only so many links are followed.

A walk records the places that it has looked at: as long as the nodes there stay, it
leads to the same place.
-/

import Wsfs.Base.FileTree

namespace Wsfs.Base

variable {Info Content Name : Type}

inductive WalkError
  | missing
  | notDir
  | loop
deriving DecidableEq, Repr

/-- The place where a walk ends, the places before it, and the links that may still be
followed. -/
structure Reached (Name : Type) where
  place : List Name
  passed : List (List Name)
  left : Nat
deriving DecidableEq, Repr

def Reached.seen (reached : Reached Name) : List (List Name) := reached.place :: reached.passed

namespace FileTree

variable (tree : FileTree Info Content Name)

def refusal (place : List Name) : Option WalkError :=
  match tree.node place with
  | none => some .missing
  | some node => if node.isDir then none else some .notDir

def linkAt (place : List Name) : Move Name → Option (Bool × List (Move Name))
  | .down name =>
      match tree.node (place ++ [name]) with
      | some (.link absolute target) => some (absolute, target)
      | _ => none
  | _ => none

/-- A walk up to its first link, from where `follow` goes on. -/
def walkWith (left : Nat)
    (follow : List Name → List (List Name) → List (Move Name) → Except WalkError (Reached Name)) :
    List Name → List (List Name) → List (Move Name) → Except WalkError (Reached Name)
  | place, passed, [] => .ok ⟨place, passed, left⟩
  | place, passed, move :: moves =>
      match tree.refusal place with
      | some error => .error error
      | none =>
          match tree.linkAt place move with
          | none => walkWith left follow (move.walk place) (place :: passed) moves
          | some (absolute, target) =>
              follow (if absolute then [] else place) (move.walk place :: place :: passed)
                (target ++ moves)

def walk : Nat → List Name → List (List Name) → List (Move Name) → Except WalkError (Reached Name)
  | 0 => tree.walkWith 0 fun _ _ _ => .error .loop
  | left + 1 => tree.walkWith (left + 1) (walk left)

/-- The walks that end well, step by step. -/
inductive Walks : Nat → List Name → List (List Name) → List (Move Name) → Reached Name → Prop
  | done {left : Nat} {place : List Name} {passed : List (List Name)} :
      Walks left place passed [] ⟨place, passed, left⟩
  | step {left : Nat} {place : List Name} {passed : List (List Name)} {move : Move Name}
      {moves : List (Move Name)} {reached : Reached Name} (dir : tree.refusal place = none)
      (plain : tree.linkAt place move = none)
      (rest : Walks left (move.walk place) (place :: passed) moves reached) :
      Walks left place passed (move :: moves) reached
  | follow {left : Nat} {place : List Name} {passed : List (List Name)} {move : Move Name}
      {moves : List (Move Name)} {reached : Reached Name} {absolute : Bool}
      {target : List (Move Name)} (dir : tree.refusal place = none)
      (link : tree.linkAt place move = some (absolute, target))
      (rest : Walks left (if absolute then [] else place) (move.walk place :: place :: passed)
        (target ++ moves) reached) :
      Walks (left + 1) place passed (move :: moves) reached

variable {tree} {left : Nat} {place : List Name} {passed : List (List Name)}
  {moves more : List (Move Name)} {reached : Reached Name}

theorem walks_of_walk (walked : tree.walk left place passed moves = .ok reached) :
    tree.Walks left place passed moves reached := by
  induction left generalizing place passed moves with
  | zero =>
    induction moves generalizing place passed with
    | nil =>
      cases walked
      exact .done
    | cons move moves ih =>
      rw [walk, walkWith] at walked
      split at walked
      · cases walked
      · split at walked
        · exact .step ‹_› ‹_› (ih walked)
        · cases walked
  | succ left links =>
    induction moves generalizing place passed with
    | nil =>
      cases walked
      exact .done
    | cons move moves ih =>
      rw [walk, walkWith] at walked
      split at walked
      · cases walked
      · split at walked
        · exact .step ‹_› ‹_› (ih walked)
        · exact .follow ‹_› ‹_› (links walked)

theorem Walks.walk_eq (walks : tree.Walks left place passed moves reached) :
    tree.walk left place passed moves = .ok reached := by
  induction walks with
  | @done left =>
    cases left with
    | zero => rfl
    | succ left => rfl
  | @step left _ _ _ _ _ dir plain rest ih =>
    cases left with
    | zero | succ _ =>
      rw [walk, walkWith, dir, plain]
      exact ih
  | follow dir link rest ih =>
    rw [walk, walkWith, dir, link]
    exact ih

theorem walk_eq_ok_iff :
    tree.walk left place passed moves = .ok reached ↔ tree.Walks left place passed moves reached :=
  ⟨walks_of_walk, Walks.walk_eq⟩

theorem Walks.append {middle : Reached Name} (first : tree.Walks left place passed moves middle)
    (second : tree.Walks middle.left middle.place middle.passed more reached) :
    tree.Walks left place passed (moves ++ more) reached := by
  induction first with
  | done => exact second
  | step dir plain rest ih => exact .step dir plain (ih second)
  | follow dir link rest ih =>
    rw [List.cons_append]
    refine .follow dir link ?_
    rw [← List.append_assoc]
    exact ih second

theorem Walks.split {all : List (Move Name)} (walks : tree.Walks left place passed all reached)
    (parts : all = moves ++ more) :
    ∃ middle : Reached Name, tree.Walks left place passed moves middle ∧
      tree.Walks middle.left middle.place middle.passed more reached := by
  induction walks generalizing moves with
  | done =>
    obtain ⟨rfl, rfl⟩ := List.append_eq_nil_iff.mp parts.symm
    exact ⟨_, .done, .done⟩
  | step dir plain rest ih =>
    cases moves with
    | nil =>
      obtain rfl : _ = more := parts
      exact ⟨_, .done, .step dir plain rest⟩
    | cons first moves =>
      cases parts
      obtain ⟨middle, toMiddle, fromMiddle⟩ := ih rfl
      exact ⟨middle, .step dir plain toMiddle, fromMiddle⟩
  | follow dir link rest ih =>
    cases moves with
    | nil =>
      obtain rfl : _ = more := parts
      exact ⟨_, .done, .follow dir link rest⟩
    | cons first moves =>
      cases parts
      obtain ⟨middle, toMiddle, fromMiddle⟩ := ih (List.append_assoc ..).symm
      exact ⟨middle, .follow dir link toMiddle, fromMiddle⟩

/-! ### What a walk has looked at -/

theorem refusal_isSome (dir : tree.refusal place = none) : (tree.node place).isSome = true := by
  unfold refusal at dir
  cases found : tree.node place with
  | none =>
    rw [found] at dir
    cases dir
  | some node => rfl

theorem refusal_congr {after : FileTree Info Content Name} (same : after.node place = tree.node place) :
    after.refusal place = tree.refusal place := by
  rw [refusal, refusal, same]

theorem linkAt_isSome {move : Move Name} {link : Bool × List (Move Name)}
    (found : tree.linkAt place move = some link) : (tree.node (move.walk place)).isSome = true := by
  cases move with
  | stay => cases found
  | up => cases found
  | down name =>
    change (tree.node (place ++ [name])).isSome = true
    unfold linkAt at found
    dsimp only at found
    split at found
    · rename_i isLink
      rw [isLink]
      rfl
    · cases found

theorem Walks.subset (walks : tree.Walks left place passed moves reached) :
    place ∈ reached.seen ∧ passed ⊆ reached.passed := by
  induction walks with
  | done => exact ⟨List.mem_cons_self, List.Subset.refl _⟩
  | step dir plain rest ih =>
    have kept := List.cons_subset.mp ih.2
    exact ⟨List.mem_cons_of_mem _ kept.1, kept.2⟩
  | follow dir link rest ih =>
    have kept := List.cons_subset.mp (List.cons_subset.mp ih.2).2
    exact ⟨List.mem_cons_of_mem _ kept.1, kept.2⟩

theorem Walks.present (walks : tree.Walks left place passed moves reached)
    (before : ∀ other ∈ passed, (tree.node other).isSome = true) :
    ∀ other ∈ reached.passed, (tree.node other).isSome = true := by
  induction walks with
  | done => exact before
  | step dir plain rest ih => exact ih (List.forall_mem_cons.mpr ⟨refusal_isSome dir, before⟩)
  | follow dir link rest ih =>
    exact ih (List.forall_mem_cons.mpr
      ⟨linkAt_isSome link, List.forall_mem_cons.mpr ⟨refusal_isSome dir, before⟩⟩)

variable {after : FileTree Info Content Name}

/-- A tree with the same nodes at all the places of a walk has the same walk. -/
theorem Walks.transfer (walks : tree.Walks left place passed moves reached)
    (same : ∀ other ∈ reached.seen, after.node other = tree.node other) :
    after.Walks left place passed moves reached := by
  have sameLink : ∀ (other : List Name) (move : Move Name), move.walk other ∈ reached.seen →
      after.linkAt other move = tree.linkAt other move := by
    intro other move seen
    cases move with
    | stay => rfl
    | up => rfl
    | down name =>
      have node := same _ seen
      change after.node (other ++ [name]) = _ at node
      rw [linkAt, linkAt, node]
      rfl
  induction walks with
  | done => exact .done
  | @step _ place _ _ _ reached dir plain rest ih =>
    have here : place ∈ reached.seen := List.mem_cons_of_mem _ (List.cons_subset.mp rest.subset.2).1
    refine .step ((refusal_congr (same _ here)).trans dir) ?_ (ih same sameLink)
    rw [sameLink _ _ rest.subset.1]
    exact plain
  | @follow _ place _ _ _ reached _ _ dir link rest ih =>
    have kept := List.cons_subset.mp rest.subset.2
    have here : place ∈ reached.seen := List.mem_cons_of_mem _ (List.cons_subset.mp kept.2).1
    refine .follow ((refusal_congr (same _ here)).trans dir) ?_ (ih same sameLink)
    rw [sameLink _ _ (List.mem_cons_of_mem _ kept.1)]
    exact link

/-! ### Paths -/

variable (tree)

/-- The place of a path, with its last name followed if it is a link, or not. -/
def leads (limit : Nat) (follow : Bool) (path : List Name) : Except WalkError (Reached Name) :=
  match follow, path.getLast? with
  | false, some name =>
      match tree.walk limit [] [] (path.dropLast.map .down) with
      | .error error => .error error
      | .ok parent =>
          match tree.refusal parent.place with
          | some error => .error error
          | none => .ok ⟨parent.place ++ [name], parent.place :: parent.passed, parent.left⟩
  | _, _ => tree.walk limit [] [] (path.map .down)

variable {tree} {limit : Nat} {path : List Name}

theorem leads_follow_iff :
    tree.leads limit true path = .ok reached ↔ tree.Walks limit [] [] (path.map .down) reached := by
  rw [← walk_eq_ok_iff]
  cases path.getLast? <;> rfl

theorem leads_concat_iff {name : Name} :
    tree.leads limit false (path ++ [name]) = .ok reached ↔
      ∃ parent : Reached Name, tree.Walks limit [] [] (path.map .down) parent ∧
        tree.refusal parent.place = none ∧
        reached = ⟨parent.place ++ [name], parent.place :: parent.passed, parent.left⟩ := by
  simp only [leads, List.getLast?_concat, List.dropLast_concat, ← walk_eq_ok_iff]
  cases tree.walk limit [] [] (path.map .down) with
  | error error => simp
  | ok parent =>
    cases dir : tree.refusal parent.place with
    | some error => simp [dir]
    | none => simp [dir, eq_comm]

theorem leads_nil_iff {follow : Bool} :
    tree.leads limit follow [] = .ok reached ↔ reached = ⟨[], [], limit⟩ := by
  have stays : tree.leads limit follow [] = .ok ⟨[], [], limit⟩ := by
    cases follow <;> cases limit <;> rfl
  rw [stays, Except.ok.injEq, eq_comm]

variable {follow : Bool}

theorem leads_present (found : tree.leads limit follow path = .ok reached) :
    ∀ other ∈ reached.passed, (tree.node other).isSome = true := by
  cases follow with
  | true => exact (leads_follow_iff.mp found).present nofun
  | false =>
    rcases List.eq_nil_or_concat' path with rfl | ⟨path, name, rfl⟩
    · rw [leads_nil_iff.mp found]
      exact nofun
    · obtain ⟨parent, walks, dir, rfl⟩ := leads_concat_iff.mp found
      exact List.forall_mem_cons.mpr ⟨refusal_isSome dir, walks.present nofun⟩

/-- The node at the place itself has no part in how an entry is found. -/
theorem entry_transfer (found : tree.leads limit false path = .ok reached)
    (same : ∀ other ∈ reached.passed, after.node other = tree.node other) :
    after.leads limit false path = .ok reached := by
  rcases List.eq_nil_or_concat' path with rfl | ⟨path, name, rfl⟩
  · exact leads_nil_iff.mpr (leads_nil_iff.mp found)
  · obtain ⟨parent, walks, dir, rfl⟩ := leads_concat_iff.mp found
    exact leads_concat_iff.mpr ⟨parent, walks.transfer same,
      (refusal_congr (same _ List.mem_cons_self)).trans dir, rfl⟩

theorem leads_transfer (found : tree.leads limit follow path = .ok reached)
    (same : ∀ other ∈ reached.seen, after.node other = tree.node other) :
    after.leads limit follow path = .ok reached := by
  cases follow with
  | true => exact leads_follow_iff.mpr ((leads_follow_iff.mp found).transfer same)
  | false => exact entry_transfer found fun other passed => same other (List.mem_cons_of_mem _ passed)

theorem leads_follow_of_plain (found : tree.leads limit false path = .ok reached)
    (plain : ∀ absolute target, tree.node reached.place ≠ some (.link absolute target)) :
    tree.leads limit true path = .ok reached := by
  rcases List.eq_nil_or_concat' path with rfl | ⟨path, name, rfl⟩
  · exact leads_nil_iff.mpr (leads_nil_iff.mp found)
  · obtain ⟨parent, walks, dir, rfl⟩ := leads_concat_iff.mp found
    have last : tree.linkAt parent.place (.down name) = none := by
      unfold linkAt
      dsimp only
      split
      · exact absurd ‹_› (plain _ _)
      · rfl
    rw [leads_follow_iff, List.map_append]
    exact walks.append (.step dir last .done)

/-- What a path leads to has an entry where the path itself ends, perhaps a link. -/
theorem leads_entry (found : tree.leads limit true path = .ok reached)
    (present : (tree.node reached.place).isSome = true) :
    ∃ entry : Reached Name, tree.leads limit false path = .ok entry ∧
      (tree.node entry.place).isSome = true := by
  rcases List.eq_nil_or_concat' path with rfl | ⟨path, name, rfl⟩
  · exact ⟨reached, leads_nil_iff.mpr (leads_nil_iff.mp found), present⟩
  · rw [leads_follow_iff, List.map_append] at found
    obtain ⟨⟨place, passed, left⟩, walks, last⟩ := found.split rfl
    cases last with
    | step dir plain rest =>
      cases rest
      exact ⟨_, leads_concat_iff.mpr ⟨_, walks, dir, rfl⟩, present⟩
    | follow dir link rest =>
      exact ⟨_, leads_concat_iff.mpr ⟨_, walks, dir, rfl⟩, linkAt_isSome link⟩

theorem leads_below {name : Name} {entry : Reached Name} (found : tree.leads limit true path = .ok reached)
    (below : tree.leads limit false (path ++ [name]) = .ok entry) :
    entry.place = reached.place ++ [name] := by
  obtain ⟨parent, walks, _, rfl⟩ := leads_concat_iff.mp below
  have same := (leads_follow_iff.mpr walks).symm.trans found
  cases same
  rfl

end FileTree

end Wsfs.Base
