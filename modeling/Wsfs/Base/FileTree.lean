/-
Trees of files, directories and symbolic links, as a map from places to nodes. A place
is the names that lead to it from the root, with no link on the way. A tree carries that
everything in it lies in a directory, and the names in each directory, in the order in
which they are listed.

The three changes of a tree are to remove a subtree, to put a node that has nothing
below it, and to move a subtree. Each says what it does to every place.
-/

import Mathlib.Data.List.Infix
import Wsfs.Base.Walk

namespace Wsfs.Base

inductive Node (Info Content Name : Type)
  | file (info : Info) (content : Content)
  | dir (info : Info)
  | link (absolute : Bool) (target : List (Move Name))
deriving DecidableEq, Repr

variable {Info Content Name : Type}

def Node.isDir : Node Info Content Name → Bool
  | .dir _ => true
  | _ => false

structure FileTree (Info Content Name : Type) where
  node : List Name → Option (Node Info Content Name)
  names : List Name → List Name
  mem_names : ∀ path name, name ∈ names path ↔ (node (path ++ [name])).isSome = true
  parent : ∀ path name, (node (path ++ [name])).isSome = true →
    (node path).map Node.isDir = some true

namespace FileTree

variable (tree : FileTree Info Content Name)

def IsDir (path : List Name) : Prop := (tree.node path).map Node.isDir = some true

instance (path : List Name) : Decidable (tree.IsDir path) :=
  inferInstanceAs (Decidable (_ = some true))

variable {path : List Name}

theorem isDir_isSome {tree : FileTree Info Content Name} (dir : tree.IsDir path) :
    (tree.node path).isSome = true := by
  cases found : tree.node path with
  | none =>
    rw [IsDir, found] at dir
    cases dir
  | some node => rfl

theorem isSome_of_append (path rest : List Name)
    (present : (tree.node (path ++ rest)).isSome = true) : (tree.node path).isSome = true := by
  induction rest using List.reverseRecOn with
  | nil => rwa [List.append_nil] at present
  | append_singleton rest name ih =>
    rw [← List.append_assoc] at present
    exact ih (isDir_isSome (tree.parent _ name present))

theorem isSome_of_prefix {below : List Name} (above : path <+: below)
    (present : (tree.node below).isSome = true) : (tree.node path).isSome = true := by
  obtain ⟨rest, rfl⟩ := above
  exact tree.isSome_of_append path rest present

variable {other : List Name} {entry : Name}

private theorem concat_prefix_concat {name : Name} (outside : ¬path ++ [name] <+: other) :
    path ++ [name] <+: other ++ [entry] ↔ other = path ∧ entry = name := by
  rw [List.prefix_concat_iff, or_iff_left outside]
  constructor
  · intro same
    obtain ⟨rfl, rfl⟩ : path = other ∧ name = entry := by simpa using same
    exact ⟨rfl, rfl⟩
  · rintro ⟨rfl, rfl⟩
    rfl

private theorem drop_concat (above : path <+: other) :
    (other ++ [entry]).drop path.length = other.drop path.length ++ [entry] :=
  List.drop_append_of_le_length above.length_le

def root (info : Info) : FileTree Info Content Name where
  node path := if path.isEmpty then some (.dir info) else none
  names _ := []
  mem_names := by
    intro path name
    simp
  parent := by
    intro path name present
    simp at present

/-! ### Changes -/

variable [DecidableEq Name]

def remove (path : List Name) : FileTree Info Content Name where
  node other := if path <+: other then none else tree.node other
  names other := (tree.names other).filter fun name => ¬path <+: other ++ [name]
  mem_names := by
    intro other name
    rw [List.mem_filter, tree.mem_names, decide_eq_true_iff]
    by_cases under : path <+: other ++ [name]
    · simp [under]
    · simp [under]
  parent := by
    intro other name present
    by_cases under : path <+: other ++ [name]
    · rw [if_pos under] at present
      cases present
    · rw [if_neg under] at present
      rw [if_neg fun above => under (above.trans (List.prefix_append _ _))]
      exact tree.parent other name present

/-- The new node takes the place of one that has nothing below it, or of none. -/
def put (path : List Name) (name : Name) (value : Node Info Content Name) (dir : tree.IsDir path)
    (leaf : tree.names (path ++ [name]) = []) : FileTree Info Content Name where
  node other := if other = path ++ [name] then some value else tree.node other
  names other :=
    if other = path ∧ name ∉ tree.names path then tree.names path ++ [name] else tree.names other
  mem_names := by
    intro other entry
    by_cases new : other = path ∧ name ∉ tree.names path
    · obtain ⟨rfl, fresh⟩ := new
      rw [if_pos ⟨rfl, fresh⟩, List.mem_append, tree.mem_names, List.mem_singleton]
      by_cases same : entry = name
      · simp [same]
      · simp [same]
    · rw [if_neg new, tree.mem_names]
      by_cases same : other ++ [entry] = path ++ [name]
      · obtain ⟨rfl, rfl⟩ : other = path ∧ entry = name := by simpa using same
        have known : entry ∈ tree.names other := by
          by_contra fresh
          exact new ⟨rfl, fresh⟩
        simp [(tree.mem_names other entry).mp known]
      · rw [if_neg same]
  parent := by
    intro other entry present
    have above : path ≠ path ++ [name] := by simp
    by_cases same : other ++ [entry] = path ++ [name]
    · obtain ⟨rfl, rfl⟩ : other = path ∧ entry = name := by simpa using same
      rw [if_neg above]
      exact dir
    · rw [if_neg same] at present
      have inside : other ≠ path ++ [name] := by
        rintro rfl
        have listed := (tree.mem_names _ entry).mpr present
        rw [leaf] at listed
        cases listed
      rw [if_neg inside]
      exact tree.parent other entry present

/-- The subtree at `source` becomes the subtree at `path ++ [name]`. -/
def move (source path : List Name) (name : Name) (present : (tree.node source).isSome = true)
    (dir : tree.IsDir path) (outside : ¬source <+: path ++ [name]) :
    FileTree Info Content Name where
  node other :=
    if path ++ [name] <+: other then tree.node (source ++ other.drop (path ++ [name]).length)
    else if source <+: other then none
    else tree.node other
  names other :=
    if path ++ [name] <+: other then tree.names (source ++ other.drop (path ++ [name]).length)
    else
      ((tree.names other).filter fun entry =>
        ¬source <+: other ++ [entry] ∧ ¬(other = path ∧ entry = name)) ++
        if other = path then [name] else []
  mem_names := by
    intro other entry
    by_cases moved : path ++ [name] <+: other
    · rw [if_pos moved, if_pos (moved.trans (List.prefix_append _ _)), tree.mem_names,
        drop_concat moved, List.append_assoc]
    · rw [if_neg moved, List.mem_append, List.mem_filter, tree.mem_names, decide_eq_true_iff]
      by_cases new : other = path ∧ entry = name
      · obtain ⟨rfl, rfl⟩ := new
        simp [present]
      · rw [if_neg fun below => new ((concat_prefix_concat moved).mp below)]
        have notNew : entry ∉ if other = path then [name] else [] := by
          by_cases here : other = path
          · rw [if_pos here, List.mem_singleton]
            exact fun same => new ⟨here, same⟩
          · rw [if_neg here]
            exact List.not_mem_nil
        by_cases gone : source <+: other ++ [entry]
        · simp [gone, notNew]
        · simp [gone, notNew, new]
  parent := by
    intro other entry found
    have above : ¬path ++ [name] <+: path := fun below => by
      have bound := below.length_le
      rw [List.length_append, List.length_singleton] at bound
      omega
    by_cases moved : path ++ [name] <+: other
    · rw [if_pos moved]
      rw [if_pos (moved.trans (List.prefix_append _ _)), drop_concat moved,
        ← List.append_assoc] at found
      exact tree.parent _ entry found
    · rw [if_neg moved]
      by_cases new : other = path ∧ entry = name
      · obtain ⟨rfl, rfl⟩ := new
        rw [if_neg fun under => outside (under.trans (List.prefix_append _ _))]
        exact dir
      · rw [if_neg fun below => new ((concat_prefix_concat moved).mp below)] at found
        by_cases gone : source <+: other ++ [entry]
        · rw [if_pos gone] at found
          cases found
        · rw [if_neg gone] at found
          rw [if_neg fun under => gone (under.trans (List.prefix_append _ _))]
          exact tree.parent other entry found

/-! ### What a change leaves alone -/

/-- Everything is still there, and there may be more. -/
def Extends (before after : FileTree Info Content Name) : Prop :=
  ∀ path node, before.node path = some node → after.node path = some node

/-- Nothing differs at any other place. -/
def OnlyAt (path : List Name) (before after : FileTree Info Content Name) : Prop :=
  ∀ other, other ≠ path → after.node other = before.node other

/-- Nodes have gone from the subtree at `path`, and that is all. -/
def Shrinks (path : List Name) (before after : FileTree Info Content Name) : Prop :=
  ∀ other, after.node other = before.node other ∨ path <+: other ∧ after.node other = none

end FileTree

namespace FileTree

variable {path deeper : List Name} {first second third : FileTree Info Content Name}

theorem Extends.refl (tree : FileTree Info Content Name) : Extends tree tree := fun _ _ => id

theorem Extends.trans (left : Extends first second) (right : Extends second third) :
    Extends first third :=
  fun path node present => right path node (left path node present)

theorem OnlyAt.trans (left : OnlyAt path first second) (right : OnlyAt path second third) :
    OnlyAt path first third :=
  fun other different => (right other different).trans (left other different)

theorem OnlyAt.extends (only : OnlyAt path first second) (absent : first.node path = none) :
    Extends first second := by
  intro other node present
  rw [only other, present]
  rintro rfl
  rw [absent] at present
  cases present

theorem Shrinks.refl (path : List Name) (tree : FileTree Info Content Name) :
    Shrinks path tree tree :=
  fun _ => .inl rfl

theorem Shrinks.trans (left : Shrinks path first second) (right : Shrinks path second third) :
    Shrinks path first third := by
  intro other
  rcases right other with same | gone
  · rw [same]
    exact left other
  · exact .inr gone

theorem Shrinks.mono (above : path <+: deeper) (shrinks : Shrinks deeper first second) :
    Shrinks path first second :=
  fun other => (shrinks other).imp id fun gone => ⟨above.trans gone.1, gone.2⟩

theorem Shrinks.node_eq (shrinks : Shrinks path first second) {other : List Name}
    (outside : ¬path <+: other) : second.node other = first.node other :=
  (shrinks other).resolve_right fun gone => outside gone.1

variable [DecidableEq Name]

theorem remove_shrinks (tree : FileTree Info Content Name) (path : List Name) :
    Shrinks path tree (tree.remove path) := by
  intro other
  by_cases under : path <+: other
  · exact .inr ⟨under, if_pos under⟩
  · exact .inl (if_neg under)

/-- Several subtrees go, all of them inside the one at `path`. -/
def removeSome (tree : FileTree Info Content Name) (path : List Name) (gone : List (List Name)) :
    FileTree Info Content Name :=
  gone.foldl (fun tree below => tree.remove (path ++ below)) tree

theorem removeSome_shrinks (tree : FileTree Info Content Name) (path : List Name)
    (gone : List (List Name)) : Shrinks path tree (tree.removeSome path gone) := by
  induction gone generalizing tree with
  | nil => exact .refl path tree
  | cons below rest ih =>
    have first := (tree.remove_shrinks (path ++ below)).mono (List.prefix_append path below)
    exact first.trans (ih _)

end FileTree

end Wsfs.Base
