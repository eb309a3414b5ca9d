/-
The root of a storage, and what it means for a path to stay below it. A path is resolved
component by component; nothing is asked of the file system, so links count as names.
-/

import Wsfs.Base.Walk
import Wsfs.Util.Path

namespace Wsfs.Storage

open Wsfs.Base Wsfs.Util

/-! ### NewStorage -/

/-- `filepath.Abs`; the working directory is what `os.Getwd` answers. -/
def abs (getwd : Option Bytes) (path : Bytes) : Option Bytes :=
  if path.head? = some slash then some (clean path) else getwd.map fun wd => join wd path

/-- `strings.TrimSuffix` -/
def trimSuffix (v part : Bytes) : Bytes :=
  if hasSuffix v part then v.take (v.length - part.length) else v

def newStorage (getwd : Option Bytes) (path : Bytes) : Option Bytes :=
  (abs getwd path).map fun absolutePath => trimSuffix absolutePath [slash]

/-! ### Places -/

def moveOf (part : Bytes) : Move Bytes :=
  if part = [] ∨ part = [dot] then .stay else if part = [dot, dot] then .up else .down part

/-- The components of a path, for an operating system with these separators. -/
def moves (separator : UInt8 → Bool) (path : Bytes) : List (Move Bytes) :=
  (path.splitOnP separator).map moveOf

def place (separator : UInt8 → Bool) (path : Bytes) : List Bytes :=
  (moves separator path).foldl Move.walk []

/-- The path goes on from the root, and from there on no component of it leads out. -/
def Confined (separator : UInt8 → Bool) (root path : Bytes) : Prop :=
  ∃ rest, moves separator path = moves separator root ++ rest ∧
    Move.Stays (place separator root) rest

def isSlash (byte : UInt8) : Bool := byte == slash

theorem moveOf_eq_up {part : Bytes} : moveOf part = .up ↔ part = [dot, dot] := by
  unfold moveOf
  by_cases nothing : part = [] ∨ part = [dot]
  · rw [if_pos nothing]
    rcases nothing with rfl | rfl <;> decide
  · rw [if_neg nothing]
    by_cases up : part = [dot, dot]
    · simp [up]
    · simp [up]

variable {root : Bytes} {path : Bytes} {names : List FileName}

theorem confined_of_parts {rest : List Bytes} (parts : path.splitOn slash = root.splitOn slash ++ rest)
    (plain : [dot, dot] ∉ rest) : Confined isSlash root path := by
  refine ⟨rest.map moveOf, ?_, Move.stays_of_no_up ?_⟩
  · change (path.splitOn slash).map moveOf = (root.splitOn slash).map moveOf ++ rest.map moveOf
    rw [parts, List.map_append]
  · intro member
    obtain ⟨part, inRest, up⟩ := List.mem_map.mp member
    exact plain (moveOf_eq_up.mp up ▸ inRest)

/-! ### Roots -/

/-- The names on the way to the root: none for the top of the file system. -/
def Rooted (names : List FileName) (root : Bytes) : Prop :=
  root = if names = [] then [] else absolute names

theorem Rooted.parts (rooted : Rooted names root) :
    root.splitOn slash = [] :: names.map Subtype.val := by
  cases names with
  | nil => rw [rooted]; rfl
  | cons name rest => rw [rooted, if_neg (List.cons_ne_nil _ _), splitOn_absolute _ (List.cons_ne_nil _ _)]

theorem absolute_trimmed (nonempty : names ≠ []) : (absolute names).getLast? ≠ some slash := by
  intro ends
  obtain ⟨front, same⟩ := List.getLast?_eq_some_iff.mp ends
  -- After a last slash stands an empty part, but all parts are names.
  have parts := splitOn_absolute names nonempty
  rw [same, List.splitOn_append_cons_self, List.splitOn_nil] at parts
  have last := congrArg List.getLast? parts
  rw [List.getLast?_concat, List.getLast?_cons_of_ne_nil
    fun none => nonempty (List.map_eq_nil_iff.mp none)] at last
  obtain ⟨name, _, isEmpty⟩ := List.mem_map.mp (List.mem_of_getLast? last.symm)
  exact name.property.1 isEmpty

theorem trimSuffix_absolute (names : List FileName) :
    Rooted names (trimSuffix (absolute names) [slash]) := by
  by_cases empty : names = []
  · rw [empty]
    rfl
  · rw [Rooted, if_neg empty, trimSuffix, if_neg]
    rw [hasSuffix_slash]
    exact absolute_trimmed empty

theorem newStorage_rooted {getwd : Option Bytes}
    (workDir : ∀ wd, getwd = some wd → wd.head? = some slash) (made : newStorage getwd path = some root) :
    ∃ names, Rooted names root := by
  have cleaned : ∃ whole, whole.head? = some slash ∧ abs getwd path = some (clean whole) := by
    unfold newStorage at made
    unfold abs at made ⊢
    by_cases isAbs : path.head? = some slash
    · exact ⟨path, isAbs, if_pos isAbs⟩
    · rw [if_neg isAbs] at made ⊢
      cases wdFound : getwd with
      | none => rw [wdFound] at made; cases made
      | some wd =>
        have rooted := workDir wd wdFound
        have nonempty : wd ≠ [] := by
          rintro rfl
          cases rooted
        refine ⟨wd ++ slash :: path, ?_, ?_⟩
        · rw [List.head?_append_of_ne_nil _ nonempty, rooted]
        · rw [Option.map_some, join, if_neg nonempty]
  obtain ⟨whole, rooted, isAbs⟩ := cleaned
  obtain ⟨names, same, _⟩ := clean_rooted rooted
  rw [newStorage, isAbs, same] at made
  cases made
  exact ⟨names, trimSuffix_absolute names⟩

theorem confined_append (root : Bytes) {v : Bytes} (valid : isUrlValid v = true) :
    Confined isSlash root (root ++ v) := by
  obtain ⟨isRooted, plain⟩ := (isUrlValid_iff v).mp valid
  obtain ⟨rest, rfl⟩ := List.head?_eq_some_iff.mp isRooted
  refine @confined_of_parts root _ (rest.splitOn slash) (List.splitOn_append_cons_self ..) ?_
  intro member
  refine (plain _ ?_).2 rfl
  rw [List.splitOn_cons_eq_if_modifyHead, if_pos (beq_self_eq_true slash)]
  exact List.mem_cons_of_mem _ member

end Wsfs.Storage
