/-
Slash-separated paths as the standard library treats them, `path.Clean`, `path.Join` and
`strings.HasPrefix`, and the names that an operating system finds in them.
-/

import Wsfs.Util.Url

namespace Wsfs.Util

open Wsfs.Base

/-- `strings.HasPrefix` -/
def hasPrefix (v part : Bytes) : Bool := part.isPrefixOf v

def cleanStep (rooted : Bool) (kept : List Bytes) (element : Bytes) : List Bytes :=
  if element = [] ∨ element = [dot] then kept
  else if element = [dot, dot] then
    match kept with
    | [] => if rooted then [] else [element]
    | last :: before => if last = [dot, dot] then element :: kept else before
  else element :: kept

/-- `path.Clean` -/
def clean (path : Bytes) : Bytes :=
  let rooted := path.head? == some slash
  let kept := (path.splitOn slash).foldl (cleanStep rooted) []
  let joined := [slash].intercalate kept.reverse
  if rooted then slash :: joined else if joined = [] then [dot] else joined

/-- `path.Join` of two elements. -/
def join (first second : Bytes) : Bytes :=
  if first = [] then if second = [] then [] else clean second
  else clean (first ++ slash :: second)

/-- `path.Dir`, and `filepath.Dir` on Unix. -/
def dir (path : Bytes) : Bytes := clean (path.reverse.dropWhile (· != slash)).reverse

/-- `path.Base` -/
def base (path : Bytes) : Bytes :=
  if path = [] then [dot]
  else
    match path.reverse.dropWhile (· = slash) with
    | [] => [slash]
    | stripped => (stripped.takeWhile (· ≠ slash)).reverse

/-! ### Names -/

def IsName (bytes : Bytes) : Prop :=
  bytes ≠ [] ∧ slash ∉ bytes ∧ bytes ≠ [dot] ∧ bytes ≠ [dot, dot]

instance (bytes : Bytes) : Decidable (IsName bytes) := inferInstanceAs (Decidable (_ ∧ _))

abbrev FileName := { bytes : Bytes // IsName bytes }

def FileName.ofBytes? (bytes : Bytes) : Option FileName :=
  if name : IsName bytes then some ⟨bytes, name⟩ else none

/-- The way to a file, for paths without `..`. -/
def components (path : Bytes) : List FileName := (path.splitOn slash).filterMap FileName.ofBytes?

/-- An absolute path that never steps up. -/
structure Descending (path : Bytes) : Prop where
  rooted : path.head? = some slash
  plain : [dot, dot] ∉ path.splitOn slash

@[simp] theorem ofBytes?_name (name : FileName) : FileName.ofBytes? name.val = some name :=
  dif_pos name.property

theorem ofBytes?_nil : FileName.ofBytes? [] = none := dif_neg fun name => name.1 rfl

theorem ofBytes?_dot : FileName.ofBytes? [dot] = none := dif_neg fun name => name.2.2.1 rfl

private theorem cleanStep_skip {rooted : Bool} {kept : List Bytes} {part : Bytes}
    (nothing : part = [] ∨ part = [dot]) : cleanStep rooted kept part = kept :=
  if_pos nothing

private theorem cleanStep_keep {rooted : Bool} {kept : List Bytes} {part : Bytes}
    (name : IsName part) : cleanStep rooted kept part = part :: kept := by
  rw [cleanStep.eq_def, if_neg (not_or.mpr ⟨name.1, name.2.2.1⟩), if_neg name.2.2.2]

private theorem foldl_cleanStep (parts : List Bytes) (separate : ∀ part ∈ parts, slash ∉ part)
    (plain : [dot, dot] ∉ parts) (kept : List FileName) :
    parts.foldl (cleanStep true) (kept.map Subtype.val) =
      ((parts.filterMap FileName.ofBytes?).reverse ++ kept).map Subtype.val := by
  induction parts generalizing kept with
  | nil => rfl
  | cons part rest ih =>
    have later := ih (fun other member => separate other (List.mem_cons_of_mem _ member))
      fun member => plain (List.mem_cons_of_mem _ member)
    have notUp : part ≠ [dot, dot] := fun same => plain (same ▸ List.mem_cons_self)
    rw [List.foldl_cons]
    by_cases nothing : part = [] ∨ part = [dot]
    · have skipped : FileName.ofBytes? part = none := by
        rcases nothing with rfl | rfl
        · exact ofBytes?_nil
        · exact ofBytes?_dot
      rw [cleanStep_skip nothing, later, List.filterMap_cons_none skipped]
    · have name : IsName part := by
        rw [not_or] at nothing
        exact ⟨nothing.1, separate part List.mem_cons_self, nothing.2, notUp⟩
      have named : FileName.ofBytes? part = some ⟨part, name⟩ := dif_pos name
      rw [cleanStep_keep name, List.filterMap_cons_some named, List.reverse_cons,
        List.append_assoc]
      exact later (⟨part, name⟩ :: kept)

theorem slash_not_mem_part (path : Bytes) : ∀ part ∈ path.splitOn slash, slash ∉ part := by
  induction path with
  | nil =>
    intro part member
    cases List.mem_singleton.mp member
    exact List.not_mem_nil
  | cons byte rest ih =>
    rw [List.splitOn_cons_eq_if_modifyHead]
    by_cases separator : byte = slash
    · rw [if_pos (beq_iff_eq.mpr separator)]
      intro part member
      rcases List.mem_cons.mp member with rfl | later
      · exact List.not_mem_nil
      · exact ih part later
    · rw [if_neg fun same => separator (beq_iff_eq.mp same)]
      obtain ⟨first, others, parts⟩ := List.exists_cons_of_ne_nil (List.splitOn_ne_nil slash rest)
      rw [parts] at ih ⊢
      intro part member
      rcases List.mem_cons.mp member with rfl | later
      · intro inside
        rcases List.mem_cons.mp inside with same | deeper
        · exact separator same.symm
        · exact ih first List.mem_cons_self deeper
      · exact ih part (List.mem_cons_of_mem _ later)

def absolute (names : List FileName) : Bytes := slash :: [slash].intercalate (names.map Subtype.val)

theorem splitOn_absolute (names : List FileName) (nonempty : names ≠ []) :
    (absolute names).splitOn slash = [] :: names.map Subtype.val := by
  have separate : ∀ part ∈ names.map Subtype.val, slash ∉ part := by
    intro part member
    obtain ⟨name, _, rfl⟩ := List.mem_map.mp member
    exact name.property.2.1
  rw [absolute, List.splitOn_cons_eq_if_modifyHead, if_pos (beq_self_eq_true slash),
    List.splitOn_intercalate slash separate fun none => nonempty (List.map_eq_nil_iff.mp none)]

theorem components_absolute (names : List FileName) : components (absolute names) = names := by
  cases names with
  | nil => rfl
  | cons name rest =>
    rw [components, splitOn_absolute _ (List.cons_ne_nil _ _),
      List.filterMap_cons_none ofBytes?_nil, List.filterMap_map]
    exact (List.filterMap_congr fun name _ => ofBytes?_name name).trans List.filterMap_some

theorem descending_absolute (names : List FileName) : Descending (absolute names) := by
  refine ⟨rfl, ?_⟩
  cases names with
  | nil => decide
  | cons name rest =>
    rw [splitOn_absolute _ (List.cons_ne_nil _ _)]
    intro member
    rcases List.mem_cons.mp member with impossible | inside
    · cases impossible
    · obtain ⟨other, _, same⟩ := List.mem_map.mp inside
      exact other.property.2.2.2 same

theorem clean_eq_absolute {path : Bytes} (descending : Descending path) :
    clean path = absolute (components path) := by
  have kept := foldl_cleanStep (path.splitOn slash) (slash_not_mem_part path) descending.plain []
  rw [List.append_nil, List.map_reverse] at kept
  have rooted : (path.head? == some slash) = true := by rw [descending.rooted, beq_self_eq_true]
  simp only [clean, rooted, if_true]
  rw [show (path.splitOn slash).foldl (cleanStep true) [] = _ from kept, List.reverse_reverse]
  rfl

/-! ### Lengths -/

def weight (parts : List Bytes) : Nat := (parts.map fun part => part.length + 1).sum

theorem weight_append (parts parts' : List Bytes) :
    weight (parts ++ parts') = weight parts + weight parts' := by
  rw [weight, List.map_append, List.sum_append]
  rfl

theorem length_intercalate (part : Bytes) (parts : List Bytes) :
    ([slash].intercalate (part :: parts)).length + 1 = weight (part :: parts) := by
  induction parts generalizing part with
  | nil => rw [List.intercalate_singleton, weight, List.map_singleton, List.sum_singleton]
  | cons next rest ih =>
    have later := ih next
    rw [List.intercalate_cons_cons, List.length_append, List.length_append]
    simp only [weight, List.map_cons, List.sum_cons, List.length_singleton] at later ⊢
    omega

theorem length_absolute {names : List FileName} (nonempty : names ≠ []) :
    (absolute names).length = weight (names.map Subtype.val) := by
  cases names with
  | nil => exact absurd rfl nonempty
  | cons name rest => exact length_intercalate name.val (rest.map Subtype.val)

theorem length_absolute_le (names : List FileName) :
    (absolute names).length ≤ weight (names.map Subtype.val) + 1 := by
  by_cases empty : names = []
  · rw [empty]
    decide
  · rw [length_absolute empty]
    exact Nat.le_succ _

theorem weight_splitOn (path : Bytes) : weight (path.splitOn slash) = path.length + 1 := by
  induction path with
  | nil => rfl
  | cons byte rest ih =>
    rw [List.splitOn_cons_eq_if_modifyHead]
    by_cases separator : byte = slash
    · rw [if_pos (beq_iff_eq.mpr separator), ← List.singleton_append, weight_append, ih]
      simp only [weight, List.map_cons, List.map_nil, List.sum_cons, List.sum_nil,
        List.length_nil, List.length_cons]
      omega
    · rw [if_neg fun same => separator (beq_iff_eq.mp same)]
      obtain ⟨first, others, parts⟩ := List.exists_cons_of_ne_nil (List.splitOn_ne_nil slash rest)
      rw [parts] at ih ⊢
      simp only [weight, List.modifyHead_cons, List.map_cons, List.sum_cons,
        List.length_cons] at ih ⊢
      omega

/-! ### Paths with steps up -/

private theorem cleanStep_up {kept : List FileName} :
    ∃ below : List FileName, cleanStep true (kept.map Subtype.val) [dot, dot] = below.map Subtype.val ∧
      weight (below.map Subtype.val) ≤ weight (kept.map Subtype.val) := by
  cases kept with
  | nil => exact ⟨[], rfl, Nat.le_refl _⟩
  | cons last before =>
    refine ⟨before, ?_, ?_⟩
    · rw [List.map_cons, cleanStep.eq_def, if_neg (by decide), if_pos rfl]
      exact if_neg last.property.2.2.2
    · rw [List.map_cons, ← List.singleton_append, weight_append]
      exact Nat.le_add_left _ _

private theorem foldl_cleanStep_names (parts : List Bytes) (separate : ∀ part ∈ parts, slash ∉ part)
    (kept : List FileName) :
    ∃ last : List FileName,
      parts.foldl (cleanStep true) (kept.map Subtype.val) = last.map Subtype.val ∧
        weight (last.map Subtype.val) ≤ weight (kept.map Subtype.val) + weight parts := by
  induction parts generalizing kept with
  | nil => exact ⟨kept, rfl, Nat.le_refl _⟩
  | cons part rest ih =>
    have later := ih fun other member => separate other (List.mem_cons_of_mem _ member)
    have added : weight (part :: rest) = part.length + 1 + weight rest := rfl
    rw [List.foldl_cons]
    by_cases nothing : part = [] ∨ part = [dot]
    · obtain ⟨last, same, bound⟩ := later kept
      rw [cleanStep_skip nothing]
      exact ⟨last, same, by omega⟩
    · by_cases up : part = [dot, dot]
      · obtain ⟨below, steppedUp, lighter⟩ := @cleanStep_up kept
        obtain ⟨last, same, bound⟩ := later below
        rw [up, steppedUp]
        exact ⟨last, same, by rw [up] at added; omega⟩
      · rw [not_or] at nothing
        have name : IsName part := ⟨nothing.1, separate part List.mem_cons_self, nothing.2, up⟩
        obtain ⟨last, same, bound⟩ := later (⟨part, name⟩ :: kept)
        have heavier : weight ((⟨part, name⟩ :: kept : List FileName).map Subtype.val) =
            part.length + 1 + weight (kept.map Subtype.val) := rfl
        rw [cleanStep_keep name]
        exact ⟨last, same, by omega⟩

private theorem weight_reverse (parts : List Bytes) : weight parts.reverse = weight parts := by
  rw [weight, List.map_reverse, List.sum_reverse]
  rfl

theorem clean_rooted {path : Bytes} (rooted : path.head? = some slash) :
    ∃ names, clean path = absolute names ∧ weight (names.map Subtype.val) ≤ path.length + 1 := by
  obtain ⟨last, kept, bound⟩ := foldl_cleanStep_names (path.splitOn slash) (slash_not_mem_part path) []
  have isRooted : (path.head? == some slash) = true := by rw [rooted, beq_self_eq_true]
  refine ⟨last.reverse, ?_, ?_⟩
  · simp only [clean, isRooted, if_true]
    rw [show (path.splitOn slash).foldl (cleanStep true) [] = _ from kept, absolute, List.map_reverse]
  · rw [weight_splitOn] at bound
    rw [List.map_reverse, weight_reverse]
    exact Nat.le_trans bound (Nat.le_of_eq (Nat.zero_add _))

theorem clean_absolute (names : List FileName) : clean (absolute names) = absolute names := by
  rw [clean_eq_absolute (descending_absolute names), components_absolute]

theorem join_eq_absolute {path : Bytes} (descending : Descending path) (name : FileName) :
    join path name.val = absolute (components path ++ [name]) := by
  have nonempty : path ≠ [] := by
    rintro rfl
    cases descending.rooted
  have parts : (path ++ slash :: name.val).splitOn slash = path.splitOn slash ++ [name.val] := by
    rw [List.splitOn_append_cons_self, List.splitOn_eq_singleton name.property.2.1]
  have longer : Descending (path ++ slash :: name.val) := by
    refine ⟨?_, ?_⟩
    · rw [List.head?_append_of_ne_nil _ nonempty, descending.rooted]
    · rw [parts, List.mem_append, List.mem_singleton]
      rintro (inside | last)
      · exact descending.plain inside
      · exact name.property.2.2.2 last.symm
  rw [join, if_neg nonempty, clean_eq_absolute longer, components, parts, List.filterMap_append,
    List.filterMap_cons_some (ofBytes?_name name)]
  rfl

theorem components_concat_slash (path : Bytes) : components (path ++ [slash]) = components path := by
  rw [components, List.splitOn_append_cons_self, List.filterMap_append, List.splitOn_nil,
    List.filterMap_cons_none ofBytes?_nil, List.filterMap_nil, List.append_nil, components]

theorem Descending.of_concat_slash {path : Bytes} (descending : Descending (path ++ [slash]))
    (nonempty : path ≠ []) : Descending path := by
  have rooted := descending.rooted
  have plain := descending.plain
  rw [List.head?_append_of_ne_nil _ nonempty] at rooted
  rw [List.splitOn_append_cons_self, List.mem_append, not_or] at plain
  exact ⟨rooted, plain.1⟩

theorem hasSuffix_slash (v : Bytes) : hasSuffix v [slash] = true ↔ v.getLast? = some slash := by
  rw [hasSuffix, List.isSuffixOf_iff_suffix]
  constructor
  · rintro ⟨front, rfl⟩
    exact List.getLast?_append_of_ne_nil _ (by simp)
  · intro last
    obtain ⟨front, rfl⟩ := List.getLast?_eq_some_iff.mp last
    exact List.suffix_append _ _

private theorem part_infix (before : List Bytes) (part : Bytes) (after : List Bytes) :
    slash :: part <:+ slash :: [slash].intercalate (before ++ part :: after) ∨
      slash :: part ++ [slash] <:+: slash :: [slash].intercalate (before ++ part :: after) := by
  induction before with
  | nil =>
    cases after with
    | nil =>
      rw [List.nil_append, List.intercalate_singleton]
      exact .inl List.suffix_rfl
    | cons next rest =>
      rw [List.nil_append, List.intercalate_cons_cons]
      exact .inr ⟨[], [slash].intercalate (next :: rest), rfl⟩
  | cons first rest ih =>
    have later : slash :: [slash].intercalate (rest ++ part :: after) <:+
        slash :: [slash].intercalate (first :: rest ++ part :: after) := by
      rw [List.cons_append, List.intercalate_cons_of_ne_nil (by simp)]
      exact ⟨slash :: first, by simp⟩
    exact ih.imp (·.trans later) (·.trans later.isInfix)

/-- A name is a part of an absolute path if it stands in it with its slashes. -/
theorem mem_parts_iff {rest part : Bytes} (nonempty : part ≠ []) (separate : slash ∉ part) :
    part ∈ (slash :: rest).splitOn slash ↔
      slash :: part <:+ slash :: rest ∨ slash :: part ++ [slash] <:+: slash :: rest := by
  constructor
  · intro member
    rw [List.splitOn_cons_eq_if_modifyHead, if_pos (beq_self_eq_true slash)] at member
    have inRest : part ∈ rest.splitOn slash := (List.mem_cons.mp member).resolve_left nonempty
    obtain ⟨before, after, parts⟩ := List.append_of_mem inRest
    have placed := part_infix before part after
    rwa [← parts, List.intercalate_splitOn] at placed
  · rintro (⟨before, same⟩ | ⟨before, after, same⟩)
    · rw [← same, List.splitOn_append_cons_self, List.splitOn_eq_singleton separate]
      exact List.mem_append_right _ List.mem_cons_self
    · rw [← same, List.cons_append, List.append_assoc, List.cons_append, List.append_assoc,
        List.splitOn_append_cons_self, List.singleton_append, List.splitOn_append_cons_self,
        List.splitOn_eq_singleton separate]
      exact List.mem_append_right _ (List.mem_append_left _ List.mem_cons_self)

theorem isUrlValid_rooted {v : Bytes} (valid : isUrlValid v = true) : v.head? = some slash := by
  simp only [isUrlValid, Bool.not_eq_true', Bool.or_eq_false_iff, bne_eq_false_iff_eq] at valid
  exact valid.1.1.1.1.2

/-- The tests of `IsUrlValid` find every dot component, wherever it stands. -/
theorem isUrlValid_iff (v : Bytes) :
    isUrlValid v = true ↔
      v.head? = some slash ∧ ∀ part ∈ v.splitOn slash, part ≠ [dot] ∧ part ≠ [dot, dot] := by
  by_cases rooted : v.head? = some slash
  · obtain ⟨rest, rfl⟩ := List.head?_eq_some_iff.mp rooted
    have noDot := @mem_parts_iff rest [dot] (by decide) (by decide)
    have noUp := @mem_parts_iff rest [dot, dot] (by decide) (by decide)
    have apart : (∀ part ∈ (slash :: rest).splitOn slash, part ≠ [dot] ∧ part ≠ [dot, dot]) ↔
        [dot] ∉ (slash :: rest).splitOn slash ∧ [dot, dot] ∉ (slash :: rest).splitOn slash := by
      constructor
      · intro all
        exact ⟨fun member => (all _ member).1 rfl, fun member => (all _ member).2 rfl⟩
      · rintro ⟨dotAbsent, upAbsent⟩ part member
        exact ⟨fun same => dotAbsent (same ▸ member), fun same => upAbsent (same ▸ member)⟩
    rw [apart, noDot, noUp, not_or, not_or]
    have suffix_iff : ∀ part, hasSuffix (slash :: rest) part = false ↔ ¬part <:+ slash :: rest := by
      intro part
      rw [← Bool.not_eq_true, hasSuffix, List.isSuffixOf_iff_suffix]
    have tests : isUrlValid (slash :: rest) = true ↔
        ((contains (slash :: rest) [slash, dot, dot, slash] = false ∧
          hasSuffix (slash :: rest) [slash, dot, dot] = false) ∧
          contains (slash :: rest) [slash, dot, slash] = false) ∧
          hasSuffix (slash :: rest) [slash, dot] = false := by
      simp [isUrlValid]
    rw [tests, suffix_iff, suffix_iff, contains, contains, decide_eq_false_iff_not,
      decide_eq_false_iff_not]
    simp only [List.cons_append, List.nil_append]
    constructor
    · rintro ⟨⟨⟨noInnerUp, noLastUp⟩, noInnerDot⟩, noLastDot⟩
      exact ⟨rfl, ⟨noLastDot, noInnerDot⟩, noLastUp, noInnerUp⟩
    · rintro ⟨_, ⟨noLastDot, noInnerDot⟩, noLastUp, noInnerUp⟩
      exact ⟨⟨⟨noInnerUp, noLastUp⟩, noInnerDot⟩, noLastDot⟩
  · constructor
    · intro valid
      exact absurd (isUrlValid_rooted valid) rooted
    · rintro ⟨isRooted, _⟩
      exact absurd isRooted rooted

theorem isUrlValid_descending {v : Bytes} (valid : isUrlValid v = true) : Descending v := by
  obtain ⟨rooted, plain⟩ := (isUrlValid_iff v).mp valid
  exact ⟨rooted, fun member => (plain _ member).2 rfl⟩

theorem descending_append {root v : Bytes} (descending : root = [] ∨ Descending root)
    (valid : isUrlValid v = true) : Descending (root ++ v) := by
  have url := isUrlValid_descending valid
  rcases descending with rfl | storage
  · exact url
  · obtain ⟨rest, rfl⟩ := List.head?_eq_some_iff.mp url.rooted
    have nonempty : root ≠ [] := by
      rintro rfl
      cases storage.rooted
    refine ⟨by rw [List.head?_append_of_ne_nil _ nonempty, storage.rooted], ?_⟩
    rw [List.splitOn_append_cons_self, List.mem_append]
    rintro (inRoot | inUrl)
    · exact storage.plain inRoot
    · refine url.plain ?_
      rw [List.splitOn_cons_eq_if_modifyHead, if_pos (beq_self_eq_true slash)]
      exact List.mem_cons_of_mem _ inUrl

end Wsfs.Util
