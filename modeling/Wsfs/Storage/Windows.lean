/-
The test of paths in Windows builds, and what it misses there. It splits a path at
slashes, while Windows splits it at backslashes too: a part with backslashes in it can
step up, or name a device, unseen.
-/

import Wsfs.Storage.Root

namespace Wsfs.Storage.Windows

open Wsfs.Base Wsfs.Util

def backslash : UInt8 := 0x5c
def colon : UInt8 := 0x3a

def isSeparator (byte : UInt8) : Bool := byte == slash || byte == backslash

/-! ### Runes -/

def runeError : Nat := 0xfffd

def isTail (byte : UInt8) : Bool := 0x80 ≤ byte && byte ≤ 0xbf

def tailBits (byte : UInt8) : Nat := byte.toNat % 64

/-- `utf8.DecodeRune`, with the bytes after the rune. A byte that begins no rune counts as
one, `runeError`. -/
def decodeRune (first : UInt8) (rest : Bytes) : Nat × Bytes :=
  if first < 0x80 then (first.toNat, rest)
  else if 0xc2 ≤ first ∧ first ≤ 0xdf then
    match rest with
    | b1 :: after =>
        if isTail b1 then (first.toNat % 32 * 64 + tailBits b1, after) else (runeError, rest)
    | [] => (runeError, rest)
  else if 0xe0 ≤ first ∧ first ≤ 0xef then
    match rest with
    | b1 :: b2 :: after =>
        -- Neither overlong forms nor surrogates.
        if isTail b1 && isTail b2 && (first != 0xe0 || 0xa0 ≤ b1) && (first != 0xed || b1 ≤ 0x9f) then
          ((first.toNat % 16 * 64 + tailBits b1) * 64 + tailBits b2, after)
        else (runeError, rest)
    | _ => (runeError, rest)
  else if 0xf0 ≤ first ∧ first ≤ 0xf4 then
    match rest with
    | b1 :: b2 :: b3 :: after =>
        if isTail b1 && isTail b2 && isTail b3 && (first != 0xf0 || 0x90 ≤ b1) &&
            (first != 0xf4 || b1 ≤ 0x8f) then
          (((first.toNat % 8 * 64 + tailBits b1) * 64 + tailBits b2) * 64 + tailBits b3, after)
        else (runeError, rest)
    | _ => (runeError, rest)
  else (runeError, rest)

def decode : Nat → Bytes → List Nat
  | _, [] => []
  | 0, _ :: _ => []
  | fuel + 1, first :: rest =>
      let (rune, after) := decodeRune first rest
      rune :: decode fuel after

def runes (s : Bytes) : List Nat := decode s.length s

/-- `unicode.IsSpace` -/
def isSpace (rune : Nat) : Bool :=
  (0x09 ≤ rune && rune ≤ 0x0d) || rune == 0x20 || rune == 0x85 || rune == 0xa0 || rune == 0x1680 ||
    (0x2000 ≤ rune && rune ≤ 0x200a) || rune == 0x2028 || rune == 0x2029 || rune == 0x202f ||
    rune == 0x205f || rune == 0x3000

/-- `strings.TrimSpace` -/
def trimSpace (s : List Nat) : List Nat :=
  ((s.dropWhile isSpace).reverse.dropWhile isSpace).reverse

/-- One rune for all that are equal up to case, as far as the device names need it: of
the runes beyond ASCII only the Kelvin sign and the long s fold to letters of ASCII. -/
def foldRune (rune : Nat) : Nat :=
  if 0x61 ≤ rune ∧ rune ≤ 0x7a then rune - 0x20
  else if rune = 0x212a then 0x4b
  else if rune = 0x17f then 0x53
  else rune

/-- `strings.EqualFold` -/
def equalFold (s t : List Nat) : Bool := s.map foldRune == t.map foldRune

/-! ### isUrlValid_os -/

def specialDosDeviceNames : List (List Char) :=
  [['A', 'U', 'X'], ['C', 'O', 'N'], ['C', 'O', 'N', 'I', 'N', '$'], ['C', 'O', 'N', 'O', 'U', 'T', '$'],
    ['C', 'L', 'O', 'C', 'K', '$'], ['C', 'O', 'N', 'F', 'I', 'G', '$'],
    ['C', 'O', 'M', '1'], ['C', 'O', 'M', '2'], ['C', 'O', 'M', '3'], ['C', 'O', 'M', '4'],
    ['C', 'O', 'M', '5'], ['C', 'O', 'M', '6'], ['C', 'O', 'M', '7'], ['C', 'O', 'M', '8'],
    ['C', 'O', 'M', '9'], ['C', 'O', 'M', '²'], ['C', 'O', 'M', '³'], ['C', 'O', 'M', '¹'],
    ['L', 'P', 'T', '1'], ['L', 'P', 'T', '2'], ['L', 'P', 'T', '3'], ['L', 'P', 'T', '4'],
    ['L', 'P', 'T', '5'], ['L', 'P', 'T', '6'], ['L', 'P', 'T', '7'], ['L', 'P', 'T', '8'],
    ['L', 'P', 'T', '9'], ['L', 'P', 'T', '²'], ['L', 'P', 'T', '³'], ['L', 'P', 'T', '¹'],
    ['N', 'U', 'L'], ['P', 'R', 'N']]

/-- The component up to its first dot, trimmed, is one of the names. -/
def isDeviceName (part : Bytes) : Bool :=
  let baseName := trimSpace (runes (part.takeWhile (· != dot)))
  specialDosDeviceNames.any fun nm => equalFold baseName (nm.map Char.toNat)

def isUrlValidOs (v : Bytes) : Bool :=
  if v[1]? = some slash then false
  else if contains v [colon] then false
  else (v.splitOn slash).all fun part => !isDeviceName part

/-- `IsUrlValid` of Windows builds: what all builds test, and `isUrlValid_os`. -/
def isUrlValid (v : Bytes) : Bool := Util.isUrlValid v && isUrlValidOs v

/-! ### Storage roots -/

/-- What `filepath.Abs` makes of a storage path, after the volume: the volume, a drive or
a share, is no component. The names carry no separator, and none is a dot component. -/
structure Root where
  names : List Bytes
  proper : ∀ name ∈ names, name ≠ [] ∧ name ≠ [dot] ∧ name ≠ [dot, dot] ∧
    slash ∉ name ∧ backslash ∉ name

/-- The path on the volume; `strings.TrimSuffix(path, "/")` leaves it alone. -/
def Root.path (root : Root) : Bytes := backslash :: List.intercalate [backslash] root.names

/-- Not more steps up than names to step down to. -/
def Balanced (components : List Bytes) : Prop :=
  components.count [dot, dot] ≤ components.countP fun name => name ∉ [[], [dot], [dot, dot]]

/-- The names of a part with backslashes, after the parts before it, nowhere step up above
the place where the path began. -/
def Contained (before : List Bytes) (part : Bytes) : Prop :=
  ∀ n, Balanced (before.flatMap (List.splitOn backslash) ++ (part.splitOn backslash).take n)

instance (components : List Bytes) : Decidable (Balanced components) :=
  inferInstanceAs (Decidable (_ ≤ _))

instance (before : List Bytes) (part : Bytes) : Decidable (Contained before part) :=
  decidable_of_iff (∀ n < (part.splitOn backslash).length + 1,
      Balanced (before.flatMap (List.splitOn backslash) ++ (part.splitOn backslash).take n)) <| by
    constructor
    · intro short n
      by_cases within : n < (part.splitOn backslash).length + 1
      · exact short n within
      · -- Beyond the last name nothing is added.
        have all := short _ (Nat.lt_succ_self _)
        rw [List.take_length] at all
        rw [List.take_of_length_le (by omega)]
        exact all
    · intro contained n _
      exact contained n

/-! ### Components -/

/-- Splitting at two kinds of separators is splitting at one kind after the other. -/
theorem splitOnP_or {α : Type} (p q : α → Bool) (l : List α) :
    l.splitOnP (fun x => p x || q x) = (l.splitOnP p).flatMap (List.splitOnP q) := by
  induction l with
  | nil => simp
  | cons x rest ih =>
    obtain ⟨first, others, parts⟩ := List.exists_cons_of_ne_nil (List.splitOnP_ne_nil p rest)
    rw [parts, List.flatMap_cons] at ih
    by_cases outer : p x = true
    · simp [List.splitOnP_cons_eq_if_modifyHead, outer, ih, parts]
    · by_cases inner : q x = true
      · simp [List.splitOnP_cons_eq_if_modifyHead, outer, inner, ih, parts]
      · -- The element joins the first component of the first part.
        obtain ⟨head, tail, inFirst⟩ := List.exists_cons_of_ne_nil (List.splitOnP_ne_nil q first)
        simp [List.splitOnP_cons_eq_if_modifyHead, outer, inner, ih, parts, inFirst]

theorem splitOnP_isSeparator (v : Bytes) :
    v.splitOnP isSeparator = (v.splitOn slash).flatMap (List.splitOn backslash) :=
  splitOnP_or _ _ v

variable {v : Bytes}

/-- A component of an accepted path can name a device only inside a part with
backslashes. -/
theorem components_checked_iff (checked : isUrlValidOs v = true) :
    (∀ part ∈ v.splitOnP isSeparator, isDeviceName part = false) ↔
      ∀ part ∈ v.splitOn slash, backslash ∈ part →
        ∀ name ∈ part.splitOn backslash, isDeviceName name = false := by
  have partsChecked : ∀ part ∈ v.splitOn slash, isDeviceName part = false := by
    intro part member
    unfold isUrlValidOs at checked
    split at checked
    · cases checked
    split at checked
    · cases checked
    · have notDevice := List.all_eq_true.mp checked part member
      simpa using notDevice
  rw [splitOnP_isSeparator]
  constructor
  · intro all part member _ name inPart
    exact all name (List.mem_flatMap.mpr ⟨part, member, inPart⟩)
  · intro inside name member
    obtain ⟨part, inPath, inPart⟩ := List.mem_flatMap.mp member
    by_cases hasBackslash : backslash ∈ part
    · exact inside part inPath hasBackslash name inPart
    · rw [List.splitOn_eq_singleton hasBackslash, List.mem_singleton] at inPart
      rw [inPart]
      exact partsChecked part inPath

/-! ### Roots -/

theorem foldl_walk_names (names : List Bytes)
    (proper : ∀ name ∈ names, name ≠ [] ∧ name ≠ [dot] ∧ name ≠ [dot, dot]) (base : List Bytes) :
    (names.map moveOf).foldl Move.walk base = base ++ names := by
  induction names generalizing base with
  | nil => simp
  | cons name rest ih =>
    obtain ⟨nonempty, notDot, notUp⟩ := proper name List.mem_cons_self
    have down : moveOf name = .down name := by simp [moveOf, nonempty, notDot, notUp]
    rw [List.map_cons, List.foldl_cons, down, ih fun other member =>
      proper other (List.mem_cons_of_mem _ member)]
    simp [Move.walk]

theorem Root.parts (root : Root) :
    root.path.splitOnP isSeparator = [] :: if root.names = [] then [[]] else root.names := by
  have first := List.splitOnP_append_cons [] (List.intercalate [backslash] root.names)
    (show isSeparator backslash = true from rfl)
  rw [Root.path, ← List.nil_append (backslash :: _), first, List.splitOnP_nil, List.singleton_append]
  congr 1
  split
  · rename_i none
    rw [none]
    rfl
  · rename_i nonempty
    have swapped : isSeparator = fun byte => byte == backslash || byte == slash :=
      funext fun byte => Bool.or_comm _ _
    rw [swapped, splitOnP_or]
    change (List.splitOn backslash _).flatMap (List.splitOn slash) = _
    rw [List.splitOn_intercalate backslash (fun name member => (root.proper name member).2.2.2.2)
      nonempty]
    rw [List.flatMap_congr fun name member =>
      List.splitOn_eq_singleton (root.proper name member).2.2.2.1]
    simp

theorem Root.place (root : Root) : place isSeparator root.path = root.names := by
  rw [Storage.place, moves, root.parts, List.map_cons, List.foldl_cons]
  split
  · rename_i none
    rw [none]
    rfl
  · exact foldl_walk_names root.names
      (fun name member => ⟨(root.proper name member).1, (root.proper name member).2.1,
        (root.proper name member).2.2.1⟩) []

theorem balanced_iff (components : List Bytes) :
    (components.map moveOf).countP Move.isUp ≤ (components.map moveOf).countP Move.isDown ↔
      Balanced components := by
  have up : ∀ name, (moveOf name).isUp = (name == [dot, dot]) := by
    intro name
    unfold moveOf
    split <;> [skip; split] <;> simp_all [Move.isUp]
    rename_i still
    rcases still with rfl | rfl <;> decide
  have down : ∀ name, (moveOf name).isDown = decide (name ∉ [[], [dot], [dot, dot]]) := by
    intro name
    unfold moveOf
    split <;> [skip; split] <;> simp_all [Move.isDown]
    rename_i still
    rcases still with rfl | rfl <;> decide
  rw [List.countP_map, List.countP_map, Balanced, List.count]
  simp only [Function.comp_def, up, down]

theorem Root.confined_iff (root : Root) (rooted : v.head? = some slash) :
    Confined isSeparator root.path (root.path ++ v) ↔
      root.names = [] ∨ ∀ n, Balanced ((v.splitOnP isSeparator).take n) := by
  obtain ⟨tail, rfl⟩ := List.head?_eq_some_iff.mp rooted
  have joined : moves isSeparator (root.path ++ slash :: tail) =
      moves isSeparator root.path ++ moves isSeparator tail := by
    rw [moves, List.splitOnP_append_cons _ _ (by rfl), List.map_append]
    rfl
  have first : (slash :: tail).splitOnP isSeparator = [] :: tail.splitOnP isSeparator := by
    rw [List.splitOnP_cons_eq_if_modifyHead, if_pos (by rfl)]
  have stays : Move.Stays root.names (moves isSeparator tail) ↔
      root.names = [] ∨ ∀ n, Balanced ((tail.splitOnP isSeparator).take n) := by
    simp only [Move.stays_iff, moves, ← List.map_take, balanced_iff]
  have shifted : (∀ n, Balanced (([] :: tail.splitOnP isSeparator).take n)) ↔
      ∀ n, Balanced ((tail.splitOnP isSeparator).take n) := by
    refine Nat.and_forall_add_one.symm.trans ?_
    simp [Balanced]
  rw [Confined, joined, root.place, first, shifted, ← stays]
  constructor
  · intro ⟨rest, same, inside⟩
    rw [List.append_cancel_left same]
    exact inside
  · intro inside
    exact ⟨_, rfl, inside⟩

/-! ### Parts with backslashes -/

/-- A part without backslashes is one component, and of an accepted path no step up. So the
path can turn only inside the others. -/
theorem balanced_parts (parts done : List Bytes)
    (accepted : ∀ part ∈ parts, part ≠ [dot, dot]) (balanced : Balanced done)
    (contained : ∀ before part after, parts = before ++ part :: after → backslash ∈ part →
      ∀ n, Balanced (done ++ before.flatMap (List.splitOn backslash) ++ (part.splitOn backslash).take n))
    (n : Nat) : Balanced (done ++ (parts.flatMap (List.splitOn backslash)).take n) := by
  induction parts generalizing done n with
  | nil => simpa using balanced
  | cons part rest ih =>
    have inPart : ∀ n, Balanced (done ++ (part.splitOn backslash).take n) := by
      intro n
      by_cases split : backslash ∈ part
      · simpa using contained [] part rest rfl split n
      · rw [List.splitOn_eq_singleton split]
        have noUp := accepted part List.mem_cons_self
        cases n with
        | zero => simpa using balanced
        | succ n =>
          simp only [Balanced, List.take_succ_cons, List.take_nil, List.count_append, List.countP_append,
            List.count_singleton, beq_eq_false_iff_ne.mpr noUp]
          exact Nat.le_trans balanced (Nat.le_add_right _ _)
    rw [List.flatMap_cons, List.take_append, ← List.append_assoc]
    by_cases ends : n ≤ (part.splitOn backslash).length
    · rw [Nat.sub_eq_zero_of_le ends, List.take_zero, List.append_nil]
      exact inPart n
    · rw [List.take_of_length_le (Nat.le_of_not_le ends)]
      refine ih _ (fun other member => accepted other (List.mem_cons_of_mem _ member)) ?_ ?_ _
      · simpa using inPart (part.splitOn backslash).length
      · intro before other after same split n
        have later := contained (part :: before) other after (by rw [same]; rfl) split n
        simpa [List.append_assoc] using later

theorem balanced_parts_iff (accepted : ∀ part ∈ v.splitOn slash, part ≠ [dot, dot]) :
    (∀ n, Balanced ((v.splitOnP isSeparator).take n)) ↔
      ∀ before part after, v.splitOn slash = before ++ part :: after → backslash ∈ part →
        Contained before part := by
  rw [splitOnP_isSeparator]
  constructor
  · intro balanced before part after parts _ n
    have first : before.flatMap (List.splitOn backslash) ++ (part.splitOn backslash).take n <+:
        (v.splitOn slash).flatMap (List.splitOn backslash) := by
      rw [parts, List.flatMap_append, List.flatMap_cons]
      exact (List.prefix_append_right_inj _).mpr ((List.take_prefix _ _).trans (List.prefix_append _ _))
    rw [List.prefix_iff_eq_take.mp first]
    exact balanced _
  · intro contained n
    exact balanced_parts _ [] accepted (Nat.le_refl _) contained n

/-! ### What the check gives -/

def Safe (root : Root) (v : Bytes) : Prop :=
  Confined isSeparator root.path (root.path ++ v) ∧
    ∀ part ∈ v.splitOnP isSeparator, isDeviceName part = false

theorem accepted_safe_iff (root : Root) (v : Bytes) (accepted : isUrlValid v = true) :
    (Safe root v ↔
      (root.names = [] ∨ ∀ before part after, v.splitOn slash = before ++ part :: after →
        backslash ∈ part → Contained before part) ∧
      ∀ part ∈ v.splitOn slash, backslash ∈ part →
        ∀ name ∈ part.splitOn backslash, isDeviceName name = false) ∧
    (backslash ∉ v → Safe root v) := by
  obtain ⟨shared, checked⟩ := Bool.and_eq_true_iff.mp accepted
  have noUp : ∀ part ∈ v.splitOn slash, part ≠ [dot, dot] := fun part member =>
    (((isUrlValid_iff v).mp shared).2 part member).2
  have safe_iff := Iff.and ((root.confined_iff (isUrlValid_rooted shared)).trans
    (or_congr_right (balanced_parts_iff noUp))) (components_checked_iff checked)
  refine ⟨safe_iff, fun plain => ?_⟩
  have noSplit : ∀ part ∈ v.splitOn slash, backslash ∉ part := by
    intro part member split
    obtain ⟨tail, rfl⟩ := List.head?_eq_some_iff.mp (isUrlValid_rooted shared)
    rcases (mem_parts_iff (List.ne_nil_of_mem split) (slash_not_mem_part _ part member)).mp member with
      last | inner
    · exact plain (last.subset (List.mem_cons_of_mem _ split))
    · exact plain (inner.subset (List.mem_append_left _ (List.mem_cons_of_mem _ split)))
  refine safe_iff.mpr ⟨.inr fun before part after parts split => ?_, fun part member split => ?_⟩
  · exact absurd split (noSplit part (by rw [parts]; exact List.mem_append_right _ List.mem_cons_self))
  · exact absurd split (noSplit part member)

def sampleRoot : Root := ⟨[[0x73]], by decide⟩

/-- "/a/b\..\..\c" steps up to the storage itself and no further. -/
theorem accepted_safe_iff_turning :
    let v : Bytes := [slash, 0x61, slash, 0x62, backslash, dot, dot, backslash, dot, dot, backslash, 0x63]
    isUrlValid v = true ∧ Safe sampleRoot v := by
  intro v
  have accepted : isUrlValid v = true := by decide +kernel
  refine ⟨accepted, (accepted_safe_iff sampleRoot v accepted).1.mpr ⟨.inr ?_, ?_⟩⟩
  · intro before part after parts split
    have each : ∀ k < (v.splitOn slash).length, backslash ∈ (v.splitOn slash)[k]?.getD [] →
        Contained ((v.splitOn slash).take k) ((v.splitOn slash)[k]?.getD []) := by decide +kernel
    have here := each before.length (by simp [parts])
    rw [parts] at here
    simpa [split] using here
  · decide +kernel

/-- "/a\..\..\x" leads out of the storage, and "/a\CON" names a device. -/
theorem backslashes_pass :
    isUrlValid [slash, 0x61, backslash, dot, dot, backslash, dot, dot, backslash, 0x78] = true ∧
    ¬Confined isSeparator sampleRoot.path
      (sampleRoot.path ++
        [slash, 0x61, backslash, dot, dot, backslash, dot, dot, backslash, 0x78]) ∧
    isUrlValid [slash, 0x61, backslash, 0x43, 0x4f, 0x4e] = true ∧
    [0x43, 0x4f, 0x4e] ∈
      List.splitOnP isSeparator [slash, 0x61, backslash, 0x43, 0x4f, 0x4e] ∧
    isDeviceName [0x43, 0x4f, 0x4e] = true := by
  refine ⟨by decide +kernel, ?_, by decide +kernel, by decide +kernel, by decide +kernel⟩
  rw [sampleRoot.confined_iff rfl]
  rintro (atTop | balanced)
  · cases atTop
  · -- After "a", ".." and ".." the walk has left the directory.
    have after := balanced 4
    revert after
    decide +kernel

end Wsfs.Storage.Windows
