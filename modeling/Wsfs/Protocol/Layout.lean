/-
The layout that a set of declarations describes: the fields of a struct in their order, a
nested struct in the place of its field. Written out in full it is a sequence of leaves,
and a value is written and read leaf by leaf.
-/

import Mathlib.Data.List.Forall2
import Wsfs.Protocol.Leaves

namespace Wsfs.Protocol.Gen

open Wsfs.Base

variable {Name : Type}

/-! ### Fields in their order -/

section Fields

variable (writeStruct : Name → Value → Except Failure Bytes)
  (readStruct : Name → Bytes → Except Failure (Value × Bytes))

def encodeField : FieldType Name → Value → Except Failure Bytes
  | .scalar type, value => (Leaf.scalar type).encode value
  | .string, value => Leaf.string.encode value
  | .bytes, value => Leaf.bytes.encode value
  | .other name, value => writeStruct name value

def encodeFields : List (FieldType Name) → List Value → Except Failure Bytes
  | [], [] => .ok []
  | type :: types, value :: values => do
      let head ← encodeField writeStruct type value
      let tail ← encodeFields types values
      return head ++ tail
  | _, _ => .error .stuck

def decodeField : FieldType Name → Bytes → Except Failure (Value × Bytes)
  | .scalar type, input => (Leaf.scalar type).decode input
  | .string, input => Leaf.string.decode input
  | .bytes, input => Leaf.bytes.decode input
  | .other name, input => readStruct name input

def decodeFields : List (FieldType Name) → Bytes → Except Failure (List Value × Bytes)
  | [], input => .ok ([], input)
  | type :: types, input => do
      let (value, after) ← decodeField readStruct type input
      let (values, rest) ← decodeFields types after
      return (value :: values, rest)

theorem decodeFields_append (types types' : List (FieldType Name)) (input : Bytes) :
    decodeFields readStruct (types ++ types') input = do
      let (values, after) ← decodeFields readStruct types input
      let (values', rest) ← decodeFields readStruct types' after
      return (values ++ values', rest) := by
  induction types generalizing input with
  | nil =>
    simp only [List.nil_append, decodeFields, ok_bind]
    exact (bind_pure _).symm
  | cons type types ih =>
    simp only [List.cons_append, decodeFields, ih, bind_assoc, pure_bind]

end Fields

def encodeStruct (infos : StructInfos Name) : Nat → Name → Value → Except Failure Bytes
  | 0, _, _ => .error .depth
  | depth + 1, name, .record d => encodeFields (encodeStruct infos depth) (infos.fields name) d
  | _ + 1, _, _ => .error .stuck

def decodeStruct (infos : StructInfos Name) : Nat → Name → Bytes → Except Failure (Value × Bytes)
  | 0, _, _ => .error .depth
  | depth + 1, name, input => do
      let (d, rest) ← decodeFields (decodeStruct infos depth) (infos.fields name) input
      return (.record d, rest)

/-! ### Nesting -/

/-- The struct is declared, and so is what it contains, down to the given depth. -/
def NestsIn (infos : StructInfos Name) : Nat → Name → Prop
  | 0, _ => False
  | depth + 1, name =>
      name ∈ infos.names ∧ ∀ inner, .other inner ∈ infos.fields name → NestsIn infos depth inner

variable {infos : StructInfos Name} {depth : Nat} {name : Name}

theorem NestsIn.member (nests : NestsIn infos depth name) : name ∈ infos.names := by
  cases depth with
  | zero => exact nests.elim
  | succ depth => exact nests.1

theorem NestsIn.succ (nests : NestsIn infos depth name) : NestsIn infos (depth + 1) name := by
  induction depth generalizing name with
  | zero => exact nests.elim
  | succ depth ih =>
    exact ⟨nests.1, fun inner isField => ih (nests.2 inner isField)⟩

variable {deeper : Nat}

theorem NestsIn.mono (nests : NestsIn infos depth name) (le : depth ≤ deeper) :
    NestsIn infos deeper name := by
  induction le with
  | refl => exact nests
  | step _ ih => exact ih.succ

/-! ### Leaves of a struct and of a value -/

def fieldLeaves (structLeaves : Name → List Leaf) : FieldType Name → List Leaf
  | .scalar type => [.scalar type]
  | .string => [.string]
  | .bytes => [.bytes]
  | .other name => structLeaves name

def structLeaves (infos : StructInfos Name) : Nat → Name → List Leaf
  | 0, _ => []
  | depth + 1, name => (infos.fields name).flatMap (fieldLeaves (structLeaves infos depth))

mutual

def Value.leaves : Value → List Value
  | .int value => [.int value]
  | .blob data => [.blob data]
  | .record d => leavesAll d

def leavesAll : List Value → List Value
  | [] => []
  | value :: values => value.leaves ++ leavesAll values

end

theorem flatMap_fieldLeaves_congr {left right : Name → List Leaf} {types : List (FieldType Name)}
    (same : ∀ inner, .other inner ∈ types → left inner = right inner) :
    types.flatMap (fieldLeaves left) = types.flatMap (fieldLeaves right) := by
  induction types with
  | nil => rfl
  | cons type types ih =>
    have head : fieldLeaves left type = fieldLeaves right type := by
      cases type with
      | scalar type => rfl
      | string => rfl
      | bytes => rfl
      | other inner => exact same inner List.mem_cons_self
    have tail := ih fun inner isField => same inner (List.mem_cons_of_mem type isField)
    rw [List.flatMap_cons, List.flatMap_cons, head, tail]

theorem structLeaves_succ (nests : NestsIn infos depth name) :
    structLeaves infos (depth + 1) name = structLeaves infos depth name := by
  induction depth generalizing name with
  | zero => exact nests.elim
  | succ depth ih =>
    exact flatMap_fieldLeaves_congr fun inner isField => ih (nests.2 inner isField)

theorem structLeaves_stable (nests : NestsIn infos depth name) (le : depth ≤ deeper) :
    structLeaves infos deeper name = structLeaves infos depth name := by
  induction le with
  | refl => rfl
  | @step deeper le ih =>
    rw [structLeaves_succ (nests.mono le), ih]

/-! ### A field is a leaf or a struct -/

section Leaves

def Leaf.type : Leaf → FieldType Name
  | .scalar type => .scalar type
  | .string => .string
  | .bytes => .bytes

theorem FieldType.leaf_or_struct (type : FieldType Name) :
    (∃ leaf : Leaf, type = leaf.type) ∨ ∃ name, type = .other name := by
  cases type with
  | scalar type => exact .inl ⟨.scalar type, rfl⟩
  | string => exact .inl ⟨.string, rfl⟩
  | bytes => exact .inl ⟨.bytes, rfl⟩
  | other name => exact .inr ⟨name, rfl⟩

variable {infos : StructInfos Name} {allowed : Bytes → Prop}

theorem encodeField_leaf (writeStruct : Name → Value → Except Failure Bytes) (leaf : Leaf)
    (value : Value) : encodeField writeStruct leaf.type value = leaf.encode value := by
  cases leaf <;> rfl

theorem decodeField_leaf (readStruct : Name → Bytes → Except Failure (Value × Bytes)) (leaf : Leaf)
    (input : Bytes) : decodeField readStruct leaf.type input = leaf.decode input := by
  cases leaf <;> rfl

theorem fieldLeaves_leaf (leavesOf : Name → List Leaf) (leaf : Leaf) :
    fieldLeaves leavesOf leaf.type = [leaf] := by
  cases leaf <;> rfl

variable {leaf : Leaf} {value : Value}

theorem typed_leaf : Typed infos allowed leaf.type value ↔ leaf.Holds allowed value := by
  constructor
  · intro typed
    cases leaf with
    | scalar type =>
      cases typed with
      | scalar inRange => exact .scalar inRange
    | string =>
      cases typed with
      | string isAllowed => exact .string isAllowed
    | bytes =>
      cases typed with
      | bytes => exact .bytes
  · intro holds
    cases holds with
    | scalar inRange => exact .scalar inRange
    | string isAllowed => exact .string isAllowed
    | bytes => exact .bytes

theorem Leaf.Holds.leaves (holds : leaf.Holds allowed value) : value.leaves = [value] := by
  cases holds <;> rfl

end Leaves

/-! ### Written and read leaf by leaf -/

section Flat

variable {infos : StructInfos Name} {allowed : Bytes → Prop} {leavesOf : Name → List Leaf}
  {types : List (FieldType Name)} {values leafValues : List Value} {depth : Nat} {name : Name}
  {value : Value}

theorem fields_hold
    (structs : ∀ inner value, .other inner ∈ types → Typed infos allowed (.other inner) value →
      List.Forall₂ (Leaf.Holds allowed) (leavesOf inner) value.leaves)
    (typed : List.Forall₂ (Typed infos allowed) types values) :
    List.Forall₂ (Leaf.Holds allowed) (types.flatMap (fieldLeaves leavesOf)) (leavesAll values) := by
  induction typed with
  | nil => exact .nil
  | @cons type value types values isTyped _ ih =>
    have tail := ih fun inner value isField =>
      structs inner value (List.mem_cons_of_mem type isField)
    rw [List.flatMap_cons, leavesAll]
    apply List.rel_append _ tail
    cases type.leaf_or_struct with
    | inl isLeaf =>
      obtain ⟨leaf, rfl⟩ := isLeaf
      have holds := typed_leaf.mp isTyped
      rw [fieldLeaves_leaf, holds.leaves]
      exact .cons holds .nil
    | inr isStruct =>
      obtain ⟨inner, rfl⟩ := isStruct
      exact structs inner value List.mem_cons_self isTyped

theorem Typed.leaves_hold (nests : NestsIn infos depth name)
    (typed : Typed infos allowed (.other name) value) :
    List.Forall₂ (Leaf.Holds allowed) (structLeaves infos depth name) value.leaves := by
  induction depth generalizing name value with
  | zero => exact nests.elim
  | succ depth ih =>
    cases typed with
    | struct _ fields =>
      exact fields_hold
        (fun inner _ isField isTyped => ih (nests.2 inner isField) isTyped) fields

theorem encodeFields_flat {writeStruct : Name → Value → Except Failure Bytes}
    (structs : ∀ inner value, .other inner ∈ types → Typed infos allowed (.other inner) value →
      List.Forall₂ (Leaf.Holds allowed) (leavesOf inner) value.leaves ∧
        writeStruct inner value = encodeAll (leavesOf inner) value.leaves)
    (typed : List.Forall₂ (Typed infos allowed) types values) :
    encodeFields writeStruct types values =
      encodeAll (types.flatMap (fieldLeaves leavesOf)) (leavesAll values) := by
  induction typed with
  | nil => rfl
  | @cons type value types values isTyped _ ih =>
    have tail := ih fun inner value isField =>
      structs inner value (List.mem_cons_of_mem type isField)
    rw [encodeFields, List.flatMap_cons, leavesAll, tail]
    cases type.leaf_or_struct with
    | inl isLeaf =>
      obtain ⟨leaf, rfl⟩ := isLeaf
      rw [encodeField_leaf, fieldLeaves_leaf, (typed_leaf.mp isTyped).leaves]
      rfl
    | inr isStruct =>
      obtain ⟨inner, rfl⟩ := isStruct
      obtain ⟨hold, written⟩ := structs inner value List.mem_cons_self isTyped
      rw [encodeField, written, fieldLeaves, encodeAll_append hold.length_eq]

theorem encodeStruct_flat (nests : NestsIn infos depth name)
    (typed : Typed infos allowed (.other name) value) :
    encodeStruct infos depth name value = encodeAll (structLeaves infos depth name) value.leaves := by
  induction depth generalizing name value with
  | zero => exact nests.elim
  | succ depth ih =>
    cases typed with
    | struct _ fields =>
      exact encodeFields_flat (fun inner _ isField isTyped =>
        ⟨isTyped.leaves_hold (nests.2 inner isField),
          ih (nests.2 inner isField) isTyped⟩) fields

variable {readStruct : Name → Bytes → Except Failure (Value × Bytes)} {input rest : Bytes}

theorem decodeFields_flat (structs : ∀ inner, .other inner ∈ types → ∀ input,
      decodeAll (leavesOf inner) input = do
        let (value, rest) ← readStruct inner input
        return (value.leaves, rest)) (input : Bytes) :
    decodeAll (types.flatMap (fieldLeaves leavesOf)) input = do
      let (values, rest) ← decodeFields readStruct types input
      return (leavesAll values, rest) := by
  induction types generalizing input with
  | nil => rfl
  | cons type types ih =>
    have tail := ih fun inner isField =>
      structs inner (List.mem_cons_of_mem type isField)
    have head : decodeAll (fieldLeaves leavesOf type) input = do
        let (value, rest) ← decodeField readStruct type input
        return (value.leaves, rest) := by
      cases type.leaf_or_struct with
      | inl isLeaf =>
        obtain ⟨leaf, rfl⟩ := isLeaf
        rw [fieldLeaves_leaf, decodeField_leaf, decodeAll]
        cases isRead : leaf.decode input with
        | error failure => rfl
        | ok taken =>
          obtain ⟨value, rest⟩ := taken
          have single := (Leaf.encode_decode isRead).1.leaves
          simp only [ok_bind, decodeAll, single]
      | inr isStruct =>
        obtain ⟨inner, rfl⟩ := isStruct
        exact structs inner List.mem_cons_self input
    rw [List.flatMap_cons, decodeAll_append, head, decodeFields]
    simp only [bind_assoc, pure_bind, tail, leavesAll]

theorem decodeStruct_flat (nests : NestsIn infos depth name) (input : Bytes) :
    decodeAll (structLeaves infos depth name) input = do
      let (value, rest) ← decodeStruct infos depth name input
      return (value.leaves, rest) := by
  induction depth generalizing name input with
  | zero => exact nests.elim
  | succ depth ih =>
    rw [structLeaves, decodeStruct,
      decodeFields_flat fun inner isField => ih (nests.2 inner isField)]
    simp only [bind_assoc, pure_bind, Value.leaves]

theorem decodeFields_typed (structs : ∀ inner, .other inner ∈ types → ∀ input value rest,
      readStruct inner input = .ok (value, rest) → Typed infos Short (.other inner) value)
    (decoded : decodeFields readStruct types input = .ok (values, rest)) :
    List.Forall₂ (Typed infos Short) types values := by
  induction types generalizing input values with
  | nil =>
    cases decoded
    exact .nil
  | cons type types ih =>
    obtain ⟨⟨value, after⟩, headDecoded, remaining⟩ := bind_eq_ok.mp decoded
    obtain ⟨⟨others, last⟩, tailDecoded, same⟩ := bind_eq_ok.mp remaining
    cases same
    have tail := ih
      (fun inner isField => structs inner (List.mem_cons_of_mem type isField)) tailDecoded
    refine .cons ?_ tail
    cases type.leaf_or_struct with
    | inl isLeaf =>
      obtain ⟨leaf, rfl⟩ := isLeaf
      rw [decodeField_leaf] at headDecoded
      exact typed_leaf.mpr (Leaf.encode_decode headDecoded).1
    | inr isStruct =>
      obtain ⟨inner, rfl⟩ := isStruct
      exact structs inner List.mem_cons_self input value after headDecoded

theorem decodeStruct_typed (nests : NestsIn infos depth name)
    (decoded : decodeStruct infos depth name input = .ok (value, rest)) :
    Typed infos Short (.other name) value := by
  induction depth generalizing name input value rest with
  | zero => exact nests.elim
  | succ depth ih =>
    obtain ⟨⟨d, after⟩, fieldsDecoded, same⟩ := bind_eq_ok.mp decoded
    cases same
    exact .struct nests.1 (decodeFields_typed
      (fun inner isField _ _ _ isRead => ih (nests.2 inner isField) isRead)
      fieldsDecoded)

/-! ### A value is its leaves -/

theorem fields_ext (leavesOf : Name → List Leaf) {values' : List Value}
    (structs : ∀ inner, .other inner ∈ types → ∀ value value',
      Typed infos allowed (.other inner) value → Typed infos allowed (.other inner) value' →
      value.leaves.length = (leavesOf inner).length ∧ (value.leaves = value'.leaves → value = value'))
    (typed : List.Forall₂ (Typed infos allowed) types values)
    (typed' : List.Forall₂ (Typed infos allowed) types values')
    (same : leavesAll values = leavesAll values') : values = values' := by
  induction typed generalizing values' with
  | nil =>
    cases typed'
    rfl
  | @cons type value types values isTyped _ ih =>
    cases typed' with
    | @cons _ value' _ values' isTyped' rest' =>
      rw [leavesAll, leavesAll] at same
      have heads : value.leaves.length = value'.leaves.length ∧
          (value.leaves = value'.leaves → value = value') := by
        cases type.leaf_or_struct with
        | inl isLeaf =>
          obtain ⟨leaf, rfl⟩ := isLeaf
          rw [(typed_leaf.mp isTyped).leaves, (typed_leaf.mp isTyped').leaves]
          exact ⟨rfl, fun sameLeaf => (List.cons.inj sameLeaf).1⟩
        | inr isStruct =>
          obtain ⟨inner, rfl⟩ := isStruct
          have first := structs inner List.mem_cons_self value value' isTyped isTyped'
          have second := structs inner List.mem_cons_self value' value isTyped' isTyped
          exact ⟨first.1.trans second.1.symm, first.2⟩
      obtain ⟨sameHead, sameTail⟩ := List.append_inj same heads.1
      rw [heads.2 sameHead, ih
        (fun inner isField => structs inner (List.mem_cons_of_mem type isField)) rest' sameTail]

theorem Typed.ext_leaves {value' : Value} (nests : NestsIn infos depth name)
    (typed : Typed infos allowed (.other name) value) (typed' : Typed infos allowed (.other name) value')
    (same : value.leaves = value'.leaves) : value = value' := by
  induction depth generalizing name value value' with
  | zero => exact nests.elim
  | succ depth ih =>
    cases typed with
    | struct _ fields =>
      cases typed' with
      | struct _ fields' =>
        congr 1
        refine fields_ext (structLeaves infos depth) ?_ fields fields' same
        intro inner isField value value' isTyped isTyped'
        have innerNests := nests.2 inner isField
        exact ⟨(isTyped.leaves_hold innerNests).length_eq.symm,
          ih innerNests isTyped isTyped'⟩

theorem exists_append_of_hold {leaves leaves' : List Leaf}
    (hold : List.Forall₂ (Leaf.Holds allowed) (leaves ++ leaves') leafValues) :
    ∃ heads tails, List.Forall₂ (Leaf.Holds allowed) leaves heads ∧
      List.Forall₂ (Leaf.Holds allowed) leaves' tails ∧ leafValues = heads ++ tails := by
  induction leaves generalizing leafValues with
  | nil => exact ⟨[], leafValues, .nil, hold, rfl⟩
  | cons leaf leaves ih =>
    cases hold with
    | cons holds rest =>
      obtain ⟨heads, tails, headsHold, tailsHold, rfl⟩ := ih rest
      exact ⟨_ :: heads, tails, .cons holds headsHold, tailsHold, rfl⟩

theorem exists_fields (structs : ∀ inner, .other inner ∈ types → ∀ leafValues,
      List.Forall₂ (Leaf.Holds allowed) (leavesOf inner) leafValues →
      ∃ value, Typed infos allowed (.other inner) value ∧ value.leaves = leafValues)
    (hold : List.Forall₂ (Leaf.Holds allowed) (types.flatMap (fieldLeaves leavesOf)) leafValues) :
    ∃ values, List.Forall₂ (Typed infos allowed) types values ∧ leavesAll values = leafValues := by
  induction types generalizing leafValues with
  | nil =>
    cases hold
    exact ⟨[], .nil, rfl⟩
  | cons type types ih =>
    rw [List.flatMap_cons] at hold
    obtain ⟨heads, tails, headsHold, tailsHold, rfl⟩ := exists_append_of_hold hold
    obtain ⟨values, typed, tailLeaves⟩ := ih
      (fun inner isField => structs inner (List.mem_cons_of_mem type isField)) tailsHold
    have headValue : ∃ value, Typed infos allowed type value ∧ value.leaves = heads := by
      cases type.leaf_or_struct with
      | inl isLeaf =>
        obtain ⟨leaf, rfl⟩ := isLeaf
        rw [fieldLeaves_leaf] at headsHold
        cases headsHold with
        | cons holds nothing =>
          cases nothing
          exact ⟨_, typed_leaf.mpr holds, holds.leaves⟩
      | inr isStruct =>
        obtain ⟨inner, rfl⟩ := isStruct
        exact structs inner List.mem_cons_self heads headsHold
    obtain ⟨value, isTyped, rfl⟩ := headValue
    exact ⟨value :: values, .cons isTyped typed, by rw [leavesAll, tailLeaves]⟩

theorem exists_value (nests : NestsIn infos depth name)
    (hold : List.Forall₂ (Leaf.Holds allowed) (structLeaves infos depth name) leafValues) :
    ∃ value, Typed infos allowed (.other name) value ∧ value.leaves = leafValues := by
  induction depth generalizing name leafValues with
  | zero => exact nests.elim
  | succ depth ih =>
    obtain ⟨values, typed, leaves⟩ := exists_fields
      (fun inner isField _ innerHold => ih (nests.2 inner isField) innerHold) hold
    exact ⟨.record values, .struct nests.1 typed, leaves⟩

end Flat

end Wsfs.Protocol.Gen
