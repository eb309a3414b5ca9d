/-
Declarations that the generator accepts. It accepts a set in one mode if and only if it
accepts it in the other, whatever the order in which it goes over the structs: every
struct is declared down to its last leaf, and a `[]byte` is at the end of its own struct.
What it emits for such a set writes, reads and measures the layout.
-/

import Mathlib.Data.List.Perm.Subperm
import Wsfs.Protocol.Realized

namespace Wsfs.Protocol.Gen

open Wsfs.Base

variable {Name : Type} [DecidableEq Name]

/-! ### The passes over the structs -/

theorem podSize_leaf (infos : StructInfos Name) (pods : Name → Option Nat) (size : Nat) (leaf : Leaf)
    (types : List (FieldType Name)) :
    ∃ larger, podSize infos pods size (leaf.type :: types) = podSize infos pods larger types := by
  cases leaf with
  | scalar type => exact ⟨_, rfl⟩
  | string => exact ⟨_, rfl⟩
  | bytes => exact ⟨_, rfl⟩

variable {infos : StructInfos Name} {pods : Name → Option Nat} {types : List (FieldType Name)}
  {known : List Name} {name : Name}

theorem podSize_isSome {size : Nat} :
    (podSize infos pods size types).isSome ↔
      ∀ inner, .other inner ∈ types → inner ∈ infos.names ∧ (pods inner).isSome := by
  induction types generalizing size with
  | nil =>
    constructor
    · intro _ inner isField
      cases isField
    · intro _
      rfl
  | cons type types ih =>
    cases type.leaf_or_struct with
    | inl isLeaf =>
      obtain ⟨leaf, rfl⟩ := isLeaf
      obtain ⟨larger, same⟩ := podSize_leaf infos pods size leaf types
      have notOther : ∀ inner, .other inner ≠ (leaf.type : FieldType Name) := by
        intro inner
        cases leaf <;> nofun
      rw [same, ih]
      constructor
      · intro all inner isField
        exact all inner ((List.mem_cons.mp isField).resolve_left (notOther inner))
      · intro all inner later
        exact all inner (List.mem_cons_of_mem _ later)
    | inr isStruct =>
      obtain ⟨name, rfl⟩ := isStruct
      rw [podSize]
      constructor
      · intro known inner isField
        split at known
        · rename_i declared
          split at known
          · rename_i found isFound
            cases isField with
            | head => exact ⟨declared, by rw [isFound]; rfl⟩
            | tail _ later => exact ih.mp known inner later
          · cases known
        · cases known
      · intro all
        obtain ⟨declared, isKnown⟩ := all name List.mem_cons_self
        obtain ⟨found, isFound⟩ := Option.isSome_iff_exists.mp isKnown
        rw [if_pos declared, isFound]
        exact ih.mpr fun inner later => all inner (List.mem_cons_of_mem _ later)

/-- The structs whose size is known are so many, and nest no deeper than that. -/
structure Known (infos : StructInfos Name) (pods : Name → Option Nat) (known : List Name) : Prop where
  distinct : known.Nodup
  declared : known ⊆ infos.names
  sized : ∀ name, (pods name).isSome ↔ name ∈ known
  nests : ∀ name ∈ known, NestsIn infos known.length name

omit [DecidableEq Name] in
theorem Known.length_le (isKnown : Known infos pods known) : known.length ≤ infos.names.length :=
  (List.subperm_of_subset isKnown.distinct isKnown.declared).length_le

theorem Known.visit (isKnown : Known infos pods known) (declared : name ∈ infos.names) (count : Nat) :
    ∃ more, Known infos (visit infos (pods, count) name).1 (more ++ known) ∧
      (visit infos (pods, count) name).2 = count + more.length := by
  unfold Gen.visit
  split
  · exact ⟨[], isKnown, rfl⟩
  · rename_i unsized
    split
    · rename_i size isSize
      refine ⟨[name], ?_, rfl⟩
      have missing : name ∉ known := fun found => unsized ((isKnown.sized name).mpr found)
      have inner := podSize_isSome.mp (Option.isSome_iff_exists.mpr ⟨size, isSize⟩)
      constructor
      · exact List.nodup_cons.mpr ⟨missing, isKnown.distinct⟩
      · exact List.cons_subset.mpr ⟨declared, isKnown.declared⟩
      · intro other
        rw [List.singleton_append, List.mem_cons, ← isKnown.sized other]
        dsimp only
        by_cases same : other = name
        · subst same
          rw [Function.update_self]
          exact ⟨fun _ => .inl rfl, fun _ => rfl⟩
        · rw [Function.update_of_ne same]
          exact ⟨.inr, fun either => either.resolve_left same⟩
      · intro other found
        cases found with
        | head =>
          exact ⟨declared, fun name isField =>
            isKnown.nests name ((isKnown.sized name).mp (inner name isField).2)⟩
        | tail _ earlier => exact (isKnown.nests other earlier).succ
    · exact ⟨[], isKnown, rfl⟩

variable {order : List Name} {found : (Name → Option Nat) × Nat}

theorem Known.pass (isKnown : Known infos pods known) (declared : order ⊆ infos.names) (count : Nat) :
    ∃ more, Known infos (order.foldl (Gen.visit infos) (pods, count)).1 (more ++ known) ∧
      (order.foldl (Gen.visit infos) (pods, count)).2 = count + more.length := by
  induction order generalizing pods known count with
  | nil => exact ⟨[], isKnown, rfl⟩
  | cons name order ih =>
    obtain ⟨isDeclared, restDeclared⟩ := List.cons_subset.mp declared
    obtain ⟨more, visited, visitCount⟩ := isKnown.visit isDeclared count
    obtain ⟨others, passed, passCount⟩ :=
      ih visited restDeclared (Gen.visit infos (pods, count) name).2
    refine ⟨others ++ more, ?_, ?_⟩
    · rw [List.append_assoc]
      exact passed
    · rw [List.foldl_cons, passCount, visitCount, List.length_append]
      omega

def Settled (infos : StructInfos Name) (pods : Name → Option Nat) : Prop :=
  ∀ name ∈ infos.names, (podSize infos pods 0 (infos.fields name)).isSome → (pods name).isSome

theorem visit_count (infos : StructInfos Name) (found : (Name → Option Nat) × Nat) (name : Name) :
    found.2 ≤ (visit infos found name).2 := by
  unfold visit
  split
  · exact Nat.le_refl _
  · split
    · exact Nat.le_succ _
    · exact Nat.le_refl _

theorem pass_count (infos : StructInfos Name) (found : (Name → Option Nat) × Nat)
    (order : List Name) : found.2 ≤ (order.foldl (visit infos) found).2 := by
  induction order generalizing found with
  | nil => exact Nat.le_refl _
  | cons name order ih =>
    exact Nat.le_trans (visit_count infos found name) (ih _)

theorem visit_nothing (nothing : (visit infos found name).2 = found.2) :
    visit infos found name = found ∧
      ((podSize infos found.1 0 (infos.fields name)).isSome → (found.1 name).isSome) := by
  unfold visit at nothing ⊢
  split
  · rename_i sized
    exact ⟨rfl, fun _ => sized⟩
  · rename_i unsized
    rw [if_neg unsized] at nothing
    split
    · rename_i size isSize
      rw [isSize] at nothing
      exact absurd nothing (Nat.succ_ne_self _)
    · rename_i isNone
      refine ⟨rfl, fun isSome => ?_⟩
      rw [isNone] at isSome
      cases isSome

theorem pass_nothing (nothing : (order.foldl (visit infos) found).2 = found.2) :
    order.foldl (visit infos) found = found ∧ ∀ name ∈ order,
      (podSize infos found.1 0 (infos.fields name)).isSome → (found.1 name).isSome := by
  induction order with
  | nil => exact ⟨rfl, fun _ isIn => by cases isIn⟩
  | cons name order ih =>
    rw [List.foldl_cons] at nothing ⊢
    have later := pass_count infos (visit infos found name) order
    have earlier := visit_count infos found name
    have visitsNothing : (visit infos found name).2 = found.2 := by omega
    obtain ⟨same, first⟩ := visit_nothing visitsNothing
    rw [same] at nothing ⊢
    obtain ⟨unchanged, rest⟩ := ih nothing
    refine ⟨unchanged, fun other isIn => ?_⟩
    cases isIn with
    | head => exact first
    | tail _ isLater => exact rest other isLater

theorem analyze_settles {orders : Nat → List Name} (complete : ∀ round, (orders round).Perm infos.names)
    {fuel round : Nat} (isKnown : Known infos pods known)
    (enough : infos.names.length < fuel + known.length) :
    ∃ pods' known', analyze infos orders fuel round pods = some pods' ∧
      Known infos pods' known' ∧ Settled infos pods' := by
  induction fuel generalizing round pods known with
  | zero =>
    have bounded := isKnown.length_le
    omega
  | succ fuel ih =>
    obtain ⟨more, passed, count⟩ := isKnown.pass (complete round).subset 0
    rw [analyze]
    cases pass : analyzeStructInfoPODSize infos (orders round) pods with
    | mk pods' found =>
      rw [analyzeStructInfoPODSize] at pass
      rw [pass] at passed count
      cases found with
      | zero =>
        have nothing : ((orders round).foldl (visit infos) (pods, 0)).2 = 0 := by rw [pass]
        obtain ⟨same, settled⟩ := pass_nothing nothing
        have unchanged : pods' = pods := congrArg Prod.fst (pass.symm.trans same)
        subst unchanged
        exact ⟨pods', _, rfl, passed, fun name isName =>
          settled name ((complete round).mem_iff.mpr isName)⟩
      | succ found =>
        apply ih passed
        rw [List.length_append]
        dsimp only at count
        omega

theorem Settled.sized (settled : Settled infos pods) {depth : Nat} (nests : NestsIn infos depth name) :
    (pods name).isSome := by
  induction depth generalizing name with
  | zero => exact nests.elim
  | succ depth ih =>
    apply settled name nests.1
    exact podSize_isSome.mpr fun inner isField =>
      ⟨(nests.2 inner isField).member, ih (nests.2 inner isField)⟩

/-! ### Emission succeeds -/

def bytesAtEnd : List (FieldType Name) → Bool
  | [] => true
  | .bytes :: rest => rest.isEmpty
  | _ :: rest => bytesAtEnd rest

theorem writeFields_ok (unsafeMode : Bool) (bufSize index offset : Nat)
    (declared : ∀ inner, .other inner ∈ types → inner ∈ infos.names) :
    ∃ body, writeFields unsafeMode infos bufSize index offset types = .ok body := by
  induction types generalizing index offset with
  | nil => exact ⟨_, rfl⟩
  | cons type types ih =>
    have rest := fun offset => ih (index + 1) offset
      fun inner isField => declared inner (List.mem_cons_of_mem type isField)
    cases type with
    | scalar type =>
      cases unsafeMode with
      | true =>
        obtain ⟨tail, isTail⟩ := rest offset
        exact ⟨_, bind_eq_ok.mpr ⟨tail, isTail, rfl⟩⟩
      | false =>
        obtain ⟨tail, isTail⟩ := rest (offset + type.size)
        exact ⟨_, bind_eq_ok.mpr ⟨tail, isTail, rfl⟩⟩
    | string | bytes =>
      obtain ⟨tail, isTail⟩ := rest (@writeFlushBuf Name unsafeMode bufSize offset).2
      exact ⟨_, bind_eq_ok.mpr ⟨tail, isTail, rfl⟩⟩
    | other name =>
      obtain ⟨tail, isTail⟩ := rest (@writeFlushBuf Name unsafeMode bufSize offset).2
      rw [writeFields, if_pos (declared name List.mem_cons_self)]
      exact ⟨_, bind_eq_ok.mpr ⟨tail, isTail, rfl⟩⟩

omit [DecidableEq Name] in
theorem readFields_ok (unsafeMode : Bool) (bufSize : Nat) (name : Name) (index offset : Nat)
    (bufStmts : List (ReadStmt Name)) :
    (∃ body, readFields unsafeMode bufSize name index offset bufStmts types = .ok body) ↔
      bytesAtEnd types = true := by
  induction types generalizing index offset bufStmts with
  | nil => exact ⟨fun _ => rfl, fun _ => ⟨_, rfl⟩⟩
  | cons type types ih =>
    have wrap : ∀ (offset : Nat) (bufStmts : List (ReadStmt Name))
        (add : List (ReadStmt Name) → List (ReadStmt Name)),
        (∃ body, (do
          let tail ← readFields unsafeMode bufSize name (index + 1) offset bufStmts types
          return add tail) = Except.ok body) ↔ bytesAtEnd types = true := by
      intro offset bufStmts add
      rw [← ih (index + 1) offset bufStmts]
      constructor
      · rintro ⟨body, isBody⟩
        obtain ⟨tail, isTail, _⟩ := bind_eq_ok.mp isBody
        exact ⟨tail, isTail⟩
      · rintro ⟨tail, isTail⟩
        exact ⟨_, bind_eq_ok.mpr ⟨tail, isTail, rfl⟩⟩
    cases type with
    | scalar type =>
      cases unsafeMode with
      | true => exact wrap offset bufStmts _
      | false => exact ih _ _ _
    | string => exact wrap _ _ _
    | bytes =>
      rw [readFields]
      dsimp only
      cases types with
      | nil => exact wrap _ _ _
      | cons other types =>
        rw [if_pos (List.cons_ne_nil other types)]
        constructor
        · rintro ⟨_, ⟨⟩⟩
        · rintro ⟨⟩
    | other inner => exact wrap _ _ _

section Pairs

variable {Err α : Type} (generate : Name → Except Err α) {names : List Name}

omit [DecidableEq Name] in
theorem mapM_pairs_ok (each : ∀ name ∈ names, ∃ func, generate name = .ok func) :
    ∃ pairs, (names.mapM fun name => (generate name).map fun func => (name, func)) = .ok pairs := by
  induction names with
  | nil => exact ⟨[], rfl⟩
  | cons name names ih =>
    obtain ⟨func, isFunc⟩ := each name List.mem_cons_self
    obtain ⟨pairs, arePairs⟩ := ih fun other isIn =>
      each other (List.mem_cons_of_mem name isIn)
    refine ⟨(name, func) :: pairs, ?_⟩
    rw [List.mapM_cons, isFunc, arePairs]
    rfl

theorem lookup_pairs {pairs : List (Name × α)}
    (arePairs : (names.mapM fun name => (generate name).map fun func => (name, func)) = .ok pairs)
    {name : Name} (isIn : name ∈ names) :
    ∃ func, generate name = .ok func ∧ pairs.lookup name = some func := by
  induction names generalizing pairs with
  | nil => cases isIn
  | cons first names ih =>
    rw [List.mapM_cons] at arePairs
    obtain ⟨pair, isPair, remaining⟩ := bind_eq_ok.mp arePairs
    obtain ⟨others, areOthers, same⟩ := bind_eq_ok.mp remaining
    cases same
    cases isFunc : generate first with
    | error failure =>
      rw [isFunc] at isPair
      cases isPair
    | ok func =>
      rw [isFunc] at isPair
      cases isPair
      by_cases same : name = first
      · subst same
        exact ⟨func, isFunc, by rw [List.lookup_cons_self]⟩
      · have later := (List.mem_cons.mp isIn).resolve_left same
        obtain ⟨found, isFound, isLookup⟩ := ih areOthers later
        refine ⟨found, isFound, ?_⟩
        rw [List.lookup_cons, beq_false_of_ne same]
        exact isLookup

end Pairs

/-- The functions of every struct are there. -/
structure Realizes (infos : StructInfos Name) (unsafeMode : Bool) (emitted : Emitted Name) : Prop where
  sizes : ∀ name ∈ infos.names, emitted.sizes.lookup name = some (genGetRequiredSize infos name)
  writers : ∀ name ∈ infos.names, ∃ func, genWrite2Writer unsafeMode infos name = .ok func ∧
    emitted.writers.lookup name = some func
  readers : ∀ name ∈ infos.names, ∃ func, genReadFromReader unsafeMode infos name = .ok func ∧
    emitted.readers.lookup name = some func

theorem lookup_map {α : Type} (generate : Name → α) {names : List Name} (isIn : name ∈ names) :
    (names.map fun name => (name, generate name)).lookup name = some (generate name) := by
  induction names with
  | nil => cases isIn
  | cons first names ih =>
    by_cases same : name = first
    · subst same
      rw [List.map_cons, List.lookup_cons_self]
    · rw [List.map_cons, List.lookup_cons, beq_false_of_ne same]
      exact ih ((List.mem_cons.mp isIn).resolve_left same)

theorem genHelper_realizes {unsafeMode : Bool} {emitted : Emitted Name}
    (generated : genHelper unsafeMode infos = .ok emitted) : Realizes infos unsafeMode emitted := by
  obtain ⟨writers, areWriters, remaining⟩ := bind_eq_ok.mp generated
  obtain ⟨readers, areReaders, same⟩ := bind_eq_ok.mp remaining
  cases same
  constructor
  · intro name isName
    exact lookup_map (genGetRequiredSize infos) isName
  · intro name isName
    exact lookup_pairs _ areWriters isName
  · intro name isName
    exact lookup_pairs _ areReaders isName

theorem genHelper_ok (unsafeMode : Bool)
    (declared : ∀ name ∈ infos.names, ∀ inner, .other inner ∈ infos.fields name → inner ∈ infos.names)
    (atEnd : ∀ name ∈ infos.names, bytesAtEnd (infos.fields name) = true) :
    ∃ emitted, genHelper unsafeMode infos = .ok emitted := by
  have eachWriter : ∀ name ∈ infos.names, ∃ func, genWrite2Writer unsafeMode infos name = .ok func := by
    intro name isName
    obtain ⟨body, isBody⟩ := writeFields_ok unsafeMode
      (analyzeStructInfoBufSize (infos.fields name)) 0 0 (declared name isName)
    exact ⟨_, bind_eq_ok.mpr ⟨body, isBody, rfl⟩⟩
  have eachReader : ∀ name ∈ infos.names, ∃ func, genReadFromReader unsafeMode infos name = .ok func := by
    intro name isName
    obtain ⟨body, isBody⟩ := (readFields_ok unsafeMode
      (analyzeStructInfoBufSize (infos.fields name)) name 0 0 []).mpr (atEnd name isName)
    exact ⟨_, bind_eq_ok.mpr ⟨body, isBody, rfl⟩⟩
  obtain ⟨writers, areWriters⟩ := mapM_pairs_ok _ eachWriter
  obtain ⟨readers, areReaders⟩ := mapM_pairs_ok _ eachReader
  exact ⟨_, bind_eq_ok.mpr ⟨writers, areWriters, bind_eq_ok.mpr ⟨readers, areReaders, rfl⟩⟩⟩

/-! ### Acceptance -/

/-- Every struct is declared down to its leaves, and its byte slice is at its end. -/
structure Acceptable (infos : StructInfos Name) : Prop where
  nests : ∀ name ∈ infos.names, NestsIn infos infos.names.length name
  atEnd : ∀ name ∈ infos.names, bytesAtEnd (infos.fields name) = true

section Acceptance

variable {infos : StructInfos Name} {orders : Nat → List Name}
  (complete : ∀ round, (orders round).Perm infos.names)

include complete

theorem analyze_finishes :
    ∃ pods known, analyze infos orders (infos.names.length + 1) 0 (fun _ => none) = some pods ∧
      Known infos pods known ∧ Settled infos pods := by
  have nothing : Known infos (fun _ => none) [] :=
    ⟨List.nodup_nil, List.nil_subset _, fun _ => ⟨nofun, nofun⟩, nofun⟩
  apply analyze_settles complete nothing
  rw [List.length_nil]
  omega

theorem accepted_realizes {unsafeMode : Bool} {emitted : Emitted Name}
    (accepted : genStructHelper unsafeMode orders infos = some (.ok emitted)) :
    Acceptable infos ∧ Realizes infos unsafeMode emitted := by
  obtain ⟨pods, known, analyzed, isKnown, _⟩ := analyze_finishes complete
  rw [genStructHelper, analyzed, Option.map_some] at accepted
  have result := Option.some.inj accepted
  split at result
  · cases result
  · rename_i noneMissing
    have realizes := genHelper_realizes result
    refine ⟨⟨fun name isName => ?_, fun name isName => ?_⟩, realizes⟩
    · have sized := List.find?_eq_none.mp noneMissing name isName
      rw [Option.isNone_iff_eq_none] at sized
      have isSome := Option.isSome_iff_ne_none.mpr sized
      exact (isKnown.nests name ((isKnown.sized name).mp isSome)).mono isKnown.length_le
    · obtain ⟨func, isFunc, _⟩ := realizes.readers name isName
      obtain ⟨body, isBody, _⟩ := bind_eq_ok.mp isFunc
      exact (readFields_ok unsafeMode _ name 0 0 []).mp ⟨body, isBody⟩

theorem Acceptable.accepted (acceptable : Acceptable infos) (unsafeMode : Bool) :
    ∃ emitted, genStructHelper unsafeMode orders infos = some (.ok emitted) := by
  obtain ⟨pods, known, analyzed, _, settled⟩ := analyze_finishes complete
  have noneMissing : (infos.names.find? fun name => (pods name).isNone) = none := by
    apply List.find?_eq_none.mpr
    intro name isName isNone
    have sized := settled.sized (acceptable.nests name isName)
    rw [Option.isNone_iff_eq_none.mp isNone] at sized
    cases sized
  have declared : ∀ name ∈ infos.names, ∀ inner, .other inner ∈ infos.fields name →
      inner ∈ infos.names := by
    intro name isName inner isField
    have nests := (acceptable.nests name isName).succ
    exact (nests.2 inner isField).member
  obtain ⟨emitted, generated⟩ := genHelper_ok unsafeMode declared acceptable.atEnd
  refine ⟨emitted, ?_⟩
  rw [genStructHelper, analyzed, Option.map_some, noneMissing]
  exact congrArg some generated

end Acceptance

end Wsfs.Protocol.Gen
