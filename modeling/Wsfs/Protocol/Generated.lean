/-
The functions that the generator emits, for every set of declarations that it accepts. In
either mode they write, read and measure the layout, so the modes agree. A struct can be
read back if and only if no leaf of its layout comes after a byte slice; the check of the
generator sees the byte slices of the struct itself, not those of the structs in it.
-/

import Wsfs.Protocol.Accepted

namespace Wsfs.Protocol.Gen

open Wsfs.Base

variable {Name : Type} [DecidableEq Name] {infos : StructInfos Name} {allowed : Bytes → Prop}
  {unsafeMode : Bool} {emitted : Emitted Name}

/-! ### Nested calls -/

variable {types : List (FieldType Name)} {depth : Nat} {name : Name} {values : List Value}
  {value : Value}

omit [DecidableEq Name] in
theorem encodeFields_congr {left right : Name → Value → Except Failure Bytes}
    (same : ∀ inner value, .other inner ∈ types → Typed infos allowed (.other inner) value →
      left inner value = right inner value) (typed : List.Forall₂ (Typed infos allowed) types values) :
    encodeFields left types values = encodeFields right types values := by
  induction typed with
  | nil => rfl
  | @cons type value types values isTyped _ ih =>
    have head : encodeField left type value = encodeField right type value := by
      cases type with
      | scalar type => rfl
      | string => rfl
      | bytes => rfl
      | other inner => exact same inner value List.mem_cons_self isTyped
    rw [encodeFields, encodeFields, head, ih fun inner value isField =>
      same inner value (List.mem_cons_of_mem type isField)]

omit [DecidableEq Name] in
theorem decodeFields_congr {left right : Name → Bytes → Except Failure (Value × Bytes)}
    (same : ∀ inner, .other inner ∈ types → ∀ input, left inner input = right inner input)
    (input : Bytes) : decodeFields left types input = decodeFields right types input := by
  induction types generalizing input with
  | nil => rfl
  | cons type types ih =>
    have head : decodeField left type input = decodeField right type input := by
      cases type with
      | scalar type => rfl
      | string => rfl
      | bytes => rfl
      | other inner => exact same inner List.mem_cons_self input
    have tail := ih fun inner isField =>
      same inner (List.mem_cons_of_mem type isField)
    simp only [decodeFields, head, tail]

theorem Realizes.write_eq (realizes : Realizes infos unsafeMode emitted)
    (nests : NestsIn infos depth name) (typed : Typed infos allowed (.other name) value) :
    emitted.write depth name value = encodeStruct infos depth name value := by
  induction depth generalizing name value with
  | zero => exact nests.elim
  | succ depth ih =>
    cases typed with
    | @struct _ values declared fields =>
      obtain ⟨func, generated, isFunc⟩ := realizes.writers name declared
      simp only [Emitted.write, isFunc, encodeStruct]
      rw [run_write _ generated fields]
      exact encodeFields_congr
        (fun inner _ isField isTyped => ih (nests.2 inner isField) isTyped) fields

theorem Realizes.read_eq (realizes : Realizes infos unsafeMode emitted)
    (nests : NestsIn infos depth name) (input : Bytes) :
    emitted.read depth name input = decodeStruct infos depth name input := by
  induction depth generalizing name input with
  | zero => exact nests.elim
  | succ depth ih =>
    obtain ⟨func, generated, isFunc⟩ := realizes.readers name nests.1
    rw [Emitted.read, isFunc, decodeStruct]
    dsimp only
    rw [run_read _ generated, decodeFields_congr fun inner isField =>
      ih (nests.2 inner isField)]

/-! ### Required sizes -/

omit [DecidableEq Name] in
theorem sizeTerms_eval {call : Name → Value → Except Failure Nat} {leavesOf : Name → List Leaf}
    (structs : ∀ inner value, .other inner ∈ types → Typed infos allowed (.other inner) value →
      List.Forall₂ (Leaf.Holds allowed) (leavesOf inner) value.leaves ∧
        call inner value = .ok (sizeAll (leavesOf inner) value.leaves))
    (typed : List.Forall₂ (Typed infos allowed) types values) (before : List Value) :
    ∃ sizes, (sizeTerms before.length types).mapM (SizeTerm.eval call (before ++ values)) = .ok sizes ∧
      sizes.sum + constSize types =
        sizeAll (types.flatMap (fieldLeaves leavesOf)) (leavesAll values) := by
  induction typed generalizing before with
  | nil => exact ⟨[], rfl, rfl⟩
  | @cons type value types values isTyped _ ih =>
    obtain ⟨sizes, evaluated, total⟩ := ih
      (fun inner value isField => structs inner value (List.mem_cons_of_mem type isField))
      (before ++ [value])
    rw [List.length_append, List.append_assoc] at evaluated
    change (sizeTerms (before.length + 1) types).mapM
      (SizeTerm.eval call (before ++ value :: values)) = .ok sizes at evaluated
    rw [List.flatMap_cons, leavesAll]
    cases isTyped with
    | @scalar scalar number inRange =>
      refine ⟨sizes, evaluated, ?_⟩
      rw [sizeAll_append rfl, ← total, constSize]
      change sizes.sum + (scalar.size + constSize types) = scalar.size + 0 + _
      omega
    | @string text isAllowed =>
      refine ⟨text.length :: sizes, ?_, ?_⟩
      · rw [sizeTerms, List.mapM_cons, SizeTerm.eval, blobField_append, evaluated]
        rfl
      · rw [sizeAll_append rfl, ← total, List.sum_cons, constSize]
        change text.length + sizes.sum + (2 + constSize types) = 2 + text.length + 0 + _
        omega
    | @bytes data =>
      refine ⟨data.length :: sizes, ?_, ?_⟩
      · rw [sizeTerms, List.mapM_cons, SizeTerm.eval, blobField_append, evaluated]
        rfl
      · rw [sizeAll_append rfl, ← total, List.sum_cons]
        change data.length + sizes.sum + constSize types = data.length + 0 + _
        omega
    | @struct inner fields declared fieldsTyped =>
      obtain ⟨hold, measured⟩ :=
        structs inner _ List.mem_cons_self (.struct declared fieldsTyped)
      refine ⟨sizeAll (leavesOf inner) (Value.record fields).leaves :: sizes, ?_, ?_⟩
      · rw [sizeTerms, List.mapM_cons, SizeTerm.eval, field_append, ok_bind, measured, evaluated]
        rfl
      · rw [fieldLeaves, sizeAll_append hold.length_eq, ← total, List.sum_cons]
        change _ + sizes.sum + constSize types = _
        omega

theorem Realizes.requiredSize_eq (realizes : Realizes infos unsafeMode emitted)
    (nests : NestsIn infos depth name) (typed : Typed infos allowed (.other name) value) :
    emitted.requiredSize depth name value =
      .ok (sizeAll (structLeaves infos depth name) value.leaves) := by
  induction depth generalizing name value with
  | zero => exact nests.elim
  | succ depth ih =>
    cases typed with
    | @struct _ values declared fields =>
      obtain ⟨sizes, evaluated, total⟩ := sizeTerms_eval
        (fun inner _ isField isTyped => ⟨isTyped.leaves_hold (nests.2 inner isField),
          ih (nests.2 inner isField) isTyped⟩) fields []
      rw [List.length_nil, List.nil_append] at evaluated
      simp only [Emitted.requiredSize, realizes.sizes name declared, genGetRequiredSize]
      refine (congrArg (fun result => do
        let sizes ← result
        return sizes.sum + constSize (infos.fields name)) evaluated).trans ?_
      exact congrArg Except.ok total

/-! ### Round trips -/

section RoundTrips

variable {writerMode readerMode : Bool} {writer reader : Emitted Name} {value : Value}

theorem read_write (writes : Realizes infos writerMode writer) (reads : Realizes infos readerMode reader)
    {depth : Nat} {name : Name} (nests : NestsIn infos depth name)
    (delimited : bytesLast (structLeaves infos depth name) = true)
    (typed : Typed infos Short (.other name) value) (rest : Bytes)
    (last : (structLeaves infos depth name).getLast? = some .bytes → rest = []) :
    ∃ bytes, writer.write depth name value = .ok bytes ∧
      reader.read depth name (bytes ++ rest) = .ok (value, rest) := by
  have hold := typed.leaves_hold nests
  obtain ⟨bytes, encoded⟩ := encodeAll_short hold
  have decoded := decodeAll_encodeAll hold encoded delimited rest last
  rw [decodeStruct_flat nests] at decoded
  obtain ⟨⟨value', rest'⟩, isRead, same⟩ := bind_eq_ok.mp decoded
  obtain ⟨sameLeaves, sameRest⟩ := Prod.mk.inj (Except.ok.inj same)
  refine ⟨bytes, ?_, ?_⟩
  · rw [writes.write_eq nests typed, encodeStruct_flat nests typed, encoded]
  · rw [reads.read_eq nests, isRead,
      (decodeStruct_typed nests isRead).ext_leaves nests typed sameLeaves, sameRest]

theorem write_read (writes : Realizes infos writerMode writer) (reads : Realizes infos readerMode reader)
    {depth : Nat} {name : Name} (nests : NestsIn infos depth name) {input rest : Bytes}
    (isRead : reader.read depth name input = .ok (value, rest)) :
    Typed infos Short (.other name) value ∧
      ∃ bytes, writer.write depth name value = .ok bytes ∧ input = bytes ++ rest := by
  rw [reads.read_eq nests] at isRead
  have typed := decodeStruct_typed nests isRead
  have flat := decodeStruct_flat nests input
  rw [isRead, ok_bind] at flat
  obtain ⟨_, bytes, encoded, isInput⟩ := encodeAll_decodeAll flat
  refine ⟨typed, bytes, ?_, isInput⟩
  rw [writes.write_eq nests typed, encodeStruct_flat nests typed, encoded]

end RoundTrips

/-! ### The modes -/

/-- The functions of the two modes write the same bytes, of the size that is announced, and
read the same; neither indexes outside of a buffer. Each run of the generator has orders of
its own. -/
theorem emitted_modes_agree {orders : Bool → Nat → List Name}
    (complete : ∀ mode round, (orders mode round).Perm infos.names)
    (accepted : genStructHelper unsafeMode (orders unsafeMode) infos = some (.ok emitted)) :
    ∃ portable native, genStructHelper false (orders false) infos = some (.ok portable) ∧
      genStructHelper true (orders true) infos = some (.ok native) ∧
      ∀ depth, infos.names.length ≤ depth → ∀ name ∈ infos.names,
        (∀ value, Typed infos (fun _ => True) (.other name) value →
          (portable.write depth name value = .error .tooLong ∧
            native.write depth name value = .error .tooLong) ∨
          ∃ bytes, portable.write depth name value = .ok bytes ∧
            native.write depth name value = .ok bytes ∧
            portable.requiredSize depth name value = .ok bytes.length ∧
            native.requiredSize depth name value = .ok bytes.length) ∧
        (∀ input,
          (portable.read depth name input = .error .eof ∧ native.read depth name input = .error .eof) ∨
          ∃ value rest, portable.read depth name input = .ok (value, rest) ∧
            native.read depth name input = .ok (value, rest)) := by
  have acceptable := (accepted_realizes (complete _) accepted).1
  obtain ⟨portable, isPortable⟩ := acceptable.accepted (complete false) false
  obtain ⟨native, isNative⟩ := acceptable.accepted (complete true) true
  have portableRealizes := (accepted_realizes (complete _) isPortable).2
  have nativeRealizes := (accepted_realizes (complete _) isNative).2
  refine ⟨portable, native, isPortable, isNative, fun depth enough name declared => ⟨?_, ?_⟩⟩
  · intro value typed
    have nests := (acceptable.nests name declared).mono enough
    have written := encodeStruct_flat nests typed
    rw [portableRealizes.write_eq nests typed, nativeRealizes.write_eq nests typed,
      portableRealizes.requiredSize_eq nests typed, nativeRealizes.requiredSize_eq nests typed, written]
    cases encodeAll_cases (typed.leaves_hold nests) with
    | inl tooLong => exact .inl ⟨tooLong, tooLong⟩
    | inr encoded =>
      obtain ⟨bytes, isEncoded, length⟩ := encoded
      rw [← length]
      exact .inr ⟨bytes, isEncoded, isEncoded, rfl, rfl⟩
  · intro input
    have nests := (acceptable.nests name declared).mono enough
    have flat := decodeStruct_flat nests input
    rw [portableRealizes.read_eq nests, nativeRealizes.read_eq nests]
    cases isRead : decodeStruct infos depth name input with
    | ok taken => exact .inr ⟨taken.1, taken.2, rfl, rfl⟩
    | error failure =>
      rw [isRead, error_bind] at flat
      cases decodeAll_cases (structLeaves infos depth name) input with
      | inl taken =>
        obtain ⟨values, rest, isDecoded⟩ := taken
        rw [isDecoded] at flat
        cases flat
      | inr eof =>
        rw [eof] at flat
        cases flat
        exact .inl ⟨rfl, rfl⟩

/-- A struct of two scalars, and one with scalars, a string, that struct and bytes. -/
private def mixedInfos : StructInfos Bool where
  names := [false, true]
  fields
    | false => [.scalar .int64, .scalar .int64]
    | true => [.scalar .uint16, .scalar .int8, .string, .other false, .bytes]

private def mixed : Value :=
  .record [.int 513, .int (-1), .blob [0x61], .record [.int (-2), .int 5], .blob [9]]

private theorem mixed_typed : Typed mixedInfos (fun _ => True) (.other true) mixed := by
  have inner : Typed mixedInfos (fun _ => True) (.other false) (.record [.int (-2), .int 5]) :=
    .struct (by decide) (.cons (.scalar (by decide)) (.cons (.scalar (by decide)) .nil))
  exact .struct (by decide) (.cons (.scalar (by decide)) (.cons (.scalar (by decide))
    (.cons (.string trivial) (.cons inner (.cons .bytes .nil)))))

private def mixedOrders (mode : Bool) (_ : Nat) : List Bool := [mode, !mode]

theorem emitted_modes_agree_mixed :
    ∃ portable native, genStructHelper false (mixedOrders false) mixedInfos = some (.ok portable) ∧
      genStructHelper true (mixedOrders true) mixedInfos = some (.ok native) ∧
      (∃ bytes, portable.write 2 true mixed = .ok bytes ∧ native.write 2 true mixed = .ok bytes ∧
        portable.requiredSize 2 true mixed = .ok bytes.length ∧
        native.requiredSize 2 true mixed = .ok bytes.length) ∧
      ∀ input, (portable.read 2 true input = .error .eof ∧ native.read 2 true input = .error .eof) ∨
        ∃ value rest, portable.read 2 true input = .ok (value, rest) ∧
          native.read 2 true input = .ok (value, rest) := by
  have complete (mode : Bool) (round : Nat) : (mixedOrders mode round).Perm mixedInfos.names := by
    cases mode with
    | false => exact List.Perm.refl _
    | true => exact List.Perm.swap ..
  have accepted : ∃ emitted, genStructHelper false (mixedOrders false) mixedInfos = some (.ok emitted) :=
    ⟨_, rfl⟩
  obtain ⟨emitted, isEmitted⟩ := accepted
  obtain ⟨portable, native, isPortable, isNative, agree⟩ := emitted_modes_agree complete isEmitted
  obtain ⟨writes, reads⟩ := agree 2 (Nat.le_refl 2) true (by decide)
  refine ⟨portable, native, isPortable, isNative, (writes mixed mixed_typed).resolve_left ?_, reads⟩
  rintro ⟨tooLong, _⟩
  cases isPortable
  cases tooLong

section Accepted

variable {orders : Nat → List Name} (complete : ∀ round, (orders round).Perm infos.names)

include complete

/-- A struct is decodable if and only if no leaf of its layout comes after a byte slice. -/
theorem decodable_iff_bytesLast
    (accepted : genStructHelper unsafeMode orders infos = some (.ok emitted)) {depth : Nat}
    (enough : infos.names.length ≤ depth) {name : Name} (declared : name ∈ infos.names) :
    (∀ value, Typed infos Short (.other name) value → ∃ bytes rest,
      emitted.write depth name value = .ok bytes ∧
        emitted.read depth name bytes = .ok (value, rest)) ↔
      bytesLast (structLeaves infos infos.names.length name) = true := by
  obtain ⟨acceptable, realizes⟩ := accepted_realizes complete accepted
  have shallow := acceptable.nests name declared
  have nests := shallow.mono enough
  rw [← structLeaves_stable shallow enough]
  constructor
  · intro decodable
    by_contra undelimited
    rw [Bool.not_eq_true] at undelimited
    obtain ⟨value, typed, isSample⟩ := exists_value nests (samples_hold (structLeaves infos depth name))
    obtain ⟨bytes, rest, written, isRead⟩ := decodable value typed
    rw [realizes.write_eq nests typed, encodeStruct_flat nests typed, isSample] at written
    rw [realizes.read_eq nests] at isRead
    have flat := decodeStruct_flat nests bytes
    rw [isRead, ok_bind] at flat
    apply decodeAll_samples undelimited written []
    rw [List.append_nil, flat, ← isSample]
    rfl
  · intro delimited value typed
    obtain ⟨bytes, written, isRead⟩ :=
      read_write realizes realizes nests delimited typed [] (fun _ => rfl)
    rw [List.append_nil] at isRead
    exact ⟨bytes, [], written, isRead⟩

end Accepted

/-- A struct that ends in a byte slice, and a struct with a field after it. -/
def undelimitedInfos : StructInfos Bool where
  names := [false, true]
  fields
    | false => [.bytes]
    | true => [.other false, .scalar .uint16]

theorem undelimited_decodable_iff :
    ∃ emitted, genStructHelper false (fun _ => [false, true]) undelimitedInfos = some (.ok emitted) ∧
      ∀ value, Typed undelimitedInfos Short (.other false) value → ∃ bytes rest,
        emitted.write 2 false value = .ok bytes ∧ emitted.read 2 false bytes = .ok (value, rest) := by
  have complete : ∀ _ : Nat, [false, true].Perm undelimitedInfos.names := fun _ => List.Perm.refl _
  have accepted : ∃ emitted,
      genStructHelper false (fun _ => [false, true]) undelimitedInfos = some (.ok emitted) := ⟨_, rfl⟩
  obtain ⟨emitted, isEmitted⟩ := accepted
  exact ⟨emitted, isEmitted,
    (decodable_iff_bytesLast complete isEmitted (Nat.le_refl 2) (by decide)).mpr rfl⟩

theorem undelimited_unreadable :
    ∃ portable native,
      genStructHelper false (fun _ => [false, true]) undelimitedInfos = some (.ok portable) ∧
      genStructHelper true (fun _ => [false, true]) undelimitedInfos = some (.ok native) ∧
      Typed undelimitedInfos Short (.other true) (.record [.record [.blob []], .int 7]) ∧
      portable.write 2 true (.record [.record [.blob []], .int 7]) = .ok [7, 0] ∧
      portable.read 2 true [7, 0] = .error .eof ∧
      native.write 2 true (.record [.record [.blob []], .int 7]) = .ok [7, 0] ∧
      native.read 2 true [7, 0] = .error .eof := by
  refine ⟨_, _, rfl, rfl, ?_, rfl, rfl, rfl, rfl⟩
  exact .struct (by decide)
    (.cons (.struct (by decide) (.cons .bytes .nil)) (.cons (.scalar (by decide)) .nil))

end Wsfs.Protocol.Gen
