/-
Flat layouts. Written out with all its nested structs, a struct is a sequence of leaves:
scalars, strings and byte slices. Every leaf but a byte slice says where it ends, so a
sequence can be read back if and only if nothing follows a byte slice.
-/

import Wsfs.Protocol.Emitted

namespace Wsfs.Protocol.Gen

open Wsfs.Base

/-! ### Scalars -/

namespace Scalar

theorem modulus_eq (type : Scalar) : type.modulus = 256 ^ type.size := by
  rw [modulus, Nat.pow_mul]

theorem modulus_even (type : Scalar) : ∃ half, type.modulus = 2 * half ∧ 0 < half := by
  refine ⟨2 ^ (8 * type.size - 1), ?_, Nat.two_pow_pos _⟩
  have positive : 8 * type.size = (8 * type.size - 1) + 1 := by
    cases type <;> rfl
  rw [modulus, positive, Nat.pow_succ, Nat.add_sub_cancel, Nat.mul_comm]

theorem toUnsigned_lt (type : Scalar) (value : Int) : type.toUnsigned value < 256 ^ type.size := by
  obtain ⟨half, isDouble, positive⟩ := type.modulus_even
  have bounds := Int.emod_lt_of_pos value (b := type.modulus) (by omega)
  have lower := Int.emod_nonneg value (b := type.modulus) (by omega)
  rw [← modulus_eq, toUnsigned]
  omega

variable {type : Scalar}

theorem ofUnsigned_toUnsigned {value : Int} (inRange : type.InRange value) :
    type.ofUnsigned (type.toUnsigned value) = value := by
  obtain ⟨half, isDouble, positive⟩ := type.modulus_even
  unfold InRange at inRange
  unfold ofUnsigned toUnsigned
  split at inRange
  · rename_i isSigned
    by_cases negative : value < 0
    · have shifted : value % (type.modulus : Int) = value + type.modulus := by
        rw [← Int.add_emod_right, Int.emod_eq_of_lt]
        · omega
        · omega
      rw [shifted, if_pos ⟨isSigned, by omega⟩]
      omega
    · have same : value % (type.modulus : Int) = value := Int.emod_eq_of_lt (by omega) (by omega)
      rw [same, if_neg (by omega)]
      omega
  · rename_i unsigned
    have same : value % (type.modulus : Int) = value := Int.emod_eq_of_lt inRange.1 inRange.2
    rw [same, if_neg (fun both => unsigned both.1)]
    omega

variable {number : Nat}

theorem ofUnsigned_inRange (bounded : number < 256 ^ type.size) :
    type.InRange (type.ofUnsigned number) := by
  obtain ⟨half, isDouble, positive⟩ := type.modulus_even
  rw [← modulus_eq] at bounded
  unfold InRange ofUnsigned
  split
  · rename_i isSigned
    by_cases high : type.modulus ≤ 2 * number
    · rw [if_pos ⟨isSigned, high⟩]
      omega
    · rw [if_neg (fun both => high both.2)]
      omega
  · rename_i unsigned
    rw [if_neg (fun both => unsigned both.1)]
    omega

theorem toUnsigned_ofUnsigned (bounded : number < 256 ^ type.size) :
    type.toUnsigned (type.ofUnsigned number) = number := by
  obtain ⟨half, isDouble, positive⟩ := type.modulus_even
  rw [← modulus_eq] at bounded
  unfold toUnsigned ofUnsigned
  split
  · have shifted : ((number : Int) - type.modulus) % type.modulus = number := by
      rw [Int.sub_emod_right, Int.emod_eq_of_lt]
      · omega
      · omega
    rw [shifted]
    omega
  · rw [Int.emod_eq_of_lt (by omega) (by omega)]
    omega

end Scalar

/-! ### Computations that may fail -/

section Fallible

variable {Err α β γ : Type} {first : Except Err α} {result : β}

theorem bind_eq_ok {next : α → Except Err β} :
    (first >>= next) = .ok result ↔ ∃ value, first = .ok value ∧ next value = .ok result := by
  cases first with
  | error failure => exact ⟨nofun, fun ⟨_, isOk, _⟩ => by cases isOk⟩
  | ok value => exact ⟨fun same => ⟨value, rfl, same⟩, fun ⟨_, isOk, same⟩ => by cases isOk; exact same⟩

theorem ok_of_bind_pure {finish : α → β}
    (same : (first >>= fun value => pure (finish value)) = .ok result) :
    ∃ value, first = .ok value ∧ result = finish value := by
  obtain ⟨value, isOk, finished⟩ := bind_eq_ok.mp same
  cases finished
  exact ⟨value, isOk, rfl⟩

theorem ok_bind (value : α) (next : α → Except Err β) : (Except.ok value >>= next) = next value := rfl

theorem error_bind (failure : Err) (next : α → Except Err β) :
    (Except.error failure >>= next) = .error failure := rfl

end Fallible

/-! ### Leaves -/

inductive Leaf
  | scalar (type : Scalar)
  | string
  | bytes
deriving DecidableEq, Repr

namespace Leaf

def encode : Leaf → Value → Except Failure Bytes
  | .scalar type, .int value => .ok (leBytes type.size (type.toUnsigned value))
  | .string, .blob text => writeStrToWriter text
  | .bytes, .blob data => .ok data
  | _, _ => .error .stuck

def decode : Leaf → Bytes → Except Failure (Value × Bytes)
  | .scalar type, input => do
      let (head, rest) ← readFull type.size input
      return (.int (type.ofUnsigned (leNat head)), rest)
  | .string, input => do
      let (text, rest) ← readStrFromReader input
      return (.blob text, rest)
  | .bytes, input => .ok (.blob input, [])

def size : Leaf → Value → Nat
  | .scalar type, _ => type.size
  | .string, .blob text => 2 + text.length
  | .bytes, .blob data => data.length
  | _, _ => 0

inductive Holds (allowed : Bytes → Prop) : Leaf → Value → Prop
  | scalar {type : Scalar} {value : Int} :
      type.InRange value → Holds allowed (.scalar type) (.int value)
  | string {bytes : Bytes} : allowed bytes → Holds allowed .string (.blob bytes)
  | bytes {bytes : Bytes} : Holds allowed .bytes (.blob bytes)

end Leaf

def Short (bytes : Bytes) : Prop := bytes.length ≤ 0xffff

variable {count : Nat} {input rest bytes : Bytes} {leaves : List Leaf} {values : List Value}

theorem readFull_append (head rest : Bytes) (length : head.length = count) :
    readFull count (head ++ rest) = .ok (head, rest) := by
  subst length
  rw [readFull, takeExact_append]

theorem readFull_eq_ok {head : Bytes} :
    readFull count input = .ok (head, rest) ↔ head.length = count ∧ input = head ++ rest := by
  constructor
  · intro taken
    unfold readFull at taken
    split at taken
    · rename_i found
      cases taken
      exact takeExact_some found
    · cases taken
  · rintro ⟨length, rfl⟩
    exact readFull_append head rest length

theorem readFull_short (short : input.length < count) : readFull count input = .error .eof := by
  have none_ : takeExact count input = none := by
    unfold takeExact
    rw [if_neg (by omega)]
  rw [readFull, none_]

theorem readFull_eof (eof : readFull count input = .error .eof) : input.length < count := by
  by_contra enough
  have isRead := readFull_append (input.take count) (input.drop count)
    (List.length_take_of_le (Nat.not_lt.mp enough))
  rw [List.take_append_drop, eof] at isRead
  cases isRead

theorem readFull_cases (count : Nat) (input : Bytes) :
    (∃ head rest, readFull count input = .ok (head, rest)) ∨ readFull count input = .error .eof := by
  unfold readFull
  split
  · exact .inl ⟨_, _, rfl⟩
  · exact .inr rfl

theorem readStr_append (short : Short bytes) (rest : Bytes) :
    readStrFromReader (leBytes 2 bytes.length ++ bytes ++ rest) = .ok (bytes, rest) := by
  have size : leNat (leBytes 2 bytes.length) = bytes.length := by
    apply leNat_leBytes
    unfold Short at short
    omega
  unfold readStrFromReader
  rw [List.append_assoc, readFull_append _ _ (leBytes_length 2 _)]
  simp only [ok_bind, size]
  split
  · rename_i empty
    rw [List.length_eq_zero_iff.mp empty]
    rfl
  · exact readFull_append bytes rest rfl

theorem readStr_eq_ok (isRead : readStrFromReader input = .ok (bytes, rest)) :
    Short bytes ∧ input = leBytes 2 bytes.length ++ bytes ++ rest := by
  unfold readStrFromReader at isRead
  obtain ⟨⟨head, after⟩, headRead, remaining⟩ := bind_eq_ok.mp isRead
  obtain ⟨headLength, rfl⟩ := readFull_eq_ok.mp headRead
  have bounded := leNat_lt head
  rw [headLength] at bounded
  have length : bytes.length = leNat head ∧ after = bytes ++ rest := by
    dsimp only at remaining
    split at remaining
    · rename_i empty
      cases remaining
      exact ⟨empty.symm, rfl⟩
    · exact readFull_eq_ok.mp remaining
  obtain ⟨isLength, rfl⟩ := length
  refine ⟨?_, ?_⟩
  · unfold Short
    omega
  · rw [isLength, ← headLength, leBytes_leNat, List.append_assoc]

theorem readStr_cases (input : Bytes) :
    (∃ bytes rest, readStrFromReader input = .ok (bytes, rest)) ∨
      readStrFromReader input = .error .eof := by
  unfold readStrFromReader
  cases readFull_cases 2 input with
  | inl taken =>
    obtain ⟨head, rest, isRead⟩ := taken
    rw [isRead, ok_bind]
    dsimp only
    split
    · exact .inl ⟨_, _, rfl⟩
    · exact readFull_cases _ _
  | inr short =>
    rw [short]
    exact .inr rfl

namespace Leaf

variable {leaf : Leaf} {value : Value} {allowed : Bytes → Prop}

theorem decode_encode {bytes : Bytes} (holds : leaf.Holds allowed value)
    (encoded : leaf.encode value = .ok bytes) (rest : Bytes) (last : leaf = .bytes → rest = []) :
    leaf.decode (bytes ++ rest) = .ok (value, rest) := by
  cases holds with
  | @scalar type value inRange =>
    cases encoded
    have number := leNat_leBytes _ _ (type.toUnsigned_lt value)
    rw [decode, readFull_append _ _ (leBytes_length _ _)]
    simp only [ok_bind, number, Scalar.ofUnsigned_toUnsigned inRange]
    rfl
  | @string text isAllowed =>
    simp only [encode, writeStrToWriter] at encoded
    split at encoded
    · cases encoded
    · rename_i short
      cases encoded
      rw [decode, readStr_append (Nat.not_lt.mp short)]
      rfl
  | bytes =>
    cases encoded
    rw [last rfl, List.append_nil]
    rfl

theorem encode_decode {input rest : Bytes} (decoded : leaf.decode input = .ok (value, rest)) :
    leaf.Holds Short value ∧ ∃ bytes, leaf.encode value = .ok bytes ∧ input = bytes ++ rest := by
  cases leaf with
  | scalar type =>
    obtain ⟨⟨head, after⟩, headRead, same⟩ := bind_eq_ok.mp decoded
    obtain ⟨headLength, rfl⟩ := readFull_eq_ok.mp headRead
    have bounded := leNat_lt head
    rw [headLength] at bounded
    cases same
    refine ⟨.scalar (Scalar.ofUnsigned_inRange bounded), head, ?_, rfl⟩
    rw [encode, Scalar.toUnsigned_ofUnsigned bounded, ← headLength, leBytes_leNat]
  | string =>
    obtain ⟨⟨text, after⟩, textRead, same⟩ := bind_eq_ok.mp decoded
    obtain ⟨short, rfl⟩ := readStr_eq_ok textRead
    cases same
    refine ⟨.string short, _, ?_, rfl⟩
    rw [encode, writeStrToWriter, if_neg (Nat.not_lt.mpr short)]
  | bytes =>
    cases decoded
    exact ⟨.bytes, input, rfl, (List.append_nil _).symm⟩

theorem encode_short (holds : leaf.Holds Short value) : ∃ bytes, leaf.encode value = .ok bytes := by
  cases holds with
  | scalar inRange => exact ⟨_, rfl⟩
  | string short =>
    rw [encode, writeStrToWriter, if_neg (Nat.not_lt.mpr short)]
    exact ⟨_, rfl⟩
  | bytes => exact ⟨_, rfl⟩

theorem encode_cases (holds : leaf.Holds allowed value) :
    leaf.encode value = .error .tooLong ∨
      ∃ bytes, leaf.encode value = .ok bytes ∧ bytes.length = leaf.size value := by
  cases holds with
  | scalar inRange => exact .inr ⟨_, rfl, leBytes_length _ _⟩
  | @string text isAllowed =>
    rw [encode, writeStrToWriter]
    split
    · exact .inl rfl
    · refine .inr ⟨_, rfl, ?_⟩
      rw [List.length_append, leBytes_length, size]
  | bytes => exact .inr ⟨_, rfl, rfl⟩

theorem encode_tooLong (tooLong : leaf.encode value = .error .tooLong) : 0xffff < leaf.size value := by
  unfold encode at tooLong
  split at tooLong
  · cases tooLong
  · unfold writeStrToWriter at tooLong
    split at tooLong
    · rw [size]
      omega
    · cases tooLong
  · cases tooLong
  · cases tooLong

theorem decode_cases (leaf : Leaf) (input : Bytes) :
    (∃ value rest, leaf.decode input = .ok (value, rest)) ∨ leaf.decode input = .error .eof := by
  cases leaf with
  | scalar type =>
    rw [decode]
    cases readFull_cases type.size input with
    | inl taken =>
      obtain ⟨head, rest, isRead⟩ := taken
      rw [isRead]
      exact .inl ⟨_, _, rfl⟩
    | inr short =>
      rw [short]
      exact .inr rfl
  | string =>
    rw [decode]
    cases readStr_cases input with
    | inl taken =>
      obtain ⟨text, rest, isRead⟩ := taken
      rw [isRead]
      exact .inl ⟨_, _, rfl⟩
    | inr short =>
      rw [short]
      exact .inr rfl
  | bytes => exact .inl ⟨_, _, rfl⟩

end Leaf

/-! ### Sequences of leaves -/

def encodeAll : List Leaf → List Value → Except Failure Bytes
  | [], [] => .ok []
  | leaf :: leaves, value :: values => do
      let head ← leaf.encode value
      let tail ← encodeAll leaves values
      return head ++ tail
  | _, _ => .error .stuck

def decodeAll : List Leaf → Bytes → Except Failure (List Value × Bytes)
  | [], input => .ok ([], input)
  | leaf :: leaves, input => do
      let (value, after) ← leaf.decode input
      let (values, rest) ← decodeAll leaves after
      return (value :: values, rest)

def sizeAll (leaves : List Leaf) (values : List Value) : Nat :=
  (List.zipWith Leaf.size leaves values).sum

def bytesLast : List Leaf → Bool
  | [] => true
  | .bytes :: rest => rest.isEmpty
  | _ :: rest => bytesLast rest

theorem encodeAll_append (lengths : leaves.length = values.length) (leaves' : List Leaf)
    (values' : List Value) :
    encodeAll (leaves ++ leaves') (values ++ values') = do
      let head ← encodeAll leaves values
      let tail ← encodeAll leaves' values'
      return head ++ tail := by
  induction leaves generalizing values with
  | nil =>
    rw [List.length_nil] at lengths
    rw [List.length_eq_zero_iff.mp lengths.symm]
    exact (bind_pure _).symm
  | cons leaf rest ih =>
    cases values with
    | nil => cases lengths
    | cons value values =>
      have shorter : rest.length = values.length := Nat.succ.inj lengths
      simp only [List.cons_append, encodeAll, ih shorter, bind_assoc, pure_bind,
        List.append_assoc]

theorem decodeAll_append (leaves leaves' : List Leaf) (input : Bytes) :
    decodeAll (leaves ++ leaves') input = do
      let (values, after) ← decodeAll leaves input
      let (values', rest) ← decodeAll leaves' after
      return (values ++ values', rest) := by
  induction leaves generalizing input with
  | nil =>
    simp only [List.nil_append, decodeAll, ok_bind]
    exact (bind_pure _).symm
  | cons leaf rest ih =>
    simp only [List.cons_append, decodeAll, ih, bind_assoc, pure_bind,
      List.cons_append]

variable {allowed : Bytes → Prop}

theorem decodeAll_encodeAll (hold : List.Forall₂ (Leaf.Holds allowed) leaves values)
    (encoded : encodeAll leaves values = .ok bytes) (delimited : bytesLast leaves = true) (rest : Bytes)
    (last : leaves.getLast? = some .bytes → rest = []) :
    decodeAll leaves (bytes ++ rest) = .ok (values, rest) := by
  induction hold generalizing bytes with
  | nil =>
    cases encoded
    rfl
  | @cons leaf value leaves values holds _ ih =>
    obtain ⟨head, headEncoded, remaining⟩ := bind_eq_ok.mp encoded
    obtain ⟨tail, tailEncoded, same⟩ := bind_eq_ok.mp remaining
    cases same
    have tailDelimited : bytesLast leaves = true := by
      cases leaf with
      | scalar type => exact delimited
      | string => exact delimited
      | bytes =>
        rw [List.isEmpty_iff.mp delimited]
        rfl
    have tailLast : leaves.getLast? = some .bytes → rest = [] := by
      intro isLast
      cases leaves with
      | nil => cases isLast
      | cons other more => exact last (by rw [List.getLast?_cons_cons]; exact isLast)
    have tailDecoded := ih tailEncoded tailDelimited tailLast
    have headDecoded := Leaf.decode_encode holds headEncoded (tail ++ rest) fun isBytes => by
      subst isBytes
      have noMore : leaves = [] := List.isEmpty_iff.mp delimited
      subst noMore
      cases values with
      | nil =>
        cases tailEncoded
        exact last rfl
      | cons other more => cases tailEncoded
    rw [decodeAll, List.append_assoc, headDecoded, ok_bind]
    dsimp only
    rw [tailDecoded]
    rfl

theorem encodeAll_decodeAll (decoded : decodeAll leaves input = .ok (values, rest)) :
    List.Forall₂ (Leaf.Holds Short) leaves values ∧
      ∃ bytes, encodeAll leaves values = .ok bytes ∧ input = bytes ++ rest := by
  induction leaves generalizing input values with
  | nil =>
    cases decoded
    exact ⟨.nil, [], rfl, rfl⟩
  | cons leaf leaves ih =>
    obtain ⟨⟨value, after⟩, headDecoded, remaining⟩ := bind_eq_ok.mp decoded
    obtain ⟨⟨others, last⟩, tailDecoded, same⟩ := bind_eq_ok.mp remaining
    cases same
    obtain ⟨holds, head, headEncoded, rfl⟩ := Leaf.encode_decode headDecoded
    obtain ⟨hold, tail, tailEncoded, rfl⟩ := ih tailDecoded
    refine ⟨.cons holds hold, head ++ tail, ?_, (List.append_assoc ..).symm⟩
    rw [encodeAll, headEncoded, ok_bind, tailEncoded]
    rfl

theorem encodeAll_short (hold : List.Forall₂ (Leaf.Holds Short) leaves values) :
    ∃ bytes, encodeAll leaves values = .ok bytes := by
  induction hold with
  | nil => exact ⟨[], rfl⟩
  | cons holds _ ih =>
    obtain ⟨head, headEncoded⟩ := Leaf.encode_short holds
    obtain ⟨tail, tailEncoded⟩ := ih
    refine ⟨head ++ tail, ?_⟩
    rw [encodeAll, headEncoded, ok_bind, tailEncoded]
    rfl

theorem encodeAll_cases (hold : List.Forall₂ (Leaf.Holds allowed) leaves values) :
    encodeAll leaves values = .error .tooLong ∨
      ∃ bytes, encodeAll leaves values = .ok bytes ∧ bytes.length = sizeAll leaves values := by
  induction hold with
  | nil => exact .inr ⟨[], rfl, rfl⟩
  | cons holds _ ih =>
    rw [encodeAll]
    cases Leaf.encode_cases holds with
    | inl tooLong =>
      rw [tooLong]
      exact .inl rfl
    | inr encoded =>
      obtain ⟨head, headEncoded, headLength⟩ := encoded
      rw [headEncoded, ok_bind]
      cases ih with
      | inl tooLong =>
        rw [tooLong]
        exact .inl rfl
      | inr rest =>
        obtain ⟨tail, tailEncoded, tailLength⟩ := rest
        rw [tailEncoded]
        refine .inr ⟨head ++ tail, rfl, ?_⟩
        rw [List.length_append, headLength, tailLength]
        rfl

theorem encodeAll_tooLong (tooLong : encodeAll leaves values = .error .tooLong) :
    0xffff < sizeAll leaves values := by
  induction leaves generalizing values with
  | nil => cases values <;> cases tooLong
  | cons leaf leaves ih =>
    cases values with
    | nil => cases tooLong
    | cons value values =>
      have total : sizeAll (leaf :: leaves) (value :: values) =
        leaf.size value + sizeAll leaves values := rfl
      rw [encodeAll] at tooLong
      cases headEncoded : leaf.encode value with
      | ok head =>
        rw [headEncoded, ok_bind] at tooLong
        cases tailEncoded : encodeAll leaves values with
        | ok tail =>
          rw [tailEncoded] at tooLong
          cases tooLong
        | error failure =>
          rw [tailEncoded] at tooLong
          cases tooLong
          have longTail := ih tailEncoded
          omega
      | error failure =>
        rw [headEncoded] at tooLong
        cases tooLong
        have longHead := Leaf.encode_tooLong headEncoded
        omega

theorem decodeAll_cases (leaves : List Leaf) (input : Bytes) :
    (∃ values rest, decodeAll leaves input = .ok (values, rest)) ∨
      decodeAll leaves input = .error .eof := by
  induction leaves generalizing input with
  | nil => exact .inl ⟨[], input, rfl⟩
  | cons leaf leaves ih =>
    rw [decodeAll]
    cases leaf.decode_cases input with
    | inr eof =>
      rw [eof]
      exact .inr rfl
    | inl taken =>
      obtain ⟨value, after, isRead⟩ := taken
      rw [isRead, ok_bind]
      cases ih after with
      | inl others =>
        obtain ⟨values, rest, isDecoded⟩ := others
        dsimp only
        rw [isDecoded]
        exact .inl ⟨_, _, rfl⟩
      | inr eof =>
        dsimp only
        rw [eof]
        exact .inr rfl

theorem sizeAll_append (lengths : leaves.length = values.length) (leaves' : List Leaf)
    (values' : List Value) :
    sizeAll (leaves ++ leaves') (values ++ values') = sizeAll leaves values + sizeAll leaves' values' := by
  rw [sizeAll, List.zipWith_append lengths, List.sum_append, sizeAll, sizeAll]

/-! ### A byte slice in the middle -/

def Leaf.sample : Leaf → Value
  | .scalar _ => .int 0
  | .string => .blob []
  | .bytes => .blob [1]

theorem Leaf.sample_holds (leaf : Leaf) : leaf.Holds Short leaf.sample := by
  cases leaf with
  | scalar type => exact .scalar (by cases type <;> decide)
  | string => exact .string (Nat.zero_le _)
  | bytes => exact .bytes

theorem Leaf.sample_size (leaf : Leaf) : 0 < leaf.size leaf.sample := by
  cases leaf with
  | scalar type => cases type <;> decide
  | string => decide
  | bytes => decide

theorem samples_hold (leaves : List Leaf) :
    List.Forall₂ (Leaf.Holds Short) leaves (leaves.map Leaf.sample) := by
  induction leaves with
  | nil => exact .nil
  | cons leaf leaves ih => exact .cons leaf.sample_holds ih

theorem decodeAll_samples (undelimited : bytesLast leaves = false)
    (encoded : encodeAll leaves (leaves.map Leaf.sample) = .ok bytes) (input : Bytes) :
    decodeAll leaves (bytes ++ input) ≠ .ok (leaves.map Leaf.sample, rest) := by
  induction leaves generalizing bytes with
  | nil => cases undelimited
  | cons leaf leaves ih =>
    intro decoded
    obtain ⟨head, headEncoded, remaining⟩ := bind_eq_ok.mp encoded
    obtain ⟨tail, tailEncoded, same⟩ := bind_eq_ok.mp remaining
    cases same
    obtain ⟨⟨value, after⟩, headDecoded, more⟩ := bind_eq_ok.mp decoded
    obtain ⟨⟨values, last⟩, tailDecoded, same⟩ := bind_eq_ok.mp more
    cases same
    rw [List.append_assoc] at headDecoded
    by_cases isBytes : leaf = .bytes
    · subst isBytes
      cases headEncoded
      cases leaves with
      | nil => cases undelimited
      | cons other leaves =>
        have nonempty : tail ≠ [] := by
          rintro rfl
          obtain ⟨first, firstEncoded, others⟩ := bind_eq_ok.mp tailEncoded
          obtain ⟨_, _, empty⟩ := bind_eq_ok.mp others
          have firstEmpty : first = [] := (List.append_eq_nil_iff.mp (Except.ok.inj empty)).1
          cases Leaf.encode_cases other.sample_holds with
          | inl tooLong =>
            rw [tooLong] at firstEncoded
            cases firstEncoded
          | inr sized =>
            obtain ⟨same, isSame, length⟩ := sized
            rw [isSame] at firstEncoded
            cases firstEncoded
            have positive := other.sample_size
            rw [← length, firstEmpty] at positive
            exact absurd positive (Nat.lt_irrefl 0)
        cases tail with
        | nil => exact nonempty rfl
        | cons byte tail => cases headDecoded
    · have isRead := Leaf.decode_encode leaf.sample_holds headEncoded (tail ++ input)
        fun same => absurd same isBytes
      rw [isRead] at headDecoded
      cases headDecoded
      have restUndelimited : bytesLast leaves = false := by
        cases leaf with
        | scalar type => exact undelimited
        | string => exact undelimited
        | bytes => exact absurd rfl isBytes
      exact ih restUndelimited tailEncoded tailDecoded

end Wsfs.Protocol.Gen
