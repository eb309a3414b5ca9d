/-
Byte codecs that leave an exact unread suffix.

A codec pairs a writer, which may refuse a value, with a reader, which may
refuse an input. Both laws are fields: a written value reads back with every
later byte untouched, and a successful read consumed exactly the bytes that
writing its result produces. Codecs are therefore closed under pairing and
under changes of representation, and no law is proved twice.
-/

import Mathlib.Algebra.Ring.Nat
import Mathlib.Data.List.Basic

namespace Wsfs.Base

abbrev Bytes := List UInt8

/-- Little-endian digits of a number in a fixed number of bytes. -/
def leBytes : Nat → Nat → Bytes
  | 0, _ => []
  | width + 1, value => UInt8.ofNat (value % 256) :: leBytes width (value / 256)

def leNat : Bytes → Nat
  | [] => 0
  | byte :: rest => byte.toNat + 256 * leNat rest

@[simp] theorem leBytes_length (width value : Nat) : (leBytes width value).length = width := by
  induction width generalizing value with
  | zero => rfl
  | succ width ih => simp only [leBytes, List.length_cons, ih]

theorem leNat_lt (bytes : Bytes) : leNat bytes < 256 ^ bytes.length := by
  induction bytes with
  | nil => simp [leNat]
  | cons byte rest ih =>
    have bounded := byte.toNat_lt
    simp only [leNat, List.length_cons, Nat.pow_succ]
    omega

theorem leNat_leBytes (width value : Nat) (bounded : value < 256 ^ width) :
    leNat (leBytes width value) = value := by
  induction width generalizing value with
  | zero =>
    simp only [Nat.pow_zero] at bounded
    simp only [leBytes, leNat]
    omega
  | succ width ih =>
    have quotient : value / 256 < 256 ^ width := by
      rw [Nat.pow_succ] at bounded
      exact Nat.div_lt_of_lt_mul (by omega)
    have digit : (UInt8.ofNat (value % 256)).toNat = value % 256 := by
      rw [UInt8.toNat_ofNat']
      omega
    simp only [leBytes, leNat, ih _ quotient, digit]
    omega

theorem leBytes_leNat (bytes : Bytes) : leBytes bytes.length (leNat bytes) = bytes := by
  induction bytes with
  | nil => rfl
  | cons byte rest ih =>
    have bounded := byte.toNat_lt
    have digit : (byte.toNat + 256 * leNat rest) % 256 = byte.toNat := by omega
    have quotient : (byte.toNat + 256 * leNat rest) / 256 = leNat rest := by omega
    simp only [List.length_cons, leBytes, leNat, digit, quotient, ih, UInt8.ofNat_toNat]

/-- Take exactly `count` bytes, as a full read of a fixed buffer does. -/
def takeExact (count : Nat) (input : Bytes) : Option (Bytes × Bytes) :=
  if count ≤ input.length then some (input.take count, input.drop count) else none

theorem takeExact_append (head suffix : Bytes) :
    takeExact head.length (head ++ suffix) = some (head, suffix) := by
  simp [takeExact]

theorem takeExact_some {count : Nat} {input head rest : Bytes}
    (taken : takeExact count input = some (head, rest)) :
    head.length = count ∧ input = head ++ rest := by
  unfold takeExact at taken
  split at taken
  · rename_i enough
    cases taken
    exact ⟨by rw [List.length_take]; omega, (List.take_append_drop count input).symm⟩
  · cases taken

structure Codec (α : Type) where
  write : α → Option Bytes
  read : Bytes → Option (α × Bytes)
  read_write : ∀ value bytes suffix,
    write value = some bytes → read (bytes ++ suffix) = some (value, suffix)
  write_read : ∀ input value rest,
    read input = some (value, rest) → ∃ bytes, write value = some bytes ∧ input = bytes ++ rest

namespace Codec

variable {α β : Type}

/-- An unsigned word of `width` bytes, given by its natural number. -/
def word (width : Nat) (toNat : α → Nat) (ofNat : Nat → α)
    (ofNat_toNat : ∀ value, ofNat (toNat value) = value)
    (toNat_lt : ∀ value, toNat value < 256 ^ width)
    (toNat_ofNat : ∀ number, number < 256 ^ width → toNat (ofNat number) = number) :
    Codec α where
  write value := some (leBytes width (toNat value))
  read input := (takeExact width input).map fun (head, rest) => (ofNat (leNat head), rest)
  read_write := by
    intro value bytes suffix written
    cases written
    have taken := takeExact_append (leBytes width (toNat value)) suffix
    rw [leBytes_length] at taken
    simp only [taken, Option.map_some, leNat_leBytes _ _ (toNat_lt value), ofNat_toNat]
  write_read := by
    intro input value rest readOk
    obtain ⟨⟨head, tail⟩, taken, same⟩ := Option.map_eq_some_iff.mp readOk
    obtain ⟨headLength, split⟩ := takeExact_some taken
    cases same
    have bounded : leNat head < 256 ^ width := headLength ▸ leNat_lt head
    refine ⟨head, ?_, split⟩
    rw [toNat_ofNat _ bounded, ← headLength, leBytes_leNat]

def pair (first : Codec α) (second : Codec β) : Codec (α × β) where
  write value := (first.write value.1).bind fun head =>
    (second.write value.2).map fun tail => head ++ tail
  read input := (first.read input).bind fun (left, afterLeft) =>
    (second.read afterLeft).map fun (right, rest) => ((left, right), rest)
  read_write := by
    intro value bytes suffix written
    obtain ⟨head, headWritten, rest⟩ := Option.bind_eq_some_iff.mp written
    obtain ⟨tail, tailWritten, same⟩ := Option.map_eq_some_iff.mp rest
    subst bytes
    simp only [List.append_assoc, first.read_write _ _ _ headWritten, Option.bind_some,
      second.read_write _ _ _ tailWritten, Option.map_some]
  write_read := by
    intro input value rest readOk
    obtain ⟨⟨left, afterLeft⟩, leftRead, remaining⟩ := Option.bind_eq_some_iff.mp readOk
    obtain ⟨⟨right, tail⟩, rightRead, same⟩ := Option.map_eq_some_iff.mp remaining
    cases same
    obtain ⟨head, headWritten, leftSplit⟩ := first.write_read _ _ _ leftRead
    obtain ⟨middle, middleWritten, rightSplit⟩ := second.write_read _ _ _ rightRead
    refine ⟨head ++ middle, ?_, ?_⟩
    · simp only [headWritten, middleWritten, Option.bind_some, Option.map_some]
    · rw [leftSplit, rightSplit, List.append_assoc]

/-- Transport a codec along a bijection, such as a record and its tuple of
fields. -/
def iso (codec : Codec α) (pack : α → β) (unpack : β → α)
    (pack_unpack : ∀ value, pack (unpack value) = value)
    (unpack_pack : ∀ fields, unpack (pack fields) = fields) : Codec β where
  write value := codec.write (unpack value)
  read input := (codec.read input).map fun (fields, rest) => (pack fields, rest)
  read_write := by
    intro value bytes suffix written
    simp only [codec.read_write _ _ _ written, Option.map_some, pack_unpack]
  write_read := by
    intro input value rest readOk
    obtain ⟨⟨fields, tail⟩, fieldsRead, same⟩ := Option.map_eq_some_iff.mp readOk
    cases same
    rw [unpack_pack]
    exact codec.write_read _ _ _ fieldsRead

def u8 : Codec UInt8 :=
  word 1 UInt8.toNat UInt8.ofNat (fun _ => UInt8.ofNat_toNat) (fun value => value.toNat_lt)
    (fun number bounded => by rw [UInt8.toNat_ofNat']; exact Nat.mod_eq_of_lt bounded)

def u16 : Codec UInt16 :=
  word 2 UInt16.toNat UInt16.ofNat (fun _ => UInt16.ofNat_toNat) (fun value => value.toNat_lt)
    (fun number bounded => by rw [UInt16.toNat_ofNat']; exact Nat.mod_eq_of_lt bounded)

def u32 : Codec UInt32 :=
  word 4 UInt32.toNat UInt32.ofNat (fun _ => UInt32.ofNat_toNat) (fun value => value.toNat_lt)
    (fun number bounded => by rw [UInt32.toNat_ofNat']; exact Nat.mod_eq_of_lt bounded)

def u64 : Codec UInt64 :=
  word 8 UInt64.toNat UInt64.ofNat (fun _ => UInt64.ofNat_toNat) (fun value => value.toNat_lt)
    (fun number bounded => by rw [UInt64.toNat_ofNat']; exact Nat.mod_eq_of_lt bounded)

/-- A signed word travels as the unsigned word of the same bits. -/
def i64 : Codec Int64 :=
  u64.iso UInt64.toInt64 Int64.toUInt64 (fun _ => rfl) (fun _ => rfl)

/-- A byte string behind its length. A string whose length does not fit the
prefix is refused by the writer. -/
def prefixed (length : Codec UInt16) : Codec Bytes where
  write value :=
    if value.length < 65536 then
      (length.write (UInt16.ofNat value.length)).map fun head => head ++ value
    else none
  read input := (length.read input).bind fun (size, rest) => takeExact size.toNat rest
  read_write := by
    intro value bytes suffix written
    by_cases fits : value.length < 65536
    · rw [if_pos fits] at written
      obtain ⟨head, headWritten, same⟩ := Option.map_eq_some_iff.mp written
      subst bytes
      have size : (UInt16.ofNat value.length).toNat = value.length := by
        rw [UInt16.toNat_ofNat']
        exact Nat.mod_eq_of_lt fits
      simp only [List.append_assoc, length.read_write _ _ _ headWritten, Option.bind_some, size]
      exact takeExact_append value suffix
    · rw [if_neg fits] at written
      cases written
  write_read := by
    intro input value rest readOk
    obtain ⟨⟨size, afterSize⟩, sizeRead, taken⟩ := Option.bind_eq_some_iff.mp readOk
    obtain ⟨valueLength, split⟩ := takeExact_some taken
    obtain ⟨head, headWritten, sizeSplit⟩ := length.write_read _ _ _ sizeRead
    have fits : value.length < 65536 := by
      have bounded := size.toNat_lt
      omega
    have size_eq : UInt16.ofNat value.length = size := by
      rw [valueLength, UInt16.ofNat_toNat]
    refine ⟨head ++ value, ?_, ?_⟩
    · rw [if_pos fits, size_eq, headWritten, Option.map_some]
    · rw [sizeSplit, split, List.append_assoc]

def str : Codec Bytes := prefixed u16

end Codec

end Wsfs.Base
