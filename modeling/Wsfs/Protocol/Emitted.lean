/-
What the emitted functions do. A value is an integer, a string of bytes or a record; which
of them a field holds is a matter of its type. An index outside of the scratch buffer is a
panic of the Go runtime, and a statement that no Go program of these types has is stuck.

Calls nest at most as deep as there are functions, so their number is fuel enough.
-/

import Wsfs.Base.Codec
import Wsfs.Protocol.Generator

namespace Wsfs.Protocol.Gen

open Wsfs.Base

/-! ### Values -/

inductive Value
  | int (value : Int)
  | blob (bytes : Bytes)
  | record (fields : List Value)
deriving Repr

inductive Failure
  | tooLong
  | eof
  | panic
  | stuck
  | depth
deriving DecidableEq, Repr

namespace Scalar

def signed : Scalar → Bool
  | .int8 => true
  | .int16 => true
  | .int32 => true
  | .int64 => true
  | _ => false

def modulus (type : Scalar) : Nat := 2 ^ (8 * type.size)

def InRange (type : Scalar) (value : Int) : Prop :=
  if type.signed then -(type.modulus : Int) ≤ 2 * value ∧ 2 * value < type.modulus
  else 0 ≤ value ∧ value < type.modulus

instance (type : Scalar) (value : Int) : Decidable (type.InRange value) := by
  unfold InRange
  infer_instance

def toUnsigned (type : Scalar) (value : Int) : Nat := (value % type.modulus).toNat

def ofUnsigned (type : Scalar) (number : Nat) : Int :=
  if type.signed ∧ type.modulus ≤ 2 * number then number - type.modulus else number

end Scalar

section Emitted

variable {Name : Type} [DecidableEq Name]

/-- A value of a type, its strings as allowed. -/
inductive Typed (infos : StructInfos Name) (allowed : Bytes → Prop) : FieldType Name → Value → Prop
  | scalar {type : Scalar} {value : Int} :
      type.InRange value → Typed infos allowed (.scalar type) (.int value)
  | string {bytes : Bytes} : allowed bytes → Typed infos allowed .string (.blob bytes)
  | bytes {bytes : Bytes} : Typed infos allowed .bytes (.blob bytes)
  | struct {name : Name} {values : List Value} : name ∈ infos.names →
      List.Forall₂ (Typed infos allowed) (infos.fields name) values →
      Typed infos allowed (.other name) (.record values)

/-! ### Strings -/

/-- Both builds of `writeStrLenPrefix` write the two bytes in the same order. -/
def writeStrToWriter (bytes : Bytes) : Except Failure Bytes :=
  if 0xffff < bytes.length then .error .tooLong else .ok (leBytes 2 bytes.length ++ bytes)

def readFull (count : Nat) (input : Bytes) : Except Failure (Bytes × Bytes) :=
  match takeExact count input with
  | some taken => .ok taken
  | none => .error .eof

def readStrFromReader (input : Bytes) : Except Failure (Bytes × Bytes) := do
  let (head, rest) ← readFull 2 input
  let size := leNat head
  if size = 0 then return ([], rest) else readFull size rest

/-! ### Writers -/

/-- The scratch buffer of a writer, and what it has written. -/
structure Scratch where
  buf : Bytes
  out : Bytes

def field (d : List Value) (index : Nat) : Except Failure Value :=
  match d[index]? with
  | some value => .ok value
  | none => .error .stuck

/-- An integer as it goes through `byte(…)` or `uint16(…)` and so on, and as a little-endian
machine has it in memory. -/
def unsignedField (d : List Value) (index size : Nat) : Except Failure Nat := do
  match ← field d index with
  | .int value => return (value % (2 ^ (8 * size) : Nat)).toNat
  | _ => .error .stuck

def blobField (d : List Value) (index : Nat) : Except Failure Bytes := do
  match ← field d index with
  | .blob bytes => return bytes
  | _ => .error .stuck

/-- `buf[offset]`, or `buf[offset:]` as far as `PutUint` writes it. -/
def put (state : Scratch) (offset : Nat) (bytes : Bytes) : Except Failure Scratch :=
  if state.buf.length < offset + bytes.length then .error .panic
  else
    .ok { state with
      buf := state.buf.take offset ++ bytes ++ state.buf.drop (offset + bytes.length) }

def Scratch.write (state : Scratch) (bytes : Bytes) : Scratch :=
  { state with out := state.out ++ bytes }

def WriteStmt.exec (call : Name → Value → Except Failure Bytes) (d : List Value) (state : Scratch) :
    WriteStmt Name → Except Failure Scratch
  | .putByte offset index => do
      let number ← unsignedField d index 1
      put state offset (leBytes 1 number)
  | .putUint size offset index => do
      let number ← unsignedField d index size
      put state offset (leBytes size number)
  | .flush count =>
      if state.buf.length < count then .error .panic else .ok (state.write (state.buf.take count))
  | .memory index size => do
      let number ← unsignedField d index size
      return state.write (leBytes size number)
  | .str index => do
      let bytes ← blobField d index
      let written ← writeStrToWriter bytes
      return state.write written
  | .bytes index => do
      let bytes ← blobField d index
      return state.write bytes
  | .struct type index => do
      let value ← field d index
      let written ← call type value
      return state.write written

def WriteFunc.run (call : Name → Value → Except Failure Bytes) (func : WriteFunc Name)
    (d : List Value) : Except Failure Bytes := do
  let last ← func.body.foldlM (WriteStmt.exec call d) ⟨List.replicate func.bufSize 0, []⟩
  return last.out

/-- `Write…ToWriter`, with a writer that takes everything. -/
def Emitted.write (emitted : Emitted Name) : Nat → Name → Value → Except Failure Bytes
  | 0, _, _ => .error .depth
  | fuel + 1, name, value =>
      match emitted.writers.lookup name, value with
      | some func, .record d => func.run (emitted.write fuel) d
      | _, _ => .error .stuck

/-! ### Required sizes -/

def SizeTerm.eval (call : Name → Value → Except Failure Nat) (d : List Value) :
    SizeTerm Name → Except Failure Nat
  | .len index => do
      let bytes ← blobField d index
      return bytes.length
  | .required type index => do
      let value ← field d index
      call type value

/-- `Get…RequiredSize` -/
def Emitted.requiredSize (emitted : Emitted Name) : Nat → Name → Value → Except Failure Nat
  | 0, _, _ => .error .depth
  | fuel + 1, name, value =>
      match emitted.sizes.lookup name, value with
      | some func, .record d => do
          let sizes ← func.terms.mapM (SizeTerm.eval (emitted.requiredSize fuel) d)
          return sizes.sum + func.constSize
      | _, _ => .error .stuck

/-! ### Readers -/

/-- The scratch buffer of a reader, the fields that it has assigned, and what it has not
read. -/
structure Reading where
  buf : Bytes
  d : List Value
  rest : Bytes

def Reading.assign (state : Reading) (index : Nat) (value : Value) : Except Failure Reading :=
  if index = state.d.length then .ok { state with d := state.d ++ [value] } else .error .stuck

/-- `buf[offset]`, or `buf[offset:]` as far as `Uint16` and so on read it. -/
def get (buf : Bytes) (offset size : Nat) : Except Failure Bytes :=
  if buf.length < offset + size then .error .panic else .ok ((buf.drop offset).take size)

def ReadStmt.exec (call : Name → Bytes → Except Failure (Value × Bytes)) (state : Reading) :
    ReadStmt Name → Except Failure Reading
  | .fill count =>
      if state.buf.length < count then .error .panic
      else do
        let (head, rest) ← readFull count state.rest
        return { state with buf := head ++ state.buf.drop count, rest := rest }
  | .getByte index type offset => do
      let bytes ← get state.buf offset 1
      state.assign index (.int (type.ofUnsigned (leNat bytes)))
  | .getUint index type size offset => do
      let bytes ← get state.buf offset size
      state.assign index (.int (type.ofUnsigned (leNat bytes)))
  | .memory index type size => do
      let (head, rest) ← readFull size state.rest
      ({ state with rest := rest }).assign index (.int (type.ofUnsigned (leNat head)))
  | .str index => do
      let (bytes, rest) ← readStrFromReader state.rest
      ({ state with rest := rest }).assign index (.blob bytes)
  | .all index => ({ state with rest := [] }).assign index (.blob state.rest)
  | .struct type index => do
      let (value, rest) ← call type state.rest
      ({ state with rest := rest }).assign index value

def ReadFunc.run (call : Name → Bytes → Except Failure (Value × Bytes)) (func : ReadFunc Name)
    (input : Bytes) : Except Failure (Value × Bytes) := do
  let last ← func.body.foldlM (ReadStmt.exec call) ⟨List.replicate func.bufSize 0, [], input⟩
  return (.record last.d, last.rest)

/-- `Read…FromReader`, with a reader over the input. -/
def Emitted.read (emitted : Emitted Name) : Nat → Name → Bytes → Except Failure (Value × Bytes)
  | 0, _, _ => .error .depth
  | fuel + 1, name, input =>
      match emitted.readers.lookup name with
      | some func => func.run (emitted.read fuel) input
      | none => .error .stuck

end Emitted

end Wsfs.Protocol.Gen
