/-
The generator of the struct helpers: the analysis of the declarations and the functions
that it emits, as statements. Struct names are of any type, and a field is its place in
the struct. The portable code gathers runs of scalar fields in a scratch buffer; the
unsafe code writes and reads the memory of each field.
-/

import Mathlib.Data.List.Basic

namespace Wsfs.Protocol.Gen

/-! ### Declarations -/

inductive Scalar
  | uint8
  | uint16
  | uint32
  | uint64
  | int8
  | int16
  | int32
  | int64
deriving DecidableEq, Repr

def Scalar.size : Scalar → Nat
  | .uint8 => 1
  | .uint16 => 2
  | .uint32 => 4
  | .uint64 => 8
  | .int8 => 1
  | .int16 => 2
  | .int32 => 4
  | .int64 => 8

/-- Every other type expression is a name, of a struct or of nothing that is known. -/
inductive FieldType (Name : Type)
  | scalar (type : Scalar)
  | string
  | bytes
  | other (name : Name)
deriving DecidableEq, Repr

/-- The map of the same name, with the keys in the order of `sortedStructNames`. -/
structure StructInfos (Name : Type) where
  names : List Name
  fields : Name → List (FieldType Name)

section Generator

variable {Name : Type} [DecidableEq Name]

def builtinTypesSize : FieldType Name → Option Nat
  | .scalar type => some type.size
  | .string => some 0
  | .bytes => some 0
  | .other _ => none

inductive GenError (Name : Type)
  | unknownSize (name : Name)
  | unknownType (type : Name)
  | bytesNotLast (name : Name)
deriving DecidableEq, Repr

/-! ### Sizes -/

/-- The loop over the fields of one struct. `pods` has the sizes that are known. -/
def podSize (infos : StructInfos Name) (pods : Name → Option Nat) :
    Nat → List (FieldType Name) → Option Nat
  | size, [] => some size
  | size, .other name :: rest =>
      if name ∈ infos.names then
        match pods name with
        | some known => podSize infos pods (size + known) rest
        | none => none
      else none
  | size, field :: rest => podSize infos pods (size + (builtinTypesSize field).getD 0) rest

def visit (infos : StructInfos Name) (found : (Name → Option Nat) × Nat) (name : Name) :
    (Name → Option Nat) × Nat :=
  if (found.1 name).isSome then found
  else
    match podSize infos found.1 0 (infos.fields name) with
    | some size => (Function.update found.1 name (some size), found.2 + 1)
    | none => found

def analyzeStructInfoPODSize (infos : StructInfos Name) (order : List Name)
    (pods : Name → Option Nat) : (Name → Option Nat) × Nat :=
  order.foldl (visit infos) (pods, 0)

/-- The passes of `main`, until one finds nothing. -/
def analyze (infos : StructInfos Name) (orders : Nat → List Name) :
    Nat → Nat → (Name → Option Nat) → Option (Name → Option Nat)
  | 0, _, _ => none
  | fuel + 1, round, pods =>
      match analyzeStructInfoPODSize infos (orders round) pods with
      | (pods, 0) => some pods
      | (pods, _ + 1) => analyze infos orders fuel (round + 1) pods

/-- `history` is the longest run so far, `size` the run at hand. -/
def bufSizeFrom (history size : Nat) : List (FieldType Name) → Nat
  | [] => max size history
  | .scalar type :: rest => bufSizeFrom history (size + type.size) rest
  | _ :: rest => bufSizeFrom (max size history) 0 rest

def analyzeStructInfoBufSize (fields : List (FieldType Name)) : Nat := bufSizeFrom 0 0 fields

/-! ### Emitted functions -/

/-- The sum that `Get…RequiredSize` returns. -/
inductive SizeTerm (Name : Type)
  | len (field : Nat)
  | required (type : Name) (field : Nat)
deriving DecidableEq, Repr

structure SizeFunc (Name : Type) where
  terms : List (SizeTerm Name)
  constSize : Nat
deriving DecidableEq, Repr

/-- `putUint` is `PutUint16` and so on by the size, `flush` is `w.Write(buf[:count])`, and
`memory` writes the memory of a field. -/
inductive WriteStmt (Name : Type)
  | putByte (offset field : Nat)
  | putUint (size offset field : Nat)
  | flush (count : Nat)
  | memory (field size : Nat)
  | str (field : Nat)
  | bytes (field : Nat)
  | struct (type : Name) (field : Nat)
deriving DecidableEq, Repr

structure WriteFunc (Name : Type) where
  bufSize : Nat
  body : List (WriteStmt Name)
deriving DecidableEq, Repr

/-- `fill` is `io.ReadFull(r, buf[:count])`. A field of the struct has its declared type. -/
inductive ReadStmt (Name : Type)
  | fill (count : Nat)
  | getByte (field : Nat) (type : Scalar) (offset : Nat)
  | getUint (field : Nat) (type : Scalar) (size offset : Nat)
  | memory (field : Nat) (type : Scalar) (size : Nat)
  | str (field : Nat)
  | all (field : Nat)
  | struct (type : Name) (field : Nat)
deriving DecidableEq, Repr

structure ReadFunc (Name : Type) where
  bufSize : Nat
  body : List (ReadStmt Name)
deriving DecidableEq, Repr

def sizeTerms : Nat → List (FieldType Name) → List (SizeTerm Name)
  | _, [] => []
  | index, .scalar _ :: rest => sizeTerms (index + 1) rest
  | index, .string :: rest => .len index :: sizeTerms (index + 1) rest
  | index, .bytes :: rest => .len index :: sizeTerms (index + 1) rest
  | index, .other name :: rest => .required name index :: sizeTerms (index + 1) rest

def constSize : List (FieldType Name) → Nat
  | [] => 0
  | .scalar type :: rest => type.size + constSize rest
  | .string :: rest => 2 + constSize rest
  | _ :: rest => constSize rest

def genGetRequiredSize (infos : StructInfos Name) (name : Name) : SizeFunc Name :=
  ⟨sizeTerms 0 (infos.fields name), constSize (infos.fields name)⟩

section Writer

variable (unsafeMode : Bool) (infos : StructInfos Name) (bufSize : Nat)

/-- The statement for what is in the buffer, and the offset after it. -/
def writeFlushBuf (bufOffset : Nat) : List (WriteStmt Name) × Nat :=
  if unsafeMode ∨ bufOffset = 0 ∨ bufSize ≤ 0 then ([], bufOffset) else ([.flush bufOffset], 0)

def putScalar (type : Scalar) (bufOffset index : Nat) : WriteStmt Name :=
  if type.size = 1 then .putByte bufOffset index else .putUint type.size bufOffset index

def writeFields : Nat → Nat → List (FieldType Name) → Except (GenError Name) (List (WriteStmt Name))
  | _, bufOffset, [] => .ok (writeFlushBuf unsafeMode bufSize bufOffset).1
  | index, bufOffset, .scalar type :: rest => do
      if unsafeMode then
        let body ← writeFields (index + 1) bufOffset rest
        return .memory index type.size :: body
      else
        let body ← writeFields (index + 1) (bufOffset + type.size) rest
        return putScalar type bufOffset index :: body
  | index, bufOffset, .string :: rest => do
      let (flushed, bufOffset) := writeFlushBuf unsafeMode bufSize bufOffset
      let body ← writeFields (index + 1) bufOffset rest
      return flushed ++ .str index :: body
  | index, bufOffset, .bytes :: rest => do
      let (flushed, bufOffset) := writeFlushBuf unsafeMode bufSize bufOffset
      let body ← writeFields (index + 1) bufOffset rest
      return flushed ++ .bytes index :: body
  | index, bufOffset, .other name :: rest => do
      if name ∈ infos.names then
        let (flushed, bufOffset) := writeFlushBuf unsafeMode bufSize bufOffset
        let body ← writeFields (index + 1) bufOffset rest
        return flushed ++ .struct name index :: body
      else .error (.unknownType name)

end Writer

/-- No buffer is declared in unsafe mode, or where its size is zero. -/
def genWrite2Writer (unsafeMode : Bool) (infos : StructInfos Name) (name : Name) :
    Except (GenError Name) (WriteFunc Name) := do
  let bufSize := analyzeStructInfoBufSize (infos.fields name)
  let body ← writeFields unsafeMode infos bufSize 0 0 (infos.fields name)
  return ⟨if unsafeMode then 0 else bufSize, body⟩

section Reader

variable (unsafeMode : Bool) (bufSize : Nat) (name : Name)

/-- What was gathered for the buffer, and what is gathered after it. -/
def flushBuf (bufOffset : Nat) (bufStmts : List (ReadStmt Name)) :
    List (ReadStmt Name) × Nat × List (ReadStmt Name) :=
  if unsafeMode ∨ bufOffset = 0 ∨ bufSize ≤ 0 then ([], bufOffset, bufStmts)
  else (.fill bufOffset :: bufStmts, 0, [])

def getScalar (type : Scalar) (bufOffset index : Nat) : ReadStmt Name :=
  if type.size = 1 then .getByte index type bufOffset else .getUint index type type.size bufOffset

/-- A `[]byte` is refused unless it is the last field. -/
def readFields : Nat → Nat → List (ReadStmt Name) → List (FieldType Name) →
    Except (GenError Name) (List (ReadStmt Name))
  | _, bufOffset, bufStmts, [] => .ok (flushBuf unsafeMode bufSize bufOffset bufStmts).1
  | index, bufOffset, bufStmts, .scalar type :: rest => do
      if unsafeMode then
        let body ← readFields (index + 1) bufOffset bufStmts rest
        return .memory index type type.size :: body
      else
        readFields (index + 1) (bufOffset + type.size)
          (bufStmts ++ [getScalar type bufOffset index]) rest
  | index, bufOffset, bufStmts, .string :: rest => do
      let (flushed, bufOffset, bufStmts) := flushBuf unsafeMode bufSize bufOffset bufStmts
      let body ← readFields (index + 1) bufOffset bufStmts rest
      return flushed ++ .str index :: body
  | index, bufOffset, bufStmts, .bytes :: rest => do
      let (flushed, bufOffset, bufStmts) := flushBuf unsafeMode bufSize bufOffset bufStmts
      if rest ≠ [] then .error (.bytesNotLast name)
      else
        let body ← readFields (index + 1) bufOffset bufStmts rest
        return flushed ++ .all index :: body
  | index, bufOffset, bufStmts, .other type :: rest => do
      let (flushed, bufOffset, bufStmts) := flushBuf unsafeMode bufSize bufOffset bufStmts
      let body ← readFields (index + 1) bufOffset bufStmts rest
      return flushed ++ .struct type index :: body

end Reader

def genReadFromReader (unsafeMode : Bool) (infos : StructInfos Name) (name : Name) :
    Except (GenError Name) (ReadFunc Name) := do
  let bufSize := analyzeStructInfoBufSize (infos.fields name)
  let body ← readFields unsafeMode bufSize name 0 0 [] (infos.fields name)
  return ⟨if unsafeMode then 0 else bufSize, body⟩

/-! ### The generator -/

/-- The functions of the generated file, each under the name of its struct. -/
structure Emitted (Name : Type) where
  sizes : List (Name × SizeFunc Name)
  writers : List (Name × WriteFunc Name)
  readers : List (Name × ReadFunc Name)
deriving DecidableEq, Repr

def genHelper (unsafeMode : Bool) (infos : StructInfos Name) :
    Except (GenError Name) (Emitted Name) := do
  let sizes := infos.names.map fun name => (name, genGetRequiredSize infos name)
  let writers ← infos.names.mapM fun name =>
    (genWrite2Writer unsafeMode infos name).map fun func => (name, func)
  let readers ← infos.names.mapM fun name =>
    (genReadFromReader unsafeMode infos name).map fun func => (name, func)
  return ⟨sizes, writers, readers⟩

/-- `main`. Every pass but the last finds a struct, so their number is fuel enough. -/
def genStructHelper (unsafeMode : Bool) (orders : Nat → List Name) (infos : StructInfos Name) :
    Option (Except (GenError Name) (Emitted Name)) :=
  (analyze infos orders (infos.names.length + 1) 0 fun _ => none).map fun pods =>
    match infos.names.find? fun name => (pods name).isNone with
    | some name => .error (.unknownSize name)
    | none => genHelper unsafeMode infos

end Generator

end Wsfs.Protocol.Gen
