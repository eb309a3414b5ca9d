/-
The emitted functions realise the layout, in either mode. The portable code keeps a run of
scalar fields in its scratch buffer until something else comes, so what is proved about
the rest of a body speaks of the run that is pending there as well.
-/

import Wsfs.Protocol.Layout

namespace Wsfs.Protocol.Gen

open Wsfs.Base

variable {Name : Type}

theorem Scalar.size_pos (type : Scalar) : 0 < type.size := by
  cases type <;> decide

/-! ### The scratch buffer has room -/

theorem bufSizeFrom_cons {type : FieldType Name} (notScalar : ∀ scalar, type ≠ .scalar scalar)
    (history size : Nat) (types : List (FieldType Name)) :
    bufSizeFrom history size (type :: types) = bufSizeFrom (max size history) 0 types := by
  cases type with
  | scalar type => exact absurd rfl (notScalar type)
  | string => rfl
  | bytes => rfl
  | other name => rfl

theorem size_le_bufSizeFrom (history size : Nat) (types : List (FieldType Name)) :
    max size history ≤ bufSizeFrom history size types := by
  induction types generalizing history size with
  | nil => exact Nat.le_refl _
  | cons type types ih =>
    by_cases isScalar : ∃ scalar, type = .scalar scalar
    · obtain ⟨scalar, rfl⟩ := isScalar
      have next := ih history (size + scalar.size)
      rw [bufSizeFrom]
      omega
    · have next := ih (max size history) 0
      rw [bufSizeFrom_cons fun scalar same => isScalar ⟨scalar, same⟩]
      omega

/-! ### Writers -/

section Writer

variable [DecidableEq Name] {infos : StructInfos Name} {allowed : Bytes → Prop}
  (call : Name → Value → Except Failure Bytes)

theorem field_append (before : List Value) (value : Value) (after : List Value) :
    field (before ++ value :: after) before.length = .ok value := by
  rw [field, List.getElem?_append_right (Nat.le_refl _), Nat.sub_self]
  rfl

theorem unsignedField_append (before : List Value) (type : Scalar) (value : Int) (after : List Value) :
    unsignedField (before ++ .int value :: after) before.length type.size =
      .ok (type.toUnsigned value) := by
  rw [unsignedField, field_append]
  rfl

theorem blobField_append (before : List Value) (data : Bytes) (after : List Value) :
    blobField (before ++ .blob data :: after) before.length = .ok data := by
  rw [blobField, field_append]
  rfl

def writeNow (index : Nat) : FieldType Name → WriteStmt Name
  | .scalar type => .memory index type.size
  | .string => .str index
  | .bytes => .bytes index
  | .other name => .struct name index

variable {type : FieldType Name} {bufSize offset : Nat} {types : List (FieldType Name)}
  {body : List (WriteStmt Name)} {values : List Value}

omit [DecidableEq Name] in
theorem exec_writeNow {value : Value} (typed : Typed infos allowed type value)
    (before after : List Value) (state : Scratch) :
    WriteStmt.exec call (before ++ value :: after) state (writeNow before.length type) = do
      let written ← encodeField call type value
      return state.write written := by
  cases typed with
  | @scalar type value inRange =>
    rw [writeNow, WriteStmt.exec, unsignedField_append]
    rfl
  | string _ | bytes =>
    rw [writeNow, WriteStmt.exec, blobField_append]
    rfl
  | struct member fields =>
    rw [writeNow, WriteStmt.exec, field_append]
    rfl

variable {index : Nat}

theorem writeFields_unsafe_cons
    (emitted : writeFields true infos bufSize index offset (type :: types) = .ok body) :
    ∃ tail, writeFields true infos bufSize (index + 1) offset types = .ok tail ∧
      body = writeNow index type :: tail := by
  cases type with
  | scalar _ | string | bytes =>
    exact ok_of_bind_pure emitted
  | other name =>
    rw [writeFields] at emitted
    split at emitted
    · exact ok_of_bind_pure emitted
    · cases emitted

theorem writeFields_unsafe (typed : List.Forall₂ (Typed infos allowed) types values)
    (before : List Value)
    (emitted : writeFields true infos bufSize before.length offset types = .ok body) (state : Scratch) :
    body.foldlM (WriteStmt.exec call (before ++ values)) state = do
      let written ← encodeFields call types values
      return state.write written := by
  induction typed generalizing before body state with
  | nil =>
    rw [writeFields, writeFlushBuf, if_pos (.inl rfl)] at emitted
    cases emitted
    simp only [List.foldlM_nil, encodeFields, ok_bind, Scratch.write, List.append_nil]
  | @cons type value types values isTyped _ ih =>
    obtain ⟨tail, tailEmitted, rfl⟩ := writeFields_unsafe_cons emitted
    have split : before ++ value :: values = (before ++ [value]) ++ values := by
      rw [List.append_assoc]
      rfl
    have tailRun := fun state => ih (before ++ [value])
      (by rw [List.length_append]; exact tailEmitted) state
    rw [List.foldlM_cons, exec_writeNow call isTyped, split, encodeFields]
    simp only [bind_assoc, pure_bind, tailRun]
    simp only [Scratch.write, List.append_assoc]

omit [DecidableEq Name] in
theorem exec_writeFlushBuf (d : List Value) (state : Scratch) (room : offset ≤ bufSize)
    (length : state.buf.length = bufSize) :
    ∃ flushed : List (WriteStmt Name), writeFlushBuf false bufSize offset = (flushed, 0) ∧
      flushed.foldlM (WriteStmt.exec call d) state = .ok (state.write (state.buf.take offset)) := by
  by_cases empty : offset = 0
  · subst empty
    refine ⟨[], by rw [writeFlushBuf, if_pos (.inr (.inl rfl))], ?_⟩
    rw [List.take_zero, Scratch.write, List.append_nil]
    rfl
  · have flushes : ¬ (false = true ∨ offset = 0 ∨ bufSize ≤ 0) := by
      simp only [Bool.false_eq_true, false_or]
      omega
    refine ⟨[.flush offset], by rw [writeFlushBuf, if_neg flushes], ?_⟩
    rw [List.foldlM_cons, WriteStmt.exec, if_neg (by omega)]
    rfl

theorem writeFields_portable_cons (notScalar : ∀ scalar, type ≠ .scalar scalar)
    {flushed : List (WriteStmt Name)} (flushes : writeFlushBuf false bufSize offset = (flushed, 0))
    (emitted : writeFields false infos bufSize index offset (type :: types) = .ok body) :
    ∃ tail, writeFields false infos bufSize (index + 1) 0 types = .ok tail ∧
      body = flushed ++ writeNow index type :: tail := by
  cases type with
  | scalar type => exact absurd rfl (notScalar type)
  | string | bytes =>
    rw [writeFields, flushes] at emitted
    exact ok_of_bind_pure emitted
  | other name =>
    rw [writeFields, flushes] at emitted
    split at emitted
    · exact ok_of_bind_pure emitted
    · cases emitted

omit [DecidableEq Name] in
theorem exec_putScalar (type : Scalar) (before after : List Value) (value : Int) (offset : Nat)
    (state : Scratch) (room : offset + type.size ≤ state.buf.length) :
    ∃ buf, WriteStmt.exec call (before ++ .int value :: after) state
        (putScalar type offset before.length) = .ok { state with buf := buf } ∧
      buf.length = state.buf.length ∧
      buf.take (offset + type.size) =
        state.buf.take offset ++ leBytes type.size (type.toUnsigned value) := by
  have written : WriteStmt.exec call (before ++ .int value :: after) state
      (putScalar type offset before.length) =
        put state offset (leBytes type.size (type.toUnsigned value)) := by
    unfold putScalar
    split
    · rename_i isByte
      rw [WriteStmt.exec, ← isByte, unsignedField_append]
      rfl
    · rw [WriteStmt.exec, unsignedField_append]
      rfl
  have length := leBytes_length type.size (type.toUnsigned value)
  rw [written, put, if_neg (by omega)]
  refine ⟨_, rfl, ?_, ?_⟩
  · simp only [List.length_append, List.length_take, List.length_drop, length]
    omega
  · have head : (state.buf.take offset ++ leBytes type.size (type.toUnsigned value)).length =
        offset + type.size := by
      rw [List.length_append, List.length_take, length]
      omega
    rw [← head, List.take_left]

theorem writeFields_portable {history : Nat} (typed : List.Forall₂ (Typed infos allowed) types values)
    (before : List Value)
    (emitted : writeFields false infos bufSize before.length offset types = .ok body) (state : Scratch)
    (length : state.buf.length = bufSize) (room : bufSizeFrom history offset types ≤ bufSize) :
    (do
      let last ← body.foldlM (WriteStmt.exec call (before ++ values)) state
      return last.out) = do
        let written ← encodeFields call types values
        return state.out ++ state.buf.take offset ++ written := by
  have atHand : offset ≤ bufSize := by
    have least := size_le_bufSizeFrom history offset types
    omega
  induction typed generalizing before body state history offset with
  | nil =>
    obtain ⟨flushed, flushes, run⟩ :=
      exec_writeFlushBuf call (before ++ []) state atHand length
    rw [writeFields, flushes] at emitted
    cases emitted
    rw [run]
    simp only [ok_bind, encodeFields, Scratch.write, List.append_nil]
  | @cons type value types values isTyped _ ih =>
    have split : before ++ value :: values = (before ++ [value]) ++ values := by
      rw [List.append_assoc]
      rfl
    have nextIndex : (before ++ [value]).length = before.length + 1 := List.length_append
    by_cases isScalar : ∃ scalar, type = .scalar scalar
    · obtain ⟨scalar, rfl⟩ := isScalar
      cases isTyped with
      | @scalar _ number inRange =>
        obtain ⟨tail, tailEmitted, same⟩ := bind_eq_ok.mp emitted
        cases same
        rw [bufSizeFrom] at room
        have next := size_le_bufSizeFrom history (offset + scalar.size) types
        obtain ⟨buf, isPut, bufLength, bufHead⟩ :=
          exec_putScalar call scalar before values number offset state (by omega)
        have tailRun := ih (before ++ [.int number])
          (by rw [nextIndex]; exact tailEmitted) { state with buf := buf }
          (bufLength.trans length) room (by omega)
        rw [List.foldlM_cons, isPut, ok_bind, split, tailRun, encodeFields, bufHead]
        simp only [encodeField, Leaf.encode, ok_bind, bind_assoc, pure_bind, List.append_assoc]
    · have notScalar : ∀ scalar, type ≠ .scalar scalar := fun scalar same => isScalar ⟨scalar, same⟩
      obtain ⟨flushed, flushes, run⟩ :=
        exec_writeFlushBuf call (before ++ value :: values) state atHand length
      obtain ⟨tail, tailEmitted, rfl⟩ := writeFields_portable_cons notScalar flushes emitted
      rw [bufSizeFrom_cons notScalar] at room
      have tailRun := fun (state' : Scratch) length' => ih (before ++ [value])
        (by rw [nextIndex]; exact tailEmitted) state' length' room (Nat.zero_le _)
      rw [List.foldlM_append, run, ok_bind, List.foldlM_cons, exec_writeNow call isTyped,
        encodeFields]
      cases encodeField call type value with
      | error failure => rfl
      | ok written =>
        have rest := tailRun ((state.write (state.buf.take offset)).write written) length
        rw [← split] at rest
        simp only [ok_bind, pure_bind, bind_assoc, rest]
        simp only [Scratch.write, List.take_zero, List.append_nil, List.append_assoc]

theorem run_write {unsafeMode : Bool} {name : Name} {func : WriteFunc Name}
    (emitted : genWrite2Writer unsafeMode infos name = .ok func)
    (typed : List.Forall₂ (Typed infos allowed) (infos.fields name) values) :
    func.run call values = encodeFields call (infos.fields name) values := by
  obtain ⟨body, bodyEmitted, same⟩ := bind_eq_ok.mp emitted
  cases same
  cases unsafeMode with
  | true =>
    have run := writeFields_unsafe call typed [] bodyEmitted ⟨[], []⟩
    rw [List.nil_append] at run
    simp only [WriteFunc.run, if_true, List.replicate_zero, run, bind_assoc, pure_bind,
      Scratch.write, List.nil_append]
    exact bind_pure _
  | false =>
    have run := writeFields_portable call typed [] bodyEmitted
      ⟨List.replicate (analyzeStructInfoBufSize (infos.fields name)) 0, []⟩
      List.length_replicate (Nat.le_refl _)
    rw [List.nil_append] at run
    simp only [WriteFunc.run, Bool.false_eq_true, if_false, run, List.take_zero, List.nil_append]
    exact bind_pure _

end Writer

/-! ### Readers -/

section Reader

variable (call : Name → Bytes → Except Failure (Value × Bytes))

def readNow (index : Nat) : FieldType Name → ReadStmt Name
  | .scalar type => .memory index type type.size
  | .string => .str index
  | .bytes => .all index
  | .other name => .struct name index

theorem assign_next (state : Reading) (value : Value) :
    state.assign state.d.length value = .ok { state with d := state.d ++ [value] } := if_pos rfl

theorem exec_readNow (type : FieldType Name) (state : Reading) :
    ReadStmt.exec call state (readNow state.d.length type) = do
      let (value, rest) ← decodeField call type state.rest
      return ⟨state.buf, state.d ++ [value], rest⟩ := by
  cases type with
  | scalar _ | string =>
    simp only [readNow, ReadStmt.exec, decodeField, Leaf.decode, bind_assoc, pure_bind]
    congr
    funext taken
    exact assign_next { state with rest := taken.2 } _
  | bytes => exact assign_next { state with rest := [] } _
  | other name =>
    simp only [readNow, ReadStmt.exec, decodeField]
    congr
    funext taken
    exact assign_next { state with rest := taken.2 } _

variable {bufSize offset : Nat} {name : Name} {types : List (FieldType Name)}
  {body : List (ReadStmt Name)} {run : List Scalar} {index : Nat} {type : FieldType Name}
  {bufStmts : List (ReadStmt Name)}

theorem readFields_unsafe_cons
    (emitted : readFields true bufSize name index offset bufStmts (type :: types) = .ok body) :
    ∃ tail, readFields true bufSize name (index + 1) offset bufStmts types = .ok tail ∧
      body = readNow index type :: tail := by
  cases type with
  | scalar _ | string | other _ =>
    exact ok_of_bind_pure emitted
  | bytes =>
    rw [readFields] at emitted
    dsimp only at emitted
    split at emitted
    · cases emitted
    · exact ok_of_bind_pure emitted

theorem readFields_unsafe (state : Reading)
    (emitted : readFields true bufSize name state.d.length offset [] types = .ok body) :
    body.foldlM (ReadStmt.exec call) state = do
      let (values, rest) ← decodeFields call types state.rest
      return ⟨state.buf, state.d ++ values, rest⟩ := by
  induction types generalizing body state with
  | nil =>
    rw [readFields, flushBuf, if_pos (.inl rfl)] at emitted
    cases emitted
    simp only [List.foldlM_nil, decodeFields, ok_bind, List.append_nil]
  | cons type types ih =>
    obtain ⟨tail, tailEmitted, rfl⟩ := readFields_unsafe_cons emitted
    rw [List.foldlM_cons, exec_readNow, decodeFields]
    simp only [bind_assoc, pure_bind]
    congr
    funext taken
    have tailRun := ih ⟨state.buf, state.d ++ [taken.1], taken.2⟩
      (by rw [List.length_append]; exact tailEmitted)
    rw [tailRun]
    simp only [List.append_assoc, List.singleton_append]

/-! ### A run of scalars that is read through the buffer -/

def runSize (run : List Scalar) : Nat := (run.map Scalar.size).sum

def getScalars (index offset : Nat) : List Scalar → List (ReadStmt Name)
  | [] => []
  | type :: types => getScalar type offset index :: getScalars (index + 1) (offset + type.size) types

def scalarsOf : Bytes → List Scalar → List Value
  | _, [] => []
  | bytes, type :: types =>
      .int (type.ofUnsigned (leNat (bytes.take type.size))) :: scalarsOf (bytes.drop type.size) types

theorem getScalars_append (index offset : Nat) (run : List Scalar) (type : Scalar) :
    getScalars index offset run ++ [getScalar type (offset + runSize run) (index + run.length)] =
      (getScalars index offset (run ++ [type]) : List (ReadStmt Name)) := by
  induction run generalizing index offset with
  | nil => rfl
  | cons first run ih =>
    have next := ih (index + 1) (offset + first.size)
    have place : offset + runSize (first :: run) = offset + first.size + runSize run := by
      rw [runSize, List.map_cons, List.sum_cons, runSize]
      omega
    have number : index + (first :: run).length = index + 1 + run.length := by
      rw [List.length_cons]
      omega
    rw [getScalars, List.cons_append, List.cons_append, getScalars, place, number, next]

theorem exec_getScalar {type : Scalar} (state : Reading) (room : offset + type.size ≤ state.buf.length) :
    ReadStmt.exec call state (getScalar type offset state.d.length) =
      .ok { state with d := state.d ++
        [.int (type.ofUnsigned (leNat ((state.buf.drop offset).take type.size)))] } := by
  unfold getScalar
  split
  · rename_i isByte
    rw [ReadStmt.exec, ← isByte, get, if_neg (by omega), ok_bind, assign_next]
  · rw [ReadStmt.exec, get, if_neg (by omega), ok_bind, assign_next]

theorem exec_getScalars (run : List Scalar) (offset : Nat) (state : Reading)
    (room : offset + runSize run ≤ state.buf.length) :
    (getScalars state.d.length offset run).foldlM (ReadStmt.exec call) state =
      .ok { state with d := state.d ++ scalarsOf (state.buf.drop offset) run } := by
  induction run generalizing offset state with
  | nil =>
    rw [scalarsOf, List.append_nil]
    rfl
  | cons type run ih =>
    rw [runSize, List.map_cons, List.sum_cons] at room
    have next := ih (offset + type.size) { state with d := state.d ++
      [.int (type.ofUnsigned (leNat ((state.buf.drop offset).take type.size)))] }
      (by dsimp only; rw [runSize]; omega)
    rw [List.length_append] at next
    rw [getScalars, List.foldlM_cons, exec_getScalar call state (by omega), ok_bind]
    refine next.trans ?_
    rw [scalarsOf, List.drop_drop, List.append_assoc]
    rfl

theorem scalarsOf_length (bytes : Bytes) (run : List Scalar) : (scalarsOf bytes run).length = run.length := by
  induction run generalizing bytes with
  | nil => rfl
  | cons type run ih =>
    rw [scalarsOf, List.length_cons, List.length_cons, ih]

theorem scalarsOf_append {head : Bytes} (length : head.length = runSize run) (rest : Bytes) :
    scalarsOf (head ++ rest) run = scalarsOf head run := by
  induction run generalizing head with
  | nil => rfl
  | cons type run ih =>
    rw [runSize, List.map_cons, List.sum_cons] at length
    rw [scalarsOf, scalarsOf, List.take_append_of_le_length (by omega),
      List.drop_append_of_le_length (by omega), ih]
    rw [List.length_drop, runSize]
    omega

theorem decodeFields_run (run : List Scalar) (input : Bytes) :
    decodeFields call (run.map .scalar) input = do
      let (head, rest) ← readFull (runSize run) input
      return (scalarsOf head run, rest) := by
  induction run generalizing input with
  | nil =>
    have nothing : readFull 0 input = .ok ([], input) := readFull_append [] input rfl
    rw [runSize, List.map_nil, List.map_nil, List.sum_nil, nothing]
    rfl
  | cons type run ih =>
    have total : runSize (type :: run) = type.size + runSize run := by
      rw [runSize, List.map_cons, List.sum_cons, runSize]
    rw [List.map_cons, decodeFields, decodeField, Leaf.decode]
    cases readFull_cases type.size input with
    | inr short =>
      have shorter := readFull_eof short
      rw [short, readFull_short (by omega)]
      rfl
    | inl taken =>
      obtain ⟨head, after, isRead⟩ := taken
      obtain ⟨headLength, rfl⟩ := readFull_eq_ok.mp isRead
      rw [isRead]
      simp only [ok_bind, pure_bind, ih]
      cases readFull_cases (runSize run) after with
      | inr short =>
        have shorter := readFull_eof short
        rw [short, readFull_short (by rw [List.length_append]; omega)]
        rfl
      | inl more =>
        obtain ⟨block, rest, moreRead⟩ := more
        obtain ⟨blockLength, rfl⟩ := readFull_eq_ok.mp moreRead
        have wholeLength : (head ++ block).length = runSize (type :: run) := by
          rw [List.length_append]
          omega
        have whole := readFull_append (head ++ block) rest wholeLength
        rw [List.append_assoc] at whole
        rw [moreRead, whole]
        simp only [ok_bind, pure_bind, scalarsOf]
        rw [← headLength, List.take_left, List.drop_left]

theorem runSize_eq_zero (zero : runSize run = 0) : run = [] := by
  cases run with
  | nil => rfl
  | cons type run =>
    have positive := type.size_pos
    rw [runSize, List.map_cons, List.sum_cons] at zero
    omega

/-- The fields that a reader has assigned, and what it has not read. -/
def finish (result : Except Failure Reading) : Except Failure (List Value × Bytes) := do
  let last ← result
  return (last.d, last.rest)

theorem exec_flushBuf (state : Reading) (length : state.buf.length = bufSize)
    (room : runSize run ≤ bufSize) :
    ∃ flushed : List (ReadStmt Name),
      flushBuf false bufSize (runSize run) (getScalars state.d.length 0 run) = (flushed, 0, []) ∧
      ∀ (more : List (ReadStmt Name)) (next : List Value → Bytes → Except Failure (List Value × Bytes)),
        (∀ after : Reading, after.buf.length = bufSize →
          after.d.length = state.d.length + run.length →
          finish (more.foldlM (ReadStmt.exec call) after) = next after.d after.rest) →
        finish ((flushed ++ more).foldlM (ReadStmt.exec call) state) = (do
          let (values, rest) ← decodeFields call (run.map .scalar) state.rest
          next (state.d ++ values) rest) := by
  by_cases empty : runSize run = 0
  · have nothing := runSize_eq_zero empty
    subst nothing
    refine ⟨[], by rw [flushBuf, if_pos (.inr (.inl rfl))]; rfl, fun more next follows => ?_⟩
    rw [List.nil_append, follows state length rfl, List.map_nil, decodeFields, ok_bind]
    dsimp only
    rw [List.append_nil]
  · have flushes : ¬ (false = true ∨ runSize run = 0 ∨ bufSize ≤ 0) := by
      simp only [Bool.false_eq_true, false_or]
      omega
    refine ⟨_, by rw [flushBuf, if_neg flushes], fun more next follows => ?_⟩
    rw [List.cons_append, List.foldlM_cons, ReadStmt.exec, if_neg (by omega), decodeFields_run]
    cases isRead : readFull (runSize run) state.rest with
    | error failure => rfl
    | ok taken =>
      obtain ⟨head, rest⟩ := taken
      obtain ⟨headLength, _⟩ := readFull_eq_ok.mp isRead
      have filled : (head ++ state.buf.drop (runSize run)).length = bufSize := by
        rw [List.length_append, List.length_drop]
        omega
      have scalars := exec_getScalars call run 0
        ⟨head ++ state.buf.drop (runSize run), state.d, rest⟩ (by dsimp only; omega)
      rw [List.drop_zero, scalarsOf_append headLength] at scalars
      simp only [ok_bind, pure_bind]
      rw [List.foldlM_append, scalars, ok_bind]
      apply follows _ filled
      rw [List.length_append, scalarsOf_length]

theorem readFields_portable_cons (notScalar : ∀ scalar, type ≠ .scalar scalar)
    {flushed : List (ReadStmt Name)}
    (flushes : flushBuf false bufSize offset bufStmts = (flushed, 0, []))
    (emitted : readFields false bufSize name index offset bufStmts (type :: types) = .ok body) :
    ∃ tail, readFields false bufSize name (index + 1) 0 [] types = .ok tail ∧
      body = flushed ++ readNow index type :: tail := by
  cases type with
  | scalar type => exact absurd rfl (notScalar type)
  | string | other _ =>
    rw [readFields, flushes] at emitted
    exact ok_of_bind_pure emitted
  | bytes =>
    rw [readFields, flushes] at emitted
    dsimp only at emitted
    split at emitted
    · cases emitted
    · exact ok_of_bind_pure emitted

theorem readFields_portable {history : Nat} (run : List Scalar) (state : Reading)
    (emitted : readFields false bufSize name (state.d.length + run.length) (runSize run)
      (getScalars state.d.length 0 run) types = .ok body) (length : state.buf.length = bufSize)
    (room : bufSizeFrom history (runSize run) types ≤ bufSize) :
    finish (body.foldlM (ReadStmt.exec call) state) = do
      let (values, rest) ← decodeFields call (run.map .scalar ++ types) state.rest
      return (state.d ++ values, rest) := by
  have atHand : runSize run ≤ bufSize := by
    have least := size_le_bufSizeFrom history (runSize run) types
    omega
  induction types generalizing body state history run with
  | nil =>
    obtain ⟨flushed, flushes, follows⟩ := exec_flushBuf call state length atHand
    rw [readFields, flushes] at emitted
    cases emitted
    have last := follows [] (fun values rest => .ok (values, rest)) fun after _ _ => rfl
    rw [List.append_nil] at last
    rw [last, List.append_nil]
    rfl
  | cons type types ih =>
    by_cases isScalar : ∃ scalar, type = .scalar scalar
    · obtain ⟨scalar, rfl⟩ := isScalar
      have grown : runSize (run ++ [scalar]) = runSize run + scalar.size := by
        rw [runSize, List.map_append, List.sum_append, runSize]
        rfl
      rw [bufSizeFrom, ← grown] at room
      have least := size_le_bufSizeFrom history (runSize (run ++ [scalar])) types
      have gathered : getScalars state.d.length 0 run ++
          [getScalar scalar (runSize run) (state.d.length + run.length)] =
            (getScalars state.d.length 0 (run ++ [scalar]) : List (ReadStmt Name)) := by
        rw [← getScalars_append, Nat.zero_add]
      have more : readFields false bufSize name (state.d.length + (run ++ [scalar]).length)
          (runSize (run ++ [scalar])) (getScalars state.d.length 0 (run ++ [scalar])) types =
            .ok body := by
        rw [← gathered, grown, List.length_append]
        exact emitted
      rw [ih (run ++ [scalar]) state more length room (by omega), List.map_append,
        List.append_assoc]
      rfl
    · have notScalar : ∀ scalar, type ≠ .scalar scalar := fun scalar same => isScalar ⟨scalar, same⟩
      obtain ⟨flushed, flushes, follows⟩ := exec_flushBuf call state length atHand
      obtain ⟨tail, tailEmitted, rfl⟩ := readFields_portable_cons notScalar flushes emitted
      rw [bufSizeFrom_cons notScalar] at room
      rw [follows _ (fun d input => do
        let (values, rest) ← decodeFields call (type :: types) input
        return (d ++ values, rest))]
      · rw [decodeFields_append]
        simp only [bind_assoc, pure_bind, List.append_assoc]
      · intro after afterLength afterFields
        rw [← afterFields, List.foldlM_cons, exec_readNow, decodeFields]
        cases decodeField call type after.rest with
        | error failure => rfl
        | ok taken =>
          have tailRun := ih []
            ⟨after.buf, after.d ++ [taken.1], taken.2⟩
            (by rw [List.length_append, afterFields]; exact tailEmitted)
            afterLength room (Nat.zero_le _)
          simp only [ok_bind, pure_bind, bind_assoc]
          refine tailRun.trans ?_
          simp only [List.map_nil, List.nil_append, List.append_assoc, List.singleton_append]

theorem run_read {unsafeMode : Bool} {infos : StructInfos Name} {func : ReadFunc Name}
    (emitted : genReadFromReader unsafeMode infos name = .ok func) (input : Bytes) :
    func.run call input = do
      let (d, rest) ← decodeFields call (infos.fields name) input
      return (.record d, rest) := by
  obtain ⟨body, bodyEmitted, same⟩ := bind_eq_ok.mp emitted
  cases same
  cases unsafeMode with
  | true =>
    have run := readFields_unsafe call ⟨[], [], input⟩ bodyEmitted
    simp only [ReadFunc.run, if_true, List.replicate_zero, run, bind_assoc, pure_bind,
      List.nil_append]
  | false =>
    have run := readFields_portable call []
      ⟨List.replicate (analyzeStructInfoBufSize (infos.fields name)) 0, [], input⟩
      bodyEmitted List.length_replicate (Nat.le_refl _)
    have finished : ReadFunc.run call
        ⟨analyzeStructInfoBufSize (infos.fields name), body⟩ input = do
          let (d, rest) ← finish (body.foldlM (ReadStmt.exec call)
            ⟨List.replicate (analyzeStructInfoBufSize (infos.fields name)) 0, [], input⟩)
          return (.record d, rest) := by
      rw [ReadFunc.run, finish, bind_assoc]
      rfl
    refine finished.trans ?_
    rw [run]
    simp only [List.map_nil, List.nil_append, bind_assoc, pure_bind]

end Reader

end Wsfs.Protocol.Gen
