/-
`readAllToBuffer` and the decoders `Read…FromReaderWithBuffer`, over any behaviour of an
`io.Reader`.

A reader is the list of the answers that it has ready. A call with less room than the next
answer needs takes what fits and leaves the rest of it, so that no answer is longer than
what was asked for; a reader that is through answers end of file for ever.
-/

import Wsfs.Protocol.Declarations

namespace Wsfs.Protocol.FromReader

open Wsfs.Base
open Gen (Value ReadStmt ReadFunc Emitted StructName structGo generated)

/-- What a reader or a decoder fails with; `code` is a failure of the emitted code itself. -/
inductive Fault
  | eof
  | unexpectedEOF
  | shortBuffer
  | code (failure : Gen.Failure)
  | other (code : Nat)
deriving DecidableEq, Repr

structure Answer where
  piece : Bytes
  err : Option Fault

abbrev Reader := List Answer

namespace Reader

/-- `r.Read` of a slice of this length. -/
def read (room : Nat) : Reader → Answer × Reader
  | [] => (⟨[], some .eof⟩, [])
  | ⟨piece, err⟩ :: rest =>
      if piece.length ≤ room then (⟨piece, err⟩, rest)
      else (⟨piece.take room, none⟩, ⟨piece.drop room, err⟩ :: rest)

/-- All bytes up to the first error. -/
def payload : Reader → Bytes
  | [] => []
  | ⟨piece, none⟩ :: rest => piece ++ payload rest
  | ⟨piece, some _⟩ :: _ => piece

/-- The first error, which is end of file where the reader does not fail. -/
def ending : Reader → Fault
  | [] => .eof
  | ⟨_, none⟩ :: rest => ending rest
  | ⟨_, some err⟩ :: _ => err

/-- What is left behind the first error. -/
def after : Reader → Reader
  | [] => []
  | ⟨_, none⟩ :: rest => after rest
  | ⟨_, some _⟩ :: rest => rest

def weight : Reader → Nat
  | [] => 0
  | ⟨piece, _⟩ :: rest => piece.length + 1 + weight rest

theorem read_weight {room : Nat} {r : Reader} (asked : 0 < room)
    (more : ¬(r.read room).1.err ≠ none) : (r.read room).2.weight < r.weight := by
  cases r with
  | nil => exact absurd nofun more
  | cons answer later =>
    simp only [read]
    split
    · simp only [weight]
      omega
    · simp only [weight, List.length_drop]
      omega

end Reader

/-! ### The two ways to read to the end -/

/-- What is returned, with `nil` as no bytes. -/
structure Outcome where
  data : Bytes
  err : Option Fault

def readAllToBuffer.loop (dataBuf : Nat) (got : Bytes) (r : Reader) : Outcome :=
  if _room : got.length < dataBuf then
    let answered := r.read (dataBuf - got.length)
    if answered.1.err = some .eof then ⟨got ++ answered.1.piece, none⟩
    else if _failed : answered.1.err ≠ none then ⟨[], answered.1.err⟩
    else loop dataBuf (got ++ answered.1.piece) answered.2
  else
    -- `extra`, the probing read
    let answered := r.read 1
    if answered.1.piece ≠ [] then ⟨[], some .shortBuffer⟩
    else if answered.1.err = some .eof then ⟨got, none⟩
    else ⟨[], answered.1.err⟩
termination_by r.weight
decreasing_by exact Reader.read_weight (by omega) _failed

def readAllToBuffer (dataBuf : Nat) (r : Reader) : Outcome := readAllToBuffer.loop dataBuf [] r

/-- `io.ReadAll` -/
def readAll (r : Reader) : Outcome :=
  match r.ending with
  | .eof => ⟨r.payload, none⟩
  | err => ⟨r.payload, some err⟩

/-- The last statements of a decoder. -/
def Outcome.returned {α : Type} (value : α) (outcome : Outcome) : Except Fault (α × Bytes) :=
  match outcome.err with
  | none => .ok (value, outcome.data)
  | some err => .error err

/-- `Read…FromReader`, with what it does for the fields in front of its `[]byte`. -/
def readFromReader {α : Type} (fields : Reader → Except Fault (α × Reader)) (r : Reader) :
    Except Fault (α × Bytes) := do
  let (value, rest) ← fields r
  (readAll rest).returned value

/-- `Read…FromReaderWithBuffer`, which does the same for these fields. -/
def readFromReaderWithBuffer {α : Type} (fields : Reader → Except Fault (α × Reader)) (dataBuf : Nat)
    (r : Reader) : Except Fault (α × Bytes) := do
  let (value, rest) ← fields r
  (readAllToBuffer dataBuf rest).returned value

/-! ### The emitted decoders -/

/-- `io.ReadFull`, with what it has got. An error that comes with the last byte is dropped. -/
def readFull (count : Nat) (got : Bytes) (r : Reader) : Except Fault (Bytes × Reader) :=
  if _room : got.length < count then
    let answered := r.read (count - got.length)
    let more := got ++ answered.1.piece
    match _err : answered.1.err with
    | none => readFull count more answered.2
    | some err =>
        if count ≤ more.length then .ok (more, answered.2)
        else .error (if more ≠ [] ∧ err = .eof then .unexpectedEOF else err)
  else .ok (got, r)
termination_by r.weight
decreasing_by exact Reader.read_weight (by omega) fun failed => failed _err

def readStrFromReader (r : Reader) : Except Fault (Bytes × Reader) := do
  let (head, rest) ← readFull 2 [] r
  let size := leNat head
  if size = 0 then return ([], rest) else readFull size [] rest

/-- The scratch buffer of a decoder, the fields that it has assigned, and its reader. -/
structure Decoding where
  buf : Bytes
  d : List Value
  r : Reader

def Decoding.get (state : Decoding) (offset size : Nat) : Except Fault Bytes :=
  (Gen.get state.buf offset size).mapError .code

def Decoding.assign (state : Decoding) (index : Nat) (value : Value) : Except Fault Decoding :=
  if index = state.d.length then .ok { state with d := state.d ++ [value] } else .error (.code .stuck)

section Decoders

variable {Name : Type} [DecidableEq Name]

/-- A statement of a decoder; `all` reads the `[]byte`. -/
def Decoding.exec (call : Name → Reader → Except Fault (Value × Reader)) (all : Reader → Outcome)
    (state : Decoding) : ReadStmt Name → Except Fault Decoding
  | .fill count =>
      if state.buf.length < count then .error (.code .panic)
      else do
        let (head, r) ← readFull count [] state.r
        return { state with buf := head ++ state.buf.drop count, r := r }
  | .getByte index type offset => do
      let bytes ← state.get offset 1
      state.assign index (.int (type.ofUnsigned (leNat bytes)))
  | .getUint index type size offset => do
      let bytes ← state.get offset size
      state.assign index (.int (type.ofUnsigned (leNat bytes)))
  | .memory index type size => do
      let (head, r) ← readFull size [] state.r
      ({ state with r := r }).assign index (.int (type.ofUnsigned (leNat head)))
  | .str index => do
      let (bytes, r) ← readStrFromReader state.r
      ({ state with r := r }).assign index (.blob bytes)
  | .all index => do
      let (state, data) ← (all state.r).returned state
      ({ state with r := state.r.after }).assign index (.blob data)
  | .struct type index => do
      let (value, r) ← call type state.r
      ({ state with r := r }).assign index value

/-- `Read…FromReader` with `readAll`, `Read…FromReaderWithBuffer` with `readAllToBuffer`. The
structs in a struct are read without the buffer. -/
def decode (emitted : Emitted Name) :
    Nat → (Reader → Outcome) → Name → Reader → Except Fault (Value × Reader)
  | 0, _, _, _ => .error (.code .depth)
  | fuel + 1, all, name, r =>
      match emitted.readers.lookup name with
      | some func => do
          let last ← func.body.foldlM (Decoding.exec (decode emitted fuel readAll) all)
            ⟨List.replicate func.bufSize 0, [], r⟩
          return (.record last.d, last.r)
      | none => .error (.code .stuck)

/-- A decoder up to its `[]byte`. -/
def decodeFields (emitted : Emitted Name) (fuel : Nat) (name : Name) (r : Reader) :
    Except Fault (Decoding × Reader) :=
  match emitted.readers.lookup name with
  | some func => do
      let state ← func.body.dropLast.foldlM (Decoding.exec (decode emitted fuel readAll) readAll)
        ⟨List.replicate func.bufSize 0, [], r⟩
      return (state, state.r)
  | none => .error (.code .stuck)

end Decoders

/-! ### What the loop returns -/

section Loop

variable {dataBuf : Nat} {got piece : Bytes} {err : Option Fault} {rest : Reader}

theorem loop_nil : readAllToBuffer.loop dataBuf got [] = ⟨got, none⟩ := by
  rw [readAllToBuffer.loop]
  split
  · simp [Reader.read]
  · simp [Reader.read]

theorem loop_next (room : got.length < dataBuf) (fits : piece.length ≤ dataBuf - got.length) :
    readAllToBuffer.loop dataBuf got (⟨piece, none⟩ :: rest) =
      readAllToBuffer.loop dataBuf (got ++ piece) rest := by
  rw [readAllToBuffer.loop]
  simp [Reader.read, room, fits]

theorem loop_failed {fault : Fault} (fits : got.length + piece.length ≤ dataBuf) :
    readAllToBuffer.loop dataBuf got (⟨piece, some fault⟩ :: rest) =
      if fault = .eof then ⟨got ++ piece, none⟩ else ⟨[], some fault⟩ := by
  rw [readAllToBuffer.loop]
  by_cases room : got.length < dataBuf
  · have enough : piece.length ≤ dataBuf - got.length := by omega
    cases fault <;> simp [Reader.read, room, enough]
  · have nothing : piece = [] := List.length_eq_zero_iff.mp (by omega)
    cases fault <;> simp [Reader.read, room, nothing]

theorem loop_full (full : ¬got.length < dataBuf) (more : piece ≠ []) :
    readAllToBuffer.loop dataBuf got (⟨piece, err⟩ :: rest) = ⟨[], some .shortBuffer⟩ := by
  obtain ⟨byte, later, rfl⟩ := List.exists_cons_of_ne_nil more
  rw [readAllToBuffer.loop]
  cases later with
  | nil => simp [Reader.read, full]
  | cons next later => simp [Reader.read, full]

theorem loop_over (longer : dataBuf - got.length < piece.length) :
    readAllToBuffer.loop dataBuf got (⟨piece, err⟩ :: rest) = ⟨[], some .shortBuffer⟩ := by
  by_cases room : got.length < dataBuf
  · have beyond : ¬piece.length ≤ dataBuf - got.length := by omega
    rw [readAllToBuffer.loop]
    simp only [Reader.read, room, beyond, dite_true, if_false]
    apply loop_full
    · simp only [List.length_append, List.length_take]
      omega
    · intro nothing
      have left := congrArg List.length nothing
      simp only [List.length_drop, List.length_nil] at left
      omega
  · apply loop_full room
    rintro rfl
    simp only [List.length_nil] at longer
    omega

theorem loop_idle (full : ¬got.length < dataBuf) :
    readAllToBuffer.loop dataBuf got (⟨[], none⟩ :: rest) = ⟨[], none⟩ := by
  rw [readAllToBuffer.loop]
  simp [Reader.read, full]

end Loop

/-- Right after the bytes that fill the buffer comes a read of no bytes and no error. -/
inductive IdleWhenFull : Nat → Reader → Prop
  | full {rest : Reader} : IdleWhenFull 0 (⟨[], none⟩ :: rest)
  | piece {room : Nat} {piece : Bytes} {rest : Reader} : 0 < piece.length + room →
      IdleWhenFull room rest → IdleWhenFull (piece.length + room) (⟨piece, none⟩ :: rest)

variable {r : Reader}

theorem readAllToBuffer_idle {room : Nat} (idle : IdleWhenFull room r) (got : Bytes) :
    readAllToBuffer.loop (got.length + room) got r = ⟨[], none⟩ := by
  induction idle generalizing got with
  | full => exact loop_idle (by omega)
  | @piece room piece rest more _ ih =>
    have onward := ih (got ++ piece)
    rw [List.length_append, Nat.add_assoc] at onward
    rw [loop_next (by omega) (by omega)]
    exact onward

/-- What remains, read in full or refused. -/
def Settled (room : Nat) (got : Bytes) (r : Reader) (outcome : Outcome) : Prop :=
  if r.payload.length ≤ room then
    outcome = if r.ending = .eof then ⟨got ++ r.payload, none⟩ else ⟨[], some r.ending⟩
  else outcome.err ≠ none

theorem loop_settled (got : Bytes) (room : Nat) (r : Reader) (prompt : ¬IdleWhenFull room r) :
    Settled room got r (readAllToBuffer.loop (got.length + room) got r) := by
  induction r generalizing got room with
  | nil =>
    rw [loop_nil]
    simp [Settled, Reader.payload, Reader.ending]
  | cons answer rest ih =>
    obtain ⟨piece, err⟩ := answer
    by_cases fits : piece.length ≤ room
    · cases err with
      | some fault =>
        rw [loop_failed (by omega)]
        by_cases ends : fault = .eof <;> simp [Settled, Reader.payload, Reader.ending, fits, ends]
      | none =>
        obtain ⟨left, rfl⟩ := Nat.exists_eq_add_of_le fits
        have asked : 0 < piece.length + left := by
          by_contra none_left
          obtain rfl : piece = [] := List.length_eq_zero_iff.mp (by omega)
          obtain rfl : left = 0 := by omega
          exact prompt .full
        have later := ih (got ++ piece) left fun idle => prompt (.piece asked idle)
        rw [List.length_append, Nat.add_assoc] at later
        rw [loop_next (by omega) (by omega)]
        simp only [Settled, Reader.payload, Reader.ending, List.length_append,
          Nat.add_le_add_iff_left, ← List.append_assoc]
        exact later
    · have longer : ¬(Reader.payload (⟨piece, err⟩ :: rest)).length ≤ room := by
        cases err <;> simp only [Reader.payload, List.length_append] <;> omega
      rw [loop_over (by omega)]
      simp [Settled, longer]

/-! ### The decoders of `struct.go` -/

/-- The statement does not read to the end. -/
def fixed {Name : Type} : ReadStmt Name → Bool
  | .all _ => false
  | _ => true

theorem foldlM_fixed {Name : Type} (call : Name → Reader → Except Fault (Value × Reader))
    (all : Reader → Outcome) {body : List (ReadStmt Name)} (isFixed : body.all fixed = true)
    (state : Decoding) :
    body.foldlM (Decoding.exec call all) state = body.foldlM (Decoding.exec call readAll) state := by
  induction body generalizing state with
  | nil => rfl
  | cons stmt body ih =>
    rw [List.all_cons, Bool.and_eq_true] at isFixed
    have same : Decoding.exec call all state stmt = Decoding.exec call readAll state stmt := by
      cases stmt with
      | all index => cases isFixed.1
      | _ => rfl
    simp only [List.foldlM_cons, same, ih isFixed.2]

variable {unsafeMode : Bool} {name : StructName}

theorem structGo_all {func : ReadFunc StructName}
    (emitted : Gen.genReadFromReader unsafeMode structGo name = .ok func)
    (last : (structGo.fields name).getLast? = some .bytes) :
    ∃ place, func.body = func.body.dropLast ++ [.all place] ∧ func.body.dropLast.all fixed = true := by
  cases name <;> first | (cases last; done) | (cases unsafeMode <;> cases emitted <;> exact ⟨_, rfl, rfl⟩)

/-- A struct with a `[]byte` is decoded from its fields and from what is read after them. -/
theorem decode_eq (last : (structGo.fields name).getLast? = some .bytes) (fuel : Nat) :
    ∃ finish : Decoding × Bytes → Except Fault (Value × Reader), ∀ all r,
      decode (generated unsafeMode) (fuel + 1) all name r =
        decodeFields (generated unsafeMode) fuel name r >>= fun (state, rest) =>
          (all rest).returned state >>= finish := by
  obtain ⟨func, emitted, isFunc⟩ :=
    (Gen.generated_realizes unsafeMode).readers name (Gen.mem_structGo name)
  obtain ⟨place, body, isFixed⟩ := structGo_all emitted last
  refine ⟨fun (state, data) => do
    let last ← ({ state with r := state.r.after }).assign place (.blob data)
    return (.record last.d, last.r), fun all r => ?_⟩
  simp only [decode, decodeFields, isFunc, bind_assoc, pure_bind]
  rw [body, List.foldlM_append, foldlM_fixed _ _ isFixed, List.dropLast_concat]
  simp only [List.foldlM_cons, List.foldlM_nil, Decoding.exec, bind_assoc, pure_bind]

/-- `Read…FromReaderWithBuffer` and `Read…FromReader` of the checked-in files. -/
theorem decodeWithBuffer_agrees (last : (structGo.fields name).getLast? = some .bytes) {fuel dataBuf : Nat}
    {whole : Reader}
    (agrees : readFromReaderWithBuffer (decodeFields (generated unsafeMode) fuel name) dataBuf whole =
      readFromReader (decodeFields (generated unsafeMode) fuel name) whole) :
    decode (generated unsafeMode) (fuel + 1) (readAllToBuffer dataBuf) name whole =
      decode (generated unsafeMode) (fuel + 1) readAll name whole := by
  obtain ⟨finish, both⟩ := @decode_eq unsafeMode name last fuel
  have finished := congrArg (· >>= finish) agrees
  simp only [readFromReaderWithBuffer, readFromReader, bind_assoc] at finished
  rw [both, both]
  exact finished

/-! ### The whole payload or an error -/

structure Faithful (dataBuf : Nat) (r : Reader) : Prop where
  whole : r.payload.length ≤ dataBuf → r.ending = .eof →
    readAllToBuffer dataBuf r = ⟨r.payload, none⟩
  refused : dataBuf < r.payload.length ∨ r.ending ≠ .eof → (readAllToBuffer dataBuf r).err ≠ none
  complete : (readAllToBuffer dataBuf r).err = none → (readAllToBuffer dataBuf r).data = r.payload
  agrees : r.payload.length ≤ dataBuf →
    ∀ {α : Type} (fields : Reader → Except Fault (α × Reader)) (whole : Reader) (value : α),
      fields whole = .ok (value, r) →
        readFromReaderWithBuffer fields dataBuf whole = readFromReader fields whole
  decoders : r.payload.length ≤ dataBuf →
    ∀ (unsafeMode : Bool) (name : StructName) (fuel : Nat) (whole : Reader) (state : Decoding),
      (structGo.fields name).getLast? = some .bytes →
        decodeFields (generated unsafeMode) fuel name whole = .ok (state, r) →
          decode (generated unsafeMode) (fuel + 1) (readAllToBuffer dataBuf) name whole =
            decode (generated unsafeMode) (fuel + 1) readAll name whole

theorem Settled.agrees {dataBuf : Nat} (settled : Settled dataBuf [] r (readAllToBuffer dataBuf r))
    (fits : r.payload.length ≤ dataBuf) {α : Type} (fields : Reader → Except Fault (α × Reader))
    (whole : Reader) (value : α) (read : fields whole = .ok (value, r)) :
    readFromReaderWithBuffer fields dataBuf whole = readFromReader fields whole := by
  rw [Settled, if_pos fits, List.nil_append] at settled
  simp only [readFromReaderWithBuffer, readFromReader, read, bind, Except.bind, settled]
  cases ends : r.ending <;> simp [readAll, ends, Outcome.returned]

theorem faithful_of_settled {dataBuf : Nat} (settled : Settled dataBuf [] r (readAllToBuffer dataBuf r)) :
    Faithful dataBuf r := by
  have agrees := @settled.agrees
  unfold Settled at settled
  refine ⟨?_, ?_, ?_, agrees, ?_⟩
  · intro fits ends
    rwa [if_pos fits, if_pos ends] at settled
  · intro wrong
    split at settled
    · have failed : r.ending ≠ .eof := wrong.resolve_left (by omega)
      rw [if_neg failed] at settled
      simp [settled]
    · exact settled
  · intro passed
    split at settled
    · split at settled
      · rw [settled]
        rfl
      · rw [settled] at passed
        cases passed
    · exact absurd passed settled
  · intro fits unsafeMode name fuel whole state last decoded
    exact decodeWithBuffer_agrees last (agrees fits _ whole state decoded)

theorem readAllToBuffer_faithful_iff (dataBuf : Nat) (r : Reader) :
    Faithful dataBuf r ↔ (IdleWhenFull dataBuf r → r.payload = [] ∧ r.ending = .eof) := by
  have returned (idle : IdleWhenFull dataBuf r) : readAllToBuffer dataBuf r = ⟨[], none⟩ := by
    have lost := readAllToBuffer_idle idle []
    rwa [List.length_nil, Nat.zero_add] at lost
  constructor
  · intro faithful idle
    have complete := faithful.complete
    have refused := faithful.refused
    rw [returned idle] at complete refused
    exact ⟨(complete rfl).symm, by_contra fun failed => refused (.inr failed) rfl⟩
  · intro prompt
    apply faithful_of_settled
    by_cases idle : IdleWhenFull dataBuf r
    · obtain ⟨nothing, ends⟩ := prompt idle
      simp [Settled, nothing, ends, returned idle]
    · have settled := loop_settled [] dataBuf r idle
      rwa [List.length_nil, Nat.zero_add] at settled

/-- One byte for a buffer of one, an idle read, and the end. -/
theorem readAllToBuffer_loses_idle :
    ∃ r : Reader, r.payload = [7] ∧ r.ending = .eof ∧ readAllToBuffer 1 r = ⟨[], none⟩ := by
  have idle : IdleWhenFull 1 [⟨[7], none⟩, ⟨[], none⟩, ⟨[], some .eof⟩] :=
    @IdleWhenFull.piece 0 [7] _ (by decide) .full
  exact ⟨_, rfl, rfl, readAllToBuffer_idle idle []⟩

end Wsfs.Protocol.FromReader
