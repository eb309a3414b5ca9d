/-
The end of a write stream, from the answers of its task to what `WriteStream.Close`
returns. The task sends at most one error and then the close message; `Close` tells them
apart by code and text, and not every error lets it wait for the message behind it.
-/

import Wsfs.Client.Commands
import Wsfs.Client.Wire
import Wsfs.ReadDir.Server
import Wsfs.Server.Session

namespace Wsfs.Server

open Wsfs.Base Wsfs.Protocol Wsfs.Unix
open Wsfs.ReadDir.Server (errorMessage)

/-! ### Answers -/

def Answer.message : Answer → ReadDir.Message
  | .error code desc => errorMessage code desc
  | .closed written => ⟨errorOK, leBytes 8 written.toNat⟩
  | .reply code => ⟨code, []⟩

/-- Why `writeStreamWriteChunk` stops before the end of its data. -/
inductive WriteFailure
  | errno (err : Errno)
  | short
deriving DecidableEq, Repr

def WriteFailure.error : WriteFailure → UInt8 × String
  | .errno err => (wsfsErrCode err, "syscall error")
  | .short => (errorIo, "short write")

/-- What `writeStream.run` sends on its mark, from its first input to its end. -/
def streamAnswers (failure : Option WriteFailure) (written : UInt64) : List Answer :=
  failure.toList.map (fun failure => .error failure.error.1 failure.error.2) ++ [.closed written]

theorem writeStreamWriteChunk_failure {results : List (Except Errno Nat)} {offset : UInt64}
    {data : Bytes} {chunk : Chunk} (written : writeStreamWriteChunk results offset data = some chunk)
    {error : UInt8 × String} (failed : chunk.error = some error) :
    ∃ failure : WriteFailure, failure.error = error := by
  induction results generalizing offset data chunk with
  | nil =>
    cases data with
    | nil => cases written; cases failed
    | cons byte data => cases written
  | cons result results ih =>
    cases data with
    | nil => cases written; cases failed
    | cons byte data =>
      cases result with
      | error errno =>
        cases written
        cases failed
        exact ⟨.errno errno, rfl⟩
      | ok count =>
        cases count with
        | zero =>
          cases written
          cases failed
          exact ⟨.short, rfl⟩
        | succ count =>
          simp only [writeStreamWriteChunk] at written
          obtain ⟨rest, restWritten, rfl⟩ := Option.map_eq_some_iff.mp written
          exact ih restWritten failed

theorem WriteFailure.code_ne_errorOK (failure : WriteFailure) : failure.error.1 ≠ errorOK := by
  cases failure with
  | errno err => exact wsfsErrCode_ne_errorOK err
  | short => exact (by decide : errorIo ≠ errorOK)

theorem WriteFailure.code_eq_errorUnknown {failure : WriteFailure} :
    failure.error.1 = errorUnknown ↔ ∃ err, failure = .errno err ∧ errorCodeMap err = none := by
  constructor
  · intro unknown
    cases failure with
    | short => cases (show errorIo = errorUnknown from unknown)
    | errno err =>
      refine ⟨err, rfl, ?_⟩
      cases err with
      | enodata | other _ => rfl
      | _ => exact absurd unknown (by decide)
  · rintro ⟨err, rfl, unlisted⟩
    simp only [WriteFailure.error, wsfsErrCode, unlisted]

end Wsfs.Server

namespace Wsfs.Client

open Wsfs.Base Wsfs.Protocol Wsfs.Unix
open Wsfs.Server (Answer WriteFailure streamAnswers)
open Wsfs.ReadDir (Message)
open Wsfs.ReadDir.Server (errorMessage)

/-! ### Texts of errors -/

theorem readRspErrorDesc_errorMessage {code : UInt8} {desc : String}
    (short : desc.toUTF8.toList.length ≤ maxErrorDescLength) :
    readRspErrorDesc (errorMessage code desc).payload = text desc := by
  have bound : maxErrorDescLength = 8188 := rfl
  have fits : desc.toUTF8.toList.length < 65536 := by omega
  obtain ⟨bytes, written⟩ : ∃ bytes, Codec.str.write desc.toUTF8.toList = some bytes :=
    ⟨_, if_pos fits⟩
  have readBack := Codec.str.read_write _ bytes [] written
  rw [List.append_nil] at readBack
  rw [readRspErrorDesc, errorMessage, List.take_of_length_le short, written, Option.getD_some, readBack]
  rfl

/-- No error of the task has the text by which `Close` knows a lost session. -/
theorem failure_desc (failure : WriteFailure) :
    readRspErrorDesc (errorMessage failure.error.1 failure.error.2).payload = text failure.error.2 ∧
      text failure.error.2 ≠ text "Session error mode" := by
  cases failure with
  | errno err =>
    refine ⟨readRspErrorDesc_errorMessage ?_, ?_⟩
    · change "syscall error".toUTF8.toList.length ≤ _
      decide +kernel
    · change text "syscall error" ≠ _
      decide +kernel
  | short =>
    exact ⟨readRspErrorDesc_errorMessage (by decide +kernel), by decide +kernel⟩

/-! ### Writing -/

theorem take_append_drop_length (data : Bytes) (count : Nat) :
    data.take count ++ data.drop (data.take count).length = data := by
  rw [List.length_take]
  rcases Nat.le_total count data.length with short | long
  · rw [Nat.min_eq_left short, List.take_append_drop]
  · rw [Nat.min_eq_right long, List.take_of_length_le long, List.drop_length, List.append_nil]

def dataCommand (isEnd : UInt8) (chunk : Bytes) : UInt8 × CommandStruct :=
  (Protocol.cmdWriteStreamData, .cmdWriteStreamData isEnd chunk)

variable {data : Bytes}

theorem drop_shorter (more : data.length > 0) :
    (data.drop (data.take maxWriteStreamDataPayload).length).length < data.length := by
  have positive : 0 < maxWriteStreamDataPayload := by decide
  rw [List.length_drop, List.length_take]
  omega

/-- The payloads into which `WriteStream.Write` cuts its data. -/
def dataChunks (data : Bytes) : List Bytes :=
  if _more : data.length > 0 then
    data.take maxWriteStreamDataPayload ::
      dataChunks (data.drop (data.take maxWriteStreamDataPayload).length)
  else []
termination_by data.length
decreasing_by exact drop_shorter _more

theorem dataChunks_cons (more : data.length > 0) :
    dataChunks data = data.take maxWriteStreamDataPayload ::
      dataChunks (data.drop (data.take maxWriteStreamDataPayload).length) := by
  rw [dataChunks, dif_pos more]

theorem dataChunks_nil : dataChunks [] = [] := by
  rw [dataChunks, dif_neg (by decide)]

theorem flatten_dataChunks (data : Bytes) : (dataChunks data).flatten = data := by
  obtain ⟨size, sizeEq⟩ : ∃ size, data.length = size := ⟨_, rfl⟩
  induction size using Nat.strongRecOn generalizing data with
  | ind size ih =>
    by_cases more : data.length > 0
    · rw [dataChunks_cons more, List.flatten_cons, ih _ (sizeEq ▸ drop_shorter more) _ rfl,
        take_append_drop_length]
    · obtain rfl : data = [] := List.length_eq_zero_iff.mp (by omega)
      rw [dataChunks_nil]
      rfl

theorem completes_write {ws : WriteStream} (opened : ws.closed = false) (data : Bytes) {wire : Wire}
    (own : ws.clientMark = wire.clientMark) (idle : wire.begun = none)
    {post : Wire → Option Bytes → Prop}
    (holds : post { wire with sent := wire.sent ++ (dataChunks data).map (dataCommand 0) } none) :
    Completes Wire.step wire (ws.write data) post := by
  rw [WriteStream.write, if_neg (by rw [opened]; decide)]
  obtain ⟨size, sizeEq⟩ : ∃ size, data.length = size := ⟨_, rfl⟩
  induction size using Nat.strongRecOn generalizing data wire with
  | ind size ih =>
    refine completes_round ?_
    refine completes_ite ?_ ?_
    · intro more
      apply completes_beginRequest own
      rw [if_pos rfl]
      refine completes_writeStruct rfl (completes_pure ?_)
      refine @ih _ (sizeEq ▸ drop_shorter more) _
        { wire with begun := none, sent := wire.sent ++ [_] } own rfl ?_ rfl
      rw [dataChunks_cons more, List.map_cons, List.append_cons] at holds
      simp only [idle] at holds
      exact holds
    · intro none
      obtain rfl : data = [] := List.length_eq_zero_iff.mp (by omega)
      refine completes_pure ?_
      rw [dataChunks_nil, List.map_nil, List.append_nil] at holds
      exact holds

/-! ### Closing -/

section Close

variable {ws : WriteStream} {wire : Wire} {post : Wire → WriteStream × UInt64 × UInt8 × Bytes → Prop}

/-- What `Close` has to send before its last command, if the last data do not fit there. -/
def earlyData (last : Bytes) : Bytes := last.take (last.length - maxWriteStreamDataPayload)

/-- The last command of `Close`, and what comes after it. -/
def WriteStream.lastCommand (ws : WriteStream) (data : Bytes) : Call (WriteStream × UInt64 × UInt8 × Bytes) := do
  if ← beginRequest ws.clientMark Protocol.cmdWriteStreamData then
    match ← writeStruct (.cmdWriteStreamData 1 data) with
    | some desc =>
        releaseClientMark ws.clientMark
        return ({ ws with closed := true }, 0, errorUnknown, desc)
    | none => ({ ws with closed := true } : WriteStream).finish
  else
    releaseClientMark ws.clientMark
    return ({ ws with closed := true }, 0, errorUnknown, text "session error mode")

/-- The commands of `Close`: all of the last data, the end marker with the last of it. -/
theorem completes_close (opened : ws.closed = false) (last : Bytes)
    (own : ws.clientMark = wire.clientMark) (idle : wire.begun = none)
    (completes : Completes Wire.step { wire with
          sent := wire.sent ++ (dataChunks (earlyData last)).map (dataCommand 0) ++
            [dataCommand 1 (last.drop (earlyData last).length)] }
        ({ ws with closed := true } : WriteStream).finish post) :
    Completes Wire.step wire (ws.close last) post := by
  rw [WriteStream.close, if_neg (by rw [opened]; decide)]
  unfold earlyData at completes
  generalize last.take (last.length - maxWriteStreamDataPayload) = front at completes ⊢
  -- Both ways to the last command leave the same kind of wire behind.
  have ends : Completes Wire.step { wire with sent := wire.sent ++ (dataChunks front).map (dataCommand 0) }
      (ws.lastCommand (last.drop front.length)) post := by
    refine completes_beginRequest ?_ ?_
    · exact own
    rw [if_pos rfl]
    refine completes_writeStruct rfl ?_
    simp only [idle] at completes
    exact completes
  apply completes_bind
  refine completes_ite ?_ ?_
  · intro _
    exact completes_write opened front own idle ends
  · intro none
    obtain rfl : front = [] := List.length_eq_zero_iff.mp (by omega)
    refine completes_pure ?_
    rw [dataChunks_nil, List.map_nil, List.append_nil] at ends
    exact ends

variable {rest : List Message} {failure : WriteFailure}

theorem completes_finish_closed {written : UInt64} (own : ws.clientMark = wire.clientMark)
    (coming : wire.inbox = (Answer.closed written).message :: rest)
    (holds : post { wire with inbox := rest, left := wire.left ++ [rest] }
      (ws, written, errorOK, [])) : Completes Wire.step wire ws.finish post := by
  have readBack : Codec.u64.read (leBytes 8 written.toNat) = some (written, []) := by
    have same := Codec.u64.read_write written _ [] rfl
    rwa [List.append_nil] at same
  have ok : (Answer.closed written).message.code = errorOK := rfl
  have payload : (Answer.closed written).message.payload = leBytes 8 written.toNat := rfl
  refine completes_round (completes_receive own coming ?_)
  rw [if_pos ok]
  refine completes_releaseClientMark own ?_
  simp only [payload, readBack]
  exact completes_pure holds

theorem completes_finish_unknown (unknown : failure.error.1 = errorUnknown)
    (own : ws.clientMark = wire.clientMark)
    (coming : wire.inbox = (Answer.error failure.error.1 failure.error.2).message :: rest)
    (holds : post { wire with inbox := rest, left := wire.left ++ [rest] }
      (ws, 0, errorUnknown, text failure.error.2)) : Completes Wire.step wire ws.finish post := by
  have code : (Answer.error failure.error.1 failure.error.2).message.code = errorUnknown := unknown
  have desc : readRspErrorDesc (Answer.error failure.error.1 failure.error.2).message.payload =
      text failure.error.2 := (failure_desc failure).1
  refine completes_round (completes_receive own coming ?_)
  rw [if_neg (by rw [code]; decide), if_pos code]
  refine completes_releaseClientMark own (completes_pure ?_)
  rw [code, desc]
  exact holds

/-- An error after which `Close` waits for the next message. -/
structure Passing (message : Message) : Prop where
  failed : message.code ≠ errorOK
  known : message.code ≠ errorUnknown
  session : ¬(message.code = errorIo ∧ readRspErrorDesc message.payload = text "Session error mode")

/-- The first error is the one that `Close` keeps. -/
def WriteStream.noting (ws : WriteStream) (message : Message) : WriteStream :=
  if ws.writeErrCode = 0 then
    { ws with writeErrCode := message.code, writeErrDesc := readRspErrorDesc message.payload }
  else ws

theorem WriteStream.noting_clientMark (ws : WriteStream) (message : Message) :
    (ws.noting message).clientMark = ws.clientMark := by
  unfold WriteStream.noting
  split <;> rfl

theorem completes_finish_passing {message : Message} (passing : Passing message)
    (own : ws.clientMark = wire.clientMark) (coming : wire.inbox = message :: rest)
    (completes : Completes Wire.step { wire with inbox := rest } (ws.noting message).finish post) :
    Completes Wire.step wire ws.finish post := by
  refine completes_round (completes_receive own coming ?_)
  rw [if_neg passing.failed, if_neg passing.known, if_neg passing.session]
  unfold WriteStream.noting at completes
  split at completes
  · rename_i fresh
    rw [if_pos fresh]
    exact completes_pure completes
  · rename_i noted
    rw [if_neg noted]
    exact completes_pure completes

/-- After an error `Close` returns at once, or with the close message behind it. -/
theorem completes_finish_error {message : Message} {written : UInt64} (failed : message.code ≠ errorOK)
    (own : ws.clientMark = wire.clientMark)
    (coming : wire.inbox = message :: (Answer.closed written).message :: rest) :
    Completes Wire.step wire ws.finish fun _ _ => True := by
  by_cases known : message.code = errorUnknown
  · refine completes_round (completes_receive own coming ?_)
    rw [if_neg failed, if_pos known]
    exact completes_releaseClientMark own (completes_pure trivial)
  by_cases lost : message.code = errorIo ∧ readRspErrorDesc message.payload = text "Session error mode"
  · refine completes_round (completes_receive own coming ?_)
    rw [if_neg failed, if_neg known, if_pos lost]
    exact completes_releaseClientMark own (completes_pure trivial)
  refine completes_finish_passing ⟨failed, known, lost⟩ own coming (completes_finish_closed ?_ rfl trivial)
  rw [WriteStream.noting_clientMark]
  exact own

theorem completes_finish_after {errors : List Answer} {count : UInt64} (passing : ∀ answer ∈ errors, Passing answer.message)
    (own : ws.clientMark = wire.clientMark)
    (coming : wire.inbox = (errors ++ [Answer.closed count]).map Answer.message) :
    Completes Wire.step wire ws.finish fun _ result => result.2.1 = count := by
  induction errors generalizing ws wire with
  | nil => exact completes_finish_closed own coming rfl
  | cons answer errors ih =>
    refine completes_finish_passing (passing answer List.mem_cons_self) own coming ?_
    refine ih (fun later member => passing later (List.mem_cons_of_mem _ member)) ?_ rfl
    rw [WriteStream.noting_clientMark]
    exact own

/-- `Close` does not return before the close message or an error that ends it. -/
theorem close_waits {errors : List Answer} {last : Bytes}
    (post : Wire → WriteStream × UInt64 × UInt8 × Bytes → Prop) (opened : ws.closed = false)
    (passing : ∀ answer ∈ errors, Passing answer.message) :
    Returns Wire.step (.ready ws.clientMark (errors.map Answer.message)) (ws.close last) post := by
  have told (count : UInt64) :
      Completes Wire.step (.ready ws.clientMark (errors.map Answer.message ++ [(Answer.closed count).message]))
        (ws.close last) fun _ result => result.2.1 = count := by
    refine completes_close opened last rfl rfl (completes_finish_after passing rfl ?_)
    rw [List.map_append]
    rfl
  refine Wire.returns_never post (told 0) (told 1) fun value zero one => ?_
  rw [zero] at one
  exact absurd one (by decide)

theorem passing_failure (known : failure.error.1 ≠ errorUnknown) :
    Passing (Answer.error failure.error.1 failure.error.2).message := by
  refine ⟨failure.code_ne_errorOK, known, ?_⟩
  rintro ⟨_, lost⟩
  exact (failure_desc failure).2 ((failure_desc failure).1.symm.trans lost)

theorem completes_finish_failure (known : failure.error.1 ≠ errorUnknown) (fresh : ws.writeErrCode = 0)
    (own : ws.clientMark = wire.clientMark)
    (coming : wire.inbox = (Answer.error failure.error.1 failure.error.2).message :: rest)
    (completes : Completes Wire.step { wire with inbox := rest }
      ({ ws with writeErrCode := failure.error.1, writeErrDesc := text failure.error.2 } :
        WriteStream).finish post) : Completes Wire.step wire ws.finish post := by
  refine completes_finish_passing (passing_failure known) own coming ?_
  rw [WriteStream.noting, if_pos fresh]
  simp only [Answer.message, (failure_desc failure).1]
  exact completes

end Close

/-- The errno of the failed write is one that the server has a code for. -/
def Listed (failure : Option WriteFailure) : Prop :=
  ∀ err, failure = some (.errno err) → (Server.errorCodeMap err).isSome

/-- `Close` has taken every answer when it releases the mark, and has told its caller
about them. -/
def TakenAll (failure : Option WriteFailure) (written : UInt64) (wire : Wire)
    (result : WriteStream × UInt64 × UInt8 × Bytes) : Prop :=
  wire.left = [[]] ∧ result.2.1 = written ∧ result.2.2.1 = errorOK ∧
    result.1.writeErrCode = (failure.map fun failure => failure.error.1).getD 0

theorem close_takes_all_iff (ws : WriteStream) (opened : ws.closed = false)
    (fresh : ws.writeErrCode = 0) (last : Bytes) (failure : Option WriteFailure) (written : UInt64) :
    Ensures Wire.step (.ready ws.clientMark ((streamAnswers failure written).map Answer.message))
        (ws.close last) (TakenAll failure written) ↔ Listed failure := by
  constructor
  · intro ensures err failed
    by_contra unlisted
    subst failed
    have unknown : (WriteFailure.errno err).error.1 = errorUnknown :=
      WriteFailure.code_eq_errorUnknown.mpr ⟨err, rfl, by simpa using unlisted⟩
    have early : Completes Wire.step
        (.ready ws.clientMark ((streamAnswers (some (.errno err)) written).map Answer.message))
        (ws.close last) fun wire _ => wire.left = [[(Answer.closed written).message]] :=
      completes_close opened last rfl rfl (completes_finish_unknown unknown rfl rfl rfl)
    obtain ⟨trace, value, final, runs, reached, leftOver⟩ := early
    have taken := (ensures.2 trace value final runs reached).1
    rw [leftOver] at taken
    cases taken
  · intro listed
    refine Completes.ensures Wire.step_decides (completes_close opened last rfl rfl ?_)
    cases failure with
    | none => exact completes_finish_closed rfl rfl ⟨rfl, rfl, rfl, fresh⟩
    | some failure =>
      have known : failure.error.1 ≠ errorUnknown := by
        intro unknown
        obtain ⟨err, rfl, unlisted⟩ := WriteFailure.code_eq_errorUnknown.mp unknown
        have present := listed err rfl
        rw [unlisted] at present
        cases present
      exact completes_finish_failure known fresh rfl rfl
        (completes_finish_closed rfl rfl ⟨rfl, rfl, rfl, rfl⟩)

private def newStream : WriteStream := ⟨1, 0, [], false⟩

/-- An I/O error in the middle of a stream, of which five bytes were written. -/
theorem close_takes_all_io_error :
    Ensures Wire.step
      (.ready 1 ((streamAnswers (some (.errno .eio)) 5).map Answer.message))
      (newStream.close [7]) (TakenAll (some (.errno .eio)) 5) := by
  refine (close_takes_all_iff newStream rfl rfl [7] (some (.errno .eio)) 5).mpr ?_
  intro err same
  cases same
  rfl

/-- `EFBIG`, which has no code of its own: `Close` returns with the error, and its mark is
released with the close message still to come. -/
theorem unlisted_errno_leaves_close_message :
    Ensures Wire.step
      (.ready 1 ((streamAnswers (some (.errno (.other 27))) 5).map Answer.message))
      (newStream.close [7]) fun wire result =>
        wire.left = [[(Answer.closed 5).message]] ∧ result.2.1 = 0 ∧ result.2.2.1 = errorUnknown ∧
          result.1.writeErrCode = 0 := by
  refine Completes.ensures Wire.step_decides (completes_close rfl [7] rfl rfl ?_)
  exact completes_finish_unknown rfl rfl rfl ⟨rfl, rfl, rfl, rfl⟩

end Wsfs.Client
