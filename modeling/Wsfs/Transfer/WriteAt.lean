/-
`CmdWriteAt` and the file on the server. Small data go in one command, which is one
`pwrite`; large data go through a write stream. What the client is told agrees with the
file on both ways.
-/

import Wsfs.Transfer.ReadAt
import Wsfs.Transfer.Streaming

namespace Wsfs.Transfer

open Wsfs.Base Wsfs.Protocol Wsfs.Unix Wsfs.Server.Commands
open Wsfs.Server hiding Message
open Wsfs.ReadDir (Message)
open Wsfs.ReadDir.Server (errorMessage)

/-! ### One command -/

/-- What a call does to the file. A failing `pwrite` changes nothing. -/
def written (file : Bytes) : ServerEvent → Bytes
  | ⟨.pwrite _ data off, .ok count⟩ => writeAt file off.toNat (data.take count)
  | _ => file

def writtenOver (old : Bytes) (history : List ServerEvent) : Bytes := history.foldl written old

/-- `pwrite` takes no more than it is given. -/
def Took : ServerEvent → Prop
  | ⟨.pwrite _ data _, .ok count⟩ => count ≤ data.length
  | _ => True

def record (history : List ServerEvent) (event : ServerEvent) : List ServerEvent := history ++ [event]

theorem foldl_record (history trace : List ServerEvent) : trace.foldl record history = history ++ trace := by
  induction trace generalizing history with
  | nil => exact (List.append_nil history).symm
  | cons event trace ih =>
    rw [List.foldl_cons, ih, record, List.append_assoc]
    rfl

/-- The answer to a write, and the file it tells about. -/
inductive Replied (old data : Bytes) (offset : Nat) (file : Bytes) : Message → Prop
  | failed (message : Message) (code : message.code ≠ errorOK) : Replied old data offset file message
  | wrote (count : Nat) (within : count ≤ data.length)
      (content : file = writeAt old offset (data.take count)) :
      Replied old data offset file ⟨errorOK, leBytes 8 (UInt64.ofNat count).toNat⟩

section Command

variable {old data : Bytes} {clientMark : UInt8} {fd : UInt32} {offset : UInt64}

/-- Nothing was sent or written so far. -/
structure Untouched (old : Bytes) (clientMark : UInt8) (history : List ServerEvent) : Prop where
  silent : sentOn clientMark history = []
  content : writtenOver old history = old

theorem sentOn_record (history : List ServerEvent) (event : ServerEvent) :
    sentOn clientMark (record history event) =
      sentOn clientMark history ++ (sentMessage clientMark event).toList := by
  rw [sentOn, record, List.filterMap_append, ← sentOn]
  cases sent : sentMessage clientMark event <;> simp [sent]

theorem writtenOver_record (history : List ServerEvent) (event : ServerEvent) :
    writtenOver old (record history event) = written (writtenOver old history) event := by
  rw [writtenOver, record, List.foldl_append]
  rfl

theorem Untouched.quiet {history : List ServerEvent} (untouched : Untouched old clientMark history)
    {event : ServerEvent} (silent : sentMessage clientMark event = none)
    (kept : ∀ file, written file event = file) : Untouched old clientMark (record history event) := by
  refine ⟨?_, ?_⟩
  · rw [sentOn_record, untouched.silent, silent]
    rfl
  · rw [writtenOver_record, kept, untouched.content]

theorem pwrite_yields {sfd : Nat} {history : List ServerEvent}
    (untouched : Untouched old clientMark history) :
    Yields record history (ignoringEINTR (Prog.perform (Effect.pwrite sfd data offset)))
      fun history result =>
        sentOn clientMark history = [] ∧
          ∀ count, result = .ok count →
            writtenOver old history = writeAt old offset.toNat (data.take count) ∧
              ((∀ event ∈ history, Took event) → count ≤ data.length) := by
  refine yields_loop (fun _ history => Untouched old clientMark history) untouched ?_
  intro _ history untouched
  refine yields_perform fun answer => ?_
  cases answer with
  | error err =>
    have after : Untouched old clientMark (record history ⟨.pwrite sfd data offset, .error err⟩) :=
      untouched.quiet rfl fun _ => rfl
    refine yields_ite ?_ ?_
    · intro _
      exact yields_pure after
    · intro _
      exact yields_pure ⟨after.silent, nofun⟩
  | ok count =>
    refine yields_pure ⟨?_, ?_⟩
    · rw [sentOn_record, untouched.silent]
      rfl
    · rintro _ ⟨⟩
      refine ⟨?_, fun took => took _ (List.mem_append_right _ List.mem_cons_self)⟩
      rw [writtenOver_record, untouched.content]
      rfl

theorem cmdWriteAt_yields :
    Yields record [] (Commands.cmdWriteAt clientMark fd offset data) fun history _ =>
      (∀ event ∈ history, Took event) →
        ∃ message, sentOn clientMark history = [message] ∧
          Replied old data offset.toNat (writtenOver old history) message := by
  have sends {history : List ServerEvent} (silent : sentOn clientMark history = []) (code : UInt8)
      (payload : Bytes) :
      sentOn clientMark (record history ⟨.send clientMark code payload, ()⟩) = [⟨code, payload⟩] := by
    rw [sentOn_record, silent, sentMessage, if_pos rfl]
    rfl
  have nothing : Untouched old clientMark [] := ⟨rfl, rfl⟩
  refine yields_perform fun answer => ?_
  have looked : Untouched old clientMark (record [] ⟨.loadFD fd, answer⟩) :=
    nothing.quiet rfl fun _ => rfl
  cases answer with
  | none =>
    refine yields_call fun _ _ => ?_
    exact ⟨_, sends looked.silent _ _, .failed _ (by decide : errorInvalidFD ≠ errorOK)⟩
  | some sfd =>
    refine yields_bind ((pwrite_yields looked).mono fun history result holds => ?_)
    obtain ⟨silent, good⟩ := holds
    cases result with
    | error err =>
      refine yields_call fun _ _ => ?_
      exact ⟨_, sends silent _ _, .failed _ (wsfsErrCode_ne_errorOK err)⟩
    | ok count =>
      obtain ⟨content, within⟩ := good count rfl
      refine yields_call fun _ took => ?_
      refine ⟨_, sends silent _ _, ?_⟩
      refine .wrote count (within fun event member => took event (List.mem_append_left _ member)) ?_
      rw [writtenOver_record, content]
      rfl

end Command

end Wsfs.Transfer

namespace Wsfs.Client

open Wsfs.Base Wsfs.Protocol
open Wsfs.ReadDir (Message)

theorem completes_cmdWriteAt_small {fd : UInt32} {offset : UInt64} {data : Bytes} {clientMark : Mark}
    {message : Message} (small : data.length ≤ maxWriteAtPayload) {post : Wire → UInt64 × UInt8 → Prop}
    (failed : message.code ≠ errorOK → post
      ⟨clientMark, [], none, [(Protocol.cmdWriteAt, .cmdWriteAt fd offset data)], [[]]⟩ (0, message.code))
    (wrote : ∀ count : UInt64, message = ⟨errorOK, leBytes 8 count.toNat⟩ → post
      ⟨clientMark, [], none, [(Protocol.cmdWriteAt, .cmdWriteAt fd offset data)], [[]]⟩ (count, errorOK))
    (formed : message.code = errorOK → ∃ count : UInt64, message = ⟨errorOK, leBytes 8 count.toNat⟩) :
    Completes Wire.step (.ready clientMark [message]) (cmdWriteAt fd offset data) post := by
  rw [cmdWriteAt, if_pos small]
  apply completes_exchange
  refine completes_receive rfl rfl (completes_releaseClientMark rfl ?_)
  by_cases ok : message.code = errorOK
  · rw [if_neg (not_not.mpr ok)]
    obtain ⟨count, rfl⟩ := formed ok
    have readBack := Codec.u64.read_write count _ [] rfl
    rw [List.append_nil] at readBack
    simp only [show Codec.u64.read (leBytes 8 count.toNat) = _ from readBack]
    exact completes_pure (wrote count rfl)
  · rw [if_pos ok]
    exact completes_pure (failed ok)

/-! ### A stream -/

def uploadInputs (data : Bytes) : List Server.Input :=
  (dataChunks (data.drop maxWriteStreamOpenPayload)).map (fun chunk => ⟨chunk, false⟩) ++ [⟨[], true⟩]

/-- The commands by which `CmdWriteAt` sends large data. -/
def uploadCommands (clientMark : Mark) (fd : UInt32) (offset : UInt64) (data : Bytes) :
    List Server.Command :=
  .streamOpen clientMark fd offset (data.take maxWriteStreamOpenPayload) ::
    Server.commands clientMark (uploadInputs data)

def received (clientMark : Mark) : UInt8 × CommandStruct → Option Server.Command
  | (_, .cmdWriteStreamOpen fd offset data) => some (.streamOpen clientMark fd offset data)
  | (_, .cmdWriteStreamData isEnd data) => some (.streamData clientMark data (isEnd != 0))
  | _ => none

theorem complete_uploadInputs (data : Bytes) : Server.Complete (uploadInputs data) := by
  unfold uploadInputs
  induction dataChunks (data.drop maxWriteStreamOpenPayload) with
  | nil => rfl
  | cons chunk chunks ih => exact .cons rfl ih

theorem bytesOf_uploadInputs (data : Bytes) :
    data.take maxWriteStreamOpenPayload ++ Server.bytesOf (uploadInputs data) = data := by
  have whole := flatten_dataChunks (data.drop maxWriteStreamOpenPayload)
  have joined : ∀ chunks : List Bytes,
      Server.bytesOf (chunks.map (fun chunk => ⟨chunk, false⟩) ++ [⟨[], true⟩]) = chunks.flatten := by
    intro chunks
    induction chunks with
    | nil => rfl
    | cons chunk chunks ih =>
      rw [List.flatten_cons, ← ih]
      rfl
  rw [uploadInputs, joined, whole, List.take_append_drop]

/-- What `CmdWriteAt` returns for the end of its stream. -/
def writeResult : WriteStream × UInt64 × UInt8 × Bytes → UInt64 × UInt8
  | (stream, written, code, _) =>
      if code ≠ errorOK then (written, code)
      else if stream.writeErrCode ≠ 0 then (written, stream.writeErrCode)
      else (written, errorOK)

theorem writeResult_ok {ws : WriteStream} (fresh : ws.writeErrCode = 0) (written : UInt64) :
    writeResult (ws, written, errorOK, []) = (written, errorOK) := by
  rw [writeResult, if_neg (not_not.mpr rfl), if_neg (not_not.mpr fresh)]

theorem writeResult_noted {ws : WriteStream} (noted : ws.writeErrCode ≠ 0) (written : UInt64) :
    writeResult (ws, written, errorOK, []) = (written, ws.writeErrCode) := by
  rw [writeResult, if_neg (not_not.mpr rfl), if_pos noted]

theorem writeResult_failed {code : UInt8} (failed : code ≠ errorOK) (ws : WriteStream)
    (written : UInt64) (desc : Bytes) : writeResult (ws, written, code, desc) = (written, code) := by
  rw [writeResult, if_pos failed]

theorem sent_received (clientMark : Mark) (fd : UInt32) (offset : UInt64) (data : Bytes) :
    (((Protocol.cmdWriteStreamOpen, CommandStruct.cmdWriteStreamOpen fd offset
        (data.take maxWriteStreamOpenPayload)) ::
      (dataChunks (data.drop maxWriteStreamOpenPayload)).map (dataCommand 0)) ++
        [dataCommand 1 []]).filterMap (received clientMark) =
      uploadCommands clientMark fd offset data := by
  rw [uploadCommands, uploadInputs]
  induction dataChunks (data.drop maxWriteStreamOpenPayload) with
  | nil => rfl
  | cons chunk chunks ih =>
    obtain ⟨_, later⟩ := List.cons.inj ih
    exact congrArg (_ :: .streamData clientMark chunk false :: ·) later

theorem completes_cmdWriteAt_large {fd : UInt32} {offset : UInt64} {data : Bytes} {clientMark : Mark}
    {inbox : List Message} (large : maxWriteAtPayload < data.length)
    {post : Wire → UInt64 × UInt8 → Prop}
    (completes : ∀ wire : Wire, wire.clientMark = clientMark → wire.inbox = inbox →
      wire.sent.filterMap (received clientMark) = uploadCommands clientMark fd offset data →
      Completes Wire.step wire (WriteStream.finish ⟨clientMark, 0, [], true⟩) fun last result =>
        post last (writeResult result)) :
    Completes Wire.step (.ready clientMark inbox) (cmdWriteAt fd offset data) post := by
  rw [cmdWriteAt, if_neg (by omega)]
  apply completes_bind
  apply completes_exchange
  have more : (data.drop maxWriteStreamOpenPayload).length > 0 := by
    have same : maxWriteAtPayload = maxWriteStreamOpenPayload := rfl
    rw [List.length_drop]
    omega
  rw [if_pos more]
  apply completes_bind
  refine completes_write rfl _ rfl rfl (completes_pure ?_)
  apply completes_bind
  refine completes_close rfl [] rfl rfl ?_
  have early : dataChunks (earlyData []) = [] := dataChunks_nil
  rw [early, List.map_nil, List.append_nil]
  refine Completes.mono (completes _ rfl rfl (sent_received clientMark fd offset data)) ?_
  rintro last ⟨stream, written, code, desc⟩ holds
  simp only [writeResult] at holds
  refine completes_ite ?_ ?_
  · intro failed
    rw [if_pos failed] at holds
    exact completes_pure holds
  · intro ok
    rw [if_neg ok] at holds
    refine completes_ite ?_ ?_
    · intro noted
      rw [if_pos noted] at holds
      exact completes_pure holds
    · intro clear
      rw [if_neg clear] at holds
      exact completes_pure holds

/-- `CmdWriteAt` does not return before the close message or an error that ends it. -/
theorem cmdWriteAt_waits {fd : UInt32} {offset : UInt64} {data : Bytes} {clientMark : Mark}
    (large : maxWriteAtPayload < data.length) {errors : List Server.Answer}
    (passing : ∀ answer ∈ errors, Passing answer.message) (post : Wire → UInt64 × UInt8 → Prop) :
    Returns Wire.step (.ready clientMark (errors.map Server.Answer.message)) (cmdWriteAt fd offset data)
      post := by
  have told (count : UInt64) :
      Completes Wire.step (.ready clientMark
          (errors.map Server.Answer.message ++ [(Server.Answer.closed count).message]))
        (cmdWriteAt fd offset data) fun _ value => value.1 = count := by
    refine completes_cmdWriteAt_large large fun wire own coming _ => ?_
    refine (@completes_finish_after _ wire errors count passing own.symm ?_).mono ?_
    · rw [coming, List.map_append, List.map_singleton]
    · rintro last ⟨stream, written, code, desc⟩ same
      simp only [writeResult]
      split
      · exact same
      · split <;> exact same
  refine Wire.returns_never post (told 0) (told 1) fun value zero one => ?_
  rw [zero] at one
  exact absurd one (by decide)

end Wsfs.Client

namespace Wsfs.Transfer

open Wsfs.Base Wsfs.Protocol Wsfs.Unix
open Wsfs.Server hiding Message
open Wsfs.Client (Passing maxWriteAtPayload uploadCommands uploadInputs received writeResult
  writeResult_ok writeResult_noted writeResult_failed)

/-! ### Both sides -/

/-- What the caller of `CmdWriteAt` is told agrees with the file. `clean` says that no
`pwrite` of the stream failed or wrote nothing. -/
structure Agrees (old data : Bytes) (offset : Nat) (file : Bytes) (clean : Prop) (w : UInt64)
    (code : UInt8) : Prop where
  content : code ≠ errorUnknown → file = writeAt old offset (data.take w.toNat)
  whole : clean → w.toNat = data.length ∧ code = errorOK

section Stream

variable {upload : Upload} {clean : Prop} {file : Bytes} {answers : List Answer} {clientMark : Mark}

theorem closed_received (large : maxWriteAtPayload < upload.data.length) {count : Nat}
    {failure : Option WriteFailure} (content : file = upload.content count)
    (within : count ≤ upload.data.length) (all : failure = none → count = upload.data.length)
    (harmless : clean → failure = none) :
    Completes Client.Wire.step
      (.ready clientMark ((streamAnswers failure (UInt64.ofNat count)).map Answer.message))
      (Client.cmdWriteAt upload.fd upload.offset upload.data) fun wire (w, code) =>
        wire.sent.filterMap (received clientMark) =
            uploadCommands clientMark upload.fd upload.offset upload.data ∧
          Agrees upload.old upload.data upload.offset.toNat file clean w code := by
  have fits := upload.fits
  have counted : (UInt64.ofNat count).toNat = count :=
    UInt64.toNat_ofNat_of_lt' (show count < 2 ^ 64 by omega)
  refine Client.completes_cmdWriteAt_large large fun wire own coming sent => ?_
  cases failure with
  | none =>
    refine Client.completes_finish_closed own.symm coming ?_
    rw [writeResult_ok rfl]
    refine ⟨sent, ?_, ?_⟩
    · intro _
      rw [counted]
      exact content
    · intro _
      exact ⟨counted.trans (all rfl), rfl⟩
  | some failure =>
    have failed : ¬clean := fun isClean => nomatch harmless isClean
    by_cases unknown : failure.error.1 = errorUnknown
    · refine Client.completes_finish_unknown unknown own.symm coming ?_
      rw [writeResult_failed (by decide)]
      refine ⟨sent, ?_, ?_⟩
      · intro known
        exact absurd rfl known
      · intro isClean
        exact absurd isClean failed
    · refine Client.completes_finish_failure unknown rfl own.symm coming ?_
      refine Client.completes_finish_closed own.symm rfl ?_
      rw [writeResult_noted failure.code_ne_errorOK]
      refine ⟨sent, ?_, fun isClean => absurd isClean failed⟩
      intro _
      rw [counted]
      exact content

theorem told_returns (large : maxWriteAtPayload < upload.data.length)
    (told : Told upload clean file answers) :
    Returns Client.Wire.step (.ready clientMark (answers.map Answer.message))
      (Client.cmdWriteAt upload.fd upload.offset upload.data) fun _ (w, code) =>
        Agrees upload.old upload.data upload.offset.toNat file clean w code := by
  cases told with
  | refused answers every =>
    exact Client.cmdWriteAt_waits large (fun answer member => passing_refusal (every answer member)) _
  | underway failure harmless =>
    cases failure with
    | none => exact @Client.cmdWriteAt_waits _ _ _ _ large [] nofun _
    | some failure =>
      by_cases unknown : failure.error.1 = errorUnknown
      · refine Completes.returns Client.Wire.step_decides
          (Client.completes_cmdWriteAt_large large fun wire own coming sent => ?_)
        refine Client.completes_finish_unknown unknown own.symm coming ?_
        rw [writeResult_failed (by decide)]
        refine ⟨?_, ?_⟩
        · intro known
          exact absurd rfl known
        · intro isClean
          cases harmless isClean
      · refine @Client.cmdWriteAt_waits _ _ _ _ large (errorsOf (some failure)) ?_ _
        intro answer member
        rw [List.mem_singleton.mp member]
        exact Client.passing_failure unknown
  | closed count failure content within all harmless =>
    exact ((closed_received large content within all harmless).mono fun _ _ both => both.2).returns
      Client.Wire.step_decides

theorem told_ensures (large : maxWriteAtPayload < upload.data.length)
    (told : Told upload clean file answers) {written : UInt64} (ended : Answer.closed written ∈ answers) :
    Ensures Client.Wire.step (.ready clientMark (answers.map Answer.message))
      (Client.cmdWriteAt upload.fd upload.offset upload.data) fun wire (w, code) =>
        wire.sent.filterMap (received clientMark) =
            uploadCommands clientMark upload.fd upload.offset upload.data ∧
          Agrees upload.old upload.data upload.offset.toNat file clean w code := by
  cases told with
  | refused answers every =>
    obtain ⟨_, _, impossible, _⟩ := every _ ended
    cases impossible
  | underway failure harmless =>
    obtain ⟨_, _, impossible⟩ := List.mem_map.mp ended
    cases impossible
  | closed count failure content within all harmless =>
    exact (closed_received large content within all harmless).ensures Client.Wire.step_decides

end Stream

/-- A run of the session in which it receives the commands of a `CmdWriteAt`, all of them or
the first ones, on a mark that carries nothing else. The descriptor is open on the file, and
no other stream writes there. -/
structure Streamed (refers : UInt32 → Bool) (clientMark : Mark) (fd : UInt32) (offset : UInt64)
    (data : Bytes) (first last : State) (actions : List Action) : Prop where
  descriptor : refers fd = true
  unread : first.reader.focus clientMark = none
  quiet : Quiet clientMark first
  stale : Stale (first.slot clientMark)
  commands : receivedOn clientMark actions <+: uploadCommands clientMark fd offset data
  reached : run step first actions = some last
  alone : Guarded step (Alone clientMark refers) first actions

section Streamed

variable {refers : UInt32 → Bool} {clientMark : Mark} {upload : Upload} {first last : State}
  {actions : List Action}

variable (streamed : Streamed refers clientMark upload.fd upload.offset upload.data first last actions)
include streamed

theorem Streamed.unopened :
    Unopened clientMark (answersOn clientMark first.out) upload.fd upload.offset
      (upload.data.take Client.maxWriteStreamOpenPayload) (uploadInputs upload.data) (view clientMark first)
      (uploadCommands clientMark upload.fd upload.offset upload.data) := by
  rw [view_of rfl streamed.unread rfl]
  exact ⟨.coming, streamed.stale, rfl⟩

theorem Streamed.told :
    Told upload (Guarded step (Unfailing clientMark) first actions)
      (fileAfter refers upload.old first last) (answersSince clientMark first last) := by
  obtain ⟨later, split⟩ := streamed.commands
  have unopened := streamed.unopened
  rw [← split] at unopened
  have unwritten : Filed refers upload.old first first upload.old := by
    refine ⟨Nat.le_refl _, ?_⟩
    rw [fileAfter, List.drop_length]
    rfl
  refine (Course.run streamed.quiet (.unopened _ _ ?_ ?_ unopened unwritten) streamed.descriptor
    streamed.reached streamed.alone fun clean => clean).told
  · exact (Client.bytesOf_uploadInputs upload.data).symm
  · exact Client.complete_uploadInputs upload.data

theorem Streamed.ended
    (whole : receivedOn clientMark actions = uploadCommands clientMark upload.fd upload.offset upload.data)
    (free : Guarded step (OpensFree clientMark) first actions) (settled : Settled clientMark last) :
    ∃ written, Answer.closed written ∈ answersSince clientMark first last := by
  have unopened := streamed.unopened
  rw [← whole] at unopened
  obtain ⟨_, ⟨_, file, accepted⟩ | ⟨taken, _⟩⟩ := unopened.run [] upkeep_errors streamed.quiet
    (Client.complete_uploadInputs upload.data) .none streamed.reached
  · obtain ⟨errors, final, _, total⟩ := accepted.settled settled
    rw [List.append_assoc] at total
    rw [answersSince_of total]
    exact ⟨_, List.mem_append_right _ List.mem_cons_self⟩
  · exact absurd free taken

omit streamed

end Streamed

/-- What `CmdWriteAt` tells its caller, and the file. In one command: the file has the bytes
that were taken, if the code is `ErrorOK`. Through a stream: whatever the session has done
when the call returns, the file has the bytes that are reported, unless the code is
`ErrorUnknown`, and all of them if no `pwrite` failed or wrote nothing; and the call does
return when its commands were received, the stream found its place in the table free, and
its task is done. -/
theorem cmdWriteAt_writes (old data : Bytes) (clientMark : UInt8) (fd : UInt32) (offset : UInt64)
    (below : offset.toNat + data.length < 2 ^ 63) :
    (data.length ≤ maxWriteAtPayload → ∀ history,
      (Commands.cmdWriteAt clientMark fd offset data).Runs history () →
      (∀ event ∈ history, Took event) →
        Ensures Client.Wire.step (.ready clientMark (sentOn clientMark history))
          (Client.cmdWriteAt fd offset data) fun wire (w, code) =>
            wire.sent = [(Protocol.cmdWriteAt, .cmdWriteAt fd offset data)] ∧
            (code = errorOK →
              writtenOver old history = writeAt old offset.toNat (data.take w.toNat))) ∧
    (maxWriteAtPayload < data.length → ∀ refers first last actions,
      Streamed refers clientMark fd offset data first last actions →
        Returns Client.Wire.step
          (.ready clientMark ((answersSince clientMark first last).map Answer.message))
          (Client.cmdWriteAt fd offset data) (fun _ (w, code) =>
            Agrees old data offset.toNat (fileAfter refers old first last)
              (Guarded step (Unfailing clientMark) first actions) w code) ∧
        (receivedOn clientMark actions = uploadCommands clientMark fd offset data →
          Guarded step (OpensFree clientMark) first actions → Settled clientMark last →
            Ensures Client.Wire.step
              (.ready clientMark ((answersSince clientMark first last).map Answer.message))
              (Client.cmdWriteAt fd offset data) fun wire (w, code) =>
                wire.sent.filterMap (received clientMark) = uploadCommands clientMark fd offset data ∧
                Agrees old data offset.toNat (fileAfter refers old first last)
                  (Guarded step (Unfailing clientMark) first actions) w code)) := by
  constructor
  · intro small history runs took
    have yields := @cmdWriteAt_yields old data clientMark fd offset history () runs
    rw [foldl_record, List.nil_append] at yields
    obtain ⟨message, sent, replied⟩ := yields took
    rw [sent]
    refine Completes.ensures Client.Wire.step_decides
      (Client.completes_cmdWriteAt_small small ?_ ?_ ?_)
    · intro failed
      exact ⟨rfl, fun ok => absurd ok failed⟩
    · intro count isCount
      refine ⟨rfl, fun _ => ?_⟩
      cases replied with
      | failed message failed =>
        rw [isCount] at failed
        exact absurd rfl failed
      | wrote taken within content =>
        have same : (UInt64.ofNat taken).toNat = taken :=
          UInt64.toNat_ofNat_of_lt' (show taken < 2 ^ 64 by omega)
        have codes := congrArg ReadDir.Message.payload isCount
        have read := Codec.u64.read_write count _ [] rfl
        have read' := Codec.u64.read_write (UInt64.ofNat taken) _ [] rfl
        rw [show leBytes 8 (UInt64.ofNat taken).toNat = leBytes 8 count.toNat from codes] at read'
        obtain ⟨equal, _⟩ := Prod.mk.inj (Option.some.inj (read.symm.trans read'))
        rw [equal, same]
        exact content
    · intro ok
      cases replied with
      | failed message failed => exact absurd ok failed
      | wrote taken within content => exact ⟨_, rfl⟩
  · intro large refers first last actions streamed
    -- The stream that the commands stand for.
    have fits : offset.toNat + data.length < 2 ^ 64 := by omega
    have told := @Streamed.told refers clientMark ⟨fd, offset, data, old, fits⟩ _ _ _ streamed
    refine ⟨told_returns large told, fun whole free settled => ?_⟩
    obtain ⟨written, ended⟩ :=
      @Streamed.ended refers clientMark ⟨fd, offset, data, old, fits⟩ _ _ _ streamed whole free settled
    exact told_ensures large told ended

/-! A stream of two pieces, each of them written by one `pwrite`. -/

private theorem writeStreamWriteChunk_full {data : Bytes} (some : data ≠ []) (offset : UInt64) :
    writeStreamWriteChunk [.ok data.length] offset data =
      .some ⟨UInt64.ofNat data.length, [(offset, data)], none⟩ := by
  cases data with
  | nil => exact absurd rfl some
  | cons byte data => simp [writeStreamWriteChunk]

private def twoPieces (first second : Bytes) : List Action :=
  [.receive (.streamOpen 0 3 5 first), .acquire, .handle true, .start, .enqueue,
    .receive (.streamData 0 second false), .acquire, .handle true,
    .receive (.streamData 0 [] true), .acquire, .handle true,
    .take 0, .work 0 [.ok first.length], .take 0, .work 0 [.ok second.length],
    .take 0, .work 0 [], .finish 0, .leave 0]

private theorem work_step {state : State} {mark : Mark} {stream : Stream} {input : Input} {chunk : Chunk}
    {results : List (Except Errno Nat)} (occupied : state.slot mark = some stream)
    (working : stream.pc = .working input) (written : stream.write results input = some chunk) :
    step state (.work mark results) =
      some { (state.setSlot mark (some (stream.advance input chunk))).send mark chunk.answers with
        buffers := state.buffers + 1
        writes := state.writes ++ chunk.calls.map fun call => (stream.fd, call) } := by
  simp only [step, State.work, occupied, working, written, Option.map_some]

private theorem write_full {stream : Stream} {input : Input} (some : input.data ≠ [])
    (fresh : stream.writeErrSent = false) :
    stream.write [.ok input.data.length] input =
      .some ⟨UInt64.ofNat input.data.length, [(stream.offset, input.data)], none⟩ := by
  rw [Stream.write, if_pos ⟨some, fresh⟩, writeStreamWriteChunk_full some]

private theorem twoPieces_run {first second : Bytes} (some : first ≠ []) (more : second ≠ []) :
    Guarded step (OpensFree 0) initial (twoPieces first second) ∧
      ∃ last, run step initial (twoPieces first second) = .some last ∧ last.reader = .idle ∧
        last.slot 0 = none := by
  have plain {state : State} {action : Action} (other : ∀ known, action ≠ .handle known) :
      OpensFree 0 state action :=
    fun known _ _ _ isHandle => absurd isHandle (other known)
  iterate 2 refine guarded_run_cons rfl (plain nofun) ?_
  refine guarded_run_cons rfl (fun _ _ _ _ isHandle _ => ⟨by cases isHandle; rfl, rfl⟩) ?_
  iterate 4 refine guarded_run_cons rfl (plain nofun) ?_
  refine guarded_run_cons rfl (fun _ _ _ _ _ handling => by cases handling) ?_
  iterate 2 refine guarded_run_cons rfl (plain nofun) ?_
  refine guarded_run_cons rfl (fun _ _ _ _ _ handling => by cases handling) ?_
  refine guarded_run_cons rfl (plain nofun) ?_
  refine guarded_run_cons (work_step rfl rfl (write_full some rfl)) (plain nofun) ?_
  refine guarded_run_cons rfl (plain nofun) ?_
  refine guarded_run_cons (work_step rfl rfl (write_full more rfl)) (plain nofun) ?_
  iterate 4 refine guarded_run_cons rfl (plain nofun) ?_
  exact ⟨trivial, _, rfl, rfl, rfl⟩

private def manyBytes : Bytes := List.replicate (maxWriteAtPayload + 1) 7

private theorem manyBytes_length : manyBytes.length = maxWriteAtPayload + 1 := List.length_replicate

private theorem manyBytes_take : manyBytes.take Client.maxWriteStreamOpenPayload =
    List.replicate maxWriteAtPayload 7 := by
  rw [manyBytes, List.take_replicate]
  rfl

private theorem manyBytes_inputs : uploadInputs manyBytes = [⟨[7], false⟩, ⟨[], true⟩] := by
  have rest : manyBytes.drop Client.maxWriteStreamOpenPayload = [7] := by
    rw [manyBytes, List.drop_replicate]
    rfl
  have taken : ([7] : Bytes).take Client.maxWriteStreamDataPayload = [7] := rfl
  rw [uploadInputs, rest, Client.dataChunks_cons (by decide), taken]
  change (_ :: List.map _ (Client.dataChunks [])) ++ _ = _
  rw [Client.dataChunks_nil]
  rfl

private def manyActions : List Action := twoPieces (List.replicate maxWriteAtPayload 7) [7]

private theorem manyActions_works {mark : Mark} {results : List (Except Errno Nat)}
    (member : Action.work mark results ∈ manyActions) : mark = 0 ∧ Wrote results := by
  have cases : (mark = 0 ∧ results = [.ok (List.replicate maxWriteAtPayload (7 : UInt8)).length]) ∨
      (mark = 0 ∧ results = [.ok 1]) ∨ (mark = 0 ∧ results = []) := by
    simpa [manyActions, twoPieces] using member
  rw [List.length_replicate] at cases
  rcases cases with ⟨rfl, rfl⟩ | ⟨rfl, rfl⟩ | ⟨rfl, rfl⟩
  · exact ⟨rfl, fun result present => ⟨8177, List.mem_singleton.mp present⟩⟩
  · exact ⟨rfl, fun result present => ⟨0, List.mem_singleton.mp present⟩⟩
  · exact ⟨rfl, nofun⟩

private theorem manyActions_streamed {last : State} (reached : run step initial manyActions = some last) :
    Streamed (fun _ => true) 0 3 5 manyBytes initial last manyActions ∧
      receivedOn 0 manyActions = uploadCommands 0 3 5 manyBytes := by
  have whole : receivedOn 0 manyActions = uploadCommands 0 3 5 manyBytes := by
    rw [uploadCommands, manyBytes_take, manyBytes_inputs]
    rfl
  refine ⟨⟨rfl, rfl, nofun, nofun, ?_, reached, ?_⟩, whole⟩
  · rw [whole]
  · refine guarded_of_forall (fun state action member other results stream isWork different => ?_) _
    subst isWork
    exact absurd (manyActions_works member).1 different

/-- One byte more than fits into one command: the stream is written, and the call returns
that. -/
theorem cmdWriteAt_writes_two_pieces :
    ∃ last, run step initial manyActions = some last ∧
      Ensures Client.Wire.step (.ready 0 ((answersSince 0 initial last).map Answer.message))
        (Client.cmdWriteAt 3 5 manyBytes) fun _ (w, code) =>
          w.toNat = manyBytes.length ∧ code = errorOK ∧
            fileAfter (fun _ => true) [1] initial last = writeAt [1] 5 manyBytes := by
  have nonempty : List.replicate maxWriteAtPayload (7 : UInt8) ≠ [] := by
    intro empty
    have length := congrArg List.length empty
    rw [List.length_replicate] at length
    exact absurd length (by decide)
  obtain ⟨free, last, reached, idle, gone⟩ := twoPieces_run nonempty (by decide : ([7] : Bytes) ≠ [])
  have clean : Guarded step (Unfailing 0) initial manyActions := by
    refine guarded_of_forall (fun state action member results isWork => ?_) _
    subst isWork
    exact (manyActions_works member).2
  obtain ⟨streamed, whole⟩ := manyActions_streamed reached
  have below : (5 : UInt64).toNat + manyBytes.length < 2 ^ 63 := by
    rw [manyBytes_length]
    decide
  have large : maxWriteAtPayload < manyBytes.length := by
    rw [manyBytes_length]
    exact Nat.lt_succ_self _
  have result := ((cmdWriteAt_writes [1] manyBytes 0 3 5 below).2 large _ _ _ _ streamed).2 whole free (settled_of_free idle gone)
  refine ⟨last, reached, Completes.ensures Client.Wire.step_decides (result.completes.mono ?_)⟩
  rintro wire ⟨w, code⟩ ⟨_, content, all⟩
  obtain ⟨length, ok⟩ := all clean
  refine ⟨length, ok, ?_⟩
  have file := content (by rw [ok]; decide)
  rw [length, List.take_length] at file
  exact file

end Wsfs.Transfer
