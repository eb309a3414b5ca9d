/-
A read at an offset, from the client's `CmdReadAt` through the server's `cmdReadAt` to the
`pread` calls and back. The server cuts the read into pieces of the size of a message and
ends it with the first piece that is not full; the client puts the pieces together by a
running offset. The kernel may answer every `pread` with any beginning of what the file
holds at the place, or with an error.
-/

import Wsfs.Client.Commands
import Wsfs.Client.Wire
import Wsfs.Server.Responses
import Wsfs.Server.Session
import Wsfs.Util.Buffer

namespace Wsfs.Server.Commands

open Wsfs.Base Wsfs.Protocol Wsfs.Unix Wsfs.Util

/-! ### The server's buffers -/

/-- `s.write` of what `Buffer.Done` returns. -/
def sendBytes : Option Bytes → Handler Unit
  | some (mark :: code :: payload) => send mark code payload
  | _ => .halt

/-- `readAtAndSend` with the buffer that it takes from the pool and all its slices. -/
def readAtAndSendBuffered (pool : Buffer) (clientMark : UInt8) (fd : Nat) (off : UInt64) (size : Nat)
    (isPartial : Bool) : Handler (Option Nat) :=
  match pool.reset.write [clientMark, errorOK] with
  | none => .halt
  | some buf =>
      if buf.hasSlice size then do
        match ← Prog.perform (Effect.pread fd size off) with
        | .error err =>
            writeRspError clientMark (wsfsErrCode err) "syscall error"
            return none
        | .ok data =>
            let buf := (buf.fill data.val).grow data.val.length
            match if isPartial ∧ data.val.length = size then buf.set 1 errorPartialResponse
              else some buf with
            | none => .halt
            | some buf =>
                sendBytes buf.done
                return some data.val.length
      else .halt

def cmdReadAtBuffered (pool : UInt64 → Buffer) (clientMark : UInt8) (fd : UInt32)
    (offset size : UInt64) : Handler Unit :=
  withFD clientMark fd fun sfd =>
    readWhole clientMark size.toNat
      (fun off => readAtAndSendBuffered (pool off) clientMark sfd off) offset

section Buffered

variable {pool : Buffer} {clientMark : UInt8} {fd size : Nat} {off : UInt64} {isPartial : Bool}

theorem readAtAndSendBuffered_eq (sized : pool.bytes.length = maxMsgSize) (small : size ≤ maxReadPayLoad) :
    readAtAndSendBuffered pool clientMark fd off size isPartial =
      readAtAndSend clientMark fd off size isPartial := by
  have limit : maxReadPayLoad + 2 = maxMsgSize := rfl
  obtain ⟨buf, isBuf, content, written, length⟩ :=
    @Buffer.write_fits pool.reset [clientMark, errorOK] (by
      change 0 + 2 ≤ pool.bytes.length
      omega)
  replace content : buf.content = [clientMark, errorOK] := content
  replace written : buf.written = 2 := written
  replace length : buf.bytes.length = maxMsgSize := length.trans sized
  simp only [readAtAndSendBuffered, isBuf]
  rw [if_pos (by rw [Buffer.hasSlice, decide_eq_true_eq]; omega)]
  refine congrArg (Prog.call _) (funext fun answer => ?_)
  cases answer with
  | error err => rfl
  | ok data =>
    have fits : buf.written + data.val.length ≤ buf.bytes.length := by
      have bound := data.property
      omega
    simp only [Prog.bind, sendRead]
    obtain ⟨filled, filledLength⟩ := Buffer.fill_grow fits
    have grown : ((buf.fill data.val).grow data.val.length).written = 2 + data.val.length := by
      rw [← written]
      rfl
    generalize (buf.fill data.val).grow data.val.length = out at filled filledLength grown
    rw [content] at filled
    by_cases full : isPartial ∧ data.val.length = size
    · obtain ⟨marked, isMarked, markedContent, markedWritten, markedLength⟩ :=
        @Buffer.set_content out 1 errorPartialResponse (by omega) (by omega)
      rw [filled] at markedContent
      have sends : marked.done = some (clientMark :: errorPartialResponse :: data.val) := by
        rw [Buffer.done_fits (by omega), markedContent]
        rfl
      simp only [if_pos full, isMarked, sends]
      rfl
    · have sends : out.done = some (clientMark :: errorOK :: data.val) := by
        rw [Buffer.done_fits (by omega), filled]
        rfl
      simp only [if_neg full, sends]
      rfl

end Buffered

theorem readWhole_congr (clientMark : UInt8) (size : Nat)
    {first second : UInt64 → Nat → Bool → Handler (Option Nat)}
    (same : ∀ off size isPartial, size ≤ maxReadPayLoad →
      first off size isPartial = second off size isPartial) (off : UInt64) :
    readWhole clientMark size first off = readWhole clientMark size second off := by
  have positive : 0 < maxReadPayLoad := by decide
  have sameFull : (fun off => first off maxReadPayLoad true) =
      fun off => second off maxReadPayLoad true :=
    funext fun off => same off maxReadPayLoad true (Nat.le_refl _)
  unfold readWhole
  by_cases small : size < maxReadPayLoad
  · rw [if_pos small, if_pos small, same off size false (Nat.le_of_lt small)]
  · rw [if_neg small, if_neg small, sameFull]
    refine congrArg (Prog.bind _) (funext fun reached => ?_)
    cases reached with
    | none => rfl
    | some off =>
      simp only [same off (size % maxReadPayLoad) false (Nat.le_of_lt (Nat.mod_lt _ positive))]

theorem cmdReadAtBuffered_eq {pool : UInt64 → Buffer}
    (sized : ∀ off, (pool off).bytes.length = maxMsgSize) (clientMark : UInt8) (fd : UInt32)
    (offset size : UInt64) :
    cmdReadAtBuffered pool clientMark fd offset size = cmdReadAt clientMark fd offset size := by
  unfold cmdReadAtBuffered cmdReadAt
  refine congrArg (withFD clientMark fd) (funext fun sfd => ?_)
  exact readWhole_congr clientMark size.toNat
    (fun off size isPartial small => readAtAndSendBuffered_eq (sized off) small) offset

end Wsfs.Server.Commands

namespace Wsfs.Client

open Wsfs.Base Wsfs.Protocol
open Wsfs.ReadDir (Message partialMessage)

/-- `rsp.Bytes[1]` and `rsp.Bytes[2:rsp.Written()]` -/
def response (rsp : Util.Buffer) : Option Message :=
  if 1 < rsp.bytes.length ∧ 2 ≤ rsp.written ∧ rsp.written ≤ rsp.bytes.length then
    some ⟨rsp.bytes.getD 1 0, rsp.content.drop 2⟩
  else none

theorem response_written {rsp : Util.Buffer} {clientMark : Mark} {message : Message}
    (fits : 2 + message.payload.length ≤ rsp.bytes.length) :
    (rsp.reset.write (clientMark :: message.code :: message.payload)).bind response = some message := by
  obtain ⟨filled, isFilled, content, written, length⟩ :=
    @Util.Buffer.write_fits rsp.reset (clientMark :: message.code :: message.payload) (by
      change 0 + (message.payload.length + 1 + 1) ≤ rsp.bytes.length
      omega)
  replace content : filled.content = clientMark :: message.code :: message.payload := content
  replace written : filled.written = 0 + (message.payload.length + 1 + 1) := written
  replace length : filled.bytes.length = rsp.bytes.length := length
  have second : filled.bytes[1]? = some message.code := by
    have taken : filled.content[1]? = filled.bytes[1]? := List.getElem?_take_of_lt (by omega)
    rw [← taken, content]
    rfl
  rw [isFilled, Option.bind_some, response, if_pos ⟨by omega, by omega, by omega⟩, content,
    List.getD_eq_getElem?_getD, second]
  rfl

section Copied

variable {dest data : Bytes} {off : Nat}

theorem copyInto_length (inside : off ≤ dest.length) :
    ∃ after, copyInto dest off data = some after ∧ after.length = dest.length := by
  refine ⟨_, if_pos inside, ?_⟩
  rw [List.length_append, List.length_append, List.length_take, List.length_take, List.length_drop]
  omega

theorem copyInto_fits (fits : off + data.length ≤ dest.length) :
    ∃ after, copyInto dest off data = some after ∧ after.length = dest.length ∧
      after.take (off + data.length) = dest.take off ++ data := by
  obtain ⟨after, copied, length⟩ := @copyInto_length dest data off (by omega)
  refine ⟨after, copied, length, ?_⟩
  have isAfter : copyInto dest off data = some (dest.take off ++ data ++ dest.drop (off + data.length)) := by
    rw [copyInto, if_pos (by omega), List.take_of_length_le (show data.length ≤ dest.length - off by omega)]
  rw [Option.some.inj (copied.symm.trans isAfter)]
  apply List.take_left'
  rw [List.length_append, List.length_take, Nat.min_eq_left (by omega)]

end Copied

/-- The body of the loop of `CmdRead` and `CmdReadAt`. -/
def receivePiece (clientMark : Mark) : Bytes × Nat → Call ((Bytes × Nat) ⊕ (Bytes × UInt64 × UInt8)) :=
  fun (dest, off) => do
    let rsp ← receive clientMark
    match copyInto dest off rsp.payload with
    | none => .halt
    | some dest =>
        if rsp.code = errorPartialResponse then return .inl (dest, off + rsp.payload.length)
        else
          releaseClientMark clientMark
          return .inr (dest, UInt64.ofNat (off + rsp.payload.length), rsp.code)

theorem completes_receivePieces {parts : List Bytes} {last : Message} {wire : Wire}
    {dest : Bytes} {off : Nat} {post : Wire → Bytes × UInt64 × UInt8 → Prop}
    (coming : wire.inbox = parts.map partialMessage ++ [last]) (final : last.code ≠ errorPartialResponse)
    (inside : off + parts.flatten.length ≤ dest.length)
    (holds : ∀ after, after.length = dest.length →
      (off + parts.flatten.length + last.payload.length ≤ dest.length →
        after.take (off + parts.flatten.length + last.payload.length) =
          dest.take off ++ parts.flatten ++ last.payload) →
      post { wire with inbox := [], left := wire.left ++ [[]] }
        (after, UInt64.ofNat (off + parts.flatten.length + last.payload.length), last.code)) :
    Completes Wire.step wire (Prog.loop (receivePiece wire.clientMark) (dest, off)) post := by
  induction parts generalizing wire dest off with
  | nil =>
    apply completes_round
    refine completes_receive rfl coming ?_
    obtain ⟨after, copied, length⟩ := @copyInto_length dest last.payload off (by omega)
    simp only [copied]
    rw [if_neg final]
    refine completes_releaseClientMark rfl (completes_pure (holds after length ?_))
    intro fits
    obtain ⟨after', copied', _, stands⟩ := @copyInto_fits dest last.payload off fits
    rw [copied] at copied'
    cases copied'
    rw [List.flatten_nil, List.append_nil]
    exact stands
  | cons part parts ih =>
    rw [List.flatten_cons, List.length_append] at inside
    apply completes_round
    refine completes_receive rfl coming ?_
    obtain ⟨after, copied, length, stands⟩ := @copyInto_fits dest part off (by omega)
    replace copied : copyInto dest off (partialMessage part).payload = some after := copied
    simp only [copied]
    have again : (partialMessage part).code = errorPartialResponse := rfl
    rw [if_pos again]
    refine completes_pure (@ih { wire with inbox := parts.map partialMessage ++ [last] } after
      (off + part.length) rfl (by omega) ?_)
    intro after' length' stands'
    rw [List.flatten_cons, List.length_append] at holds
    rw [length] at stands' length'
    rw [stands, List.append_assoc (dest.take off)] at stands'
    have sum : off + part.length + parts.flatten.length = off + (part.length + parts.flatten.length) := by
      omega
    rw [sum] at stands' ⊢
    exact holds after' length' stands'

theorem receiveInto_eq (clientMark : Mark) (dest : Bytes) :
    receiveInto clientMark dest = Prog.loop (receivePiece clientMark) (dest, 0) := rfl

end Wsfs.Client

namespace Wsfs.Transfer

open Wsfs.Base Wsfs.Protocol Wsfs.Unix Wsfs.Util Wsfs.Server.Commands
open Wsfs.Server hiding Message
open Wsfs.ReadDir (Message partialMessage)
open Wsfs.ReadDir.Server (errorMessage errorMessage_fits room)

/-! ### What a handler does on its mark -/

abbrev ServerEvent := Event Effect Effect.Result

def sentMessage (clientMark : UInt8) : ServerEvent → Option Message
  | ⟨.send mark code payload, _⟩ => if mark = clientMark then some ⟨code, payload⟩ else none
  | _ => none

def sentOn (clientMark : UInt8) (history : List ServerEvent) : List Message :=
  history.filterMap (sentMessage clientMark)

def failedRead : ServerEvent → Bool
  | ⟨.pread _ _ _, .error _⟩ => true
  | _ => false

/-- Fewer bytes than asked for, and than the file has at the place. -/
def shortRead (file : Bytes) : ServerEvent → Bool
  | ⟨.pread _ size off, .ok data⟩ => decide (data.val.length < min size (file.length - off.toNat))
  | _ => false

/-- A `pread` that does not fail gives a beginning of what the file holds at the offset. -/
def Reads (file : Bytes) : ServerEvent → Prop
  | ⟨.pread _ _ off, .ok data⟩ => data.val = (file.drop off.toNat).take data.val.length
  | _ => True

structure Reading where
  sent : List Message
  failed : Bool
  short : Bool
deriving DecidableEq, Repr

def Reading.watch (file : Bytes) (clientMark : UInt8) (reading : Reading) (event : ServerEvent) : Reading :=
  ⟨reading.sent ++ (sentMessage clientMark event).toList, reading.failed || failedRead event,
    reading.short || shortRead file event⟩

def readTerms (file : Bytes) (clientMark : UInt8) : Terms Effect Effect.Result Reading where
  lawful := Reads file
  start := ⟨[], false, false⟩
  watch := Reading.watch file clientMark
  spent := fun _ => 0

theorem foldl_watch (file : Bytes) (clientMark : UInt8) (history : List ServerEvent) (reading : Reading) :
    history.foldl (Reading.watch file clientMark) reading =
      ⟨reading.sent ++ sentOn clientMark history, reading.failed || history.any failedRead,
        reading.short || history.any (shortRead file)⟩ := by
  induction history generalizing reading with
  | nil => simp only [List.foldl_nil, sentOn, List.filterMap_nil, List.append_nil, List.any_nil, Bool.or_false]
  | cons event history ih =>
    rw [List.foldl_cons, ih]
    cases sent : sentMessage clientMark event <;>
      simp [Reading.watch, sentOn, sent, Bool.or_assoc]

theorem ghostAt_readTerms (file : Bytes) (clientMark : UInt8) (history : List ServerEvent) :
    (readTerms file clientMark).ghostAt history =
      ⟨sentOn clientMark history, history.any failedRead, history.any (shortRead file)⟩ := by
  refine (foldl_watch file clientMark history _).trans ?_
  simp only [readTerms, List.nil_append, Bool.false_or]

theorem readTerms_admits {file : Bytes} {world : World Effect Effect.Result} (clientMark : UInt8)
    (lawful : ∀ history op, Reads file ⟨op, world history op⟩) :
    (readTerms file clientMark).Admits world :=
  ⟨lawful, 0, fun _ _ => Nat.le_refl 0⟩

/-! ### The pieces of a read -/

section Pieces

variable {file : Bytes} {clientMark : UInt8} {start limit : Nat} {reading : Reading}

/-- Full pieces have been sent, and what they hold is what the file holds from the start. -/
structure Partway (file : Bytes) (start : Nat) (parts : List Bytes) (reading : Reading) : Prop where
  sent : reading.sent = parts.map partialMessage
  fit : ∀ part ∈ parts, part.length ≤ maxReadPayLoad
  failed : reading.failed = false
  content : parts.flatten = (file.drop start).take parts.flatten.length

/-- The read has been ended with a message, which is in the place of the rest of it or
tells of an error. -/
structure Finished (file : Bytes) (start limit : Nat) (parts : List Bytes) (last : Message)
    (reading : Reading) : Prop where
  sent : reading.sent = parts.map partialMessage ++ [last]
  final : last.code ≠ errorPartialResponse
  inside : parts.flatten.length ≤ limit
  fit : ∀ message ∈ reading.sent, 2 + message.payload.length ≤ maxMsgSize
  failed : reading.failed = true → last.code ≠ errorOK
  within : last.code = errorOK → parts.flatten.length + last.payload.length ≤ limit
  content : last.code = errorOK →
    parts.flatten ++ last.payload = (file.drop start).take (parts.flatten.length + last.payload.length)
  whole : last.code = errorOK → reading.short = false →
    parts.flatten.length + last.payload.length = min limit (file.length - start)

def Ended (file : Bytes) (start limit : Nat) (reading : Reading) : Prop :=
  ∃ parts last, Finished file start limit parts last reading

theorem Partway.begin {file : Bytes} {start : Nat} : Partway file start [] ⟨[], false, false⟩ where
  sent := rfl
  fit := by
    intro part absent
    cases absent
  failed := rfl
  content := rfl

variable {parts : List Bytes}

variable (partway : Partway file start parts reading)
include partway

theorem Partway.fits :
    ∀ message ∈ parts.map partialMessage, 2 + message.payload.length ≤ maxMsgSize := by
  intro message present
  obtain ⟨part, member, rfl⟩ := List.mem_map.mp present
  have bound := partway.fit part member
  change part.length ≤ 8190 at bound
  change 2 + part.length ≤ 8192
  omega

theorem Partway.fits_end {last : Message} (small : 2 + last.payload.length ≤ maxMsgSize) :
    ∀ message ∈ parts.map partialMessage ++ [last], 2 + message.payload.length ≤ maxMsgSize := by
  intro message present
  cases List.mem_append.mp present with
  | inl earlier => exact partway.fits message earlier
  | inr last =>
    rw [List.mem_singleton.mp last]
    exact small

theorem Partway.reaches :
    parts.flatten.length ≤ file.length - start := by
  have same := congrArg List.length partway.content
  rw [List.length_take, List.length_drop] at same
  omega

theorem Partway.joined {data : Bytes}
    (content : data = (file.drop (start + parts.flatten.length)).take data.length) :
    parts.flatten ++ data = (file.drop start).take (parts.flatten.length + data.length) := by
  rw [List.take_add, List.drop_drop, ← partway.content, ← content]

theorem Partway.more {data : Bytes} {short : Bool} (small : data.length ≤ maxReadPayLoad)
    (content : data = (file.drop (start + parts.flatten.length)).take data.length) :
    Partway file start (parts ++ [data])
      ⟨reading.sent ++ [partialMessage data], reading.failed, short⟩ where
  sent := by
    rw [partway.sent, List.map_append]
    rfl
  fit := by
    intro part present
    cases List.mem_append.mp present with
    | inl earlier => exact partway.fit part earlier
    | inr last =>
      rw [List.mem_singleton.mp last]
      exact small
  failed := partway.failed
  content := by
    rw [List.flatten_append, List.flatten_singleton, List.length_append]
    exact partway.joined content

theorem Partway.finish {data : Bytes} {size : Nat} (small : data.length ≤ maxReadPayLoad)
    (inside : parts.flatten.length + size ≤ limit) (asked : data.length ≤ size)
    (content : data = (file.drop (start + parts.flatten.length)).take data.length)
    (lastPiece : data.length < size ∨ parts.flatten.length + size = limit) :
    Ended file start limit ⟨reading.sent ++ [⟨errorOK, data⟩], reading.failed,
      reading.short || decide (data.length < min size (file.length - (start + parts.flatten.length)))⟩ := by
  have reaches := partway.reaches
  refine ⟨parts, ⟨errorOK, data⟩, ?_, (by decide : errorOK ≠ errorPartialResponse), by omega, ?_, ?_, ?_, ?_, ?_⟩
  · rw [partway.sent]
  · rw [partway.sent]
    apply partway.fits_end
    change data.length ≤ 8190 at small
    change 2 + data.length ≤ 8192
    omega
  · intro failed
    rw [partway.failed] at failed
    cases failed
  · intro _
    change parts.flatten.length + data.length ≤ limit
    omega
  · intro _
    exact partway.joined content
  · intro _ complete
    have full := of_decide_eq_false (Bool.or_eq_false_iff.mp complete).2
    have there := congrArg List.length content
    rw [List.length_take, List.length_drop] at there
    change parts.flatten.length + data.length = min limit (file.length - start)
    omega

theorem Partway.fail (inside : parts.flatten.length ≤ limit) {code : UInt8} (desc : String)
    (final : code ≠ errorPartialResponse) (bad : code ≠ errorOK) (failed short : Bool) :
    Ended file start limit ⟨reading.sent ++ [errorMessage code desc], failed, short⟩ := by
  refine ⟨parts, errorMessage code desc, ?_, final, inside, ?_, fun _ => bad, fun good => absurd good bad,
    fun good => absurd good bad, fun good => absurd good bad⟩
  · rw [partway.sent]
  · rw [partway.sent]
    apply partway.fits_end
    have bound := errorMessage_fits code desc
    change _ ≤ 8190 at bound
    change _ ≤ 8192
    omega

omit partway

/-! ### The server -/

theorem readAtAndSend_total {sfd size : Nat} {off : UInt64} {isPartial : Bool}
    {post : Reading → Option Nat → Prop}
    (error : ∀ err, post ⟨reading.sent ++ [errorMessage (wsfsErrCode err) "syscall error"], true, reading.short⟩
      none)
    (ok : ∀ data : Bytes, data.length ≤ size → data = (file.drop off.toNat).take data.length →
      post ⟨reading.sent ++ [⟨if isPartial ∧ data.length = size then errorPartialResponse else errorOK, data⟩],
        reading.failed, reading.short || decide (data.length < min size (file.length - off.toNat))⟩
        (some data.length)) :
    (readTerms file clientMark).Total reading (readAtAndSend clientMark sfd off size isPartial) post := by
  apply Terms.total_perform
  intro answer lawful
  cases answer with
  | error err =>
    apply Terms.total_perform
    intro _ _
    apply Terms.total_pure
    have holds := error err
    simpa [readTerms, Reading.watch, sentMessage, failedRead, shortRead] using holds
  | ok data =>
    apply Terms.total_perform
    intro _ _
    apply Terms.total_pure
    have holds := ok data.val data.property lawful
    simpa [readTerms, Reading.watch, sentMessage, failedRead, shortRead] using holds

theorem readFull_total {sfd rounds : Nat} {off : UInt64} (partway : Partway file start parts reading)
    (place : off.toNat = start + parts.flatten.length)
    (inside : parts.flatten.length + rounds * maxReadPayLoad ≤ limit)
    (addressable : start + limit < 2 ^ 64) :
    (readTerms file clientMark).Total reading
      (readFull (readAtAndSend clientMark sfd · maxReadPayLoad true) rounds off) fun reading' reached =>
        match reached with
        | none => Ended file start limit reading'
        | some off' => ∃ parts', Partway file start parts' reading' ∧
            off'.toNat = start + parts'.flatten.length ∧
            parts'.flatten.length = parts.flatten.length + rounds * maxReadPayLoad := by
  induction rounds generalizing parts reading off with
  | zero =>
    refine Terms.total_pure ⟨parts, partway, place, ?_⟩
    omega
  | succ rounds ih =>
    rw [Nat.succ_mul] at inside
    apply Terms.total_bind
    apply readAtAndSend_total
    · intro err
      exact Terms.total_pure (partway.fail (by omega) _ (wsfsErrCode_final err)
        (wsfsErrCode_ne_errorOK err) true reading.short)
    · intro data asked content
      rw [place] at content ⊢
      apply Terms.total_ite
      · intro less
        rw [if_neg (by omega)]
        exact Terms.total_pure (partway.finish asked (show parts.flatten.length + maxReadPayLoad ≤ limit by omega)
          asked content (.inl less))
      · intro notLess
        have full : data.length = maxReadPayLoad := by omega
        rw [if_pos ⟨rfl, full⟩]
        have joined : (parts ++ [data]).flatten.length = parts.flatten.length + maxReadPayLoad := by
          rw [List.flatten_append, List.flatten_singleton, List.length_append, full]
        refine (ih (partway.more asked content) ?_ (by omega)).mono ?_
        · have small : maxReadPayLoad < 2 ^ 64 := by decide
          rw [joined, UInt64.toNat_add, full, UInt64.toNat_ofNat_of_lt' small, place,
            Nat.mod_eq_of_lt (by omega)]
          omega
        · intro reading' reached holds
          cases reached with
          | none => exact holds
          | some off' =>
            obtain ⟨parts', partway', place', length'⟩ := holds
            refine ⟨parts', partway', place', ?_⟩
            rw [length', joined, Nat.succ_mul]
            omega

theorem readWhole_total {sfd size : Nat} {offset : UInt64} {post : Reading → Unit → Prop}
    (addressable : offset.toNat + size < 2 ^ 64)
    (holds : ∀ reading, Ended file offset.toNat size reading → post reading ()) :
    (readTerms file clientMark).Total ⟨[], false, false⟩
      (readWhole clientMark size (readAtAndSend clientMark sfd) offset) post := by
  have started : Partway file offset.toNat [] ⟨[], false, false⟩ := .begin
  -- The last piece, without the flag for a partial one.
  have lastPiece : ∀ {parts : List Bytes} {reading : Reading} {off : UInt64} {rest : Nat},
      Partway file offset.toNat parts reading → off.toNat = offset.toNat + parts.flatten.length →
      rest ≤ maxReadPayLoad → parts.flatten.length + rest = size →
      (readTerms file clientMark).Total reading
        (do let _ ← readAtAndSend clientMark sfd off rest false; return ()) post := by
    intro parts reading off rest partway place small sum
    apply Terms.total_bind
    apply readAtAndSend_total
    · intro err
      exact Terms.total_pure (holds _ (partway.fail (by omega) _ (wsfsErrCode_final err)
        (wsfsErrCode_ne_errorOK err) true reading.short))
    · intro data asked content
      rw [place] at content ⊢
      rw [if_neg (by simp)]
      exact Terms.total_pure (holds _ (partway.finish (Nat.le_trans asked small) (Nat.le_of_eq sum) asked content
        (.inr sum)))
  have divided := Nat.div_add_mod size maxReadPayLoad
  have remainder : size % maxReadPayLoad < maxReadPayLoad := Nat.mod_lt _ (by decide)
  unfold readWhole
  apply Terms.total_ite
  · intro small
    exact lastPiece started rfl (Nat.le_of_lt small) (Nat.zero_add size)
  · intro _
    apply Terms.total_bind
    rw [Nat.mul_comm] at divided
    refine (@readFull_total file clientMark offset.toNat size ⟨[], false, false⟩ [] sfd
      (size / maxReadPayLoad) offset started rfl ?_ addressable).mono ?_
    · change 0 + _ ≤ size
      omega
    · intro reading reached outcome
      cases reached with
      | none => exact Terms.total_pure (holds reading outcome)
      | some off =>
        obtain ⟨parts, partway, place, length⟩ := outcome
        replace length : parts.flatten.length = 0 + size / maxReadPayLoad * maxReadPayLoad := length
        apply Terms.total_ite
        · intro multiple
          -- The read ends with a message that holds nothing.
          apply Terms.total_call
          intro _ _
          have finished := @Partway.finish file offset.toNat size reading parts partway [] 0
            (Nat.zero_le _) (by omega) (Nat.le_refl 0) rfl (.inr (by omega))
          simpa [readTerms, Reading.watch, sentMessage, failedRead, shortRead] using holds _ finished
        · intro _
          exact lastPiece partway place (Nat.le_of_lt remainder) (by omega)

theorem cmdReadAt_total {fd : UInt32} {offset : UInt64} {size : UInt64}
    (addressable : offset.toNat + size.toNat < 2 ^ 64) :
    (readTerms file clientMark).Total ⟨[], false, false⟩ (cmdReadAt clientMark fd offset size)
      fun reading _ => Ended file offset.toNat size.toNat reading := by
  apply Terms.total_perform
  intro answer _
  have unchanged : (readTerms file clientMark).watch ⟨[], false, false⟩ ⟨Effect.loadFD fd, answer⟩ =
      ⟨[], false, false⟩ := rfl
  rw [unchanged]
  cases answer with
  | none =>
    apply Terms.total_call
    intro _ _
    have failed := @Partway.fail file offset.toNat size.toNat _ _ .begin (Nat.zero_le _) errorInvalidFD
      "bad fd" (by decide) (by decide) false false
    simpa [readTerms, Reading.watch, sentMessage, failedRead, shortRead] using failed
  | some sfd => exact readWhole_total addressable fun _ ended => ended

end Pieces

/-! ### Both sides -/

/-- What the caller of `CmdReadAt` gets, for what the server has read. -/
structure ReadBack (file dest : Bytes) (offset : Nat) (failed short : Bool) (after : Bytes) (n : Nat)
    (code : UInt8) : Prop where
  length : after.length = dest.length
  within : code = errorOK → n ≤ dest.length
  content : code = errorOK → after.take n = (file.drop offset).take n
  whole : code = errorOK → short = false → n = min dest.length (file.length - offset)
  failed : failed = true → code ≠ errorOK

theorem Finished.received {file dest : Bytes} {offset : UInt64} {parts : List Bytes} {last : Message}
    {reading : Reading} (finished : Finished file offset.toNat dest.length parts last reading)
    (addressable : dest.length < 2 ^ 63) (clientMark : Client.Mark) (fd : UInt32) :
    Completes Client.Wire.step (.ready clientMark reading.sent) (Client.cmdReadAt fd offset dest)
      fun wire (after, n, code) =>
        wire.sent = [(Protocol.cmdReadAt, .cmdReadAt fd offset (UInt64.ofNat dest.length))] ∧
        wire.left = [[]] ∧
        ReadBack file dest offset.toNat reading.failed reading.short after n.toNat code := by
  have inside := finished.inside
  apply Client.completes_exchange
  rw [Client.receiveInto_eq]
  refine Client.completes_receivePieces finished.sent finished.final (by omega) ?_
  intro after length stands
  rw [Nat.zero_add] at stands ⊢
  -- The count fits into the integer unless the read has failed.
  have count : last.code = errorOK →
      (UInt64.ofNat (parts.flatten.length + last.payload.length)).toNat =
        parts.flatten.length + last.payload.length := by
    intro good
    have within := finished.within good
    exact UInt64.toNat_ofNat_of_lt' (Nat.lt_of_le_of_lt within (Nat.lt_trans addressable (by decide)))
  refine ⟨rfl, rfl, length, ?_, ?_, ?_, finished.failed⟩
  · intro good
    rw [count good]
    exact finished.within good
  · intro good
    rw [count good, stands (finished.within good), List.take_zero, List.nil_append]
    exact finished.content good
  · intro good complete
    rw [count good]
    exact finished.whole good complete

/-- A read at an offset, whatever the calls of the server are answered with: it ends; the
messages fit into the buffers on both sides, and no slice is out of range; what the client
is told without an error is what the file holds, and all of it unless the kernel has given
less than there was. -/
theorem cmdReadAt_reads_back (file dest : Bytes) (clientMark : UInt8) (fd : UInt32) (offset : UInt64)
    (pool : UInt64 → Buffer) (world : World Effect Effect.Result)
    (below : offset.toNat < 2 ^ 63) (addressable : dest.length < 2 ^ 63)
    (sized : ∀ off, (pool off).bytes.length = maxMsgSize)
    (reads : ∀ history op, Reads file ⟨op, world history op⟩) :
    Ends world [] (cmdReadAtBuffered pool clientMark fd offset (UInt64.ofNat dest.length))
      fun history _ =>
        (∀ message ∈ sentOn clientMark history, ∀ rsp : Buffer, rsp.bytes.length = maxMsgSize →
          (rsp.reset.write (clientMark :: message.code :: message.payload)).bind Client.response =
            some message) ∧
        Ensures Client.Wire.step (.ready clientMark (sentOn clientMark history))
          (Client.cmdReadAt fd offset dest) fun wire (after, n, code) =>
            wire.sent = [(Protocol.cmdReadAt, .cmdReadAt fd offset (UInt64.ofNat dest.length))] ∧
            wire.left = [[]] ∧
            ReadBack file dest offset.toNat (history.any failedRead) (history.any (shortRead file))
              after n.toNat code := by
  have size : (UInt64.ofNat dest.length).toNat = dest.length :=
    UInt64.toNat_ofNat_of_lt' (Nat.lt_of_lt_of_le addressable (by decide))
  have total := @cmdReadAt_total file clientMark fd offset (UInt64.ofNat dest.length) (by omega)
  rw [size] at total
  rw [cmdReadAtBuffered_eq sized]
  obtain ⟨trace, value, runs, follows, ended⟩ :=
    total world (readTerms_admits clientMark reads) [] .nil rfl
  refine ⟨trace, value, runs, follows, ?_⟩
  rw [ghostAt_readTerms] at ended
  obtain ⟨parts, last, finished⟩ := ended
  constructor
  · intro message present rsp length
    apply Client.response_written
    rw [length]
    exact finished.fit message present
  · exact (finished.received addressable clientMark fd).ensures Client.Wire.step_decides

/-- Every descriptor refers to the file, and `pread` gives all there is. -/
def fileWorld (file : Bytes) : World Effect Effect.Result := fun history op =>
  match op with
  | .loadFD _ => some 3
  | .pread _ size off => .ok ⟨(file.drop off.toNat).take size, List.length_take_le _ _⟩
  | op => linkWorld [] ⟨[0], by decide⟩ history op

theorem fileWorld_reads (file : Bytes) (history : List ServerEvent) (op : Effect) :
    Reads file ⟨op, fileWorld file history op⟩ := by
  cases op with
  | pread sfd size off =>
    change (file.drop off.toNat).take size =
      (file.drop off.toNat).take ((file.drop off.toNat).take size).length
    rw [List.length_take, ← List.take_take, List.take_length]
  | _ => trivial

theorem cmdReadAt_reads_back_three_bytes :
    Ends (fileWorld [1, 2, 3]) []
      (cmdReadAtBuffered (fun _ => ⟨List.replicate maxMsgSize 0, 0⟩) 7 1 1 (UInt64.ofNat 4))
      fun history _ =>
        (∀ message ∈ sentOn 7 history, ∀ rsp : Buffer, rsp.bytes.length = maxMsgSize →
          (rsp.reset.write (7 :: message.code :: message.payload)).bind Client.response = some message) ∧
        Ensures Client.Wire.step (.ready 7 (sentOn 7 history)) (Client.cmdReadAt 1 1 [9, 9, 9, 9])
          fun wire (after, n, code) =>
            wire.sent = [(Protocol.cmdReadAt, .cmdReadAt 1 1 (UInt64.ofNat 4))] ∧ wire.left = [[]] ∧
            ReadBack [1, 2, 3] [9, 9, 9, 9] 1 (history.any failedRead) (history.any (shortRead [1, 2, 3]))
              after n.toNat code :=
  cmdReadAt_reads_back [1, 2, 3] [9, 9, 9, 9] 7 1 1 _ _ (by decide) (by decide)
    (fun _ => List.length_replicate) (fileWorld_reads [1, 2, 3])

end Wsfs.Transfer
