/-
The `Cmd*` methods of a client session. Most send one command and return its code, or
its code and a decoded answer; they are one program each, with the values of the
method. The methods that loop over messages, chunks or attributes keep their own
bodies.
-/

import Wsfs.Client.Request
import Wsfs.ReadDir.Client
import Wsfs.Util.Path

namespace Wsfs.Client

open Wsfs.Base Wsfs.Protocol Wsfs.Util
open Wsfs.ReadDir (Message)
open Wsfs.ReadDir.Client (Listed Parser Parse DirItem)

def text (s : String) : Bytes := s.toUTF8.toList

/-! ### One command, one answer -/

def codeRequest (cmd : UInt8) (body : CommandStruct) : Call UInt8 :=
  exchange cmd body errorIo errorIo fun clientMark => do
    let rsp ← receive clientMark
    releaseClientMark clientMark
    return rsp.code

/-- Where `unwritten` is `errorOK`, the method returns its named results as they are at
the start. -/
def valueRequest {α : Type} (cmd : UInt8) (body : CommandStruct) (codec : Codec α) (zero : α)
    (unwritten : UInt8) : Call (α × UInt8) :=
  exchange cmd body (zero, errorIo) (zero, unwritten) fun clientMark => do
    let rsp ← receive clientMark
    releaseClientMark clientMark
    if rsp.code ≠ errorOK then return (zero, rsp.code)
    else
      match codec.read rsp.payload with
      | none => return (zero, errorIo)
      | some (value, _) => return (value, rsp.code)

def cmdClose (fd : UInt32) : Call UInt8 := codeRequest Protocol.cmdClose (.cmdClose fd)

def cmdAllocate (fd flag : UInt32) (off size : UInt64) : Call UInt8 :=
  codeRequest Protocol.cmdAllocate (.cmdAllocate fd flag off size)

def cmdSetAttr (fpath : Bytes) (flag : UInt8) (fi : FileInfo) : Call UInt8 :=
  codeRequest Protocol.cmdSetAttr (.cmdSetAttr fpath flag fi)

def cmdSync (fd : UInt32) : Call UInt8 := codeRequest Protocol.cmdSync (.cmdSync fd)

def cmdMkdir (fpath : Bytes) (mode : UInt32) : Call UInt8 :=
  codeRequest Protocol.cmdMkdir (.cmdMkdir fpath mode)

def cmdSymLink (target fpath : Bytes) : Call UInt8 :=
  codeRequest Protocol.cmdSymLink (.cmdSymLink target fpath)

def cmdRemove (fpath : Bytes) : Call UInt8 := codeRequest Protocol.cmdRemove (.cmdRemove fpath)

def cmdRmDir (fpath : Bytes) : Call UInt8 := codeRequest Protocol.cmdRmDir (.cmdRmDir fpath)

def cmdRename (old new : Bytes) (mode : UInt32) : Call UInt8 :=
  codeRequest Protocol.cmdRename (.cmdRename old new mode)

def cmdCloneFileRange (wfd1 wfd2 : UInt32) (off1 off2 size : UInt64) : Call UInt8 :=
  codeRequest Protocol.cmdCloneFileRange (.cmdCloneFileRange wfd1 wfd2 off1 off2 size)

def cmdSetFileLock (fd : UInt32) (fileLock : FileLockInfo) : Call UInt8 :=
  codeRequest Protocol.cmdSetFileLock (.cmdSetFileLock fd fileLock)

def cmdSetFileLockWait (fd : UInt32) (fileLock : FileLockInfo) : Call UInt8 :=
  codeRequest Protocol.cmdSetFileLockWait (.cmdSetFileLockWait fd fileLock)

def cmdSetAttrByFD (wfd : UInt32) (flag : UInt8) (fi : FileInfo) : Call UInt8 :=
  codeRequest Protocol.cmdSetAttrByFD (.cmdSetAttrByFD wfd flag fi)

def cmdOpen (path : Bytes) (oflag fmode : UInt32) : Call (UInt32 × UInt8) :=
  valueRequest Protocol.cmdOpen (.cmdOpen path oflag fmode) Codec.u32 0 errorIo

def cmdReadLink (lpath : Bytes) : Call (Bytes × UInt8) :=
  valueRequest Protocol.cmdReadLink (.cmdReadLink lpath) Codec.str [] errorIo

def cmdGetFileLock (fd : UInt32) (fileLock : FileLockInfo) : Call (FileLockInfo × UInt8) :=
  valueRequest Protocol.cmdGetFileLock (.cmdGetFileLock fd fileLock) FileLockInfo.codec
    ⟨0, 0, 0, 0⟩ errorIo

def cmdSeek (fd : UInt32) (whence : UInt8) (off : Int64) : Call (UInt64 × UInt8) :=
  valueRequest Protocol.cmdSeek (.cmdSeek fd whence off) Codec.u64 0 errorOK

def cmdGetAttr (fpath : Bytes) : Call (FileInfo × UInt8) :=
  valueRequest Protocol.cmdGetAttr (.cmdGetAttr fpath) FileInfo.codec ⟨0, ⟨0, 0⟩, 0, 0⟩ errorOK

def cmdFsStat (fpath : Bytes) : Call (RspFsStat × UInt8) :=
  valueRequest Protocol.cmdFsStat (.cmdFsStat fpath) RspFsStat.codec ⟨0, 0, 0⟩ errorOK

/-! ### Reads -/

/-- Go's `copy(dest[off:], data)`, which panics if `off` is out of range. -/
def copyInto (dest : Bytes) (off : Nat) (data : Bytes) : Option Bytes :=
  if off ≤ dest.length then
    some (dest.take off ++ data.take (dest.length - off) ++ dest.drop (off + data.length))
  else none

/-- The loop of `CmdRead` and `CmdReadAt`. The buffer is part of the result. -/
def receiveInto (clientMark : Mark) (dest : Bytes) : Call (Bytes × UInt64 × UInt8) :=
  Prog.loop (fun (dest, off) => do
    let rsp ← receive clientMark
    match copyInto dest off rsp.payload with
    | none => .halt
    | some dest =>
        if rsp.code = errorPartialResponse then return .inl (dest, off + rsp.payload.length)
        else
          releaseClientMark clientMark
          return .inr (dest, UInt64.ofNat (off + rsp.payload.length), rsp.code))
    (dest, 0)

def cmdRead (fd : UInt32) (dest : Bytes) : Call (Bytes × UInt64 × UInt8) :=
  exchange Protocol.cmdRead (.cmdRead fd (UInt64.ofNat dest.length)) (dest, 0, errorIo)
    (dest, 0, errorIo) fun clientMark => receiveInto clientMark dest

def cmdReadAt (fd : UInt32) (offset : UInt64) (dest : Bytes) : Call (Bytes × UInt64 × UInt8) :=
  exchange Protocol.cmdReadAt (.cmdReadAt fd offset (UInt64.ofNat dest.length)) (dest, 0, errorIo)
    (dest, 0, errorIo) fun clientMark => receiveInto clientMark dest

def cmdReadDir (path : Bytes) : Call (List Dirent × UInt8) :=
  exchange Protocol.cmdReadDir (.cmdReadDir path) ([], errorIo) ([], errorIo) fun clientMark =>
    Prog.loop (fun list => do
      let rsp ← receive clientMark
      match (Listed.receiving list).receive rsp with
      | .receiving list => return .inl list
      | .done list code =>
          releaseClientMark clientMark
          return .inr (list, code))
      []

def receiveRoot (clientMark : Mark) (parser : Parser) : Call (Parser ⊕ (List DirItem × UInt8)) := do
  let rsp ← receive clientMark
  let parse := (Parse.running parser).receive rsp
  match parse, parse.parser.root with
  | _, some code => return .inr (parse.returned, code)
  | .running parser, none => return .inl parser
  | .finished _, none => .halt

/-- The call ends when the parser sends on `rootCh`. What its goroutine does after that,
the release of the mark included, is not part of the call. -/
def cmdReadDirPlus (path : Bytes) : Call (List DirItem × UInt8) :=
  exchange Protocol.cmdReadDirPlus (.cmdReadDirPlus path) ([], errorIo) ([], errorIo)
    fun clientMark => Prog.loop (receiveRoot clientMark) Parser.start

/-! ### Writes -/

def maxWritePayload : Nat := maxMsgSize - 6
def maxWriteAtPayload : Nat := maxMsgSize - 14
def maxWriteStreamOpenPayload : Nat := maxMsgSize - 14
def maxWriteStreamDataPayload : Nat := maxMsgSize - 3

/-- A Go slice, whose bytes end where its capacity does. -/
structure Slice where
  backing : Bytes
  length : Nat
  fits : length ≤ backing.length

namespace Slice

def bytes (slice : Slice) : Bytes := slice.backing.take slice.length

/-- `slice[low:high]`, which panics out of range. -/
def slice (data : Slice) (low high : Int64) : Option Slice :=
  if inRange : 0 ≤ low.toInt ∧ low.toInt ≤ high.toInt ∧ high.toInt ≤ data.backing.length then
    some ⟨data.backing.drop low.toInt.toNat, (high.toInt - low.toInt).toNat, by
      rw [List.length_drop]
      omega⟩
  else none

end Slice

/-- The loop of `CmdWrite` over whole chunks, with the offset it ends at. -/
def writeChunks (write : Slice → Call (UInt64 × UInt8)) (data : Slice) : Call (Int64 × UInt8) :=
  let nChunks := data.length / maxWritePayload
  Prog.loop (fun (i, off) =>
    if i < nChunks then
      match data.slice off (off + Int64.ofNat maxWritePayload) with
      | none => .halt
      | some chunk => do
          let (n, code) ← write chunk
          if code ≠ errorOK then return .inr (off, code)
          else return .inl (i + 1, off + n.toInt64)
    else return .inr (off, errorOK))
    ((0, 0) : Nat × Int64)

/-- The recursion follows what the server says it has written, so its depth has no
bound. A run that goes deeper than `depth` does not return here. -/
def cmdWrite (fd : UInt32) : Nat → Slice → Call (UInt64 × UInt8)
  | 0, _ => .halt
  | depth + 1, data =>
      if data.length ≤ maxWritePayload then
        valueRequest Protocol.cmdWrite (.cmdWrite fd data.bytes) Codec.u64 0 errorIo
      else do
        match ← newClientMark with
        | none => return (0, errorIo)
        | some clientMark =>
            releaseClientMark clientMark
            let (off, code) ← writeChunks (cmdWrite fd depth) data
            let lastSize := data.length % maxWritePayload
            if code ≠ errorOK then return (off.toUInt64, code)
            else if lastSize > 0 then
              match data.slice off (Int64.ofNat data.length) with
              | none => .halt
              | some rest => do
                  let (n, code) ← cmdWrite fd depth rest
                  if code ≠ errorOK then return (off.toUInt64, code)
                  else return ((off + n.toInt64).toUInt64, errorOK)
            else return (off.toUInt64, errorOK)

structure WriteStream where
  clientMark : Mark
  writeErrCode : UInt8
  writeErrDesc : Bytes
  closed : Bool
deriving DecidableEq, Repr

/-- `WriteStream.Write`: the text of the error, if there is one. -/
def WriteStream.write (ws : WriteStream) (data : Bytes) : Call (Option Bytes) :=
  if ws.closed then return some (text "write stream closed")
  else
    Prog.loop (fun data =>
      if data.length > 0 then do
        let chunk := data.take maxWriteStreamDataPayload
        if ← beginRequest ws.clientMark Protocol.cmdWriteStreamData then
          match ← writeStruct (.cmdWriteStreamData 0 chunk) with
          | some _ => return .inr (some (text "write stream I/O error"))
          | none => return .inl (data.drop chunk.length)
        else return .inr (some (text "write stream I/O error"))
      else return .inr none)
      data

def openWriteStream (fd : UInt32) (offset : UInt64) (first : Bytes) : Call (Option WriteStream) :=
  exchange Protocol.cmdWriteStreamOpen
    (.cmdWriteStreamOpen fd offset (first.take maxWriteStreamOpenPayload)) none none
    fun clientMark => do
      let stream : WriteStream := ⟨clientMark, 0, [], false⟩
      let rest := first.drop maxWriteStreamOpenPayload
      if rest.length > 0 then
        match ← stream.write rest with
        | some _ =>
            releaseClientMark clientMark
            return none
        | none => return some stream
      else return some stream

def readRspErrorDesc (data : Bytes) : Bytes :=
  match Codec.str.read data with
  | some (desc, _) => desc
  | none => []

/-- The receiving loop of `WriteStream.Close`, with the stream as it leaves it. -/
def WriteStream.finish (ws : WriteStream) : Call (WriteStream × UInt64 × UInt8 × Bytes) :=
  Prog.loop (fun ws => do
    let rsp ← receive ws.clientMark
    if rsp.code = errorOK then
      releaseClientMark ws.clientMark
      match Codec.u64.read rsp.payload with
      | none => return .inr (ws, 0, errorUnknown, text "bad close response")
      | some (written, _) => return .inr (ws, written, rsp.code, [])
    else if rsp.code = errorUnknown then
      releaseClientMark ws.clientMark
      return .inr (ws, 0, rsp.code, readRspErrorDesc rsp.payload)
    else
      let errDesc := readRspErrorDesc rsp.payload
      if rsp.code = errorIo ∧ errDesc = text "Session error mode" then
        releaseClientMark ws.clientMark
        return .inr (ws, 0, errorUnknown, errDesc)
      else if ws.writeErrCode = 0 then
        return .inl { ws with writeErrCode := rsp.code, writeErrDesc := errDesc }
      else return .inl ws)
    ws

/-- `WriteStream.Close` -/
def WriteStream.close (ws : WriteStream) (last : Bytes) :
    Call (WriteStream × UInt64 × UInt8 × Bytes) :=
  if ws.closed then return (ws, 0, errorInvalid, text "write stream already closed")
  else do
    let early := last.take (last.length - maxWriteStreamDataPayload)
    let closed := { ws with closed := true }
    match ← (if early.length > 0 then ws.write early else pure none) with
    | some desc =>
        releaseClientMark ws.clientMark
        return (closed, 0, errorUnknown, desc)
    | none =>
        if ← beginRequest ws.clientMark Protocol.cmdWriteStreamData then
          match ← writeStruct (.cmdWriteStreamData 1 (last.drop early.length)) with
          | some desc =>
              releaseClientMark ws.clientMark
              return (closed, 0, errorUnknown, desc)
          | none => closed.finish
        else
          releaseClientMark ws.clientMark
          return (closed, 0, errorUnknown, text "session error mode")

def cmdWriteAt (fd : UInt32) (offset : UInt64) (data : Bytes) : Call (UInt64 × UInt8) :=
  if data.length ≤ maxWriteAtPayload then
    valueRequest Protocol.cmdWriteAt (.cmdWriteAt fd offset data) Codec.u64 0 errorIo
  else do
    match ← openWriteStream fd offset data with
    | none => return (0, errorIo)
    | some stream =>
        let (stream, written, code, _) ← stream.close []
        if code ≠ errorOK then return (written, code)
        else if stream.writeErrCode ≠ 0 then return (written, stream.writeErrCode)
        else return (written, errorOK)

/-! ### Copies -/

def cmdCopyFileRangeOnce (wfd1 wfd2 : UInt32) (off1 off2 size : UInt64) : Call (UInt64 × UInt8) :=
  valueRequest Protocol.cmdCopyFileRange (.cmdCopyFileRange wfd1 wfd2 off1 off2 size) Codec.u64 0
    errorOK

structure CopyLoop where
  total : UInt64
  off1 : UInt64
  off2 : UInt64
  size : UInt64

def cmdCopyFileRange (wfd1 wfd2 : UInt32) (off1 off2 size : UInt64) : Call (UInt64 × UInt8) :=
  Prog.loop (fun (loop : CopyLoop) =>
    if loop.size > 0 then do
      let chunk := min loop.size maxCopyFileRangeChunk
      let (n, c) ← cmdCopyFileRangeOnce wfd1 wfd2 loop.off1 loop.off2 chunk
      let total := loop.total + n
      if c ≠ errorOK then return .inr (total, c)
      else if n = 0 ∨ n < chunk then return .inr (total, errorOK)
      else return .inl ⟨total, loop.off1 + n, loop.off2 + n, loop.size - n⟩
    else return .inr (loop.total, errorOK))
    ⟨0, off1, off2, size⟩

/-! ### Extended attributes -/

/-- The fields of the session that its methods read. -/
structure Session where
  allowedXAttrPrefix : List Bytes
  autoXAttrAppend : Bool
deriving DecidableEq, Repr

def Session.allows (s : Session) (key : Bytes) : Bool :=
  s.allowedXAttrPrefix.any fun allowed => hasPrefix key allowed

def Session.validateXAttr (s : Session) (key : Bytes) (mode : UInt32) (isSet : Bool) : UInt8 :=
  if key = [] ∨ 0 ∈ key then errorInvalid
  else
    let modeRest := mode &&& ~~~xattrNofollow
    let modeValid :=
      if isSet then
        modeRest ∈ [setxattrNormal, setxattrAppend, setxattrCreate, setxattrReplace]
      else modeRest = 0
    if modeValid then if s.allows key then errorOK else errorStateBlocked
    else errorInvalid

theorem Session.validateXAttr_ne_noXAttr (s : Session) (key : Bytes) (mode : UInt32) (isSet : Bool) :
    s.validateXAttr key mode isSet ≠ errorNoXAttr := by
  simp only [validateXAttr]
  repeat' split
  all_goals decide

def getCmdSetXAttrStructRequiredSize (path key value : Bytes) : Nat :=
  path.length + key.length + value.length + 8

/-- The flag has a fixed width, so `mode` plays no part. -/
def setXAttrFits (path key value : Bytes) : Bool :=
  2 + getCmdSetXAttrStructRequiredSize path key value ≤ maxCommandLength

/-- The search halves its range in every round, so the width of the first range is
fuel enough. -/
def searchChunkSize (fits : Nat → Bool) : Nat → Nat → Nat → Nat
  | 0, low, _ => low
  | fuel + 1, low, high =>
      if low < high then
        let mid := low + (high - low + 1) / 2
        if fits mid then searchChunkSize fits fuel mid high
        else searchChunkSize fits fuel low (mid - 1)
      else low

def maxXAttrChunkSize (path key : Bytes) : Nat :=
  if setXAttrFits path key [] then
    searchChunkSize (fun size => setXAttrFits path key (List.replicate size 0)) maxCommandLength 0
      maxCommandLength
  else 0

def sendSetXAttr (path key value : Bytes) (mode : UInt32) : Call UInt8 :=
  codeRequest Protocol.cmdSetXAttr (.cmdSetXAttr path mode key value)

def sendRemoveXAttr (path key : Bytes) (mode : UInt32) : Call UInt8 :=
  codeRequest Protocol.cmdRemoveXAttr (.cmdRemoveXAttr path key mode)

def readXAttrData (clientMark : Mark) : Call (Bytes × UInt8) :=
  Prog.loop (fun data => do
    let rsp ← receive clientMark
    if rsp.code ≠ errorOK ∧ rsp.code ≠ errorPartialResponse then return .inr ([], rsp.code)
    else if rsp.code = errorOK then return .inr (data ++ rsp.payload, rsp.code)
    else return .inl (data ++ rsp.payload))
    []

/-- Every round takes a byte, so the length of the list is fuel enough. -/
def Session.filterXAttrList (s : Session) : Nat → Bytes → Option Bytes
  | _, [] => some []
  | 0, _ :: _ => none
  | fuel + 1, byte :: rest =>
      let data := byte :: rest
      let keyEnd := data.idxOf 0
      if keyEnd = data.length ∨ keyEnd = 0 then none
      else
        (s.filterXAttrList fuel (data.drop (keyEnd + 1))).map fun filtered =>
          if s.allows (data.take keyEnd) then data.take (keyEnd + 1) ++ filtered else filtered

def sendSplitXAttr (path key value : Bytes) (mode : UInt32) : Call UInt8 := do
  let chunkSize := maxXAttrChunkSize path key
  if chunkSize = 0 then return errorRange
  else
    let chunk := value.take chunkSize
    let code ← sendSetXAttr path key chunk mode
    if code ≠ errorOK then return code
    else
      let appendMode := setxattrAppend ||| (mode &&& xattrNofollow)
      Prog.loop (fun value =>
        if value.length > 0 then do
          let chunkSize := maxXAttrChunkSize path key
          if chunkSize = 0 then return .inr errorRange
          else
            let chunk := value.take chunkSize
            let code ← sendSetXAttr path key chunk appendMode
            if code ≠ errorOK then return .inr code
            else return .inl (value.drop chunk.length)
        else return .inr errorOK)
        (value.drop chunk.length)

namespace Session

def cmdGetXAttr (s : Session) (path key : Bytes) (mode : UInt32) : Call (Bytes × UInt8) :=
  let code := s.validateXAttr key mode false
  if code ≠ errorOK then return ([], code)
  else
    exchange Protocol.cmdGetXAttr (.cmdGetXAttr path key mode) ([], errorIo) ([], errorIo)
      fun clientMark => do
        let result ← readXAttrData clientMark
        releaseClientMark clientMark
        return result

def cmdListXAttr (s : Session) (path : Bytes) (mode : UInt32) : Call (Bytes × UInt8) :=
  if !isUrlValid path ∨ mode &&& ~~~xattrNofollow ≠ 0 then return ([], errorInvalid)
  else
    exchange Protocol.cmdListXAttr (.cmdListXAttr path mode) ([], errorIo) ([], errorIo)
      fun clientMark => do
        let (data, code) ← readXAttrData clientMark
        releaseClientMark clientMark
        if code ≠ errorOK then return ([], code)
        else
          match s.filterXAttrList data.length data with
          | none => return ([], errorIo)
          | some data => return (data, errorOK)

def cmdRemoveXAttr (s : Session) (path key : Bytes) (mode : UInt32) : Call UInt8 :=
  let code := s.validateXAttr key mode false
  if code ≠ errorOK then return code
  else sendRemoveXAttr path key mode

def restoreXAttr (s : Session) (path key oldValue : Bytes) (oldExists : Bool) (mode : UInt32) :
    Call UInt8 :=
  let nofollow := mode &&& xattrNofollow
  if !oldExists then s.cmdRemoveXAttr path key nofollow
  else if setXAttrFits path key oldValue then sendSetXAttr path key oldValue nofollow
  else sendSplitXAttr path key oldValue nofollow

def cmdSetXAttr (s : Session) (path key value : Bytes) (mode : UInt32) : Call UInt8 :=
  let code := s.validateXAttr key mode true
  if code ≠ errorOK then return code
  else if setXAttrFits path key value then sendSetXAttr path key value mode
  else if !s.autoXAttrAppend then return errorRange
  else do
    let (oldValue, code) ← s.cmdGetXAttr path key (mode &&& xattrNofollow)
    let oldExists := code = errorOK
    if ¬oldExists ∧ code ≠ errorNoXAttr then return code
    else
      let code ← sendSplitXAttr path key value mode
      if code = errorOK then return code
      else
        -- The outcome of the rollback is only logged.
        let _ ← s.restoreXAttr path key oldValue oldExists mode
        return code

end Session

end Wsfs.Client
