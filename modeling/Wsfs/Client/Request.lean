/-
What the `Cmd*` methods of a client session are made of: calls to the session that take
a mark, write a command under it, receive messages and release the mark. The session
may answer every call in any way, as it does when it is lost, recovering or closing.

A log groups the calls of an execution into requests: what was written for a mark, and
what was received under it.
-/

import Wsfs.Base.Prog
import Wsfs.Client.Session
import Wsfs.ReadDir.Record

namespace Wsfs.Client

open Wsfs.Base Wsfs.Protocol
open Wsfs.ReadDir (Message)

/-! ### Calls -/

inductive CommandStruct
  | cmdOpen (path : Bytes) (oFlag fMode : UInt32)
  | cmdClose (fd : UInt32)
  | cmdRead (fd : UInt32) (size : UInt64)
  | cmdReadDir (path : Bytes)
  | cmdReadLink (path : Bytes)
  | cmdWrite (fd : UInt32) (data : Bytes)
  | cmdSeek (fd : UInt32) (whence : UInt8) (offset : Int64)
  | cmdAllocate (fd flag : UInt32) (offset size : UInt64)
  | cmdGetAttr (path : Bytes)
  | cmdSetAttr (path : Bytes) (flag : UInt8) (fi : FileInfo)
  | cmdSync (fd : UInt32)
  | cmdMkdir (path : Bytes) (mode : UInt32)
  | cmdSymLink (targetPath filePath : Bytes)
  | cmdRemove (path : Bytes)
  | cmdRmDir (path : Bytes)
  | cmdFsStat (path : Bytes)
  | cmdReadAt (fd : UInt32) (offset size : UInt64)
  | cmdWriteAt (fd : UInt32) (offset : UInt64) (data : Bytes)
  | cmdRename (oldPath newPath : Bytes) (flag : UInt32)
  | cmdCopyFileRange (srcFD dstFD : UInt32) (srcOffset dstOffset size : UInt64)
  | cmdCloneFileRange (srcFD dstFD : UInt32) (srcOffset dstOffset size : UInt64)
  | cmdSetAttrByFD (fd : UInt32) (flag : UInt8) (fi : FileInfo)
  | cmdReadDirPlus (path : Bytes)
  | cmdWriteStreamOpen (fd : UInt32) (offset : UInt64) (data : Bytes)
  | cmdWriteStreamData (isEnd : UInt8) (data : Bytes)
  | cmdGetFileLock (fd : UInt32) (fileLock : FileLockInfo)
  | cmdSetFileLock (fd : UInt32) (fileLock : FileLockInfo)
  | cmdSetFileLockWait (fd : UInt32) (fileLock : FileLockInfo)
  | cmdSetXAttr (path : Bytes) (flag : UInt32) (key value : Bytes)
  | cmdGetXAttr (path key : Bytes) (mode : UInt32)
  | cmdListXAttr (path : Bytes) (mode : UInt32)
  | cmdRemoveXAttr (path key : Bytes) (mode : UInt32)
deriving DecidableEq, Repr

/-- `writeStruct` is `Write..StructToWriter` and the `writeDone` after it. -/
inductive Effect
  | newClientMark
  | beginRequest (clientMark : Mark) (cmd : UInt8)
  | writeStruct (body : CommandStruct)
  | receive (clientMark : Mark)
  | releaseClientMark (clientMark : Mark)
deriving DecidableEq, Repr

/-- A write answers with the text of its error. It is the error of the struct: one that
`writeDone` meets when it closes the writer never reaches the caller, who goes on to
wait for a message. -/
@[reducible] def Effect.Result : Effect → Type
  | .newClientMark => Option Mark
  | .beginRequest _ _ => Bool
  | .writeStruct _ => Option Bytes
  | .receive _ => Message
  | .releaseClientMark _ => Unit

abbrev Call := Prog Effect Effect.Result

abbrev CallEvent := Event Effect Effect.Result

def newClientMark : Call (Option Mark) := Prog.perform Effect.newClientMark

def beginRequest (clientMark : Mark) (cmd : UInt8) : Call Bool :=
  Prog.perform (Effect.beginRequest clientMark cmd)

def writeStruct (body : CommandStruct) : Call (Option Bytes) := Prog.perform (Effect.writeStruct body)

def receive (clientMark : Mark) : Call Message := Prog.perform (Effect.receive clientMark)

def releaseClientMark (clientMark : Mark) : Call Unit :=
  Prog.perform (Effect.releaseClientMark clientMark)

variable {α β σ : Type}

/-- The opening that almost all methods share, with what they return if they get no
mark and if the command cannot be written. -/
def exchange (cmd : UInt8) (body : CommandStruct) (refused unwritten : α)
    (received : Mark → Call α) : Call α := do
  match ← newClientMark with
  | none => return refused
  | some clientMark =>
      if ← beginRequest clientMark cmd then
        match ← writeStruct body with
        | some _ =>
            releaseClientMark clientMark
            return unwritten
        | none => received clientMark
      else
        releaseClientMark clientMark
        return unwritten

/-! ### Requests of an execution -/

/-- The commands begun under one mark, whether all of them were written, and the
messages received. A refused mark counts as a request with nothing written. -/
structure Attempt where
  commands : List UInt8
  written : Bool
  messages : List Message
deriving DecidableEq, Repr

def Attempt.refused : Attempt := ⟨[], false, []⟩

def Attempt.Received (attempt : Attempt) (code : UInt8) : Prop :=
  attempt.written = true ∧ ∃ message ∈ attempt.messages, message.code = code

/-- A call holds one mark at a time. -/
structure Log where
  past : List Attempt
  current : Option Attempt
deriving DecidableEq, Repr

/-- A mark that is released without a command was not taken for a request. -/
def Log.watch (log : Log) (event : CallEvent) : Log :=
  match event with
  | ⟨.newClientMark, none⟩ => { log with past := log.past ++ [.refused] }
  | ⟨.newClientMark, some _⟩ => { log with current := some ⟨[], true, []⟩ }
  | ⟨.beginRequest _ cmd, ok⟩ =>
      { log with current := log.current.map fun attempt =>
          { attempt with commands := attempt.commands ++ [cmd], written := attempt.written && ok } }
  | ⟨.writeStruct _, error⟩ =>
      { log with current := log.current.map fun attempt =>
          { attempt with written := attempt.written && error.isNone } }
  | ⟨.receive _, message⟩ =>
      { log with current := log.current.map fun attempt =>
          { attempt with messages := attempt.messages ++ [message] } }
  | ⟨.releaseClientMark _, _⟩ =>
      ⟨log.past ++ (log.current.filter fun attempt => !attempt.commands.isEmpty).toList, none⟩

def attempts (trace : List CallEvent) : List Attempt :=
  let log := trace.foldl Log.watch ⟨[], none⟩
  log.past ++ log.current.toList

/-! ### Rules -/

/-- Every execution of the program makes the requests of the postcondition, one after
the other, and holds no mark in the end. -/
def Requests (prog : Call α) (post : List Attempt → α → Prop) : Prop :=
  ∀ past, Yields Log.watch ⟨past, none⟩ prog fun log value =>
    ∃ made, log = ⟨past ++ made, none⟩ ∧ post made value

variable {prog : Call α} {post : List Attempt → α → Prop}

theorem Requests.mono {post' : List Attempt → α → Prop} (requests : Requests prog post)
    (weaker : ∀ made value, post made value → post' made value) : Requests prog post' := by
  intro past
  refine (requests past).mono ?_
  rintro log value ⟨made, same, holds⟩
  exact ⟨made, same, weaker made value holds⟩

variable {trace : List CallEvent} {value refused unwritten : α} {body : CommandStruct} {cmd : UInt8}
  {received : Mark → Call α}

theorem Requests.runs (requests : Requests prog post) (runs : prog.Runs trace value) :
    post (attempts trace) value := by
  obtain ⟨made, same, holds⟩ := requests [] trace value runs
  rw [attempts, same, List.nil_append, Option.toList_none, List.append_nil]
  exact holds

/-- There was one request, and the code came in one of its messages. -/
def Answered (cmd code : UInt8) (made : List Attempt) : Prop :=
  ∃ attempt, made = [attempt] ∧ attempt.commands = [cmd] ∧ attempt.Received code

end Wsfs.Client
