/-
The methods of a session behind the calls of `Wsfs.Client.XAttr`. There a call is a state
that goes on with an answer; here the methods are programs. An execution of a method is a
conversation of its call, request by request, and every conversation is one.
-/

import Wsfs.Client.XAttr

namespace Wsfs.Client.XAttr

open Wsfs.Base Wsfs.Protocol

/-! ### What is left of a method -/

section Programs

variable (path key : Bytes)

def Kind.method (s : Session) : Kind → Call UInt8
  | .set value mode => s.cmdSetXAttr path key value mode
  | .get mode => Prod.snd <$> s.cmdGetXAttr path key mode
  | .remove mode => s.cmdRemoveXAttr path key mode

def Body.request : Body → Call (Bytes × UInt8)
  | .get mode =>
      exchange Protocol.cmdGetXAttr (.cmdGetXAttr path key mode) ([], errorIo) ([], errorIo)
        fun clientMark => do
          let result ← readXAttrData clientMark
          releaseClientMark clientMark
          return result
  | .set value mode => (fun code => ([], code)) <$> sendSetXAttr path key value mode
  | .remove mode => (fun code => ([], code)) <$> sendRemoveXAttr path key mode

/-- One round of the loop of `sendSplitXAttr`. -/
def appendRound (mode : UInt32) (value : Bytes) : Call (Bytes ⊕ UInt8) :=
  if value.length > 0 then do
    let chunkSize := maxXAttrChunkSize path key
    if chunkSize = 0 then return .inr errorRange
    else
      let chunk := value.take chunkSize
      let code ← sendSetXAttr path key chunk (appendMode mode)
      if code ≠ errorOK then return .inr code
      else return .inl (value.drop chunk.length)
  else return .inr errorOK

/-- `sendSplitXAttr` from the answer to a chunk on. -/
def afterChunk (mode : UInt32) (rest : Bytes) (code : UInt8) : Call UInt8 :=
  if code ≠ errorOK then return code else Prog.loop (appendRound path key mode) rest

/-- `CmdSetXAttr` from the result of `sendSplitXAttr` on. -/
def afterSplit (s : Session) (read : Option Bytes) (mode : UInt32) (code : UInt8) : Call UInt8 :=
  if code = errorOK then return code
  else do
    let _ ← s.restoreXAttr path key (read.getD []) read.isSome mode
    return code

def Running.rest (call : Running) (data : Bytes) (code : UInt8) : Call UInt8 :=
  match call.kind, call.pc with
  | _, .asking => return code
  | .set value mode, .probing =>
      if code ≠ errorOK ∧ code ≠ errorNoXAttr then return code
      else
        sendSplitXAttr path key value mode >>=
          afterSplit path key call.s (if code = errorOK then some data else none) mode
  | .set _ mode, .writing rest =>
      afterChunk path key mode rest code >>= afterSplit path key call.s call.read mode
  | .set _ mode, .restoring rest result => do
      let _ ← afterChunk path key (mode &&& xattrNofollow) rest code
      return result
  | _, _ => .halt

def Next.program (call : Running) : Next → Call UInt8
  | .stop code => return code
  | .send _ body pc => do
      let (data, code) ← body.request path key
      Running.rest path key { call with pc := pc } data code

/-! ### Chunks -/

variable {path key}

theorem sendSplitXAttr_eq (value : Bytes) (mode : UInt32) :
    sendSplitXAttr path key value mode =
      if maxXAttrChunkSize path key = 0 then pure errorRange
      else
        sendSetXAttr path key (chunkOf path key value) mode >>=
          afterChunk path key mode (value.drop (chunkOf path key value).length) :=
  rfl

theorem afterChunk_equiv (mode : UInt32) (rest : Bytes) :
    afterChunk path key mode rest errorOK ≈
      if rest = [] then pure errorOK
      else if maxXAttrChunkSize path key = 0 then pure errorRange
      else
        sendSetXAttr path key (chunkOf path key rest) (appendMode mode) >>=
          afterChunk path key mode (rest.drop (chunkOf path key rest).length) := by
  refine Setoid.trans (Prog.loop_equiv (appendRound path key mode) rest) ?_
  rw [appendRound]
  by_cases nothing : rest = []
  · rw [if_pos nothing, nothing]
    exact Setoid.refl _
  · rw [if_neg nothing, if_pos (List.length_pos_iff.mpr nothing)]
    dsimp only
    split_ifs
    · exact Setoid.refl _
    · rw [bind_assoc]
      refine Prog.bind_equiv (Setoid.refl _) fun code => ?_
      rw [afterChunk]
      split_ifs <;> exact Setoid.refl _

/-! ### Calls that go on -/

section Call

variable (call : Running) {value : Bytes} {mode : UInt32}

variable (kind : call.kind = .set value mode)
include kind

theorem restoring_equiv (send : Call UInt8) (code : UInt8) :
    (do let _ ← send; return code) ≈
      (do
        let answer ← send
        Running.rest path key { call with pc := .restoring [] code } [] answer) := by
  refine Prog.bind_equiv (Setoid.refl _) fun answer => Setoid.symm ?_
  simp only [Running.rest, kind]
  by_cases ok : answer = errorOK
  · rw [ok]
    exact Prog.bind_equiv (afterChunk_equiv _ []) fun _ => Setoid.refl _
  · rw [afterChunk, if_pos ok]
    exact Setoid.refl _

theorem afterSplit_equiv {code : UInt8} (failed : code ≠ errorOK) :
    afterSplit path key call.s call.read mode code ≈
      (restoreXAttr path key call.s call.read mode code).program path key call := by
  rw [afterSplit, if_neg failed]
  cases read : call.read with
  | none =>
    simp only [restoreXAttr, Session.restoreXAttr, Option.isSome_none, Bool.not_false, if_true,
      Session.cmdRemoveXAttr]
    split_ifs
    · exact Setoid.refl _
    · simp only [Next.program, Body.request, bind_map_left]
      exact restoring_equiv call kind _ code
  | some old =>
    simp only [restoreXAttr, Session.restoreXAttr, Option.isSome_some, Bool.not_true,
      Bool.false_eq_true, if_false, Option.getD_some]
    rw [sendSplitXAttr_eq]
    split_ifs
    · simp only [Next.program, Body.request, bind_map_left]
      exact restoring_equiv call kind _ code
    · exact Setoid.refl _
    · simp only [Next.program, Body.request, bind_map_left, bind_assoc, Running.rest, kind]
      exact Setoid.refl _

theorem splitXAttr_equiv :
    sendSplitXAttr path key value mode >>= afterSplit path key call.s call.read mode ≈
      (splitXAttr path key call.s call.read value mode).program path key call := by
  rw [splitXAttr, sendSplitXAttr_eq]
  split_ifs
  · rw [pure_bind]
    exact afterSplit_equiv call kind (by decide)
  · simp only [Next.program, Body.request, bind_map_left, bind_assoc, Running.rest, kind]
    exact Setoid.refl _

theorem appendXAttr_equiv (rest : Bytes) :
    afterChunk path key mode rest errorOK >>= afterSplit path key call.s call.read mode ≈
      (appendXAttr path key call.s call.read rest mode).program path key call := by
  refine Setoid.trans (Prog.bind_equiv (afterChunk_equiv mode rest) fun _ => Setoid.refl _) ?_
  rw [appendXAttr]
  split_ifs
  · exact Setoid.refl _
  · rw [pure_bind]
    exact afterSplit_equiv call kind (by decide)
  · simp only [Next.program, Body.request, bind_map_left, bind_assoc, Running.rest, kind]
    exact Setoid.refl _

omit kind

/-- The mode of a rollback is only the flag `NOFOLLOW`, so its appends have the mode of the
others. -/
theorem appendMode_nofollow (mode : UInt32) : appendMode (mode &&& xattrNofollow) = appendMode mode := by
  rw [appendMode, UInt32.and_assoc, UInt32.and_self, appendMode]

theorem reappendXAttr_equiv (kind : call.kind = .set value mode) (rest : Bytes) (code : UInt8) :
    (do let _ ← afterChunk path key (mode &&& xattrNofollow) rest errorOK; return code) ≈
      (reappendXAttr path key rest mode code).program path key call := by
  refine Setoid.trans (Prog.bind_equiv (afterChunk_equiv _ rest) fun _ => Setoid.refl _) ?_
  rw [reappendXAttr]
  split_ifs
  · exact Setoid.refl _
  · exact Setoid.refl _
  · simp only [Next.program, Body.request, bind_map_left, bind_assoc, Running.rest, kind,
      appendMode_nofollow]
    exact Setoid.refl _

end Call

theorem rest_equiv (call : Running) (data : Bytes) (code : UInt8) :
    call.rest path key data code ≈
      (call.answered path key code data).elim .halt fun (read, next) =>
        next.program path key { call with read := read } := by
  obtain ⟨s, kind, read, flight, pc⟩ := call
  cases kind with
  | get mode | remove mode => cases pc <;> exact Setoid.refl _
  | set value mode =>
    cases pc with
    | asking | returned result => exact Setoid.refl _
    | probing =>
      simp only [Running.rest, Running.answered]
      split_ifs with failed ok missing ok missing
      · exact absurd ok failed.1
      · exact absurd missing failed.2
      · exact Setoid.refl _
      · exact splitXAttr_equiv ⟨s, .set value mode, some data, flight, .probing⟩ rfl
      · exact splitXAttr_equiv ⟨s, .set value mode, none, flight, .probing⟩ rfl
      · exact absurd ⟨ok, missing⟩ failed
    | writing rest =>
      simp only [Running.rest, Running.answered]
      split_ifs with failed
      · rw [afterChunk, if_pos failed]
        exact afterSplit_equiv ⟨s, .set value mode, read, flight, .writing rest⟩ rfl failed
      · rw [not_not.mp failed]
        exact appendXAttr_equiv ⟨s, .set value mode, read, flight, .writing rest⟩ rfl rest
    | restoring rest result =>
      simp only [Running.rest, Running.answered]
      split_ifs with failed
      · rw [afterChunk, if_pos failed]
        exact Setoid.refl _
      · rw [not_not.mp failed]
        exact reappendXAttr_equiv ⟨s, .set value mode, read, flight, .restoring rest result⟩ rfl rest result

theorem method_equiv (s : Session) (kind : Kind) :
    kind.method path key s ≈
      (begin path key s kind).program path key ⟨s, kind, none, 0, .asking⟩ := by
  cases kind with
  | get mode =>
    simp only [Kind.method, begin, Session.cmdGetXAttr]
    split_ifs
    · exact Setoid.refl _
    · rw [map_eq_pure_bind]
      exact Setoid.refl _
  | remove mode =>
    simp only [Kind.method, begin, Session.cmdRemoveXAttr]
    split_ifs
    · exact Setoid.refl _
    · simp only [Next.program, Body.request, bind_map_left, Running.rest, bind_pure]
      exact Setoid.refl _
  | set value mode =>
    simp only [Kind.method, begin, Session.cmdSetXAttr, cmdSetXAttr, Session.cmdGetXAttr]
    split_ifs with invalid fits off unreadable
    · exact Setoid.refl _
    · simp only [Next.program, Body.request, bind_map_left, Running.rest, bind_pure]
      exact Setoid.refl _
    · exact Setoid.refl _
    · simp only [pure_bind, unreadable, s.validateXAttr_ne_noXAttr, ne_eq, not_false_eq_true, and_self,
        if_true]
      exact Setoid.refl _
    · refine Prog.bind_equiv (Setoid.refl _) ?_
      rintro ⟨data, code⟩
      simp only [Running.rest]
      by_cases ok : code = errorOK
      · rw [ok]
        exact Setoid.refl _
      · simp only [ok, ne_eq, if_false, decide_false]
        exact Setoid.refl _

/-! ### Conversations -/

/-- A call that does `next`, with the calls to the session that its requests make and the
code that it returns. -/
inductive Conversation (path key : Bytes) : Running → Next → List CallEvent → UInt8 → Prop
  | stop (call : Running) (code : UInt8) : Conversation path key call (.stop code) [] code
  | send {call : Running} {role : Role} {body : Body} {pc : Pc} {first rest : List CallEvent}
      {data : Bytes} {code result : UInt8} {read : Option Bytes} {next : Next} :
      (body.request path key).Runs first (data, code) →
      Running.answered path key { call with pc := pc } code data = some (read, next) →
      Conversation path key { call with read := read, pc := pc } next rest result →
      Conversation path key call (.send role body pc) (first ++ rest) result

variable {trace : List CallEvent}

theorem exchange_runs_ne_nil {α : Type} {cmd : UInt8} {body : CommandStruct} {refused unwritten : α}
    {received : Mark → Call α} {value : α}
    (runs : (exchange cmd body refused unwritten received).Runs trace value) : trace ≠ [] := by
  obtain ⟨_, _, rfl, _⟩ := runs
  exact List.cons_ne_nil _ _

theorem request_runs_ne_nil {body : Body} {answer : Bytes × UInt8}
    (runs : (body.request path key).Runs trace answer) : trace ≠ [] := by
  cases body with
  | get mode => exact exchange_runs_ne_nil runs
  | set value mode | remove mode =>
    obtain ⟨_, first, _, rfl, left, _⟩ := Prog.runs_bind runs
    exact List.append_ne_nil_of_left_ne_nil (exchange_runs_ne_nil left) _

variable {call : Running} {next : Next} {result : UInt8}

theorem Conversation.runs (conversation : Conversation path key call next trace result) :
    (next.program path key call).Runs trace result := by
  induction conversation with
  | stop call code => exact ⟨rfl, rfl⟩
  | @send call role body pc first rest data code result read next request answered _ ih =>
    have after : (Running.rest path key { call with pc := pc } data code).Runs rest result := by
      apply (rest_equiv _ data code rest result).mpr
      rw [answered]
      exact ih
    exact Prog.runs_append request after

/-- Every request makes a call to the session, so the conversation ends with the trace. -/
theorem conversation_of_runs (runs : (next.program path key call).Runs trace result) :
    Conversation path key call next trace result := by
  induction length : trace.length using Nat.strong_induction_on generalizing call next trace with
  | _ size ih =>
    cases next with
    | stop code =>
      obtain ⟨rfl, rfl⟩ := runs
      exact .stop call _
    | send role body pc =>
      obtain ⟨⟨data, code⟩, first, rest, rfl, request, after⟩ := Prog.runs_bind runs
      have goesOn := (rest_equiv _ data code rest result).mp after
      cases answered : Running.answered path key { call with pc := pc } code data with
      | none =>
        rw [answered] at goesOn
        exact goesOn.elim
      | some outcome =>
        rw [answered] at goesOn
        have made := List.length_pos_iff.mpr (request_runs_ne_nil request)
        rw [List.length_append] at length
        exact .send request answered (ih rest.length (by omega) goesOn rfl)

theorem method_runs_iff (s : Session) (kind : Kind) (trace : List CallEvent) (result : UInt8) :
    (kind.method path key s).Runs trace result ↔
      Conversation path key ⟨s, kind, none, 0, .asking⟩ (begin path key s kind) trace result :=
  (method_equiv s kind trace result).trans ⟨conversation_of_runs, Conversation.runs⟩

end Programs

end Wsfs.Client.XAttr
