/-
The responses to one command, from its bytes to the messages that arrive. Every command
other than those of write streams is answered as the rules of its mark say, by a kernel
that reads no link at a path longer than `PATH_MAX`.
-/

import Wsfs.Server.Handlers

namespace Wsfs.Server.Commands

open Wsfs.Base Wsfs.Protocol Wsfs.Unix Wsfs.Util
open Wsfs.ReadDir.Server (Link)

/-! ### What arrives -/

structure Response where
  mark : UInt8
  code : UInt8
  payload : Bytes
deriving DecidableEq, Repr

def sentBy : Effect → Option Response
  | .send mark code payload => some ⟨mark, code, payload⟩
  | _ => none

def responses (trace : List (Event Effect Effect.Result)) : List Response :=
  trace.filterMap fun event => sentBy event.op

/-- Partial messages and then another one, all of them on the mark and none too long, on a
connection that the handler has not given up. -/
structure Answered (clientMark : UInt8) (trace : List (Event Effect Effect.Result)) : Prop where
  up : ∀ event ∈ trace, event.op ≠ .giveUp
  ordered : ∃ partials last, responses trace = partials ++ [last] ∧
    (∀ response ∈ partials, response.code = errorPartialResponse) ∧
    last.code ≠ errorPartialResponse
  onMark : ∀ response ∈ responses trace, response.mark = clientMark
  bounded : ∀ response ∈ responses trace, 2 + response.payload.length ≤ maxResponseLength

section Trace

variable {clientMark : UInt8} {event : Event Effect Effect.Result}
  {rest : List (Event Effect Effect.Result)}

theorem responses_silent (silent : sentBy event.op = none) :
    responses (event :: rest) = responses rest :=
  List.filterMap_cons_none silent

theorem responses_send {response : Response} (sends : sentBy event.op = some response) :
    responses (event :: rest) = response :: responses rest :=
  List.filterMap_cons_some sends

def Phase.afterAll (clientMark : UInt8) (phase : Phase) (trace : List (Event Effect Effect.Result)) :
    Phase :=
  trace.foldl (fun phase event => phase.after clientMark event.op) phase

theorem ghostAt_phase (limit : Option Nat) (trace : List (Event Effect Effect.Result)) :
    ((terms limit clientMark).ghostAt trace).phase = Phase.afterAll clientMark .pending trace := by
  have folded : ∀ progress : Progress, (trace.foldl (Progress.watch clientMark) progress).phase =
      Phase.afterAll clientMark progress.phase trace := by
    induction trace with
    | nil => exact fun _ => rfl
    | cons event rest ih => exact fun progress => ih (progress.watch clientMark event)
  exact folded ⟨.pending, 0⟩

theorem after_broken (op : Effect) : Phase.after clientMark .broken op = .broken := by
  cases op with
  | send mark code payload =>
    rw [Phase.after, Phase.send, if_neg]
    rintro ⟨⟨⟩, _⟩
  | _ => rfl

theorem afterAll_broken (trace : List (Event Effect Effect.Result)) :
    Phase.afterAll clientMark .broken trace = .broken := by
  induction trace with
  | nil => rfl
  | cons event rest ih =>
    rw [Phase.afterAll, List.foldl_cons, after_broken]
    exact ih

theorem after_cases {phase : Phase} {op : Effect}
    (unbroken : Phase.after clientMark phase op ≠ .broken) :
    (sentBy op = none ∧ op ≠ .giveUp ∧ Phase.after clientMark phase op = phase) ∨
      ∃ code payload, phase = .pending ∧ sentBy op = some ⟨clientMark, code, payload⟩ ∧
        op ≠ .giveUp ∧ 2 + payload.length ≤ maxResponseLength ∧
          Phase.after clientMark phase op =
            if code = errorPartialResponse then .pending else .concluded := by
  cases op with
  | send mark code payload =>
    refine .inr ⟨code, payload, ?_⟩
    simp only [Phase.after, Phase.send] at unbroken ⊢
    split at unbroken
    · rename_i allowed
      obtain ⟨rfl, rfl, short⟩ := allowed
      exact ⟨rfl, rfl, (by simp), short, if_pos ⟨rfl, rfl, short⟩⟩
    · exact absurd rfl unbroken
  | giveUp => exact absurd rfl unbroken
  | _ => exact .inl ⟨rfl, (by simp), rfl⟩

theorem afterAll_concluded {trace : List (Event Effect Effect.Result)}
    (concluded : Phase.afterAll clientMark .concluded trace = .concluded) :
    responses trace = [] ∧ ∀ event ∈ trace, event.op ≠ .giveUp := by
  induction trace with
  | nil => exact ⟨rfl, nofun⟩
  | cons event rest ih =>
    rw [Phase.afterAll, List.foldl_cons] at concluded
    have unbroken : Phase.after clientMark .concluded event.op ≠ .broken := by
      intro broken
      rw [broken] at concluded
      cases (afterAll_broken rest).symm.trans concluded
    cases after_cases unbroken with
    | inl silent =>
      obtain ⟨nothing, notGivenUp, same⟩ := silent
      rw [same] at concluded
      obtain ⟨none, up⟩ := ih concluded
      refine ⟨?_, List.forall_mem_cons.mpr ⟨notGivenUp, up⟩⟩
      rw [responses_silent nothing]
      exact none
    | inr sends =>
      obtain ⟨_, _, impossible, _⟩ := sends
      cases impossible

theorem answered_of_concluded {trace : List (Event Effect Effect.Result)}
    (concluded : Phase.afterAll clientMark .pending trace = .concluded) : Answered clientMark trace := by
  induction trace with
  | nil => cases concluded
  | cons event rest ih =>
    rw [Phase.afterAll, List.foldl_cons] at concluded
    have unbroken : Phase.after clientMark .pending event.op ≠ .broken := by
      intro broken
      rw [broken] at concluded
      cases (afterAll_broken rest).symm.trans concluded
    cases after_cases unbroken with
    | inl silent =>
      obtain ⟨nothing, notGivenUp, same⟩ := silent
      rw [same] at concluded
      have later := ih concluded
      have sameResponses : responses (event :: rest) = responses rest := responses_silent nothing
      refine ⟨List.forall_mem_cons.mpr ⟨notGivenUp, later.up⟩, ?_, ?_, ?_⟩
      · rw [sameResponses]
        exact later.ordered
      · rw [sameResponses]
        exact later.onMark
      · rw [sameResponses]
        exact later.bounded
    | inr sends =>
      obtain ⟨code, payload, _, sent, notGivenUp, short, next⟩ := sends
      have more : responses (event :: rest) = ⟨clientMark, code, payload⟩ :: responses rest :=
        responses_send sent
      rw [next] at concluded
      by_cases goesOn : code = errorPartialResponse
      · rw [if_pos goesOn] at concluded
        have later := ih concluded
        obtain ⟨partials, last, ordered, allPartial, final⟩ := later.ordered
        refine ⟨List.forall_mem_cons.mpr ⟨notGivenUp, later.up⟩, ?_, ?_, ?_⟩
        · refine ⟨⟨clientMark, code, payload⟩ :: partials, last, ?_, ?_, final⟩
          · rw [more, ordered, List.cons_append]
          · exact List.forall_mem_cons.mpr ⟨goesOn, allPartial⟩
        · rw [more]
          exact List.forall_mem_cons.mpr ⟨rfl, later.onMark⟩
        · rw [more]
          exact List.forall_mem_cons.mpr ⟨short, later.bounded⟩
      · rw [if_neg goesOn] at concluded
        obtain ⟨nothingElse, up⟩ := afterAll_concluded concluded
        refine ⟨List.forall_mem_cons.mpr ⟨notGivenUp, up⟩, ?_, ?_, ?_⟩
        · exact ⟨[], ⟨clientMark, code, payload⟩, by rw [more, nothingElse]; rfl, nofun, goesOn⟩
        · rw [more, nothingElse]
          exact List.forall_mem_singleton.mpr rfl
        · rw [more, nothingElse]
          exact List.forall_mem_singleton.mpr short

end Trace

/-! ### Every command -/

/-- In this world the handler has one execution, and with it the command is answered. -/
def AnsweredIn (world : World Effect Effect.Result) (clientMark : UInt8) (prog : Handler Unit) : Prop :=
  ∃ trace, (∀ other, prog.Runs other () ∧ Follows world [] other ↔ other = trace) ∧
    Answered clientMark trace

theorem Concludes.answeredIn {limit : Option Nat} {clientMark : UInt8} {prog : Handler Unit}
    (concludes : Concludes limit clientMark prog) {world : World Effect Effect.Result}
    (admits : (terms limit clientMark).Admits world) : AnsweredIn world clientMark prog := by
  obtain ⟨trace, value, runs, follows, _, concluded⟩ := concludes 0 world admits [] .nil rfl
  refine ⟨trace, ?_, ?_⟩
  · intro other
    constructor
    · rintro ⟨runs', follows'⟩
      exact (Prog.runs_once runs' runs follows' follows).1
    · rintro rfl
      exact ⟨runs, follows⟩
  · rw [ghostAt_phase] at concluded
    exact answered_of_concluded concluded

section Dispatch

variable {limit : Option Nat} {clientMark : UInt8} (s : Session)

theorem concludes_parsed {α : Type} {req : Option α} {handler : α → Handler Unit}
    (rest : ∀ value, req = some value → Concludes limit clientMark (handler value)) :
    Concludes limit clientMark (parsed clientMark req handler) := by
  cases req with
  | none => exact concludes_error _ (by decide)
  | some value => exact rest value rfl

theorem handlers_conclude {r : Bytes} :
    ∀ entry ∈ s.handlers clientMark r, (entry.1 = Protocol.cmdReadLink → limit = some pathMax) →
      Concludes limit clientMark entry.2 := by
  unfold Session.handlers
  simp only [List.forall_mem_cons]
  refine ⟨?_, ?_, ?_, ?_, ?_, ?_, ?_, ?_, ?_, ?_, ?_, ?_, ?_, ?_, ?_, ?_, ?_, ?_, ?_, ?_, ?_, ?_,
    ?_, ?_, ?_, ?_, ?_, ?_, ?_, ?_, ?_, nofun⟩ <;> intro limited <;> apply concludes_parsed
  · exact fun req _ => cmdOpen_concludes s _ _ _
  · exact fun req _ => cmdClose_concludes _
  · exact fun req _ => cmdRead_concludes _ _
  · exact fun req _ => cmdReadDir_concludes s _
  · exact fun req _ => cmdReadLink_concludes s (limited trivial)
  · exact fun req _ => cmdWrite_concludes _ _
  · exact fun req _ => cmdSeek_concludes s _ _ _
  · exact fun req _ => cmdAllocate_concludes _ _ _ _
  · exact fun req _ => cmdGetAttr_concludes s _
  · exact fun req _ => cmdSetAttr_concludes s _ _ _
  · exact fun req _ => cmdSync_concludes _
  · exact fun req _ => cmdMkdir_concludes s _ _
  · exact fun req _ => cmdSymLink_concludes s _ _
  · exact fun req _ => cmdRemove_concludes s _
  · exact fun req _ => cmdRmDir_concludes s _
  · exact fun req _ => cmdFsStat_concludes s _
  · exact fun req _ => cmdReadAt_concludes _ _ _
  · exact fun req _ => cmdWriteAt_concludes _ _ _
  · exact fun req _ => cmdCopyFileRange_concludes _ _ _ _ _
  · exact fun req _ => cmdRename_concludes s _ _ _
  · exact fun req _ => cmdSetAttrByFD_concludes s _ _ _
  · exact fun req _ => cmdReadDirPlus_concludes s _
  · exact fun req _ => cmdCloneFileRange_concludes _ _ _ _ _
  · exact fun req _ => cmdGetFileLock_concludes _ _
  · exact fun req _ => cmdSetFileLockCommon_concludes _ _ _
  · exact fun req _ => cmdSetFileLockCommon_concludes _ _ _
  · exact fun req _ => cmdLink_concludes s _ _
  · exact fun req _ => cmdSetXAttr_concludes s _ _ _ _
  · exact fun req _ => cmdGetXAttr_concludes s _ _ _
  · exact fun req _ => cmdListXAttr_concludes s _ _
  · exact fun req _ => cmdRemoveXAttr_concludes s _ _ _

theorem doCommandCall_concludes {cmd : UInt8} {r : Bytes}
    (other : cmd ≠ Protocol.cmdWriteStreamOpen ∧ cmd ≠ Protocol.cmdWriteStreamData)
    (limited : cmd = Protocol.cmdReadLink → limit = some pathMax) :
    Concludes limit clientMark (s.doCommandCall clientMark cmd r) := by
  unfold Session.doCommandCall
  rw [if_neg (not_or.mpr other)]
  cases found : (s.handlers clientMark r).lookup cmd with
  | none => exact concludes_error _ (by decide)
  | some handler =>
    obtain ⟨before, after, split, _⟩ := List.lookup_eq_some_iff.mp found
    have member : (cmd, handler) ∈ s.handlers clientMark r := by
      rw [split]
      exact List.mem_append_right _ List.mem_cons_self
    exact handlers_conclude s _ member limited

end Dispatch

/-! ### A world with one link -/

def linkWorld (apath : Bytes) (link : Link) : World Effect Effect.Result := fun _ op =>
  match op with
  | .send _ _ _ => ()
  | .giveUp => ()
  | .stream _ _ _ => ()
  | .loadFD _ => none
  | .newFD _ => 0
  | .deleteFD _ => ()
  | .sys _ => .error .eio
  | .open _ _ _ => .error .eio
  | .read _ _ => .error .eio
  | .pread _ _ _ => .error .eio
  | .write _ _ => .error .eio
  | .pwrite _ _ _ => .error .eio
  | .seek _ _ _ => .error .eio
  | .readlink path => if path = apath then .ok link else .error .eio
  | .stat _ _ => .error .eio
  | .openDir _ => .error .eio
  | .readDir _ _ => ([], some .eof)
  | .closeDir _ => .error .eio
  | .fsSize _ => .error .eio
  | .copyFileRange _ _ _ _ _ => .error .eio
  | .getLock _ _ => .error .eio
  | .getXAttr _ _ _ => .error .eio
  | .listXAttr _ _ => .error .eio

section LinkWorld

variable {limit : Option Nat} {clientMark : UInt8} {apath : Bytes} {link : Link}

theorem linkWorld_readlink (history : List (Event Effect Effect.Result)) :
    linkWorld apath link history (.readlink apath) = .ok link :=
  if_pos rfl

theorem linkWorld_steady (history : List (Event Effect Effect.Result)) (op : Effect) :
    op.tries (linkWorld apath link history op) = 0 := by
  cases op with
  | readlink path =>
    by_cases same : path = apath
    · rw [same, linkWorld_readlink]
      rfl
    · rw [show linkWorld apath link history (.readlink path) = .error .eio from if_neg same]
      rfl
  | _ => rfl

theorem retries_of_steady {world : World Effect Effect.Result}
    (steady : ∀ history op, Effect.tries op (world history op) = 0)
    {history trace : List (Event Effect Effect.Result)} (follows : Follows world history trace)
    (progress : Progress) :
    (trace.foldl (Progress.watch clientMark) progress).retries = progress.retries := by
  induction follows generalizing progress with
  | nil => rfl
  | cons op _ ih =>
    rw [List.foldl_cons, ih, Progress.watch, steady]
    rfl

theorem linkWorld_admits
    (accepted : ∀ longest, limit = some longest → apath.length ≤ longest) :
    (terms limit clientMark).Admits (linkWorld apath link) := by
  refine ⟨?_, 0, ?_⟩
  · intro history op
    cases op with
    | readlink path =>
      by_cases same : path = apath
      · rw [same, linkWorld_readlink]
        exact accepted
      · rw [show linkWorld apath link history (.readlink path) = .error .eio from if_neg same]
        trivial
    | _ => trivial
  · intro trace follows
    exact Nat.le_of_eq (retries_of_steady linkWorld_steady follows _)

end LinkWorld

/-- However its calls are answered, a command other than those of write streams gets
partial messages and one other message, on its mark and none longer than allowed. -/
theorem command_answered (s : Session) (clientMark cmd : UInt8) (r : Bytes)
    (other : cmd ≠ Protocol.cmdWriteStreamOpen ∧ cmd ≠ Protocol.cmdWriteStreamData)
    (world : World Effect Effect.Result) (admits : (terms (some pathMax) clientMark).Admits world) :
    AnsweredIn world clientMark (s.dispatchCommand (clientMark :: cmd :: r)) :=
  (doCommandCall_concludes s other fun _ => rfl).answeredIn admits

def sampleSession : Session where
  storagePath := [slash, 0x73]
  uid := 1000
  gid := 1000
  rooted := ⟨[⟨[0x73], by decide⟩], by unfold Storage.Rooted; decide⟩
  otherUid := 65534
  otherGid := 65534
  allowedXAttrPrefix := []
  enableLink := false
  platform := ⟨fun flag => some flag, fun whence => some whence.toNat⟩

/-- A request to read the link `/a`, which holds "b". -/
theorem command_answered_link :
    AnsweredIn (linkWorld [slash, 0x73, slash, 0x61] ⟨[0x62], by decide⟩) 7
      (sampleSession.dispatchCommand [7, Protocol.cmdReadLink, 2, 0, slash, 0x61]) := by
  refine command_answered sampleSession 7 Protocol.cmdReadLink [2, 0, slash, 0x61] (by decide) _
    (linkWorld_admits ?_)
  rintro _ ⟨⟩
  decide

end Wsfs.Server.Commands
