/-
Marks and commands in the programs of the client: every path through a `Cmd*` method, a
write stream or the background of `CmdReadDirPlus` takes one mark at a time, uses no other,
releases it once, and writes no command but those it is allowed. This holds of every
execution, however far it has come.
-/

import Wsfs.Base.Partway
import Wsfs.Client.Methods

namespace Wsfs.Client

open Wsfs.Base Wsfs.Protocol
open Wsfs.ReadDir (Message)
open Wsfs.ReadDir.Client (Listed Parser Parse DirItem)

/-! ### What a goroutine holds -/

inductive Hold
  | free
  | holds (clientMark : Mark)
  | broken
deriving DecidableEq, Repr

/-- The use of a mark that the goroutine does not hold, a second mark and a second
release break the discipline for good. -/
def Hold.watch (hold : Hold) (event : CallEvent) : Hold :=
  match event with
  | ⟨.newClientMark, none⟩ => if hold = .free then .free else .broken
  | ⟨.newClientMark, some clientMark⟩ => if hold = .free then .holds clientMark else .broken
  | ⟨.beginRequest clientMark _, _⟩ => if hold = .holds clientMark then hold else .broken
  | ⟨.writeStruct _, _⟩ => hold
  | ⟨.receive clientMark, _⟩ => if hold = .holds clientMark then hold else .broken
  | ⟨.releaseClientMark clientMark, _⟩ => if hold = .holds clientMark then .free else .broken

def holdAfter (trace : List CallEvent) : Hold := trace.foldl Hold.watch .free

abbrev Writes {α : Type} (allowed : CommandStruct → Prop) (prog : Call α) : Prop :=
  Only (fun op => ∀ body, op = .writeStruct body → allowed body) prog

/-- From this hold the program keeps the discipline all the way, with these commands. -/
structure Handles {α : Type} (allowed : CommandStruct → Prop) (before : Hold) (prog : Call α)
    (post : Hold → α → Prop) : Prop where
  marks : Throughout Hold.watch (· ≠ .broken) before prog post
  writes : Writes allowed prog

abbrev Balanced {α : Type} (allowed : CommandStruct → Prop) (prog : Call α) : Prop :=
  Handles allowed .free prog fun hold _ => hold = .free

abbrev Releases {α : Type} (allowed : CommandStruct → Prop) (clientMark : Mark) (prog : Call α) : Prop :=
  Handles allowed (.holds clientMark) prog fun hold _ => hold = .free

/-! ### Rules -/

variable {allowed : CommandStruct → Prop}

section Rules

variable {α β σ : Type} {before : Hold} {post : Hold → α → Prop} {clientMark : Mark}
  {prog : Call α} {cmd : UInt8} {body : CommandStruct}

theorem Handles.mono {post' : Hold → α → Prop} (handles : Handles allowed before prog post)
    (weaker : ∀ hold value, post hold value → post' hold value) : Handles allowed before prog post' :=
  ⟨handles.marks.mono weaker, handles.writes⟩

theorem Handles.ends (handles : Handles allowed before prog post) :
    Handles allowed before prog fun hold value => hold ≠ .broken ∧ post hold value :=
  ⟨handles.marks.ends, handles.writes⟩

variable {value refused unwritten : α} {next : α → Call β} {start : σ} {received : Mark → Call α}

theorem handles_pure (now : before ≠ .broken) (holds : post before value) :
    Handles allowed before (pure value) post :=
  ⟨throughout_pure now holds, only_pure⟩

theorem handles_halt (now : before ≠ .broken) : Handles allowed before (.halt : Call α) post :=
  ⟨throughout_halt now, only_halt⟩

theorem handles_ite {condition : Prop} [Decidable condition] {left right : Call α}
    (whenTrue : condition → Handles allowed before left post)
    (whenFalse : ¬condition → Handles allowed before right post) :
    Handles allowed before (if condition then left else right) post := by
  split
  · exact whenTrue ‹_›
  · exact whenFalse ‹_›

theorem handles_bind {between : Hold → α → Prop} {post : Hold → β → Prop}
    (first : Handles allowed before prog between)
    (rest : ∀ hold value, between hold value → Handles allowed hold (next value) post) :
    Handles allowed before (prog >>= next) post where
  marks := throughout_bind (first.marks.mono fun hold value reached => (rest hold value reached).marks)
  writes := by
    intro op mayCall
    cases Prog.mayCall_bind mayCall with
    | inl here => exact first.writes op here
    | inr later =>
      obtain ⟨trace, value, runs, last⟩ := later
      exact (rest _ value (first.marks.yields trace value runs)).writes op last

theorem balanced_bind {post : Hold → β → Prop} (first : Balanced allowed prog)
    (rest : ∀ value, Handles allowed .free (next value) post) :
    Handles allowed .free (prog >>= next) post := by
  apply handles_bind first
  rintro _ value rfl
  exact rest value

theorem handles_map {f : α → β} {post : Hold → β → Prop}
    (handles : Handles allowed before prog fun hold value => post hold (f value)) :
    Handles allowed before (f <$> prog) post :=
  handles_bind handles.ends fun _ _ reached => handles_pure reached.1 reached.2

theorem handles_iterate {body : σ → Call (σ ⊕ α)} (invariant : σ → Hold → Prop)
    (initially : invariant start before)
    (round : ∀ state hold, invariant state hold → Handles allowed hold (body state) fun hold outcome =>
      match outcome with
      | .inl state => invariant state hold
      | .inr value => post hold value) :
    Handles allowed before (Prog.loop body start) post where
  marks := throughout_loop invariant initially fun state hold holds => (round state hold holds).marks
  writes := by
    rintro op (⟨state, reached, mayCall⟩ | ⟨_, _, _, mayCall⟩)
    · have holds : ∃ hold, invariant state hold := by
        clear mayCall
        induction reached with
        | refl => exact ⟨before, initially⟩
        | tail _ step ih =>
          obtain ⟨hold, holds⟩ := ih
          obtain ⟨trace, runs⟩ := step
          exact ⟨_, (round _ _ holds).marks.yields trace _ runs⟩
      obtain ⟨hold, holds⟩ := holds
      exact (round state hold holds).writes op mayCall
    · exact mayCall.elim

theorem handles_loop {body : σ → Call (σ ⊕ α)}
    (round : ∀ state, Handles allowed before (body state) fun hold outcome =>
      match outcome with
      | .inl _ => hold = before
      | .inr value => post hold value) : Handles allowed before (Prog.loop body start) post := by
  refine handles_iterate (fun _ hold => hold = before) rfl ?_
  rintro state _ rfl
  exact round state

theorem handles_perform {op : Effect} {next : op.Result → Call α} (now : before ≠ .broken)
    (isAllowed : ∀ body, op = .writeStruct body → allowed body)
    (rest : ∀ answer, Handles allowed (before.watch ⟨op, answer⟩) (next answer) post) :
    Handles allowed before (Prog.perform op >>= next) post :=
  ⟨throughout_perform now fun answer => (rest answer).marks,
    only_perform isAllowed fun answer => (rest answer).writes⟩

theorem handles_newClientMark {next : Option Mark → Call α}
    (refused : Handles allowed .free (next none) post)
    (taken : ∀ clientMark, Handles allowed (.holds clientMark) (next (some clientMark)) post) :
    Handles allowed .free (newClientMark >>= next) post := by
  refine handles_perform nofun nofun fun answer => ?_
  cases answer with
  | none => exact refused
  | some clientMark => exact taken clientMark

theorem handles_beginRequest {next : Bool → Call α}
    (rest : ∀ ok, Handles allowed (.holds clientMark) (next ok) post) :
    Handles allowed (.holds clientMark) (beginRequest clientMark cmd >>= next) post := by
  refine handles_perform nofun nofun fun ok => ?_
  rw [Hold.watch, if_pos rfl]
  exact rest ok

theorem handles_writeStruct {next : Option Bytes → Call α} (isAllowed : allowed body)
    (rest : ∀ error, Handles allowed (.holds clientMark) (next error) post) :
    Handles allowed (.holds clientMark) (writeStruct body >>= next) post := by
  refine handles_perform nofun ?_ rest
  rintro _ ⟨⟩
  exact isAllowed

theorem handles_receive {next : Message → Call α}
    (rest : ∀ rsp, Handles allowed (.holds clientMark) (next rsp) post) :
    Handles allowed (.holds clientMark) (receive clientMark >>= next) post := by
  refine handles_perform nofun nofun fun rsp => ?_
  rw [Hold.watch, if_pos rfl]
  exact rest rsp

theorem handles_release {next : Unit → Call α} (rest : Handles allowed .free (next ()) post) :
    Handles allowed (.holds clientMark) (releaseClientMark clientMark >>= next) post := by
  refine handles_perform nofun nofun fun _ => ?_
  rw [Hold.watch, if_pos rfl]
  exact rest

theorem free_pure (holds : post .free value) : Handles allowed .free (pure value) post :=
  handles_pure nofun holds

theorem holding_pure (holds : post (.holds clientMark) value) :
    Handles allowed (.holds clientMark) (pure value) post :=
  handles_pure nofun holds

theorem handles_exchange (isAllowed : allowed body) (whenRefused : post .free refused)
    (whenUnwritten : post .free unwritten)
    (whenWritten : ∀ clientMark, Handles allowed (.holds clientMark) (received clientMark) post) :
    Handles allowed .free (exchange cmd body refused unwritten received) post := by
  have givesUp (clientMark : Mark) : Handles allowed (.holds clientMark)
      (releaseClientMark clientMark >>= fun _ => pure unwritten) post :=
    handles_release (free_pure whenUnwritten)
  refine handles_newClientMark (free_pure whenRefused) fun clientMark => ?_
  refine handles_beginRequest fun ok => handles_ite (fun _ => ?_) fun _ => givesUp clientMark
  refine handles_writeStruct isAllowed fun error => ?_
  cases error with
  | none => exact whenWritten clientMark
  | some _ => exact givesUp clientMark

theorem balanced_exchange (isAllowed : allowed body)
    (whenWritten : ∀ clientMark, Releases allowed clientMark (received clientMark)) :
    Balanced allowed (exchange cmd body refused unwritten received) :=
  handles_exchange isAllowed rfl rfl whenWritten

end Rules

/-! ### Requests with one answer, reads and listings -/

variable {body : CommandStruct} {clientMark : Mark} {parser : Parser} {result : List DirItem × UInt8}
  {fd : UInt32} {ws : WriteStream} {offset : UInt64}

theorem codeRequest_balanced (cmd : UInt8) (isAllowed : allowed body) :
    Balanced allowed (codeRequest cmd body) := by
  apply balanced_exchange isAllowed
  intro clientMark
  exact handles_receive fun rsp => handles_release (free_pure rfl)

theorem valueRequest_balanced {α : Type} (cmd : UInt8) (isAllowed : allowed body) (codec : Codec α)
    (zero : α) (unwritten : UInt8) : Balanced allowed (valueRequest cmd body codec zero unwritten) := by
  apply balanced_exchange isAllowed
  intro clientMark
  refine handles_receive fun rsp => handles_release ?_
  refine handles_ite (fun _ => free_pure rfl) fun _ => ?_
  split
  · exact free_pure rfl
  · exact free_pure rfl

theorem receiveInto_releases (clientMark : Mark) (dest : Bytes) :
    Releases allowed clientMark (receiveInto clientMark dest) := by
  apply handles_loop
  rintro ⟨dest, off⟩
  apply handles_receive
  intro rsp
  split
  · -- The copy panics.
    exact handles_halt nofun
  · refine handles_ite (fun _ => holding_pure rfl) fun _ => ?_
    exact handles_release (free_pure rfl)

theorem cmdReadDir_balanced {path : Bytes} (isAllowed : allowed (.cmdReadDir path)) :
    Balanced allowed (cmdReadDir path) := by
  refine balanced_exchange isAllowed fun clientMark => handles_loop fun list => handles_receive fun rsp => ?_
  split
  · exact holding_pure rfl
  · exact handles_release (free_pure rfl)

def parseRound (clientMark : Mark) (parser : Parser) : Call (Parser ⊕ Unit) := do
  let rsp ← receive clientMark
  match (Parse.running parser).receive rsp with
  | .running parser => return .inl parser
  | .finished _ =>
      releaseClientMark clientMark
      return .inr ()

/-- All of `parseReadDirPlus`: the goroutine goes on after it has sent on `rootCh`, and
releases the mark when it returns. -/
def parseReadDirPlus (clientMark : Mark) : Call Unit := Prog.loop (parseRound clientMark) Parser.start

/-- `CmdReadDirPlus` and the goroutine that it starts. -/
def readDirPlus (path : Bytes) : Call Unit :=
  exchange Protocol.cmdReadDirPlus (.cmdReadDirPlus path) () () parseReadDirPlus

variable {trace : List CallEvent}

private theorem receiveRoot_going {next : Parser}
    (runs : (receiveRoot clientMark parser).Runs trace (.inl next)) :
    (parseRound clientMark parser).Runs trace (.inl next) := by
  obtain ⟨rsp, rest, rfl, after⟩ := runs
  refine ⟨rsp, rest, rfl, ?_⟩
  dsimp only [bind, pure, Prog.bind] at after ⊢
  split at after
  · cases after.2
  · rename_i parsed _
    obtain ⟨nothing, same⟩ := after
    cases same
    rw [parsed]
    exact ⟨nothing, rfl⟩
  · exact after.elim

private theorem rounds_begin
    (rounds : Prog.Rounds (fun parser => (receiveRoot clientMark parser).Runs) parser trace result) :
    (Prog.loop (parseRound clientMark) parser).Begins trace := by
  induction rounds with
  | last runs =>
    obtain ⟨rsp, rest, rfl, after⟩ := runs
    refine .inl ⟨_, [], _, rfl, .start, .inr ⟨rsp, rest, rfl, ?_⟩⟩
    dsimp only [bind, pure, Prog.bind] at after
    split at after
    · rw [after.1]
      exact Prog.begins_nil _
    · cases after.2
    · exact after.elim
  | again runs _ ih =>
    rcases ih with ⟨last, looped, rest, rfl, going, begins⟩ | ⟨value, looped, rest, rfl, rounds, begins⟩
    · refine .inl ⟨last, _, rest, (List.append_assoc _ _ _).symm, ?_, begins⟩
      exact .again (receiveRoot_going runs) going
    · refine .inr ⟨value, _, rest, (List.append_assoc _ _ _).symm, ?_, begins⟩
      exact .again (receiveRoot_going runs) rounds

theorem cmdReadDirPlus_begins (path : Bytes) (returned : (cmdReadDirPlus path).Runs trace result) :
    (readDirPlus path).Begins trace := by
  obtain ⟨answer, rest, rfl, returned⟩ := returned
  refine .inr ⟨answer, rest, rfl, ?_⟩
  cases answer with
  | none => exact returned.1
  | some clientMark =>
    obtain ⟨ok, rest, rfl, returned⟩ := returned
    refine .inr ⟨ok, rest, rfl, ?_⟩
    cases ok with
    | false =>
      obtain ⟨answer, rest, rfl, returned⟩ := returned
      exact .inr ⟨answer, rest, rfl, returned.1⟩
    | true =>
      obtain ⟨error, rest, rfl, returned⟩ := returned
      refine .inr ⟨error, rest, rfl, ?_⟩
      cases error with
      | some text =>
        obtain ⟨answer, rest, rfl, returned⟩ := returned
        exact .inr ⟨answer, rest, rfl, returned.1⟩
      | none =>
        obtain ⟨value, looped, rest, rfl, rounds, same, _⟩ := returned
        rw [same, List.append_nil]
        exact rounds_begin rounds

theorem readDirPlus_balanced {path : Bytes} (isAllowed : allowed (.cmdReadDirPlus path)) :
    Balanced allowed (readDirPlus path) := by
  refine balanced_exchange isAllowed fun clientMark => handles_loop fun parser => handles_receive fun rsp => ?_
  split
  · exact holding_pure rfl
  · exact handles_release (free_pure rfl)

/-! ### Writes -/

theorem writeChunks_balanced {write : Slice → Call (UInt64 × UInt8)} {data : Slice}
    (writes : ∀ chunk, Balanced allowed (write chunk)) : Balanced allowed (writeChunks write data) := by
  apply handles_loop
  rintro ⟨i, off⟩
  refine handles_ite (fun _ => ?_) fun _ => free_pure rfl
  split
  · exact handles_halt nofun
  · apply balanced_bind (writes _)
    rintro ⟨n, code⟩
    exact handles_ite (fun _ => free_pure rfl) fun _ => free_pure rfl

theorem cmdWrite_balanced
    (chunks : ∀ data : Slice, data.length ≤ maxWritePayload → allowed (.cmdWrite fd data.bytes))
    (depth : Nat) (data : Slice) : Balanced allowed (cmdWrite fd depth data) := by
  induction depth generalizing data with
  | zero => exact handles_halt nofun
  | succ depth ih =>
    refine handles_ite (fun small => valueRequest_balanced _ (chunks data small) _ _ _) fun _ => ?_
    refine handles_newClientMark (free_pure rfl) fun clientMark => ?_
    refine handles_release (balanced_bind (writeChunks_balanced ih) ?_)
    rintro ⟨off, code⟩
    refine handles_ite (fun _ => free_pure rfl) fun _ => ?_
    refine handles_ite (fun _ => ?_) fun _ => free_pure rfl
    split
    · exact handles_halt nofun
    · apply balanced_bind (ih _)
      rintro ⟨n, code⟩
      exact handles_ite (fun _ => free_pure rfl) fun _ => free_pure rfl

def WriteStream.hold (ws : WriteStream) : Hold := if ws.closed then .free else .holds ws.clientMark

theorem WriteStream.hold_of_open (opened : ¬ws.closed = true) : ws.hold = .holds ws.clientMark :=
  if_neg opened

theorem WriteStream.hold_of_closed (closed : ws.closed = true) : ws.hold = .free :=
  if_pos closed

/-- The data of a stream may be sent in pieces that are short enough. -/
def AllowsPieces (allowed : CommandStruct → Prop) : Prop :=
  ∀ isEnd data, data.length ≤ maxWriteStreamDataPayload → allowed (.cmdWriteStreamData isEnd data)

variable (pieces : AllowsPieces allowed)

include pieces

theorem WriteStream.write_handles (ws : WriteStream) (data : Bytes) :
    Handles allowed ws.hold (ws.write data) fun hold _ => hold = ws.hold := by
  refine handles_ite (fun closed => ?_) fun opened => ?_
  · rw [hold_of_closed closed]
    exact free_pure rfl
  · rw [hold_of_open opened]
    refine handles_loop fun data => handles_ite (fun _ => ?_) fun _ => holding_pure rfl
    refine handles_beginRequest fun ok => handles_ite (fun _ => ?_) fun _ => holding_pure rfl
    refine handles_writeStruct (pieces _ _ (List.length_take_le _ _)) fun error => ?_
    cases error with
    | none => exact holding_pure rfl
    | some _ => exact holding_pure rfl

theorem openWriteStream_handles {first : Bytes}
    (opens : allowed (.cmdWriteStreamOpen fd offset (first.take maxWriteStreamOpenPayload))) :
    Handles allowed .free (openWriteStream fd offset first) fun hold stream =>
      hold = stream.elim .free WriteStream.hold := by
  refine handles_exchange opens rfl rfl fun clientMark => ?_
  refine handles_ite (fun _ => ?_) fun _ => holding_pure rfl
  apply handles_bind (WriteStream.write_handles pieces ⟨clientMark, 0, [], false⟩ _)
  rintro _ error rfl
  cases error with
  | none => exact holding_pure rfl
  | some _ => exact handles_release (free_pure rfl)

omit pieces in
theorem WriteStream.finish_handles (ws : WriteStream) (closed : ws.closed = true) :
    Handles allowed (.holds ws.clientMark) ws.finish fun hold result => hold = .free ∧ result.1.closed = true := by
  refine handles_iterate (fun (ws : WriteStream) hold => hold = .holds ws.clientMark ∧ ws.closed = true)
    ⟨rfl, closed⟩ ?_
  rintro ws _ ⟨rfl, closed⟩
  refine handles_receive fun rsp => handles_ite (fun _ => handles_release ?_) fun _ => ?_
  · split
    · exact free_pure ⟨rfl, closed⟩
    · exact free_pure ⟨rfl, closed⟩
  · refine handles_ite (fun _ => handles_release (free_pure ⟨rfl, closed⟩)) fun _ => ?_
    refine handles_ite (fun _ => handles_release (free_pure ⟨rfl, closed⟩)) fun _ => ?_
    exact handles_ite (fun _ => holding_pure ⟨rfl, closed⟩) fun _ => holding_pure ⟨rfl, closed⟩

theorem WriteStream.close_handles (ws : WriteStream) (last : Bytes) :
    Handles allowed ws.hold (ws.close last) fun hold result => hold = .free ∧ result.1.closed = true := by
  refine handles_ite (fun closed => ?_) fun opened => ?_
  · rw [hold_of_closed closed]
    exact free_pure ⟨rfl, closed⟩
  · have early : Handles allowed ws.hold
        (if (last.take (last.length - maxWriteStreamDataPayload)).length > 0 then
          ws.write (last.take (last.length - maxWriteStreamDataPayload)) else pure none)
        fun hold _ => hold = ws.hold := by
      refine handles_ite (fun _ => ws.write_handles pieces _) fun _ => ?_
      rw [hold_of_open opened]
      exact holding_pure rfl
    apply handles_bind early
    rintro _ error rfl
    rw [hold_of_open opened]
    cases error with
    | some _ => exact handles_release (free_pure ⟨rfl, rfl⟩)
    | none =>
      refine handles_beginRequest fun ok => handles_ite (fun _ => ?_) fun _ =>
        handles_release (free_pure ⟨rfl, rfl⟩)
      have ending : (last.drop (last.take (last.length - maxWriteStreamDataPayload)).length).length ≤
          maxWriteStreamDataPayload := by
        rw [List.length_drop, List.length_take]
        omega
      refine handles_writeStruct (pieces _ _ ending) fun error => ?_
      cases error with
      | some _ => exact handles_release (free_pure ⟨rfl, rfl⟩)
      | none => exact WriteStream.finish_handles { ws with closed := true } rfl

theorem cmdWriteAt_balanced {data : Bytes}
    (whole : data.length ≤ maxWriteAtPayload → allowed (.cmdWriteAt fd offset data))
    (opens : allowed (.cmdWriteStreamOpen fd offset (data.take maxWriteStreamOpenPayload))) :
    Balanced allowed (cmdWriteAt fd offset data) := by
  refine handles_ite (fun small => valueRequest_balanced _ (whole small) _ _ _) fun _ => ?_
  apply handles_bind (openWriteStream_handles pieces opens)
  rintro _ stream rfl
  cases stream with
  | none => exact free_pure rfl
  | some stream =>
    apply handles_bind (stream.close_handles pieces [])
    rintro _ ⟨stream, written, code, desc⟩ ⟨rfl, _⟩
    refine handles_ite (fun _ => free_pure rfl) fun _ => ?_
    exact handles_ite (fun _ => free_pure rfl) fun _ => free_pure rfl

omit pieces

theorem cmdCopyFileRange_balanced {wfd1 wfd2 : UInt32}
    (copies : ∀ off1 off2 size, allowed (.cmdCopyFileRange wfd1 wfd2 off1 off2 size))
    (off1 off2 size : UInt64) : Balanced allowed (cmdCopyFileRange wfd1 wfd2 off1 off2 size) := by
  refine handles_loop fun loop => handles_ite (fun _ => ?_) fun _ => free_pure rfl
  apply balanced_bind (valueRequest_balanced _ (copies _ _ _) _ _ _)
  rintro ⟨n, c⟩
  refine handles_ite (fun _ => free_pure rfl) fun _ => ?_
  exact handles_ite (fun _ => free_pure rfl) fun _ => free_pure rfl

/-! ### Extended attributes -/

/-- The commands for an attribute, of which those that set it may have to fit. -/
structure AllowsXAttr (allowed : CommandStruct → Prop) (path key : Bytes) : Prop where
  get : ∀ mode, allowed (.cmdGetXAttr path key mode)
  remove : ∀ mode, allowed (.cmdRemoveXAttr path key mode)
  whole : ∀ mode value, setXAttrFits path key value = true → allowed (.cmdSetXAttr path mode key value)
  chunk : ∀ mode (value : Bytes), maxXAttrChunkSize path key ≠ 0 →
    allowed (.cmdSetXAttr path mode key (value.take (maxXAttrChunkSize path key)))

theorem readXAttrData_handles (clientMark : Mark) :
    Handles allowed (.holds clientMark) (readXAttrData clientMark) fun hold _ => hold = .holds clientMark := by
  refine handles_loop fun data => handles_receive fun rsp => ?_
  refine handles_ite (fun _ => holding_pure rfl) fun _ => ?_
  exact handles_ite (fun _ => holding_pure rfl) fun _ => holding_pure rfl

variable {path key : Bytes}

theorem sendSplitXAttr_balanced (allows : AllowsXAttr allowed path key) (value : Bytes) (mode : UInt32) :
    Balanced allowed (sendSplitXAttr path key value mode) := by
  refine handles_ite (fun _ => free_pure rfl) fun room => ?_
  refine balanced_bind (codeRequest_balanced _ (allows.chunk _ _ room)) fun code => ?_
  refine handles_ite (fun _ => free_pure rfl) fun _ => ?_
  refine handles_loop fun value => handles_ite (fun _ => ?_) fun _ => free_pure rfl
  refine handles_ite (fun _ => free_pure rfl) fun _ => ?_
  refine balanced_bind (codeRequest_balanced _ (allows.chunk _ _ room)) fun code => ?_
  exact handles_ite (fun _ => free_pure rfl) fun _ => free_pure rfl

namespace Session

variable (s : Session) {mode : UInt32}

theorem cmdGetXAttr_balanced (isAllowed : allowed (.cmdGetXAttr path key mode)) :
    Balanced allowed (s.cmdGetXAttr path key mode) := by
  refine handles_ite (fun _ => free_pure rfl) fun _ => balanced_exchange isAllowed fun clientMark => ?_
  apply handles_bind (readXAttrData_handles clientMark)
  rintro _ result rfl
  exact handles_release (free_pure rfl)

theorem cmdListXAttr_balanced (isAllowed : allowed (.cmdListXAttr path mode)) :
    Balanced allowed (s.cmdListXAttr path mode) := by
  refine handles_ite (fun _ => free_pure rfl) fun _ => balanced_exchange isAllowed fun clientMark => ?_
  apply handles_bind (readXAttrData_handles clientMark)
  rintro _ ⟨data, code⟩ rfl
  refine handles_release (handles_ite (fun _ => free_pure rfl) fun _ => ?_)
  split
  · exact free_pure rfl
  · exact free_pure rfl

theorem cmdRemoveXAttr_balanced (isAllowed : allowed (.cmdRemoveXAttr path key mode)) :
    Balanced allowed (s.cmdRemoveXAttr path key mode) :=
  handles_ite (fun _ => free_pure rfl) fun _ => codeRequest_balanced _ isAllowed

theorem restoreXAttr_balanced (allows : AllowsXAttr allowed path key) (oldValue : Bytes)
    (oldExists : Bool) (mode : UInt32) :
    Balanced allowed (s.restoreXAttr path key oldValue oldExists mode) := by
  refine handles_ite (fun _ => s.cmdRemoveXAttr_balanced (allows.remove _)) fun _ => ?_
  refine handles_ite (fun fits => codeRequest_balanced _ (allows.whole _ _ fits)) fun _ => ?_
  exact sendSplitXAttr_balanced allows _ _

theorem cmdSetXAttr_balanced (allows : AllowsXAttr allowed path key) (value : Bytes) (mode : UInt32) :
    Balanced allowed (s.cmdSetXAttr path key value mode) := by
  refine handles_ite (fun _ => free_pure rfl) fun _ => ?_
  refine handles_ite (fun fits => codeRequest_balanced _ (allows.whole _ _ fits)) fun _ => ?_
  refine handles_ite (fun _ => free_pure rfl) fun _ => ?_
  apply balanced_bind (s.cmdGetXAttr_balanced (allows.get _))
  rintro ⟨oldValue, code⟩
  refine handles_ite (fun _ => free_pure rfl) fun _ => ?_
  refine balanced_bind (sendSplitXAttr_balanced allows _ _) fun code => ?_
  refine handles_ite (fun _ => free_pure rfl) fun _ => ?_
  exact balanced_bind (s.restoreXAttr_balanced allows _ _ _) fun _ => free_pure rfl

end Session

/-! ### Goroutines of the users -/

inductive StreamUse
  | write (data : Bytes)
  | close (last : Bytes)

def WriteStream.use (ws : WriteStream) : StreamUse → Call WriteStream
  | .write data => do
      let _ ← ws.write data
      return ws
  | .close last => do
      let (ws, _) ← ws.close last
      return ws

/-- A call of a method with all that comes of it, or a write stream with what its user
does with it, one use after the other. -/
inductive Job
  | method (called : Method)
  | stream (fd : UInt32) (offset : UInt64) (first : Bytes) (uses : List StreamUse)

def Job.program (s : Session) (depth : Nat) : Job → Call Unit
  | .method (.cmdReadDirPlus path) => readDirPlus path
  | .method called => (fun _ => ()) <$> called.call s depth
  | .stream fd offset first uses => do
      match ← openWriteStream fd offset first with
      | none => return ()
      | some ws =>
          let _ ← uses.foldlM WriteStream.use ws
          return ()

private theorem allPieces : AllowsPieces fun _ => True := fun _ _ _ => trivial

theorem Method.call_balanced (s : Session) (depth : Nat) (method : Method)
    (other : ∀ path, method ≠ .cmdReadDirPlus path) : Balanced (fun _ => True) (method.call s depth) := by
  cases method with
  | cmdReadDirPlus path => exact (other path rfl).elim
  | cmdClose _ | cmdAllocate _ _ _ _ | cmdSetAttr _ _ _ | cmdSync _ | cmdMkdir _ _ | cmdSymLink _ _
  | cmdRemove _ | cmdRmDir _ | cmdRename _ _ _ | cmdCloneFileRange _ _ _ _ _ | cmdSetFileLock _ _
  | cmdSetFileLockWait _ _ | cmdSetAttrByFD _ _ _ => exact codeRequest_balanced _ trivial
  | cmdOpen _ _ _ | cmdReadLink _ | cmdGetFileLock _ _ | cmdSeek _ _ _ | cmdGetAttr _ | cmdFsStat _ =>
    exact handles_map (valueRequest_balanced _ trivial _ _ _)
  | cmdRead _ dest =>
    exact handles_map (balanced_exchange trivial fun clientMark => receiveInto_releases clientMark dest)
  | cmdReadAt _ _ dest =>
    exact handles_map (balanced_exchange trivial fun clientMark => receiveInto_releases clientMark dest)
  | cmdReadDir _ => exact handles_map (cmdReadDir_balanced trivial)
  | cmdWrite _ data => exact handles_map (cmdWrite_balanced (fun _ _ => trivial) depth data)
  | cmdWriteAt _ _ _ => exact handles_map (cmdWriteAt_balanced allPieces (fun _ => trivial) trivial)
  | cmdCopyFileRange _ _ off1 off2 size =>
    exact handles_map (cmdCopyFileRange_balanced (fun _ _ _ => trivial) off1 off2 size)
  | cmdSetXAttr _ _ value mode =>
    refine s.cmdSetXAttr_balanced ?_ value mode
    exact ⟨fun _ => trivial, fun _ => trivial, fun _ _ _ => trivial, fun _ _ _ => trivial⟩
  | cmdGetXAttr _ _ _ => exact handles_map (s.cmdGetXAttr_balanced trivial)
  | cmdListXAttr _ _ => exact handles_map (s.cmdListXAttr_balanced trivial)
  | cmdRemoveXAttr _ _ _ => exact s.cmdRemoveXAttr_balanced trivial

theorem WriteStream.use_handles (ws : WriteStream) (use : StreamUse) :
    Handles (fun _ => True) ws.hold (ws.use use) fun hold ws => hold = ws.hold := by
  cases use with
  | write data =>
    apply handles_bind (ws.write_handles allPieces data).ends
    rintro _ _ ⟨unbroken, rfl⟩
    exact handles_pure unbroken rfl
  | close last =>
    apply handles_bind (ws.close_handles allPieces last)
    rintro _ ⟨ws, _⟩ ⟨rfl, closed⟩
    exact free_pure (hold_of_closed closed).symm

theorem WriteStream.uses_handle (ws : WriteStream) (uses : List StreamUse) :
    Handles (fun _ => True) ws.hold (uses.foldlM WriteStream.use ws) fun hold ws => hold = ws.hold := by
  induction uses generalizing ws with
  | nil =>
    have unbroken : ws.hold ≠ .broken := (ws.write_handles allPieces []).marks.now
    exact handles_pure unbroken rfl
  | cons use uses ih =>
    rw [List.foldlM_cons]
    apply handles_bind (ws.use_handles use)
    rintro _ ws rfl
    exact ih ws

theorem Job.program_handles (s : Session) (depth : Nat) (job : Job) :
    Handles (fun _ => True) .free (job.program s depth) fun _ _ => True := by
  cases job with
  | method called =>
    by_cases listing : ∃ path, called = .cmdReadDirPlus path
    · obtain ⟨path, rfl⟩ := listing
      exact (readDirPlus_balanced trivial).mono fun _ _ _ => trivial
    · have other (path : Bytes) : called ≠ .cmdReadDirPlus path := fun same => listing ⟨path, same⟩
      rw [Job.program]
      · exact handles_map ((called.call_balanced s depth other).mono fun _ _ _ => trivial)
      · exact other
  | stream fd offset first uses =>
    apply handles_bind (openWriteStream_handles allPieces trivial)
    rintro _ stream rfl
    cases stream with
    | none => exact free_pure trivial
    | some stream =>
      apply handles_bind (stream.uses_handle uses).ends
      rintro hold _ ⟨unbroken, _⟩
      exact handles_pure unbroken trivial

theorem Job.begins_unbroken {s : Session} {depth : Nat} {job : Job}
    (begins : (job.program s depth).Begins trace) : holdAfter trace ≠ .broken :=
  (job.program_handles s depth).marks.always trace begins

end Wsfs.Client
