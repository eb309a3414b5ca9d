/-
The rules of one mark. For a command the client has to get any number of partial messages
and then exactly one other message, on the mark of the command and none of them longer
than a response may be; a handler is shown to keep to this step by step, however its calls
are answered, and to come to its end as long as it is not made to try again for ever.
-/

import Wsfs.Base.Total
import Wsfs.Server.Commands

namespace Wsfs.Server.Commands

open Wsfs.Base Wsfs.Protocol Wsfs.Unix Wsfs.Util
open Wsfs.ReadDir (direntBytes getDirentRequiredSize)
open Wsfs.ReadDir.Server (Stat ReadError DirEntry osErrCode convOwner ensureDirBase bufferWrite errorMessage
  errorMessage_fits room)

/-! ### Messages on a mark -/

inductive Phase
  | pending
  | concluded
  | broken
deriving DecidableEq, Repr

def Phase.send (clientMark : UInt8) (phase : Phase) (mark code : UInt8) (payload : Bytes) : Phase :=
  if phase = .pending ∧ mark = clientMark ∧ 2 + payload.length ≤ maxResponseLength then
    if code = errorPartialResponse then .pending else .concluded
  else .broken

def Phase.after (clientMark : UInt8) (phase : Phase) : Effect → Phase
  | .send mark code payload => phase.send clientMark mark code payload
  | .giveUp => .broken
  | _ => phase

def Effect.tries : (op : Effect) → Effect.Result op → Nat
  | .open _ _ _, .error err => if err = eintr then 1 else 0
  | .write _ _, .error err => if err = eintr then 1 else 0
  | .pwrite _ _ _, .error err => if err = eintr then 1 else 0
  | .readlink _, .error err => if err = eintr then 1 else 0
  | .readDir _ _, (_, none) => 1
  | _, _ => 0

structure Progress where
  phase : Phase
  retries : Nat
deriving DecidableEq, Repr

def Progress.watch (clientMark : UInt8) (progress : Progress) (event : Event Effect Effect.Result) :
    Progress :=
  ⟨progress.phase.after clientMark event.op, progress.retries + event.op.tries event.result⟩

/-- `PATH_MAX` of Linux. -/
def pathMax : Nat := 4096

/-- The kernel refuses to read a link at a path that is longer than the limit, if it has
one. -/
def Refuses (limit : Option Nat) (event : Event Effect Effect.Result) : Prop :=
  match event with
  | ⟨.readlink path, .ok _⟩ => ∀ longest, limit = some longest → path.length ≤ longest
  | _ => True

/-- Calls are interrupted, and directories go on, only so many times. -/
def terms (limit : Option Nat) (clientMark : UInt8) : Terms Effect Effect.Result Progress where
  lawful := Refuses limit
  start := ⟨.pending, 0⟩
  watch := Progress.watch clientMark
  spent := Progress.retries

/-! ### The logic of one mark -/

section Logic

variable {limit : Option Nat} {clientMark : UInt8} {α β σ : Type} {phase : Phase}
  {post post' : Phase → α → Prop}

def Leads (limit : Option Nat) (clientMark : UInt8) (phase : Phase) (prog : Handler α)
    (post : Phase → α → Prop) : Prop :=
  ∀ retries, (terms limit clientMark).Total ⟨phase, retries⟩ prog fun progress value =>
    retries ≤ progress.retries ∧ post progress.phase value

/-- From its beginning the program sends all that is due on the mark. -/
def Concludes (limit : Option Nat) (clientMark : UInt8) (prog : Handler α) : Prop :=
  Leads limit clientMark .pending prog fun phase _ => phase = .concluded

def Keeps (limit : Option Nat) (clientMark : UInt8) (prog : Handler α) (post : α → Prop) : Prop :=
  Leads limit clientMark .pending prog fun phase value => phase = .pending ∧ post value

variable {prog : Handler α} {next : α → Handler β} {start : σ}

theorem Leads.mono (leads : Leads limit clientMark phase prog post)
    (weaker : ∀ phase value, post phase value → post' phase value) :
    Leads limit clientMark phase prog post' := by
  intro retries
  refine (leads retries).mono ?_
  intro progress value holds
  exact ⟨holds.1, weaker _ _ holds.2⟩

theorem leads_pure {value : α} (holds : post phase value) :
    Leads limit clientMark phase (pure value) post := by
  intro retries
  exact Terms.total_pure ⟨Nat.le_refl _, holds⟩

variable {after : Phase → β → Prop} {op : Effect} {body : σ → Handler (σ ⊕ α)} {holds : α → Prop}

theorem leads_bind (leads : Leads limit clientMark phase prog fun phase value =>
      Leads limit clientMark phase (next value) after) :
    Leads limit clientMark phase (prog >>= next) after := by
  intro retries
  apply Terms.total_bind
  refine (leads retries).mono ?_
  intro progress value holds
  refine (holds.2 progress.retries).mono ?_
  intro progress' value' holds'
  exact ⟨Nat.le_trans holds.1 holds'.1, holds'.2⟩

theorem leads_ite {condition : Prop} [Decidable condition] {left right : Handler α}
    (whenTrue : condition → Leads limit clientMark phase left post)
    (whenFalse : ¬condition → Leads limit clientMark phase right post) :
    Leads limit clientMark phase (if condition then left else right) post := by
  split
  · exact whenTrue ‹_›
  · exact whenFalse ‹_›

theorem leads_perform {next : Effect.Result op → Handler α}
    (leads : ∀ answer, Refuses limit ⟨op, answer⟩ →
      Leads limit clientMark (phase.after clientMark op) (next answer) post) :
    Leads limit clientMark phase (Prog.perform op >>= next) post := by
  intro retries
  apply Terms.total_perform
  intro answer lawful
  refine (leads answer lawful (retries + op.tries answer)).mono ?_
  intro progress value holds
  exact ⟨Nat.le_trans (Nat.le_add_right _ _) holds.1, holds.2⟩

theorem leads_call {post : Phase → Effect.Result op → Prop}
    (holds : ∀ answer, Refuses limit ⟨op, answer⟩ → post (phase.after clientMark op) answer) :
    Leads limit clientMark phase (Prog.perform op) post := by
  change Leads limit clientMark phase (Prog.perform op >>= pure) post
  apply leads_perform
  intro answer lawful
  exact leads_pure (holds answer lawful)

/-- What a round that goes on has to show, next to its invariant: it was granted another
try, or it has come closer to its end. -/
theorem leads_loop (invariant : σ → Phase → Prop) (measure : σ → Nat) (initially : invariant start phase)
    (round : ∀ state phase retries, invariant state phase →
      (terms limit clientMark).Total ⟨phase, retries⟩ (body state) fun progress outcome =>
        retries ≤ progress.retries ∧
        match outcome with
        | .inl state' => invariant state' progress.phase ∧
            (retries < progress.retries ∨ measure state' < measure state)
        | .inr value => post progress.phase value) :
    Leads limit clientMark phase (Prog.loop body start) post := by
  intro retries
  refine Terms.total_loop
    (fun state progress => invariant state progress.phase ∧ retries ≤ progress.retries) measure
    ⟨initially, Nat.le_refl _⟩ ?_
  intro state progress holds
  refine (round state progress.phase progress.retries holds.1).mono ?_
  intro progress' outcome after
  have later := Nat.le_trans holds.2 after.1
  cases outcome with
  | inr value => exact ⟨later, after.2⟩
  | inl state' =>
    refine ⟨⟨after.2.1, later⟩, ?_⟩
    change progress.retries < progress'.retries ∨ progress.retries = progress'.retries ∧ _
    have grown := after.1
    cases after.2.2 with
    | inl more => exact .inl more
    | inr closer => omega

theorem leads_countdown (invariant : σ → Phase → Prop) (measure : σ → Nat)
    (initially : invariant start phase) (round : ∀ state phase, invariant state phase →
      Leads limit clientMark phase (body state) fun phase' outcome =>
        match outcome with
        | .inl state' => invariant state' phase' ∧ measure state' < measure state
        | .inr value => post phase' value) :
    Leads limit clientMark phase (Prog.loop body start) post := by
  apply leads_loop invariant measure initially
  intro state phase retries holds
  refine (round state phase holds retries).mono ?_
  intro progress outcome after
  refine ⟨after.1, ?_⟩
  cases outcome with
  | inl state' => exact ⟨after.2.1, .inr after.2.2⟩
  | inr value => exact after.2

/-- A loop whose rounds begin with a batch of a directory and go on only after one that
came without an error. -/
theorem leads_batches {dir n : Nat} {body : σ → List DirEntry × Option ReadError → Handler (σ ⊕ α)}
    (invariant : σ → Phase → Prop) (initially : invariant start phase)
    (round : ∀ state phase batch, invariant state phase →
      Leads limit clientMark phase (body state batch) fun phase' outcome =>
        match outcome with
        | .inl state' => invariant state' phase' ∧ batch.2 = none
        | .inr value => post phase' value) :
    Leads limit clientMark phase
      (Prog.loop (fun state => Prog.perform (Effect.readDir dir n) >>= body state) start) post := by
  apply leads_loop invariant (fun _ => 0) initially
  intro state phase retries holds
  apply Terms.total_perform
  intro batch _
  refine (round state phase batch holds (retries + (Effect.readDir dir n).tries batch)).mono ?_
  intro progress outcome after
  refine ⟨Nat.le_trans (Nat.le_add_right _ _) after.1, ?_⟩
  cases outcome with
  | inr value => exact after.2
  | inl state' =>
    refine ⟨after.2.1, .inl ?_⟩
    obtain ⟨entries, err⟩ := batch
    obtain rfl : err = none := after.2.2
    exact after.1

theorem keeps_foldlM {step : σ → β → Handler σ} {items : List β} (invariant : σ → Prop)
    (initially : invariant start)
    (kept : ∀ state item, invariant state → Keeps limit clientMark (step state item) invariant) :
    Keeps limit clientMark (items.foldlM step start) invariant := by
  induction items generalizing start with
  | nil => exact leads_pure ⟨rfl, initially⟩
  | cons item rest ih =>
    rw [List.foldlM_cons]
    apply leads_bind
    refine (kept start item initially).mono ?_
    rintro _ state ⟨rfl, holds⟩
    exact ih holds

theorem Keeps.concludes (keeps : Keeps limit clientMark prog holds)
    (rest : ∀ value, holds value → Concludes limit clientMark (next value)) :
    Concludes limit clientMark (prog >>= next) := by
  apply leads_bind
  refine keeps.mono ?_
  rintro _ value ⟨rfl, kept⟩
  exact rest value kept

theorem Concludes.andReturn {value : β} (concludes : Concludes limit clientMark prog)
    (holds : after .concluded value) :
    Leads limit clientMark .pending (prog >>= fun _ => pure value) after := by
  apply leads_bind
  refine concludes.mono ?_
  rintro _ _ rfl
  exact leads_pure holds

theorem Keeps.keeps {after : β → Prop} (keeps : Keeps limit clientMark prog holds)
    (rest : ∀ value, holds value → Keeps limit clientMark (next value) after) :
    Keeps limit clientMark (prog >>= next) after := by
  apply leads_bind
  refine keeps.mono ?_
  rintro _ value ⟨rfl, kept⟩
  exact rest value kept

end Logic

/-! ### Messages -/

section Messages

variable {limit : Option Nat} {clientMark : UInt8} {payload : Bytes} {code : UInt8} {α : Type}

theorem send_more (fits : payload.length ≤ room) :
    Phase.send clientMark .pending clientMark errorPartialResponse payload = .pending := by
  rw [Phase.send, if_pos, if_pos rfl]
  refine ⟨rfl, rfl, ?_⟩
  change _ ≤ room + 2
  omega

theorem send_final (final : code ≠ errorPartialResponse) (fits : payload.length ≤ room) :
    Phase.send clientMark .pending clientMark code payload = .concluded := by
  rw [Phase.send, if_pos, if_neg final]
  refine ⟨rfl, rfl, ?_⟩
  change _ ≤ room + 2
  omega

theorem concludes_send (final : code ≠ errorPartialResponse) (fits : payload.length ≤ room) :
    Concludes limit clientMark (send clientMark code payload) := by
  apply leads_call
  intro _ _
  exact send_final final fits

theorem keeps_send (fits : payload.length ≤ room) :
    Keeps limit clientMark (send clientMark errorPartialResponse payload) fun _ => True := by
  apply leads_call
  intro _ _
  exact ⟨send_more fits, trivial⟩

theorem concludes_error (desc : String) (final : code ≠ errorPartialResponse) :
    Concludes limit clientMark (writeRspError clientMark code desc) :=
  concludes_send final (errorMessage_fits code desc)

theorem concludes_ok : Concludes limit clientMark (writeRspOK clientMark) :=
  concludes_send (by decide) (by decide)

theorem wsfsErrCode_final (err : Errno) : wsfsErrCode err ≠ errorPartialResponse := by
  cases err with
  | other code => exact (by decide : errorUnknown ≠ errorPartialResponse)
  | _ => decide

theorem osErrCode_final (err : Errno) : osErrCode err ≠ errorPartialResponse := by
  cases err with
  | other code => exact (by decide : errorUnknown ≠ errorPartialResponse)
  | _ => decide

theorem xattrErrorCode_final (err : Errno) : xattrErrorCode err ≠ errorPartialResponse := by
  unfold xattrErrorCode
  split
  · decide
  · exact wsfsErrCode_final err

def Fits {α : Type} (codec : Codec α) (rsp : α) : Prop :=
  ∃ payload, codec.write rsp = some payload ∧ payload.length ≤ room

theorem fits_u32 (value : UInt32) : Fits Codec.u32 value :=
  ⟨_, rfl, by rw [leBytes_length]; decide⟩

theorem fits_u64 (value : UInt64) : Fits Codec.u64 value :=
  ⟨_, rfl, by rw [leBytes_length]; decide⟩

theorem fits_fileInfo (value : FileInfo) : Fits FileInfo.codec value :=
  ⟨_, rfl, by simp only [List.length_append, leBytes_length]; decide⟩

theorem fits_fsStat (value : RspFsStat) : Fits RspFsStat.codec value :=
  ⟨_, rfl, by simp only [List.length_append, leBytes_length]; decide⟩

theorem fits_fileLock (value : FileLockInfo) : Fits FileLockInfo.codec value :=
  ⟨_, rfl, by simp only [List.length_append, leBytes_length]; decide⟩

theorem concludes_respond {codec : Codec α} {rsp : α} (fits : Fits codec rsp) :
    Concludes limit clientMark (respond clientMark codec rsp) := by
  obtain ⟨payload, written, short⟩ := fits
  unfold respond
  rw [written]
  exact concludes_send (by decide) short

theorem concludes_answer (result : Except Errno Unit) :
    Concludes limit clientMark (answer clientMark result) := by
  cases result with
  | error err => exact concludes_error _ (wsfsErrCode_final err)
  | ok _ => exact concludes_ok

theorem concludes_answerWith {β : Type} {codec : Codec β} {rsp : α → β}
    (fits : ∀ value, Fits codec (rsp value)) (result : Except Errno α) :
    Concludes limit clientMark (answerWith clientMark codec rsp result) := by
  cases result with
  | error err => exact concludes_error _ (wsfsErrCode_final err)
  | ok value => exact concludes_respond (fits value)

theorem concludes_answerXAttr (result : Except Errno Unit) :
    Concludes limit clientMark (answerXAttr clientMark result) := by
  cases result with
  | error err => exact concludes_error _ (xattrErrorCode_final err)
  | ok _ => exact concludes_ok

theorem concludes_sys {call : SysCall} {next : Except Errno Unit → Handler Unit}
    (rest : ∀ result, Concludes limit clientMark (next result)) :
    Concludes limit clientMark (sys call >>= next) := by
  apply leads_perform
  intro result _
  exact rest result

theorem concludes_withFD {fd : UInt32} {next : Nat → Handler Unit}
    (rest : ∀ sfd, Concludes limit clientMark (next sfd)) :
    Concludes limit clientMark (withFD clientMark fd next) := by
  apply leads_perform
  intro found _
  cases found with
  | none => exact concludes_error _ (by decide)
  | some sfd => exact rest sfd

variable {s : Session}

theorem concludes_withPath {path : Bytes} {next : Bytes → Handler Unit}
    (rest : isUrlValid path = true → Concludes limit clientMark (next (s.storagePath ++ path))) :
    Concludes limit clientMark (s.withPath clientMark path next) := by
  apply leads_ite
  · intro _
    exact concludes_error _ (by decide)
  · intro valid
    exact rest (by simpa using valid)

theorem concludes_withPaths {first second : Bytes} {next : Bytes → Bytes → Handler Unit}
    (rest : Concludes limit clientMark (next (s.storagePath ++ first) (s.storagePath ++ second))) :
    Concludes limit clientMark (s.withPaths clientMark first second next) := by
  apply leads_ite
  · intro _
    exact concludes_error _ (by decide)
  · intro _
    exact rest

/-- The call has no part in the messages, and counts as a try if it is interrupted. -/
def Interruptible {α : Type} (limit : Option Nat) (clientMark : UInt8)
    (fn : Handler (Except Errno α)) (post : Except Errno α → Prop) : Prop :=
  ∀ retries, (terms limit clientMark).Total ⟨.pending, retries⟩ fn fun progress result =>
    progress.phase = .pending ∧ retries ≤ progress.retries ∧
      (result = .error eintr → retries < progress.retries) ∧ post result

theorem keeps_ignoringEINTR {fn : Handler (Except Errno α)} {post : Except Errno α → Prop}
    (call : Interruptible limit clientMark fn post) :
    Keeps limit clientMark (ignoringEINTR fn) post := by
  apply leads_loop (fun _ phase => phase = .pending) (fun _ => 0) rfl
  rintro _ _ retries rfl
  apply Terms.total_bind
  refine (call retries).mono ?_
  rintro progress result ⟨pending, grown, tried, holds⟩
  cases result with
  | ok value => exact Terms.total_pure ⟨grown, pending, holds⟩
  | error err =>
    apply Terms.total_ite
    · intro interrupted
      subst interrupted
      exact Terms.total_pure ⟨grown, pending, .inl (tried rfl)⟩
    · intro _
      exact Terms.total_pure ⟨grown, pending, holds⟩

theorem interruptible_open (path : Bytes) (oflag mode : UInt32) :
    Interruptible limit clientMark (Prog.perform (Effect.open path oflag mode)) fun _ => True := by
  intro retries
  apply Terms.total_call
  intro result _
  refine ⟨rfl, Nat.le_add_right _ _, ?_, trivial⟩
  rintro rfl
  exact Nat.lt_succ_self retries

theorem interruptible_write (sfd : Nat) (data : Bytes) :
    Interruptible limit clientMark (Prog.perform (Effect.write sfd data)) fun _ => True := by
  intro retries
  apply Terms.total_call
  intro result _
  refine ⟨rfl, Nat.le_add_right _ _, ?_, trivial⟩
  rintro rfl
  exact Nat.lt_succ_self retries

theorem interruptible_pwrite (sfd : Nat) (data : Bytes) (offset : UInt64) :
    Interruptible limit clientMark (Prog.perform (Effect.pwrite sfd data offset)) fun _ => True := by
  intro retries
  apply Terms.total_call
  intro result _
  refine ⟨rfl, Nat.le_add_right _ _, ?_, trivial⟩
  rintro rfl
  exact Nat.lt_succ_self retries

theorem interruptible_readlink (path : Bytes) :
    Interruptible limit clientMark (Prog.perform (Effect.readlink path)) fun result =>
      ∀ link, result = .ok link → ∀ longest, limit = some longest → path.length ≤ longest := by
  intro retries
  apply Terms.total_call
  intro result lawful
  refine ⟨rfl, Nat.le_add_right _ _, ?_, ?_⟩
  · rintro rfl
    exact Nat.lt_succ_self retries
  · rintro link rfl
    exact lawful

end Messages

end Wsfs.Server.Commands
