/-
Every handler sends on the mark of its command and on no other, whether or not it comes
to its end and whatever its calls answer. A handler that concludes its command in any world
does so; `cmdReadLink`, which needs a limit on paths for it, is looked at by itself.
-/

import Wsfs.Server.Responses

namespace Wsfs.Server.Commands

open Wsfs.Base Wsfs.Protocol Wsfs.Unix Wsfs.Util

def Effect.OnMark (clientMark : UInt8) : Effect → Prop
  | .send mark _ _ => mark = clientMark
  | _ => True

abbrev OnMark {α : Type} (clientMark : UInt8) (prog : Handler α) : Prop :=
  Only (Effect.OnMark clientMark) prog

section Handlers

variable {clientMark : UInt8} {α : Type}

/-- What was sent on another mark is never mended. -/
theorem Concludes.onMark {prog : Handler α} (concludes : Concludes none clientMark prog) :
    OnMark clientMark prog := by
  refine Terms.Total.only (fun progress => progress.phase = .broken)
    (fun event => event.op.tries event.result) (linkWorld [] ⟨[0], nofun⟩ []) (concludes 0)
    ?_ (fun _ _ => rfl) (linkWorld_steady []) ?_ ?_ ?_
  · rintro ⟨op, answer⟩
    change Refuses none ⟨op, answer⟩
    unfold Refuses
    split
    · exact nofun
    · trivial
  · intro progress value holds broken
    cases holds.2.symm.trans broken
  · intro progress event broken
    change progress.phase.after clientMark event.op = .broken
    rw [show progress.phase = .broken from broken, after_broken]
  · intro progress op answer forbidden
    cases op with
    | send mark code payload => exact if_neg fun pending => forbidden pending.2.1
    | _ => exact absurd trivial forbidden

variable {code : UInt8}

theorem onMark_send {payload : Bytes} : OnMark clientMark (send clientMark code payload) :=
  only_call rfl

theorem onMark_error {desc : String} :
    OnMark clientMark (writeRspError clientMark code desc) := onMark_send

theorem onMark_respond {codec : Codec α} {rsp : α} : OnMark clientMark (respond clientMark codec rsp) := by
  unfold respond
  split
  · exact onMark_send
  · apply only_bind onMark_send
    intro _
    exact only_call trivial

theorem onMark_ignoringEINTR {fn : Handler (Except Errno α)} (inner : OnMark clientMark fn) :
    OnMark clientMark (ignoringEINTR fn) := by
  apply only_loop
  intro _
  apply only_bind inner
  intro result
  cases result with
  | error err => exact only_ite (fun _ => only_pure) (fun _ => only_pure)
  | ok value => exact only_pure

theorem cmdReadLink_onMark (s : Session) (path : Bytes) :
    OnMark clientMark (s.cmdReadLink clientMark path) := by
  apply only_ite
  · exact fun _ => onMark_error
  · intro _
    apply only_bind (onMark_ignoringEINTR (only_call trivial))
    intro result
    cases result with
    | error err => exact onMark_error
    | ok link => exact only_ite (fun _ => onMark_respond) (fun _ => onMark_error)

theorem doCommandCall_onMark (s : Session) (cmd : UInt8) (r : Bytes) :
    OnMark clientMark (s.doCommandCall clientMark cmd r) := by
  by_cases stream : cmd = Protocol.cmdWriteStreamOpen ∨ cmd = Protocol.cmdWriteStreamData
  · unfold Session.doCommandCall
    rw [if_pos stream]
    exact only_call trivial
  · by_cases readLink : cmd = Protocol.cmdReadLink
    · subst readLink
      change OnMark clientMark (parsed clientMark (readStruct Codec.str r) (s.cmdReadLink clientMark))
      cases readStruct Codec.str r with
      | none => exact onMark_error
      | some path => exact cmdReadLink_onMark s path
    · exact (doCommandCall_concludes s (not_or.mp stream) fun same => absurd same readLink).onMark

end Handlers

end Wsfs.Server.Commands
