/-
What a returned `errorOK` says about the requests of a call. One lemma for each shape of
method says where its code comes from; calls that send several requests are assembled
from these.
-/

import Wsfs.Client.Commands

namespace Wsfs.Client

open Wsfs.Base Wsfs.Protocol
open Wsfs.ReadDir (Message)
open Wsfs.ReadDir.Client (Listed Parser Parse DirItem)

/-! ### One request -/

variable {α : Type} {code : UInt8}

variable {cmd : UInt8} {past made : List Attempt} {log : Log}

namespace Session

variable (s : Session)

end Session

/-! ### Several requests -/

/-- Every one of the requests is this command, with `errorOK` received for it. -/
def AllAcknowledged (cmd : UInt8) (made : List Attempt) : Prop :=
  ∀ attempt ∈ made, attempt.commands = [cmd] ∧ attempt.Received errorOK

theorem AllAcknowledged.append {later : List Attempt} (first : AllAcknowledged cmd made)
    (rest : AllAcknowledged cmd later) : AllAcknowledged cmd (made ++ later) :=
  fun attempt member => (List.mem_append.mp member).elim (first attempt) (rest attempt)

theorem Answered.ne_nil (answered : Answered cmd code made) : made ≠ [] := by
  obtain ⟨attempt, rfl, _⟩ := answered
  exact List.cons_ne_nil _ _

/-- A stream to which `errorOK` came in the end. -/
def Streamed (made : List Attempt) : Prop :=
  ∃ attempt count, made = [attempt] ∧ attempt.Received errorOK ∧
    attempt.commands =
      Protocol.cmdWriteStreamOpen :: List.replicate count Protocol.cmdWriteStreamData

end Wsfs.Client
