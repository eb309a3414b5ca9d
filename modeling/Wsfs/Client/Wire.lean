/-
A request on a connection that stays up, as its caller sees it: a mark is free, every
command is written, and the messages of the mark come one after the other. The inbox holds
all messages that are still to come on the mark, so what is in it when the mark is
released is left for the next request.
-/

import Wsfs.Base.Partner
import Wsfs.Client.Request

namespace Wsfs.Client

open Wsfs.Base Wsfs.Protocol
open Wsfs.ReadDir (Message)

structure Wire where
  clientMark : Mark
  inbox : List Message
  begun : Option UInt8
  sent : List (UInt8 × CommandStruct)
  left : List (List Message)
deriving DecidableEq, Repr

namespace Wire

/-- Before a request, with the messages that it will be answered with. -/
def ready (clientMark : Mark) (inbox : List Message) : Wire := ⟨clientMark, inbox, none, [], []⟩

def receive (wire : Wire) (message : Message) : Option Wire :=
  match wire.inbox with
  | [] => none
  | next :: rest => if message = next then some { wire with inbox := rest } else none

/-- A call under another mark, and one with an answer that such a connection does not
give, has no place in the request. -/
def step (wire : Wire) : CallEvent → Option Wire
  | ⟨.newClientMark, answer⟩ => if answer = some wire.clientMark then some wire else none
  | ⟨.beginRequest mark cmd, ok⟩ =>
      if mark = wire.clientMark ∧ ok = true then some { wire with begun := some cmd } else none
  | ⟨.writeStruct body, error⟩ =>
      match wire.begun, error with
      | some cmd, none => some { wire with begun := none, sent := wire.sent ++ [(cmd, body)] }
      | _, _ => none
  | ⟨.receive mark, message⟩ => if mark = wire.clientMark then wire.receive message else none
  | ⟨.releaseClientMark mark, _⟩ =>
      if mark = wire.clientMark then some { wire with left := wire.left ++ [wire.inbox] } else none

theorem step_decides : Decides step := by
  intro wire op answer answer' possible possible'
  cases op with
  | newClientMark =>
    simp only [step, Option.isSome_ite] at possible possible'
    rw [possible, possible']
  | beginRequest mark cmd =>
    simp only [step, Option.isSome_ite] at possible possible'
    rw [possible.2, possible'.2]
  | writeStruct body =>
    cases answer with
    | some error => cases begun : wire.begun <;> simp [step, begun] at possible
    | none =>
      cases answer' with
      | some error => cases begun : wire.begun <;> simp [step, begun] at possible'
      | none => rfl
  | receive mark =>
    simp only [step] at possible possible'
    split at possible
    · rename_i own
      rw [if_pos own] at possible'
      unfold receive at possible possible'
      cases coming : wire.inbox with
      | nil => rw [coming] at possible; cases possible
      | cons next rest =>
        simp only [coming, Option.isSome_ite] at possible possible'
        rw [possible, possible']
    · cases possible
  | releaseClientMark mark => rfl

/-- The same request, with more messages to come. -/
structure Ahead (more : List Message) (wire other : Wire) : Prop where
  clientMark : other.clientMark = wire.clientMark
  begun : other.begun = wire.begun
  inbox : other.inbox = wire.inbox ++ more

variable {more : List Message} {wire other : Wire}

theorem Ahead.step {next : Wire} {event : CallEvent} (ahead : Ahead more wire other)
    (stepped : wire.step event = some next) :
    ∃ after, other.step event = some after ∧ Ahead more next after := by
  obtain ⟨sameMark, sameBegun, longer⟩ := ahead
  obtain ⟨op, answer⟩ := event
  cases op with
  | newClientMark =>
    simp only [Wire.step, Option.ite_none_right_eq_some] at stepped
    obtain ⟨given, ⟨⟩⟩ := stepped
    exact ⟨other, if_pos (by rw [given, sameMark]), sameMark, sameBegun, longer⟩
  | beginRequest mark cmd =>
    simp only [Wire.step, Option.ite_none_right_eq_some] at stepped
    obtain ⟨given, ⟨⟩⟩ := stepped
    exact ⟨_, if_pos (by rw [sameMark]; exact given), sameMark, rfl, longer⟩
  | writeStruct body =>
    cases answer with
    | some error => cases begun : wire.begun <;> simp [Wire.step, begun] at stepped
    | none =>
      cases begun : wire.begun with
      | none => simp [Wire.step, begun] at stepped
      | some cmd =>
        simp only [Wire.step, begun, Option.some.injEq] at stepped
        subst stepped
        refine ⟨{ other with begun := none, sent := other.sent ++ [(cmd, body)] }, ?_, sameMark,
          rfl, longer⟩
        simp only [Wire.step, sameBegun, begun]
  | receive mark =>
    simp only [Wire.step, Option.ite_none_right_eq_some] at stepped
    obtain ⟨own, received⟩ := stepped
    unfold Wire.receive at received
    split at received
    · cases received
    · rename_i first rest coming
      simp only [Option.ite_none_right_eq_some] at received
      obtain ⟨rfl, ⟨⟩⟩ := received
      rw [coming, List.cons_append] at longer
      refine ⟨{ other with inbox := rest ++ more }, ?_, sameMark, sameBegun, rfl⟩
      simp only [Wire.step, Wire.receive, sameMark, own, longer, reduceIte]
  | releaseClientMark mark =>
    simp only [Wire.step, Option.ite_none_right_eq_some] at stepped
    obtain ⟨own, ⟨⟩⟩ := stepped
    exact ⟨_, if_pos (by rw [sameMark]; exact own), sameMark, sameBegun, longer⟩

theorem Ahead.run {last : Wire} {trace : List CallEvent} (ahead : Ahead more wire other)
    (reached : run Wire.step wire trace = some last) :
    ∃ after, run Wire.step other trace = some after := by
  induction trace generalizing wire other with
  | nil => exact ⟨other, rfl⟩
  | cons event trace ih =>
    rw [run_cons] at reached ⊢
    cases stepped : Wire.step wire event with
    | none => rw [stepped] at reached; cases reached
    | some middle =>
      rw [stepped] at reached
      obtain ⟨middle', stepped', after⟩ := ahead.step stepped
      rw [stepped']
      exact ih after reached

/-- A call that returns returns the same if more messages are to come. So one whose result
depends on the next message has not returned before it. -/
theorem returns_never {α : Type} {prog : Call α} {clientMark : Mark} {inbox more' : List Message}
    {results results' : α → Prop} (post : Wire → α → Prop)
    (completes : Completes step (.ready clientMark (inbox ++ more)) prog fun _ value => results value)
    (completes' : Completes step (.ready clientMark (inbox ++ more')) prog fun _ value => results' value)
    (apart : ∀ value, results value → ¬results' value) :
    Returns step (.ready clientMark inbox) prog post := by
  intro trace value last runs reached
  have ahead (more : List Message) :
      Ahead more (.ready clientMark inbox) (.ready clientMark (inbox ++ more)) := ⟨rfl, rfl, rfl⟩
  obtain ⟨after, reachedAfter⟩ := (ahead more).run reached
  obtain ⟨after', reachedAfter'⟩ := (ahead more').run reached
  have one := completes.returns step_decides _ _ _ runs reachedAfter
  have two := completes'.returns step_decides _ _ _ runs reachedAfter'
  exact absurd two (apart value one)

end Wire

section Rules

variable {α : Type} {wire : Wire} {mark : Mark} {post : Wire → α → Prop} {cmd : UInt8}

theorem completes_beginRequest {next : Bool → Call α} (own : mark = wire.clientMark)
    (completes : Completes Wire.step { wire with begun := some cmd } (next true) post) :
    Completes Wire.step wire (beginRequest mark cmd >>= next) post :=
  completes_perform true (if_pos ⟨own, rfl⟩) completes

variable {body : CommandStruct}

theorem completes_writeStruct {next : Option Bytes → Call α} (begun : wire.begun = some cmd)
    (completes : Completes Wire.step { wire with begun := none, sent := wire.sent ++ [(cmd, body)] }
      (next none) post) : Completes Wire.step wire (writeStruct body >>= next) post :=
  completes_perform none (by simp only [Wire.step, begun]) completes

theorem completes_receive {message : Message} {rest : List Message} {next : Message → Call α}
    (own : mark = wire.clientMark) (coming : wire.inbox = message :: rest)
    (completes : Completes Wire.step { wire with inbox := rest } (next message) post) :
    Completes Wire.step wire (receive mark >>= next) post :=
  completes_perform message
    (by simp only [Wire.step, Wire.receive, own, coming, reduceIte]) completes

theorem completes_releaseClientMark {next : Unit → Call α} (own : mark = wire.clientMark)
    (completes : Completes Wire.step { wire with left := wire.left ++ [wire.inbox] } (next ()) post) :
    Completes Wire.step wire (releaseClientMark mark >>= next) post :=
  completes_perform () (if_pos own) completes

theorem completes_exchange {refused unwritten : α} {received : Mark → Call α}
    (completes : Completes Wire.step { wire with begun := none, sent := wire.sent ++ [(cmd, body)] }
      (received wire.clientMark) post) :
    Completes Wire.step wire (exchange cmd body refused unwritten received) post := by
  have given : wire.step ⟨.newClientMark, some wire.clientMark⟩ = some wire := if_pos rfl
  refine completes_perform _ given ?_
  apply completes_beginRequest rfl
  rw [if_pos rfl]
  exact completes_writeStruct rfl completes

end Rules

end Wsfs.Client
