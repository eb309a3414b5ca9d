/-
Tables of records that expire, in front of a store that changes.

What a record stands for is a relation between its key and its content, and it depends on
the store. A table is coherent while every record that has not expired agrees. Records that
expire, are dropped or are stored anew are dealt with here; a change of the store is left
to the user of the table, who has to say which records it spares.
-/

import Wsfs.Base.Run

namespace Wsfs.Base

structure Timed (Record : Type) where
  record : Record
  expireAt : Nat
deriving DecidableEq, Repr

variable {Key Record : Type}

/-- The record under a key, and the table without it if it has expired. -/
def load [DecidableEq Key] (now : Nat) (table : Key → Option (Timed Record)) (key : Key) :
    Option Record × (Key → Option (Timed Record)) :=
  match table key with
  | none => (none, table)
  | some timed =>
      if timed.expireAt < now then (none, Function.update table key none)
      else (some timed.record, table)

variable {now : Nat} {table : Key → Option (Timed Record)} {key : Key}

theorem load_kept [DecidableEq Key] {other : Key} {timed : Timed Record}
    (found : (load now table key).2 other = some timed) : table other = some timed := by
  unfold load at found
  split at found
  · exact found
  · split at found
    · cases update_eq_some found with
      | inl dropped => cases dropped.1
      | inr old => exact old.1
    · exact found

theorem load_some [DecidableEq Key] {record : Record} (found : (load now table key).1 = some record) :
    ∃ timed, table key = some timed ∧ now ≤ timed.expireAt ∧ timed.record = record ∧
      (load now table key).2 = table := by
  unfold load at found ⊢
  cases atKey : table key with
  | none => rw [atKey] at found; cases found
  | some timed =>
    rw [atKey] at found
    dsimp only at found ⊢
    by_cases expired : timed.expireAt < now
    · rw [if_pos expired] at found
      cases found
    · rw [if_neg expired] at found ⊢
      exact ⟨timed, rfl, by omega, Option.some.inj found, rfl⟩

def Coherent (agrees : Key → Record → Prop) (now : Nat) (table : Key → Option (Timed Record)) :
    Prop :=
  ∀ key timed, table key = some timed → now ≤ timed.expireAt → agrees key timed.record

theorem coherent_empty (agrees : Key → Record → Prop) (now : Nat) :
    Coherent agrees now fun _ => none :=
  nofun

namespace Coherent

variable {agrees agreesAfter : Key → Record → Prop} {now : Nat} {table : Key → Option (Timed Record)}

theorem subset (coherent : Coherent agrees now table) {smaller : Key → Option (Timed Record)}
    (kept : ∀ key timed, smaller key = some timed → table key = some timed) :
    Coherent agrees now smaller :=
  fun key timed found live => coherent key timed (kept key timed found) live

theorem wait (coherent : Coherent agrees now table) (time : Nat) :
    Coherent agrees (now + time) table :=
  fun key timed found live => coherent key timed found (by omega)

theorem change (coherent : Coherent agrees now table)
    (spared : ∀ key timed, table key = some timed → now ≤ timed.expireAt →
      agrees key timed.record → agreesAfter key timed.record) :
    Coherent agreesAfter now table :=
  fun key timed found live => spared key timed found live (coherent key timed found live)

variable [DecidableEq Key]

theorem del (coherent : Coherent agrees now table) (key : Key) :
    Coherent agrees now (Function.update table key none) := by
  apply coherent.subset
  intro other timed found
  cases update_eq_some found with
  | inl same => cases same.1
  | inr old => exact old.1

variable {key : Key} {record : Record}

theorem set (coherent : Coherent agrees now table) (agree : agrees key record) (expireAt : Nat) :
    Coherent agrees now (Function.update table key (some ⟨record, expireAt⟩)) := by
  intro other timed found live
  cases update_eq_some found with
  | inl new =>
    obtain ⟨same, rfl⟩ := new
    cases same
    exact agree
  | inr old => exact coherent other timed old.1 live

theorem loaded (coherent : Coherent agrees now table) (found : (load now table key).1 = some record) :
    agrees key record := by
  obtain ⟨timed, atKey, live, rfl, _⟩ := load_some found
  exact coherent key timed atKey live

theorem remains (coherent : Coherent agrees now table) (key : Key) :
    Coherent agrees now (load now table key).2 :=
  coherent.subset fun _ _ found => load_kept found

end Coherent

end Wsfs.Base
