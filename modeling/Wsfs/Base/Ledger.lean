/-
Books about items that are taken one at a time. A holder that wants an item is counted
before it has one and until after it has given it back, so the count is never behind
the items that are out.

The books are right if the locks are those of the items held, no item has two holders,
and the count is the number of holders that have an item, are about to take one, or
have just given one back.
-/

import Mathlib.Data.Finset.Card

namespace Wsfs.Base

open Function

variable {Holder Item : Type} [DecidableEq Holder] [DecidableEq Item]

structure Ledger (hold : Holder → Option Item) (busy : Holder → Bool) (locked : Item → Bool)
    (count : Int) : Prop where
  held : ∀ item, locked item = true ↔ ∃ holder, hold holder = some item
  unique : ∀ holder other item, hold holder = some item → hold other = some item → holder = other
  idle : ∀ holder, busy holder = true → hold holder = none
  counted : ∃ active : Finset Holder, count = active.card ∧
    ∀ holder, holder ∈ active ↔ busy holder = true ∨ hold holder ≠ none

namespace Ledger

variable {hold : Holder → Option Item} {busy : Holder → Bool} {locked : Item → Bool} {count : Int}

omit [DecidableEq Holder] [DecidableEq Item] in
theorem empty : Ledger (fun _ : Holder => (none : Option Item)) (fun _ => false) (fun _ => false) 0 where
  held _ := ⟨nofun, nofun⟩
  unique _ _ _ := nofun
  idle _ _ := rfl
  counted := ⟨∅, rfl, fun _ => by simp⟩

variable {holder : Holder}

omit [DecidableEq Item] in
theorem enter (ledger : Ledger hold busy locked count) (free : hold holder = none)
    (isIdle : busy holder = false) :
    Ledger hold (update busy holder true) locked (count + 1) where
  held := ledger.held
  unique := ledger.unique
  idle other isBusy := by
    by_cases same : other = holder
    · rw [same]
      exact free
    · rw [update_of_ne same] at isBusy
      exact ledger.idle other isBusy
  counted := by
    obtain ⟨active, counted, members⟩ := ledger.counted
    have outside : holder ∉ active := by
      rw [members, isIdle, free]
      exact fun inside => inside.elim nofun fun holds => holds rfl
    refine ⟨insert holder active, ?_, fun other => ?_⟩
    · rw [Finset.card_insert_of_notMem outside, counted]
      rfl
    · rw [Finset.mem_insert, members]
      by_cases same : other = holder
      · simp [same]
      · simp [same]

omit [DecidableEq Item] in
theorem leave (ledger : Ledger hold busy locked count) (isBusy : busy holder = true) :
    Ledger hold (update busy holder false) locked (count - 1) where
  held := ledger.held
  unique := ledger.unique
  idle other otherBusy := by
    by_cases same : other = holder
    · rw [same]
      exact ledger.idle holder isBusy
    · rw [update_of_ne same] at otherBusy
      exact ledger.idle other otherBusy
  counted := by
    obtain ⟨active, counted, members⟩ := ledger.counted
    have inside : holder ∈ active := (members holder).mpr (.inl isBusy)
    have free := ledger.idle holder isBusy
    refine ⟨active.erase holder, ?_, fun other => ?_⟩
    · have positive := Finset.card_pos.mpr ⟨holder, inside⟩
      rw [Finset.card_erase_of_mem inside, counted]
      omega
    · rw [Finset.mem_erase, members]
      by_cases same : other = holder
      · simp [same, free]
      · simp [same]

variable {item : Item}

theorem acquire (ledger : Ledger hold busy locked count) (isBusy : busy holder = true)
    (unlocked : locked item = false) :
    Ledger (update hold holder (some item)) (update busy holder false)
      (update locked item true) count where
  held other := by
    have free := ledger.idle holder isBusy
    by_cases same : other = item
    · rw [same, update_self]
      exact ⟨fun _ => ⟨holder, update_self ..⟩, fun _ => rfl⟩
    · rw [update_of_ne same, ledger.held]
      constructor
      · rintro ⟨owner, holds⟩
        have apart : owner ≠ holder := fun equal => by rw [equal, free] at holds; cases holds
        exact ⟨owner, by rw [update_of_ne apart]; exact holds⟩
      · rintro ⟨owner, holds⟩
        by_cases equal : owner = holder
        · rw [equal, update_self] at holds
          exact (same (Option.some.inj holds).symm).elim
        · rw [update_of_ne equal] at holds
          exact ⟨owner, holds⟩
  unique left right other leftHolds rightHolds := by
    have fresh (owner : Holder) : hold owner ≠ some item := by
      intro holds
      rw [(ledger.held item).mpr ⟨owner, holds⟩] at unlocked
      cases unlocked
    by_cases leftSame : left = holder
    · by_cases rightSame : right = holder
      · rw [leftSame, rightSame]
      · rw [leftSame, update_self] at leftHolds
        rw [update_of_ne rightSame, ← Option.some.inj leftHolds] at rightHolds
        exact (fresh right rightHolds).elim
    · rw [update_of_ne leftSame] at leftHolds
      by_cases rightSame : right = holder
      · rw [rightSame, update_self] at rightHolds
        rw [← Option.some.inj rightHolds] at leftHolds
        exact (fresh left leftHolds).elim
      · rw [update_of_ne rightSame] at rightHolds
        exact ledger.unique left right other leftHolds rightHolds
  idle other otherBusy := by
    by_cases same : other = holder
    · rw [same, update_self] at otherBusy
      cases otherBusy
    · rw [update_of_ne same] at otherBusy
      rw [update_of_ne same]
      exact ledger.idle other otherBusy
  counted := by
    obtain ⟨active, counted, members⟩ := ledger.counted
    refine ⟨active, counted, fun other => ?_⟩
    rw [members]
    by_cases same : other = holder
    · simp [same, isBusy]
    · simp [same]

theorem release (ledger : Ledger hold busy locked count) (holds : hold holder = some item) :
    Ledger (update hold holder none) (update busy holder true)
      (update locked item false) count where
  held other := by
    constructor
    · intro isLocked
      by_cases same : other = item
      · rw [same, update_self] at isLocked
        cases isLocked
      · rw [update_of_ne same] at isLocked
        obtain ⟨owner, owns⟩ := (ledger.held other).mp isLocked
        have apart : owner ≠ holder := fun equal => by
          rw [equal, holds] at owns
          exact same (Option.some.inj owns).symm
        exact ⟨owner, by rw [update_of_ne apart]; exact owns⟩
    · rintro ⟨owner, owns⟩
      by_cases equal : owner = holder
      · rw [equal, update_self] at owns
        cases owns
      · rw [update_of_ne equal] at owns
        have apart : other ≠ item := fun same => equal (ledger.unique owner holder item (same ▸ owns) holds)
        rw [update_of_ne apart]
        exact (ledger.held other).mpr ⟨owner, owns⟩
  unique left right other leftHolds rightHolds := by
    have before {owner : Holder} (owns : update hold holder none owner = some other) :
        hold owner = some other := by
      by_cases equal : owner = holder
      · rw [equal, update_self] at owns
        cases owns
      · rw [update_of_ne equal] at owns
        exact owns
    exact ledger.unique left right other (before leftHolds) (before rightHolds)
  idle other otherBusy := by
    by_cases same : other = holder
    · rw [same, update_self]
    · rw [update_of_ne same] at otherBusy ⊢
      exact ledger.idle other otherBusy
  counted := by
    obtain ⟨active, counted, members⟩ := ledger.counted
    refine ⟨active, counted, fun other => ?_⟩
    rw [members]
    by_cases same : other = holder
    · simp [same, holds]
    · simp [same]

omit [DecidableEq Holder] in
theorem length_le (ledger : Ledger hold busy locked count) {items : List Item} (nodup : items.Nodup)
    (out : ∀ item ∈ items, locked item = true) : (items.length : Int) ≤ count := by
  obtain ⟨active, counted, members⟩ := ledger.counted
  have covered : items.toFinset.map ⟨some, Option.some_injective Item⟩ ⊆ active.image hold := by
    intro found isOut
    obtain ⟨item, member, rfl⟩ := Finset.mem_map.mp isOut
    obtain ⟨holder, holds⟩ := (ledger.held item).mp (out item (List.mem_toFinset.mp member))
    refine Finset.mem_image.mpr ⟨holder, (members holder).mpr (.inr ?_), holds⟩
    rw [holds]
    exact nofun
  have bound : items.length ≤ active.card :=
    calc
      items.length = (items.toFinset.map ⟨some, Option.some_injective Item⟩).card := by
        rw [Finset.card_map, List.toFinset_card_of_nodup nodup]
      _ ≤ (active.image hold).card := Finset.card_le_card covered
      _ ≤ active.card := Finset.card_image_le
  rw [counted]
  exact Int.ofNat_le.mpr bound

omit [DecidableEq Holder] [DecidableEq Item] in
theorem quiet (ledger : Ledger hold busy locked 0) (holder : Holder) :
    busy holder = false ∧ hold holder = none := by
  obtain ⟨active, counted, members⟩ := ledger.counted
  have noneActive : active = ∅ := Finset.card_eq_zero.mp (Int.ofNat_eq_zero.mp counted.symm)
  have outside : ¬(busy holder = true ∨ hold holder ≠ none) := by
    rw [← members, noneActive]
    exact Finset.notMem_empty holder
  obtain ⟨notBusy, free⟩ := not_or.mp outside
  exact ⟨Bool.eq_false_iff.mpr notBusy, not_not.mp free⟩

omit [DecidableEq Holder] [DecidableEq Item] in
theorem count_zero (ledger : Ledger hold busy locked count)
    (quiet : ∀ holder, busy holder = false ∧ hold holder = none) : count = 0 := by
  obtain ⟨active, counted, members⟩ := ledger.counted
  have noneActive : active = ∅ := by
    apply Finset.eq_empty_of_forall_notMem
    intro holder
    rw [members, (quiet holder).1, (quiet holder).2]
    exact fun inside => inside.elim nofun fun holds => holds rfl
  rw [counted, noneActive]
  rfl

end Ledger

end Wsfs.Base
