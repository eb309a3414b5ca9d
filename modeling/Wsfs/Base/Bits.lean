/-
Single bits of a 32-bit word. Two words with the same 32 bits are equal, and a
mask of one bit tests exactly that bit, so a statement about masks becomes a
statement about Booleans.
-/

import Mathlib.Tactic.IntervalCases

namespace Wsfs.Base

def bit (word : UInt32) (index : Nat) : Bool := word.toBitVec.getLsbD index

@[simp] theorem bit_and (left right : UInt32) (index : Nat) :
    bit (left &&& right) index = (bit left index && bit right index) := by
  simp [bit]

@[simp] theorem bit_or (left right : UInt32) (index : Nat) :
    bit (left ||| right) index = (bit left index || bit right index) := by
  simp [bit]

@[simp] theorem bit_ofNat (value index : Nat) :
    bit (no_index (OfNat.ofNat value)) index =
      (decide (index < 32) && decide (value / 2 ^ index % 2 = 1)) := by
  change (BitVec.ofNat 32 value).getLsbD index = _
  rw [BitVec.getLsbD_ofNat, Nat.testBit_eq_decide_div_mod_eq]

theorem bit_ext {left right : UInt32}
    (same : ∀ index, index < 32 → bit left index = bit right index) : left = right := by
  apply UInt32.toBitVec_inj.mp
  apply BitVec.eq_of_getLsbD_eq
  intro index below
  exact same index below

variable {index : Nat}

theorem bit_not (word : UInt32) (below : index < 32) : bit (~~~word) index = !bit word index := by
  simp [bit, below]

theorem and_not_eq_self (word mask : UInt32) : word &&& ~~~mask = word ↔ word &&& mask = 0 := by
  constructor
  · intro cleared
    apply bit_ext
    intro index below
    have atIndex := congrArg (bit · index) cleared
    simp only [bit_and, bit_not mask below] at atIndex
    cases set : bit mask index <;> simp_all
  · intro disjoint
    apply bit_ext
    intro index below
    have atIndex := congrArg (bit · index) disjoint
    simp only [bit_and] at atIndex
    rw [bit_and, bit_not mask below]
    cases set : bit mask index <;> simp_all

theorem masked_ne_zero (word mask : UInt32) (below : index < 32)
    (single : mask.toBitVec = BitVec.twoPow 32 index) : word &&& mask ≠ 0 ↔ bit word index = true := by
  have masked : (word &&& mask).toBitVec =
      if bit word index then BitVec.twoPow 32 index else 0#32 := by
    rw [UInt32.toBitVec_and, single, BitVec.and_twoPow]
    rfl
  constructor
  · intro nonzero
    by_contra clear
    rw [if_neg clear] at masked
    exact nonzero (UInt32.toBitVec_inj.mp masked)
  · intro set zero
    rw [if_pos set, zero] at masked
    have atIndex := congrArg (BitVec.getLsbD · index) masked
    simp [below] at atIndex

end Wsfs.Base
