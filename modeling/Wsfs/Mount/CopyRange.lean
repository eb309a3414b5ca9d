/-
`fsNode.CopyFileRange` of the Unix client, and what `CmdCopyFileRange` asks for and
returns. The requests are answered by a list of outcomes, a count and a code for each; the
loop stops where the list does.
-/

import Wsfs.Client.Commands
import Wsfs.Unix.Errno

namespace Wsfs.Mount.CopyRange

open Wsfs.Base Wsfs.Protocol Wsfs.Unix
open Wsfs.Client (Call CopyLoop cmdCopyFileRangeOnce errnoFromCode errnoFromCode_eq_none)

structure Request where
  off1 : UInt64
  off2 : UInt64
  chunk : UInt64
  copied : UInt64

/-- The loop of `CmdCopyFileRange`: what it has asked for, and what it returns if it has
enough answers for that. -/
def copyLoop : List (UInt64 × UInt8) → CopyLoop → List Request × Option (UInt64 × UInt8)
  | [], loop => ([], if loop.size > 0 then none else some (loop.total, errorOK))
  | (n, c) :: later, loop =>
      if loop.size > 0 then
        let chunk := min loop.size maxCopyFileRangeChunk
        let request := ⟨loop.off1, loop.off2, chunk, n⟩
        let total := loop.total + n
        if c ≠ errorOK then ([request], some (total, c))
        else if n = 0 ∨ n < chunk then ([request], some (total, errorOK))
        else
          let rest := copyLoop later ⟨total, loop.off1 + n, loop.off2 + n, loop.size - n⟩
          (request :: rest.1, rest.2)
      else ([], some (loop.total, errorOK))

def copyFileRange (fhIn fhOut : Option UInt32) (offIn offOut len flags : UInt64)
    (outcomes : List (UInt64 × UInt8)) : List Request × Option (UInt32 × Option Errno) :=
  if flags ≠ 0 ∨ fhIn = none ∨ fhOut = none then ([], some (0, some .enotsup))
  else
    let returned := copyLoop outcomes ⟨0, offIn, offOut, len⟩
    (returned.1, returned.2.map fun (copied, code) => (copied.toUInt32, errnoFromCode code))

/-! ### The loop is that of the method -/

abbrev Trace := List (Event Client.Effect Client.Effect.Result)

/-- The calls are those of the requests, one after the other. -/
inductive Served (wfd1 wfd2 : UInt32) : List Request → Trace → Prop
  | nil : Served wfd1 wfd2 [] []
  | cons {request : Request} {code : UInt8} {rest : List Request} {first later : Trace} :
      (cmdCopyFileRangeOnce wfd1 wfd2 request.off1 request.off2 request.chunk).Runs first
        (request.copied, code) →
      Served wfd1 wfd2 rest later → Served wfd1 wfd2 (request :: rest) (first ++ later)

def copyRound (wfd1 wfd2 : UInt32) (loop : CopyLoop) : Call (CopyLoop ⊕ (UInt64 × UInt8)) :=
  if loop.size > 0 then do
    let chunk := min loop.size maxCopyFileRangeChunk
    let (n, c) ← cmdCopyFileRangeOnce wfd1 wfd2 loop.off1 loop.off2 chunk
    let total := loop.total + n
    if c ≠ errorOK then return .inr (total, c)
    else if n = 0 ∨ n < chunk then return .inr (total, errorOK)
    else return .inl ⟨total, loop.off1 + n, loop.off2 + n, loop.size - n⟩
  else return .inr (loop.total, errorOK)

variable {loop : CopyLoop} {outcomes : List (UInt64 × UInt8)}

theorem copyRound_runs {wfd1 wfd2 : UInt32} {trace : Trace} {outcome : CopyLoop ⊕ (UInt64 × UInt8)}
    (runs : (copyRound wfd1 wfd2 loop).Runs trace outcome) :
    match outcome with
    | .inr result => ∃ outcomes, (copyLoop outcomes loop).2 = some result ∧
        Served wfd1 wfd2 (copyLoop outcomes loop).1 trace
    | .inl next => ∃ answer request, Served wfd1 wfd2 [request] trace ∧ ∀ later,
        copyLoop (answer :: later) loop =
          (request :: (copyLoop later next).1, (copyLoop later next).2) := by
  unfold copyRound at runs
  split at runs
  · rename_i more
    obtain ⟨⟨n, c⟩, asked, tail, rfl, once, ended⟩ := Prog.runs_bind runs
    have served (copied : UInt64) (code : UInt8)
        (once : (cmdCopyFileRangeOnce wfd1 wfd2 loop.off1 loop.off2
          (min loop.size maxCopyFileRangeChunk)).Runs asked (copied, code)) :
        Served wfd1 wfd2 [⟨loop.off1, loop.off2, min loop.size maxCopyFileRangeChunk, copied⟩]
          (asked ++ []) := .cons once .nil
    dsimp only at ended
    split at ended
    · rename_i failed
      obtain ⟨rfl, rfl⟩ := ended
      refine ⟨[(n, c)], ?_⟩
      simp only [copyLoop, more, failed, if_true, ne_eq, not_false_eq_true]
      exact ⟨trivial, served n c once⟩
    · rename_i passed
      split at ended
      · rename_i short
        obtain ⟨rfl, rfl⟩ := ended
        refine ⟨[(n, c)], ?_⟩
        simp only [copyLoop, more, passed, short, if_true, if_false]
        exact ⟨trivial, served n c once⟩
      · rename_i full
        obtain ⟨rfl, rfl⟩ := ended
        refine ⟨(n, c), _, served n c once, fun later => ?_⟩
        simp only [copyLoop, more, passed, full, if_true, if_false]
  · rename_i finished
    obtain ⟨rfl, rfl⟩ := runs
    refine ⟨[], ?_⟩
    simp only [copyLoop, finished, if_false]
    exact ⟨trivial, .nil⟩

theorem cmdCopyFileRange_runs {wfd1 wfd2 : UInt32} {off1 off2 size : UInt64} {trace : Trace}
    {result : UInt64 × UInt8}
    (runs : (Client.cmdCopyFileRange wfd1 wfd2 off1 off2 size).Runs trace result) :
    ∃ outcomes, (copyLoop outcomes ⟨0, off1, off2, size⟩).2 = some result ∧
      Served wfd1 wfd2 (copyLoop outcomes ⟨0, off1, off2, size⟩).1 trace := by
  change (Prog.loop (copyRound wfd1 wfd2) ⟨0, off1, off2, size⟩).Runs trace result at runs
  obtain ⟨value, looped, rest, rfl, rounds, rfl, rfl⟩ := runs
  rw [List.append_nil]
  generalize (⟨0, off1, off2, size⟩ : CopyLoop) = loop at rounds ⊢
  induction rounds with
  | last ended => exact copyRound_runs ended
  | again round _ ih =>
    obtain ⟨answer, request, asked, onward⟩ := copyRound_runs round
    obtain ⟨later, returned, served⟩ := ih
    refine ⟨answer :: later, ?_⟩
    rw [onward]
    cases asked with
    | cons once nothing =>
      cases nothing
      rw [List.append_nil]
      exact ⟨returned, .cons once served⟩

/-! ### What the loop asks for and counts -/

def copied (requests : List Request) : Nat := (requests.map fun request => request.copied.toNat).sum

/-- No answer counts more than what was asked for. -/
def Within (requests : List Request) : Prop := ∀ request ∈ requests, request.copied ≤ request.chunk

def Consecutive : UInt64 → UInt64 → List Request → Prop
  | _, _, [] => True
  | off1, off2, request :: rest => request.off1 = off1 ∧ request.off2 = off2 ∧
      Consecutive (off1 + request.copied) (off2 + request.copied) rest

theorem min_chunk (size : UInt64) :
    (min size maxCopyFileRangeChunk).toNat = min size.toNat 33554432 := by
  have limit : maxCopyFileRangeChunk.toNat = 33554432 := by decide
  by_cases small : size ≤ maxCopyFileRangeChunk
  · rw [show min size maxCopyFileRangeChunk = size from if_pos small]
    have := UInt64.le_iff_toNat_le.mp small
    omega
  · rw [show min size maxCopyFileRangeChunk = maxCopyFileRangeChunk from if_neg small]
    have := UInt64.lt_iff_toNat_lt.mp (UInt64.not_le.mp small)
    omega

structure Course (loop : CopyLoop) (outcomes : List (UInt64 × UInt8))
    (made : List Request × Option (UInt64 × UInt8)) : Prop where
  ends : loop.size.toNat ≤ outcomes.length → made.2 ≠ none
  asked : ∀ request ∈ made.1, request.chunk ≤ maxCopyFileRangeChunk
  consecutive : Consecutive loop.off1 loop.off2 made.1
  bounded : copied made.1 ≤ loop.size.toNat
  counted : loop.total.toNat + loop.size.toNat < 2 ^ 64 → ∀ total code, made.2 = some (total, code) →
    total.toNat = loop.total.toNat + copied made.1

theorem course_done (code : UInt8) : Course loop outcomes ([], some (loop.total, code)) := by
  constructor
  · exact fun _ => nofun
  · exact nofun
  · exact trivial
  · exact Nat.zero_le _
  · intro _ total code same
    cases same
    rfl

theorem course_last {n : UInt64} (code : UInt8) (within : n ≤ min loop.size maxCopyFileRangeChunk) :
    Course loop outcomes
      ([⟨loop.off1, loop.off2, min loop.size maxCopyFileRangeChunk, n⟩],
        some (loop.total + n, code)) := by
  have count := UInt64.le_iff_toNat_le.mp within
  rw [min_chunk] at count
  constructor
  · exact fun _ => nofun
  · intro request member
    cases List.mem_singleton.mp member
    exact UInt64.le_iff_toNat_le.mpr (by rw [min_chunk]; exact Nat.min_le_right _ _)
  · exact ⟨rfl, rfl, trivial⟩
  · simp only [copied, List.map_cons, List.map_nil, List.sum_cons, List.sum_nil]
    omega
  · intro room total code same
    cases same
    simp only [copied, List.map_cons, List.map_nil, List.sum_cons, List.sum_nil, UInt64.toNat_add]
    omega

theorem course_onward {answer : UInt64 × UInt8} {made : List Request × Option (UInt64 × UInt8)}
    {n : UInt64} (more : loop.size > 0) (full : n = min loop.size maxCopyFileRangeChunk)
    (later : Course ⟨loop.total + n, loop.off1 + n, loop.off2 + n, loop.size - n⟩ outcomes made) :
    Course loop (answer :: outcomes)
      (⟨loop.off1, loop.off2, min loop.size maxCopyFileRangeChunk, n⟩ :: made.1, made.2) := by
  have positive : 0 < loop.size.toNat := UInt64.lt_iff_toNat_lt.mp more
  have count : n.toNat = min loop.size.toNat 33554432 := by rw [full, min_chunk]
  have least : n ≤ loop.size := UInt64.le_iff_toNat_le.mpr (by omega)
  have left : (loop.size - n).toNat = loop.size.toNat - n.toNat := UInt64.toNat_sub_of_le _ _ least
  have sum : copied (⟨loop.off1, loop.off2, min loop.size maxCopyFileRangeChunk, n⟩ :: made.1) =
      n.toNat + copied made.1 := List.sum_cons
  have bounded := later.bounded
  rw [left] at bounded
  constructor
  · intro enough
    apply later.ends
    rw [left]
    rw [List.length_cons] at enough
    omega
  · intro request member
    cases List.mem_cons.mp member with
    | inl here =>
      rw [here, ← full]
      exact UInt64.le_iff_toNat_le.mpr (by rw [count]; exact Nat.min_le_right _ _)
    | inr inside => exact later.asked request inside
  · exact ⟨rfl, rfl, later.consecutive⟩
  · rw [sum]
    omega
  · intro room total code same
    have sofar : (loop.total + n).toNat = loop.total.toNat + n.toNat := by
      rw [UInt64.toNat_add]
      omega
    have counted := later.counted (by rw [left, sofar]; omega) total code same
    rw [sofar] at counted
    rw [sum]
    omega

theorem copyLoop_course (outcomes : List (UInt64 × UInt8)) (loop : CopyLoop)
    (within : Within (copyLoop outcomes loop).1) : Course loop outcomes (copyLoop outcomes loop) := by
  induction outcomes generalizing loop with
  | nil =>
    unfold copyLoop
    split
    · rename_i more
      have positive : 0 < loop.size.toNat := UInt64.lt_iff_toNat_lt.mp more
      constructor
      · intro enough
        rw [List.length_nil] at enough
        omega
      · exact nofun
      · exact trivial
      · exact Nat.zero_le _
      · exact fun _ _ _ => nofun
    · exact course_done errorOK
  | cons answer outcomes ih =>
    obtain ⟨n, c⟩ := answer
    unfold copyLoop at within ⊢
    by_cases more : loop.size > 0
    · simp only [more, if_true] at within ⊢
      by_cases failed : c ≠ errorOK
      · simp only [failed, if_true, not_false_eq_true, ne_eq] at within ⊢
        exact course_last c (within _ List.mem_cons_self)
      · simp only [failed, if_false] at within ⊢
        by_cases short : n = 0 ∨ n < min loop.size maxCopyFileRangeChunk
        · simp only [short, if_true] at within ⊢
          exact course_last errorOK (within _ List.mem_cons_self)
        · simp only [short, if_false] at within ⊢
          have all : n ≤ min loop.size maxCopyFileRangeChunk := within _ List.mem_cons_self
          have full : n = min loop.size maxCopyFileRangeChunk :=
            UInt64.le_antisymm all (UInt64.not_lt.mp (not_or.mp short).2)
          exact course_onward more full
            (ih _ fun request member => within request (List.mem_cons_of_mem _ member))
    · simp only [more, if_false]
      exact course_done errorOK

/-! ### The count that the kernel gets -/

structure Right (offIn offOut len : UInt64) (outcomes : List (UInt64 × UInt8))
    (made : List Request × Option (UInt32 × Option Errno)) : Prop where
  ends : len.toNat ≤ outcomes.length → made.2 ≠ none
  asked : ∀ request ∈ made.1, request.chunk ≤ maxCopyFileRangeChunk
  consecutive : Consecutive offIn offOut made.1
  counted : ∀ count, made.2 = some (count, none) → count.toNat = copied made.1

/-- As many full chunks, and then the end of the source. -/
def fullChunks (count : Nat) : List (UInt64 × UInt8) :=
  List.replicate count (maxCopyFileRangeChunk, errorOK) ++ [(0, errorOK)]

theorem copyLoop_fullChunks (count : Nat) (loop : CopyLoop)
    (fits : count * 33554432 ≤ loop.size.toNat) :
    (∃ total, (copyLoop (fullChunks count) loop).2 = some (total, errorOK)) ∧
      Within (copyLoop (fullChunks count) loop).1 ∧
        copied (copyLoop (fullChunks count) loop).1 = count * 33554432 := by
  induction count generalizing loop with
  | zero =>
    by_cases more : loop.size > 0
    · simp [fullChunks, copyLoop, more, Within, copied]
    · simp [fullChunks, copyLoop, more, Within, copied]
  | succ count ih =>
    have limit : maxCopyFileRangeChunk.toNat = 33554432 := by decide
    have least : maxCopyFileRangeChunk ≤ loop.size := UInt64.le_iff_toNat_le.mpr (by omega)
    have more : loop.size > 0 := UInt64.lt_iff_toNat_lt.mpr (by rw [UInt64.toNat_zero]; omega)
    have chunk : min loop.size maxCopyFileRangeChunk = maxCopyFileRangeChunk := by
      apply UInt64.toNat_inj.mp
      rw [min_chunk]
      omega
    have whole : ¬(maxCopyFileRangeChunk = 0 ∨ maxCopyFileRangeChunk < maxCopyFileRangeChunk) := by
      intro either
      cases either with
      | inl zero => cases limit.symm.trans (congrArg UInt64.toNat zero)
      | inr less => exact UInt64.lt_irrefl _ less
    have left : (loop.size - maxCopyFileRangeChunk).toNat = loop.size.toNat - 33554432 := by
      rw [UInt64.toNat_sub_of_le _ _ least, limit]
    have room : count * 33554432 ≤ (loop.size - maxCopyFileRangeChunk).toNat := by
      rw [left]
      exact Nat.le_sub_of_add_le (Nat.succ_mul _ _ ▸ fits)
    obtain ⟨returned, within, sum⟩ := ih ⟨loop.total + maxCopyFileRangeChunk,
      loop.off1 + maxCopyFileRangeChunk, loop.off2 + maxCopyFileRangeChunk,
      loop.size - maxCopyFileRangeChunk⟩ room
    rw [show fullChunks (count + 1) = (maxCopyFileRangeChunk, errorOK) :: fullChunks count from rfl]
    simp only [copyLoop, more, if_true, chunk, whole, if_false, ne_eq, not_true_eq_false]
    constructor
    · exact returned
    · constructor
      · exact List.forall_mem_cons.mpr ⟨UInt64.le_refl _, within⟩
      · simp only [copied, List.map_cons, List.sum_cons, limit] at sum ⊢
        omega

/-- Four gibibytes come out as no bytes at all, which says that the source is at its end. -/
theorem copyFileRange_fullChunks {len : UInt64} (long : 2 ^ 32 ≤ len.toNat) :
    ∃ outcomes, Within (copyFileRange (some 0) (some 1) 0 0 len 0 outcomes).1 ∧
      copied (copyFileRange (some 0) (some 1) 0 0 len 0 outcomes).1 = 2 ^ 32 ∧
        ∃ count, (copyFileRange (some 0) (some 1) 0 0 len 0 outcomes).2 = some (count, none) := by
  obtain ⟨⟨total, returned⟩, within, sum⟩ := copyLoop_fullChunks 128 ⟨0, 0, 0, len⟩ (by omega)
  refine ⟨fullChunks 128, within, sum, total.toUInt32, ?_⟩
  change ((copyLoop (fullChunks 128) ⟨0, 0, 0, len⟩).2.map _) = _
  rw [returned]
  rfl

theorem copyFileRange_right_iff (len : UInt64) :
    (∀ fhIn fhOut offIn offOut flags outcomes,
      Within (copyFileRange fhIn fhOut offIn offOut len flags outcomes).1 →
        Right offIn offOut len outcomes (copyFileRange fhIn fhOut offIn offOut len flags outcomes)) ↔
      len.toNat < 2 ^ 32 := by
  constructor
  · intro always
    by_contra long
    obtain ⟨outcomes, within, sum, count, returned⟩ := copyFileRange_fullChunks (Nat.le_of_not_lt long)
    have counted := (always (some 0) (some 1) 0 0 0 outcomes within).counted count returned
    have small := count.toNat_lt
    omega
  · intro short fhIn fhOut offIn offOut flags outcomes within
    unfold copyFileRange at within ⊢
    split at within
    · rename_i unusual
      rw [if_pos unusual]
      exact ⟨fun _ => nofun, nofun, trivial, fun _ => nofun⟩
    · rename_i usual
      rw [if_neg usual]
      have course := copyLoop_course outcomes ⟨0, offIn, offOut, len⟩ within
      refine ⟨?_, course.asked, course.consecutive, ?_⟩
      · intro enough nothing
        exact course.ends enough (Option.map_eq_none_iff.mp nothing)
      · intro count returned
        obtain ⟨⟨total, code⟩, isTotal, same⟩ := Option.map_eq_some_iff.mp returned
        have counted := course.counted (by rw [UInt64.toNat_zero, Nat.zero_add]; exact len.toNat_lt) total code isTotal
        have bounded := course.bounded
        rw [← (Prod.mk.inj same).1, UInt64.toNat_toUInt32]
        simp only [UInt64.toNat_zero] at counted
        simp only at bounded ⊢
        omega

theorem copyFileRange_truncates : ∃ outcomes,
    Within (copyFileRange (some 0) (some 1) 0 0 0x100000000 0 outcomes).1 ∧
      ∃ count, (copyFileRange (some 0) (some 1) 0 0 0x100000000 0 outcomes).2 = some (count, none) ∧
        count.toNat ≠ copied (copyFileRange (some 0) (some 1) 0 0 0x100000000 0 outcomes).1 := by
  obtain ⟨outcomes, within, sum, count, returned⟩ := copyFileRange_fullChunks
    (by decide : 2 ^ 32 ≤ (0x100000000 : UInt64).toNat)
  have small := count.toNat_lt
  exact ⟨outcomes, within, count, returned, by omega⟩

end Wsfs.Mount.CopyRange
