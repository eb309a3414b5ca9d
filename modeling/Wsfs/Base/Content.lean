/-
The content of a file as its bytes, and what writing at an offset does to it. A write
beyond the end fills the gap with zeros; a write of nothing changes nothing, wherever it
is made.
-/

import Wsfs.Base.Codec

namespace Wsfs.Base

/-- The first bytes of a file, up to a size that it may not have yet. -/
def extended (file : Bytes) (size : Nat) : Bytes :=
  (file ++ List.replicate (size - file.length) 0).take size

def writeAt (file : Bytes) (off : Nat) (data : Bytes) : Bytes :=
  if data = [] then file else extended file off ++ data ++ file.drop (off + data.length)

theorem extended_length (file : Bytes) (size : Nat) : (extended file size).length = size := by
  rw [extended, List.length_take, List.length_append, List.length_replicate]
  omega

theorem extended_append {front : Bytes} (rest : Bytes) {size : Nat} (exactly : front.length = size) :
    extended (front ++ rest) size = front := by
  rw [extended, List.append_assoc, List.take_left' exactly]

@[simp] theorem writeAt_nil (file : Bytes) (off : Nat) : writeAt file off [] = file := if_pos rfl

theorem writeAt_writeAt (file : Bytes) (off : Nat) (first second : Bytes) :
    writeAt (writeAt file off first) (off + first.length) second =
      writeAt file off (first ++ second) := by
  by_cases noFirst : first = []
  · rw [noFirst, writeAt_nil, List.length_nil, Nat.add_zero, List.nil_append]
  by_cases noSecond : second = []
  · rw [noSecond, writeAt_nil, List.append_nil]
  have front : (extended file off ++ first).length = off + first.length := by
    rw [List.length_append, extended_length]
  have behind : ∀ rest : Bytes,
      (extended file off ++ first ++ rest).drop (off + first.length + second.length) =
        rest.drop second.length := by
    intro rest
    rw [← List.drop_drop, List.drop_left' front]
  have some : first ++ second ≠ [] := fun none => noFirst (List.append_eq_nil_iff.mp none).1
  rw [writeAt, if_neg noSecond, writeAt, if_neg noFirst, writeAt, if_neg some,
    extended_append _ front, behind, List.drop_drop, List.length_append, Nat.add_assoc]
  simp only [List.append_assoc]

example : writeAt [1, 2, 3] 1 [9] = [1, 9, 3] ∧ writeAt [1] 3 [9] = [1, 0, 0, 9] := by decide

end Wsfs.Base
