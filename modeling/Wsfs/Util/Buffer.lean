/-
`util.Buffer`: a fixed array of bytes and a count of those written. Buffers come from a
pool, with whatever bytes an earlier user has left behind the count. Every slice of the
array is checked, as Go does; no result is the panic of a slice out of range.
-/

import Wsfs.Base.Codec

namespace Wsfs.Util

open Wsfs.Base

structure Buffer where
  bytes : Bytes
  written : Nat
deriving DecidableEq, Repr

namespace Buffer

def content (b : Buffer) : Bytes := b.bytes.take b.written

/-- `Buffer.Write`, without its error for data that does not fit. -/
def write (b : Buffer) (d : Bytes) : Option Buffer :=
  if b.written ≤ b.bytes.length then
    let size := min d.length (b.bytes.length - b.written)
    some ⟨b.bytes.take b.written ++ d.take size ++ b.bytes.drop (b.written + size), b.written + size⟩
  else none

/-- The bytes of `Buffer.Done`. -/
def done (b : Buffer) : Option Bytes := if b.written ≤ b.bytes.length then some b.content else none

def grow (b : Buffer) (n : Nat) : Buffer := { b with written := b.written + n }

def reset (b : Buffer) : Buffer := { b with written := 0 }

/-- `b.Bytes[b.Written():][:size]`: whether there is such a slice. -/
def hasSlice (b : Buffer) (size : Nat) : Bool := decide (b.written + size ≤ b.bytes.length)

def fill (b : Buffer) (data : Bytes) : Buffer :=
  { b with bytes := b.bytes.take b.written ++ data ++ b.bytes.drop (b.written + data.length) }

/-- `b.Bytes[idx] = byte` -/
def set (b : Buffer) (idx : Nat) (byte : UInt8) : Option Buffer :=
  if idx < b.bytes.length then some { b with bytes := b.bytes.set idx byte } else none

section Content

variable {b : Buffer} {d : Bytes}

theorem take_overwritten (fits : b.written + d.length ≤ b.bytes.length) (rest : Bytes) :
    (b.bytes.take b.written ++ d ++ rest).take (b.written + d.length) = b.bytes.take b.written ++ d := by
  apply List.take_left'
  rw [List.length_append, List.length_take, Nat.min_eq_left (by omega)]

theorem write_fits (fits : b.written + d.length ≤ b.bytes.length) :
    ∃ after, b.write d = some after ∧ after.content = b.content ++ d ∧
      after.written = b.written + d.length ∧ after.bytes.length = b.bytes.length := by
  have size : min d.length (b.bytes.length - b.written) = d.length := by omega
  refine ⟨⟨b.bytes.take b.written ++ d ++ b.bytes.drop (b.written + d.length), b.written + d.length⟩,
    ?_, ?_, rfl, ?_⟩
  · simp only [write, size, List.take_length]
    exact if_pos (by omega)
  · exact take_overwritten fits _
  · rw [List.length_append, List.length_append, List.length_take, List.length_drop]
    omega

theorem done_fits (fits : b.written ≤ b.bytes.length) : b.done = some b.content := if_pos fits

theorem fill_grow (fits : b.written + d.length ≤ b.bytes.length) :
    ((b.fill d).grow d.length).content = b.content ++ d ∧
      ((b.fill d).grow d.length).bytes.length = b.bytes.length := by
  constructor
  · exact take_overwritten fits _
  · change (b.bytes.take b.written ++ d ++ b.bytes.drop (b.written + d.length)).length = _
    rw [List.length_append, List.length_append, List.length_take, List.length_drop]
    omega

theorem set_content {idx : Nat} {byte : UInt8} (inside : idx < b.written)
    (fits : b.written ≤ b.bytes.length) :
    ∃ after, b.set idx byte = some after ∧ after.content = b.content.set idx byte ∧
      after.written = b.written ∧ after.bytes.length = b.bytes.length := by
  refine ⟨{ b with bytes := b.bytes.set idx byte }, if_pos (by omega), ?_, rfl, List.length_set⟩
  exact List.take_set

end Content

end Buffer

end Wsfs.Util
