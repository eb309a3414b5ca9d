/-
Records packed into payloads of bounded size. A writer keeps one open buffer and
sends it when the next record would not fit; a reader takes records off a payload
until none is left. Since no record is split, the payloads carry the records in order
whatever the boundaries are.
-/

import Wsfs.Base.Codec

namespace Wsfs.Base

variable {α : Type} {bytes : α → Bytes}

/-- The payloads carry the records, each whole and in order. -/
inductive Framed (bytes : α → Bytes) : List Bytes → List α → Prop
  | nil : Framed bytes [] []
  | cons (chunk : List α) {payloads : List Bytes} {records : List α} :
      Framed bytes payloads records →
        Framed bytes (chunk.flatMap bytes :: payloads) (chunk ++ records)

namespace Framed

theorem single (chunk : List α) : Framed bytes [chunk.flatMap bytes] chunk := by
  have framed : Framed bytes (chunk.flatMap bytes :: []) (chunk ++ []) := .cons chunk .nil
  rwa [List.append_nil] at framed

theorem append {first second : List Bytes} {earlier later : List α}
    (framedFirst : Framed bytes first earlier) (framedSecond : Framed bytes second later) :
    Framed bytes (first ++ second) (earlier ++ later) := by
  induction framedFirst with
  | nil => exact framedSecond
  | cons chunk _ ih =>
    rw [List.cons_append, List.append_assoc]
    exact .cons chunk ih

variable {payloads : List Bytes} {records : List α}

theorem foldl_eq {β : Type} (framed : Framed bytes payloads records) {valid : α → Prop}
    (allValid : ∀ record ∈ records, valid record) (readPayload : β → Bytes → β) (readRecord : β → α → β)
    (agree : ∀ (state : β) (chunk : List α), (∀ record ∈ chunk, valid record) →
      readPayload state (chunk.flatMap bytes) = chunk.foldl readRecord state) (state : β) :
    payloads.foldl readPayload state = records.foldl readRecord state := by
  induction framed generalizing state with
  | nil => rfl
  | cons chunk _ ih =>
    rw [List.foldl_cons, List.foldl_append,
      agree state chunk fun record member => allValid record (List.mem_append_left _ member),
      ih fun record member => allValid record (List.mem_append_right _ member)]

end Framed

/-! ### Writers -/

structure Packer where
  sent : List Bytes
  buffer : Bytes
deriving DecidableEq, Repr

def Packer.put (limit : Nat) (out : Packer) (piece : Bytes) : Packer :=
  if out.buffer.length + piece.length > limit then ⟨out.sent ++ [out.buffer], piece⟩
  else ⟨out.sent, out.buffer ++ piece⟩

def Packer.flush (out : Packer) : List Bytes := out.sent ++ [out.buffer]

/-- What was sent after the first payloads and what is in the buffer carry the records. -/
structure Packed (bytes : α → Bytes) (limit : Nat) (before : List Bytes) (out : Packer)
    (records : List α) : Prop where
  framed : ∃ payloads earlier last, out.sent = before ++ payloads ∧ Framed bytes payloads earlier ∧
    out.buffer = last.flatMap bytes ∧ records = earlier ++ last
  fits : out.buffer.length ≤ limit
  within : ∀ payload ∈ out.sent, payload.length ≤ limit

namespace Packed

variable {limit : Nat} {before : List Bytes} {out : Packer} {records : List α}

theorem of_framed {payloads : List Bytes} (framed : Framed bytes payloads records)
    (within : ∀ payload ∈ before ++ payloads, payload.length ≤ limit) :
    Packed bytes limit before ⟨before ++ payloads, []⟩ records :=
  ⟨⟨payloads, records, [], rfl, framed, rfl, (List.append_nil records).symm⟩, Nat.zero_le limit, within⟩

theorem nothing : Packed bytes limit [] ⟨[], []⟩ [] := of_framed .nil nofun

variable (packed : Packed bytes limit before out records)
include packed

theorem within_flush :
    ∀ payload ∈ out.flush, payload.length ≤ limit := by
  intro payload present
  cases List.mem_append.mp present with
  | inl earlier => exact packed.within payload earlier
  | inr last =>
    rw [List.mem_singleton.mp last]
    exact packed.fits

theorem flush :
    ∃ payloads, out.flush = before ++ payloads ∧ Framed bytes payloads records := by
  obtain ⟨⟨payloads, earlier, last, sent, framed, buffered, rfl⟩, _⟩ := packed
  refine ⟨payloads ++ [out.buffer], ?_, ?_⟩
  · rw [Packer.flush, sent, List.append_assoc]
  · rw [buffered]
    exact framed.append (.single last)

theorem put (record : α) (small : (bytes record).length ≤ limit) :
    Packed bytes limit before (out.put limit (bytes record)) (records ++ [record]) := by
  unfold Packer.put
  split
  · obtain ⟨payloads, sent, framed⟩ := packed.flush
    exact ⟨⟨payloads, records, [record], sent, framed, (List.flatMap_singleton ..).symm, rfl⟩, small,
      packed.within_flush⟩
  · rename_i room
    obtain ⟨⟨payloads, earlier, last, sent, framed, buffered, rfl⟩, _, within⟩ := packed
    refine ⟨⟨payloads, earlier, last ++ [record], sent, framed, ?_, (List.append_assoc ..)⟩, ?_, within⟩
    · rw [buffered, List.flatMap_append, List.flatMap_singleton]
    · rw [List.length_append]
      exact Nat.not_lt.mp room

theorem foldl {β : Type} {write : Packer → β → Packer} {record : β → α} {items : List β}
    (writes : ∀ out, ∀ item ∈ items, write out item = out.put limit (bytes (record item)))
    (small : ∀ item ∈ items, (bytes (record item)).length ≤ limit) :
    Packed bytes limit before (items.foldl write out) (records ++ items.map record) := by
  induction items generalizing out records with
  | nil =>
    rw [List.map_nil, List.append_nil]
    exact packed
  | cons item rest ih =>
    have put := packed.put (record item) (small item List.mem_cons_self)
    rw [← writes out item List.mem_cons_self] at put
    rw [List.foldl_cons, List.map_cons, ← List.singleton_append, ← List.append_assoc]
    exact ih put (fun out other member => writes out other (List.mem_cons_of_mem _ member))
      fun other member => small other (List.mem_cons_of_mem _ member)

theorem sent :
    ∃ payloads earlier, out.sent = before ++ payloads ∧ Framed bytes payloads earlier ∧
      earlier <+: records := by
  obtain ⟨⟨payloads, earlier, last, sent, framed, _, rfl⟩, _⟩ := packed
  exact ⟨payloads, earlier, sent, framed, List.prefix_append earlier last⟩

omit packed

end Packed

/-! ### Readers -/

/-- Reads values off the input until none is left. The fuel is the length of the input
at least, since every value takes a byte. -/
def Codec.readAll (codec : Codec α) : Nat → Bytes → Option (List α)
  | _, [] => some []
  | 0, _ :: _ => none
  | fuel + 1, byte :: rest =>
      (codec.read (byte :: rest)).bind fun (value, rest) =>
        (codec.readAll fuel rest).map (value :: ·)

theorem Codec.readAll_flatMap (codec : Codec α) (values : List α)
    (written : ∀ value ∈ values, codec.write value = some (bytes value))
    (nonempty : ∀ value ∈ values, bytes value ≠ []) (fuel : Nat)
    (enough : (values.flatMap bytes).length ≤ fuel) :
    codec.readAll fuel (values.flatMap bytes) = some values := by
  induction values generalizing fuel with
  | nil => cases fuel <;> rfl
  | cons value rest ih =>
    rw [List.flatMap_cons, List.length_append] at enough
    have readHead := codec.read_write value _ (rest.flatMap bytes)
      (written value List.mem_cons_self)
    cases head : bytes value with
    | nil => exact absurd head (nonempty value List.mem_cons_self)
    | cons byte others =>
      rw [head, List.length_cons] at enough
      cases fuel with
      | zero => exact absurd enough (by omega)
      | succ fuel =>
        rw [head] at readHead
        have later := ih (fun other member => written other (List.mem_cons_of_mem _ member))
          (fun other member => nonempty other (List.mem_cons_of_mem _ member)) fuel (by omega)
        rw [List.flatMap_cons, head]
        change (codec.read (byte :: others ++ rest.flatMap bytes)).bind _ = _
        rw [readHead]
        simp only [Option.bind_some, later, Option.map_some]

end Wsfs.Base
