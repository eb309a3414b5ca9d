/-
`escapeWebdavHref` of the PROPFIND templates: a path is escaped for XML first, and the
result is escaped as the path of a URL. The second step keeps `&` and `;` but not the `#`
of a numeric reference.
-/

import Wsfs.Base.Codec

namespace Wsfs.Webdav.Href

open Wsfs.Base

/-! ### Escaping -/

def isInCharacterRange (r : Nat) : Bool :=
  r = 0x09 || r = 0x0A || r = 0x0D || 0x20 ≤ r && r ≤ 0xD7FF || 0xE000 ≤ r && r ≤ 0xFFFD ||
    0x10000 ≤ r && r ≤ 0x10FFFF

/-- The characters that become numeric references: `"`, the apostrophe, tab and line ends. -/
def numbered : List Nat := [34, 39, 9, 10, 13]

def escapeRune (r : Char) : List Char :=
  match r.toNat with
  | 34 => "&#34;".toList
  | 39 => "&#39;".toList
  | 38 => "&amp;".toList
  | 60 => "&lt;".toList
  | 62 => "&gt;".toList
  | 9 => "&#x9;".toList
  | 10 => "&#xA;".toList
  | 13 => "&#xD;".toList
  | code => if isInCharacterRange code then [r] else [Char.ofNat 0xFFFD]

def utf8 (text : List Char) : Bytes := text.flatMap String.utf8EncodeChar

/-- Letters, digits and `-_.~$&+,/:;=@`. -/
def keptInPath (byte : UInt8) : Bool :=
  97 ≤ byte && byte ≤ 122 || 65 ≤ byte && byte ≤ 90 || 48 ≤ byte && byte ≤ 57 ||
    [45, 95, 46, 126, 36, 38, 43, 44, 47, 58, 59, 61, 64].contains byte

def hexDigit (value : UInt8) : UInt8 := if value < 10 then value + 48 else value + 55

def percentEncode (byte : UInt8) : Bytes :=
  if keptInPath byte then [byte] else [37, hexDigit (byte / 16), hexDigit (byte % 16)]

/-- `EscapedPath` of a URL that has only a path. -/
def escapedPath (path : Bytes) : Bytes := path.flatMap percentEncode

def escapeWebdavHref (input : List Char) : Bytes := escapedPath (utf8 (input.flatMap escapeRune))

/-! ### Reading it back -/

def digit (base : Nat) (byte : UInt8) : Option Nat :=
  let value :=
    if 48 ≤ byte ∧ byte ≤ 57 then byte.toNat - 48
    else if 97 ≤ byte ∧ byte ≤ 102 then byte.toNat - 87
    else if 65 ≤ byte ∧ byte ≤ 70 then byte.toNat - 55
    else base
  if value < base then some value else none

def numeral (base : Nat) (digits : Bytes) : Option Nat :=
  if digits = [] then none
  else digits.foldlM (fun value byte => (digit base byte).map (base * value + ·)) 0

/-- What stands between `&` and `;`, and what it stands for. -/
inductive Reference : Bytes → Bytes → Prop
  | amp : Reference [97, 109, 112] [38]
  | lt : Reference [108, 116] [60]
  | gt : Reference [103, 116] [62]
  | quot : Reference [113, 117, 111, 116] [34]
  | apos : Reference [97, 112, 111, 115] [39]
  | decimal {digits : Bytes} {c : Char} : numeral 10 digits = some c.toNat →
      Reference (35 :: digits) (utf8 [c])
  | hexadecimal {digits : Bytes} {c : Char} : numeral 16 digits = some c.toNat →
      Reference (35 :: 120 :: digits) (utf8 [c])

/-- Character data, and what it is with its references replaced. -/
inductive CharData : Bytes → Bytes → Prop
  | nil : CharData [] []
  | char {byte : UInt8} {text out : Bytes} : byte ≠ 38 → byte ≠ 60 →
      32 ≤ byte ∨ byte = 9 ∨ byte = 10 → CharData text out → CharData (byte :: text) (byte :: out)
  | reference {name bytes text out : Bytes} : Reference name bytes → CharData text out →
      CharData (38 :: (name ++ 59 :: text)) (bytes ++ out)

def percentDecode : Bytes → Option Bytes
  | [] => some []
  | byte :: rest =>
      if byte = 37 then
        match rest with
        | high :: low :: rest => do
            let high ← digit 16 high
            let low ← digit 16 low
            let out ← percentDecode rest
            return UInt8.ofNat (16 * high + low) :: out
        | _ => none
      else (byte :: ·) <$> percentDecode rest

/-- The text is character data without the end of a section in it, and stands for the
path. -/
def Restores (input : List Char) : Prop :=
  ¬[93, 93, 62] <:+: escapeWebdavHref input ∧
    ∃ out, CharData (escapeWebdavHref input) out ∧ percentDecode out = some (utf8 input)

/-! ### Bytes that are kept -/

theorem byte_below {motive : UInt8 → Prop} {bound : Nat} (all : ∀ n < bound, motive (UInt8.ofNat n))
    {byte : UInt8} (below : byte.toNat < bound) : motive byte := by
  have here := all byte.toNat below
  rwa [UInt8.ofNat_toNat] at here

variable {byte : UInt8} {c : Char}

theorem kept_plain (kept : keptInPath byte = true) : byte ≠ 60 ∧ byte ≠ 37 ∧ byte ≠ 93 ∧ 32 ≤ byte :=
  byte_below (motive := fun byte => keptInPath byte = true → byte ≠ 60 ∧ byte ≠ 37 ∧ byte ≠ 93 ∧ 32 ≤ byte)
    (by decide +kernel) byte.toNat_lt kept

theorem hexDigit_plain {value : UInt8} (below : value.toNat < 16) :
    (hexDigit value ≠ 38 ∧ hexDigit value ≠ 60 ∧ hexDigit value ≠ 93 ∧ 32 ≤ hexDigit value) ∧
      digit 16 (hexDigit value) = some value.toNat :=
  byte_below (motive := fun value => (hexDigit value ≠ 38 ∧ hexDigit value ≠ 60 ∧ hexDigit value ≠ 93 ∧
    32 ≤ hexDigit value) ∧ digit 16 (hexDigit value) = some value.toNat) (by decide +kernel) below

theorem hexDigits_plain (byte : UInt8) :
    (∀ b ∈ [37, hexDigit (byte / 16), hexDigit (byte % 16)], b ≠ 38 ∧ b ≠ 60 ∧ b ≠ 93 ∧ 32 ≤ b) ∧
      digit 16 (hexDigit (byte / 16)) = some (byte.toNat / 16) ∧
        digit 16 (hexDigit (byte % 16)) = some (byte.toNat % 16) := by
  have high := @hexDigit_plain (byte / 16) (Nat.div_lt_of_lt_mul byte.toNat_lt)
  have low := @hexDigit_plain (byte % 16) (Nat.mod_lt _ (by decide))
  rw [List.forall_mem_cons, List.forall_mem_cons, List.forall_mem_singleton]
  exact ⟨⟨by decide, high.1, low.1⟩, high.2, low.2⟩

theorem percentEncode_plain {b : UInt8} (member : b ∈ percentEncode byte) :
    b ≠ 60 ∧ b ≠ 93 ∧ 32 ≤ b ∧ (b = 38 → byte = 38) := by
  unfold percentEncode at member
  split at member
  · rename_i kept
    cases List.mem_singleton.mp member
    have plain := kept_plain kept
    exact ⟨plain.1, plain.2.2.1, plain.2.2.2, id⟩
  · have plain := (hexDigits_plain byte).1 b member
    exact ⟨plain.2.1, plain.2.2.1, plain.2.2.2, fun amp => absurd amp plain.1⟩

theorem percentDecode_plain (other : byte ≠ 37) (rest : Bytes) :
    percentDecode (byte :: rest) = (byte :: ·) <$> percentDecode rest := by
  rw [percentDecode.eq_def]
  exact if_neg other

theorem percentDecode_encoded (bytes rest : Bytes) :
    percentDecode (bytes.flatMap percentEncode ++ rest) = (bytes ++ ·) <$> percentDecode rest := by
  induction bytes with
  | nil => simp
  | cons byte bytes ih =>
    rw [List.flatMap_cons, List.append_assoc]
    by_cases kept : keptInPath byte = true
    · rw [percentEncode, if_pos kept, List.singleton_append,
        percentDecode_plain (kept_plain kept).2.1, ih]
      cases percentDecode rest <;> rfl
    · have value : UInt8.ofNat (16 * (byte.toNat / 16) + byte.toNat % 16) = byte := by
        rw [Nat.div_add_mod, UInt8.ofNat_toNat]
      rw [percentEncode, if_neg kept]
      simp only [List.cons_append, List.nil_append, percentDecode, if_true, (hexDigits_plain byte).2,
        ih]
      cases percentDecode rest with
      | none => rfl
      | some out => exact congrArg (fun b => some (b :: (bytes ++ out))) value

/-- A byte below 128 in the encoding of a character is the character. -/
theorem utf8_ascii (member : byte ∈ String.utf8EncodeChar c) (ascii : byte.toNat < 128) :
    c.toNat = byte.toNat := by
  unfold String.utf8EncodeChar at member
  dsimp only at member
  split at member
  · cases List.mem_singleton.mp member
    simp only [UInt8.toNat_ofNat']
    change c.toNat = c.toNat % 256
    have small : c.toNat ≤ 127 := ‹_›
    omega
  · split at member
    all_goals
      try split at member
      all_goals
        simp only [List.mem_cons, List.not_mem_nil, or_false] at member
        exfalso
        rcases member with rfl | rfl | rfl | rfl <;> simp only [UInt8.toNat_ofNat'] at ascii <;> omega

/-! ### One character -/

/-- The text of a character and what is made of it, whatever follows. -/
def Chunk (encoded replaced : Bytes) : Prop :=
  ∀ text out, CharData (encoded ++ text) out ↔ ∃ rest, out = replaced ++ rest ∧ CharData text rest

theorem charData_cons {text out : Bytes} (data : CharData (byte :: text) out) :
    (byte ≠ 38 ∧ ∃ rest, out = byte :: rest ∧ CharData text rest) ∨
      byte = 38 ∧ ∃ name bytes later rest, text = name ++ 59 :: later ∧ out = bytes ++ rest ∧
        Reference name bytes ∧ CharData later rest := by
  generalize whole : byte :: text = start at data
  cases data with
  | nil => cases whole
  | char notAmp _ _ data =>
    cases whole
    exact .inl ⟨notAmp, _, rfl, data⟩
  | reference known data =>
    cases whole
    exact .inr ⟨rfl, _, _, _, _, rfl, rfl, known, data⟩

theorem chunk_plain (bytes : Bytes) (plain : ∀ b ∈ bytes, b ≠ 38 ∧ b ≠ 60 ∧ 32 ≤ b) :
    Chunk bytes bytes := by
  intro text out
  induction bytes generalizing out with
  | nil => simp
  | cons byte bytes ih =>
    obtain ⟨here, later⟩ := List.forall_mem_cons.mp plain
    constructor
    · intro data
      rcases charData_cons data with ⟨_, middle, rfl, tail⟩ | ⟨amp, _⟩
      · obtain ⟨rest, rfl, last⟩ := (ih later _).mp tail
        exact ⟨rest, rfl, last⟩
      · exact absurd amp here.1
    · rintro ⟨rest, rfl, data⟩
      exact .char here.1 here.2.1 (.inl here.2.2) ((ih later _).mpr ⟨rest, rfl, data⟩)

theorem chunk_reference {name : Bytes}
    (listed : (name, byte) ∈ [([97, 109, 112], 38), ([108, 116], 60), ([103, 116], (62 : UInt8))]) :
    Chunk (38 :: (name ++ [59])) [byte] := by
  intro text out
  simp only [List.mem_cons, Prod.mk.injEq, List.not_mem_nil, or_false] at listed
  have known : Reference name [byte] := by
    rcases listed with ⟨rfl, rfl⟩ | ⟨rfl, rfl⟩ | ⟨rfl, rfl⟩
    · exact .amp
    · exact .lt
    · exact .gt
  rw [List.cons_append, List.append_assoc, List.singleton_append]
  constructor
  · intro data
    obtain ⟨amp, _⟩ | ⟨_, other, bytes, later, rest, same, rfl, found, tail⟩ := charData_cons data
    · exact absurd rfl amp
    · rcases listed with ⟨rfl, rfl⟩ | ⟨rfl, rfl⟩ | ⟨rfl, rfl⟩ <;> cases found <;> simp at same <;>
        exact ⟨_, rfl, same ▸ tail⟩
  · rintro ⟨rest, rfl, data⟩
    exact .reference known data

theorem not_charData_percent (text out : Bytes) : ¬CharData (38 :: 37 :: text) out := by
  intro data
  obtain ⟨amp, _⟩ | ⟨_, name, _, _, _, same, _, known, _⟩ := charData_cons data
  · exact amp rfl
  · cases known <;> simp at same

/-! ### The whole path -/

def escaped (c : Char) : Bytes := escapedPath (utf8 (escapeRune c))

theorem escapeWebdavHref_cons (c : Char) (input : List Char) :
    escapeWebdavHref (c :: input) = escaped c ++ escapeWebdavHref input := by
  simp [escapeWebdavHref, escaped, escapedPath, utf8]

theorem escaped_numbered (found : c.toNat ∈ numbered) : ∃ text, escaped c = 38 :: 37 :: text := by
  simp only [numbered, List.mem_cons, List.not_mem_nil, or_false] at found
  unfold escaped escapeRune
  rcases found with code | code | code | code | code <;> rw [code] <;> exact ⟨_, rfl⟩

/-- A character that is not written as a number can be read back. -/
theorem escaped_chunk (valid : isInCharacterRange c.toNat = true) (absent : c.toNat ∉ numbered) :
    ∃ replaced, Chunk (escaped c) replaced ∧ ∀ rest,
      percentDecode (replaced ++ rest) = (String.utf8EncodeChar c ++ ·) <$> percentDecode rest := by
  have single : ∀ byte : UInt8, byte ≠ 37 → String.utf8EncodeChar c = [byte] → ∀ rest,
      percentDecode ([byte] ++ rest) = (String.utf8EncodeChar c ++ ·) <$> percentDecode rest := by
    intro byte other encoding rest
    rw [encoding, List.singleton_append, percentDecode_plain other]
    rfl
  have charOf : ∀ n, c.toNat = n → c = Char.ofNat n := by
    intro n code
    rw [← code, Char.ofNat_toNat]
  unfold escaped escapeRune
  split
  case h_1 code | h_2 code | h_6 code | h_7 code | h_8 code =>
    rw [code] at absent
    exact absurd (by decide) absent
  · rename_i code
    cases charOf _ code
    exact ⟨[38], chunk_reference (show ([97, 109, 112], 38) ∈ _ by decide), single 38 (by decide) (by decide)⟩
  · rename_i code
    cases charOf _ code
    exact ⟨[60], chunk_reference (show ([108, 116], 60) ∈ _ by decide), single 60 (by decide) (by decide)⟩
  · rename_i code
    cases charOf _ code
    exact ⟨[62], chunk_reference (show ([103, 116], 62) ∈ _ by decide), single 62 (by decide) (by decide)⟩
  · rw [if_pos valid, utf8, List.flatMap_singleton, escapedPath]
    refine ⟨_, chunk_plain _ ?_, percentDecode_encoded _⟩
    intro b member
    obtain ⟨byte, inside, member⟩ := List.mem_flatMap.mp member
    have plain := percentEncode_plain member
    refine ⟨fun amp => ?_, plain.1, plain.2.2.1⟩
    have code := utf8_ascii inside (by rw [plain.2.2.2 amp]; decide)
    rw [plain.2.2.2 amp] at code
    simp_all

theorem escapeWebdavHref_noSectionEnd (input : List Char) :
    ¬[93, 93, 62] <:+: escapeWebdavHref input := by
  intro inside
  obtain ⟨byte, _, member⟩ := List.mem_flatMap.mp (inside.subset (List.mem_cons_self (a := 93)))
  exact (percentEncode_plain member).2.1 rfl

theorem escapeWebdavHref_restores_iff (input : List Char)
    (valid : ∀ c ∈ input, isInCharacterRange c.toNat = true) :
    Restores input ↔ ∀ c ∈ input, c.toNat ∉ numbered := by
  have reads : (∃ out, CharData (escapeWebdavHref input) out ∧
      percentDecode out = some (utf8 input)) ↔ ∀ c ∈ input, c.toNat ∉ numbered := by
    induction input with
    | nil => exact ⟨fun _ => by simp, fun _ => ⟨[], .nil, rfl⟩⟩
    | cons c input ih =>
      obtain ⟨here, later⟩ := List.forall_mem_cons.mp valid
      rw [List.forall_mem_cons, ← ih later, escapeWebdavHref_cons]
      by_cases found : c.toNat ∈ numbered
      · obtain ⟨text, begins⟩ := escaped_numbered found
        rw [begins]
        exact ⟨fun ⟨_, data, _⟩ => absurd data (not_charData_percent _ _), fun kept => absurd found kept.1⟩
      · obtain ⟨replaced, chunk, decodes⟩ := escaped_chunk here found
        constructor
        · rintro ⟨_, data, decoded⟩
          obtain ⟨rest, rfl, tail⟩ := (chunk _ _).mp data
          rw [decodes] at decoded
          obtain ⟨path, same, whole⟩ := Option.map_eq_some_iff.mp decoded
          have later : path = utf8 input := List.append_cancel_left whole
          exact ⟨found, rest, tail, by rw [same, later]⟩
        · rintro ⟨_, rest, data, decoded⟩
          exact ⟨_, (chunk _ _).mpr ⟨rest, rfl, data⟩, by rw [decodes, decoded]; rfl⟩
  exact ⟨fun restored => reads.mp restored.2,
    fun kept => ⟨escapeWebdavHref_noSectionEnd input, reads.mpr kept⟩⟩

theorem escapeWebdavHref_restores_amp :
    Restores ['a', '&'] ↔ ∀ c ∈ ['a', '&'], c.toNat ∉ numbered :=
  escapeWebdavHref_restores_iff _ (List.forall_mem_cons.mpr ⟨by decide, List.forall_mem_singleton.mpr (by decide)⟩)

/-- A quotation mark is written `&%2334;`, which is no reference. -/
theorem escapeWebdavHref_quote_illFormed :
    isInCharacterRange (Char.ofNat 34).toNat = true ∧ ¬Restores [Char.ofNat 34] := by
  refine ⟨by decide, ?_⟩
  rintro ⟨_, out, data, _⟩
  have text : escapeWebdavHref [Char.ofNat 34] = [38, 37, 50, 51, 51, 52, 59] := by decide
  rw [text] at data
  exact not_charData_percent _ _ data

end Wsfs.Webdav.Href
