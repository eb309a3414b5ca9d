/-
File modes on their way between FUSE, the wire and the system calls. The wire
carries Go's portable mode word; both ends use Unix mode bits.
-/

import Wsfs.Base.Bits

namespace Wsfs.Unix

open Wsfs.Base

/-! ### Mode words -/

def modeDir : UInt32 := 0x80000000
def modeSymlink : UInt32 := 0x8000000
def modeDevice : UInt32 := 0x4000000
def modeNamedPipe : UInt32 := 0x2000000
def modeSocket : UInt32 := 0x1000000
def modeSetuid : UInt32 := 0x800000
def modeSetgid : UInt32 := 0x400000
def modeSticky : UInt32 := 0x100000
def modeIrregular : UInt32 := 0x80000

def sIsuid : UInt32 := 0o4000
def sIsgid : UInt32 := 0o2000
def sIsvtx : UInt32 := 0o1000
def sIfdir : UInt32 := 0o40000
def sIfreg : UInt32 := 0o100000
def sIflnk : UInt32 := 0o120000

/-- Permission, setuid, setgid and sticky bits: all that `chmod` takes. -/
def permMask : UInt32 := 0o7777

def specialMask : UInt32 := 0o6000

/-- `if word & test != 0 { r |= target }` -/
def carryBit (word test target r : UInt32) : UInt32 :=
  if word &&& test ≠ 0 then r ||| target else r

theorem bit_carryBit (word test target r : UInt32) {position : Nat} (below : position < 32)
    (single : test.toBitVec = BitVec.twoPow 32 position) (index : Nat) :
    bit (carryBit word test target r) index =
      (bit r index || bit word position && bit target index) := by
  unfold carryBit
  by_cases set : word &&& test ≠ 0
  · rw [if_pos set, bit_or, (masked_ne_zero word test below single).mp set, Bool.true_and]
  · have clear : bit word position = false := by
      rw [masked_ne_zero word test below single] at set
      simpa using set
    rw [if_neg set, clear, Bool.false_and, Bool.or_false]

/-! ### Conversions -/

def wsfsFileModeToFuseMode (mode : UInt32) : UInt32 :=
  let r := mode &&& 0o777
  let r := carryBit mode modeSetuid sIsuid r
  let r := carryBit mode modeSetgid sIsgid r
  let r := carryBit mode modeSticky sIsvtx r
  if mode &&& modeDir ≠ 0 then r ||| sIfdir
  else if mode &&& modeSymlink ≠ 0 then r ||| sIflnk
  else if mode &&& (modeDevice ||| modeNamedPipe ||| modeSocket) ≠ 0 then r &&& ~~~0o777
  else r ||| sIfreg

def wsfsFileModeFromFuseMode (mode : UInt32) : UInt32 :=
  let r := mode &&& 0o777
  let r := carryBit mode sIsuid modeSetuid r
  let r := carryBit mode sIsgid modeSetgid r
  let r := carryBit mode sIsvtx modeSticky r
  if mode &&& sIfdir ≠ 0 then r ||| modeDir
  else if mode &&& sIflnk ≠ 0 then r ||| modeSymlink
  else r

def syscallMode (i : UInt32) : UInt32 :=
  let o := 0 ||| (i &&& 0o777)
  let o := carryBit i modeSetuid sIsuid o
  let o := carryBit i modeSetgid sIsgid o
  carryBit i modeSticky sIsvtx o

theorem bit_syscallMode (i : UInt32) (index : Nat) :
    bit (syscallMode i) index =
      (bit i index && bit 0o777 index || bit i 23 && bit sIsuid index ||
        bit i 22 && bit sIsgid index || bit i 20 && bit sIsvtx index) := by
  unfold syscallMode
  rw [bit_carryBit _ _ _ _ (by decide : 20 < 32) (by decide),
    bit_carryBit _ _ _ _ (by decide : 22 < 32) (by decide),
    bit_carryBit _ _ _ _ (by decide : 23 < 32) (by decide)]
  simp

theorem bit_wsfsFileModeFromFuseMode (mode : UInt32) {index : Nat}
    (untyped : bit modeDir index = false ∧ bit modeSymlink index = false) :
    bit (wsfsFileModeFromFuseMode mode) index =
      (bit mode index && bit 0o777 index || bit mode 11 && bit modeSetuid index ||
        bit mode 10 && bit modeSetgid index || bit mode 9 && bit modeSticky index) := by
  have special :
      bit (carryBit mode sIsvtx modeSticky (carryBit mode sIsgid modeSetgid
        (carryBit mode sIsuid modeSetuid (mode &&& 0o777)))) index =
      (bit mode index && bit 0o777 index || bit mode 11 && bit modeSetuid index ||
        bit mode 10 && bit modeSetgid index || bit mode 9 && bit modeSticky index) := by
    rw [bit_carryBit _ _ _ _ (by decide : 9 < 32) (by decide),
      bit_carryBit _ _ _ _ (by decide : 10 < 32) (by decide),
      bit_carryBit _ _ _ _ (by decide : 11 < 32) (by decide), bit_and]
  unfold wsfsFileModeFromFuseMode
  dsimp only
  split
  · rw [bit_or, special, untyped.1, Bool.or_false]
  · split
    · rw [bit_or, special, untyped.2, Bool.or_false]
    · exact special

theorem syscallMode_fromFuse (mode : UInt32) :
    syscallMode (wsfsFileModeFromFuseMode mode) = mode &&& permMask := by
  apply bit_ext
  intro index below
  interval_cases index <;>
    simp (disch := decide) [bit_syscallMode, bit_wsfsFileModeFromFuseMode, permMask, sIsuid, sIsgid,
      sIsvtx, modeSetuid, modeSetgid, modeSticky]

end Wsfs.Unix
