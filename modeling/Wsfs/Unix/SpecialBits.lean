/-
The mode of a FUSE request on its way to `mkdir`, `open` or `chmod` of the server, and the
mode of a file on its way back. `Mkdir` and `Create` put the word of the kernel into their
requests as it is; only `Setattr` translates it.
-/

import Wsfs.Unix.Mode

namespace Wsfs.Unix

open Wsfs.Base

/-- The methods of `fsNode` that send a mode. -/
inductive Operation
  | mkdir
  | create
  | setattr
deriving DecidableEq, Repr

/-- What stands in the request for this word of the kernel. -/
def Operation.requestMode : Operation → UInt32 → UInt32
  | .mkdir, mode => mode
  | .create, mode => mode
  | .setattr, mode => wsfsFileModeFromFuseMode mode

/-- What `cmdMkdir`, `cmdOpen` or `cmdSetAttr` hands to its system call. -/
def Operation.passedMode (op : Operation) (mode : UInt32) : UInt32 := syscallMode (op.requestMode mode)

inductive Kind
  | file
  | directory
  | symlink
deriving DecidableEq, Repr

def Kind.fileType : Kind → UInt32
  | .file => sIfreg
  | .directory => sIfdir
  | .symlink => sIflnk

def Kind.goType : Kind → UInt32
  | .file => 0
  | .directory => modeDir
  | .symlink => modeSymlink

/-- `fi.Mode()` of a file with these bits. -/
def goFileMode (kind : Kind) (stored : UInt32) : UInt32 :=
  let r := stored &&& 0o777 ||| kind.goType
  let r := carryBit stored sIsgid modeSetgid r
  let r := carryBit stored sIsuid modeSetuid r
  carryBit stored sIsvtx modeSticky r

/-- What `Getattr` reports of the file. -/
def reportedMode (kind : Kind) (stored : UInt32) : UInt32 :=
  wsfsFileModeToFuseMode (goFileMode kind stored)

theorem bit_goFileMode (kind : Kind) (stored : UInt32) (index : Nat) :
    bit (goFileMode kind stored) index =
      (bit stored index && bit 0o777 index || bit kind.goType index ||
        bit stored 10 && bit modeSetgid index || bit stored 11 && bit modeSetuid index ||
          bit stored 9 && bit modeSticky index) := by
  unfold goFileMode
  rw [bit_carryBit _ _ _ _ (by decide : 9 < 32) (by decide),
    bit_carryBit _ _ _ _ (by decide : 11 < 32) (by decide),
    bit_carryBit _ _ _ _ (by decide : 10 < 32) (by decide), bit_or, bit_and]

theorem goFileMode_typed (kind : Kind) (stored : UInt32) :
    (goFileMode kind stored &&& modeDir ≠ 0 ↔ kind = .directory) ∧
      (goFileMode kind stored &&& modeSymlink ≠ 0 ↔ kind = .symlink) ∧
        goFileMode kind stored &&& (modeDevice ||| modeNamedPipe ||| modeSocket) = 0 := by
  rw [masked_ne_zero _ modeDir (by decide : 31 < 32) (by decide),
    masked_ne_zero _ modeSymlink (by decide : 27 < 32) (by decide), bit_goFileMode, bit_goFileMode]
  refine ⟨?_, ?_, ?_⟩
  · cases kind <;> simp [Kind.goType, modeDir, modeSymlink, modeSetgid, modeSetuid, modeSticky]
  · cases kind <;> simp [Kind.goType, modeDir, modeSymlink, modeSetgid, modeSetuid, modeSticky]
  · apply bit_ext
    intro index below
    rw [bit_and, bit_goFileMode]
    cases kind <;> interval_cases index <;>
      simp [Kind.goType, modeDir, modeSymlink, modeSetgid, modeSetuid, modeSticky, modeDevice,
        modeNamedPipe, modeSocket]

theorem reportedMode_eq (kind : Kind) (stored : UInt32) :
    reportedMode kind stored = stored &&& permMask ||| kind.fileType := by
  obtain ⟨isDir, isLink, regular⟩ := goFileMode_typed kind stored
  have bits (index : Nat) (below : index < 32) (fileType : UInt32) :
      bit (carryBit (goFileMode kind stored) modeSticky sIsvtx
        (carryBit (goFileMode kind stored) modeSetgid sIsgid
          (carryBit (goFileMode kind stored) modeSetuid sIsuid
            (goFileMode kind stored &&& 0o777))) ||| fileType) index =
        bit (stored &&& permMask ||| fileType) index := by
    rw [bit_or, bit_carryBit _ _ _ _ (by decide : 20 < 32) (by decide),
      bit_carryBit _ _ _ _ (by decide : 22 < 32) (by decide),
      bit_carryBit _ _ _ _ (by decide : 23 < 32) (by decide)]
    simp only [bit_and, bit_or, bit_goFileMode]
    cases kind <;> interval_cases index <;>
      simp [Kind.goType, modeDir, modeSymlink, modeSetgid, modeSetuid, modeSticky, sIsvtx, sIsgid,
        sIsuid, permMask]
  unfold reportedMode wsfsFileModeToFuseMode
  apply bit_ext
  intro index below
  cases kind with
  | file =>
    rw [if_neg (by simp [isDir]), if_neg (by simp [isLink]), if_neg (not_not.mpr regular)]
    exact bits index below _
  | directory =>
    rw [if_pos (isDir.mpr rfl)]
    exact bits index below _
  | symlink =>
    rw [if_neg (by simp [isDir]), if_pos (isLink.mpr rfl)]
    exact bits index below _

theorem syscallMode_eq_iff (mode : UInt32) : syscallMode mode = mode &&& permMask ↔
    bit mode 11 = bit mode 23 ∧ bit mode 10 = bit mode 22 ∧ bit mode 9 = bit mode 20 := by
  constructor
  · intro same
    have at11 := congrArg (bit · 11) same
    have at10 := congrArg (bit · 10) same
    have at9 := congrArg (bit · 9) same
    simp [bit_syscallMode, permMask, sIsuid, sIsgid, sIsvtx] at at11 at10 at9
    exact ⟨at11.symm, at10.symm, at9.symm⟩
  · intro same
    obtain ⟨setuid, setgid, sticky⟩ := same
    apply bit_ext
    intro index below
    rw [bit_syscallMode, bit_and, ← setuid, ← setgid, ← sticky]
    interval_cases index <;> simp [permMask, sIsuid, sIsgid, sIsvtx]

/-- All three operations keep the mode exactly for words whose setuid, setgid and sticky
bits also stand where Go has them; a word of the kernel has none there. -/
theorem modes_kept_iff (mode : UInt32) :
    ((∀ op : Operation, op.passedMode mode = mode &&& permMask) ∧
      ∀ kind stored, reportedMode kind stored = stored &&& permMask ||| kind.fileType) ↔
      bit mode 11 = bit mode 23 ∧ bit mode 10 = bit mode 22 ∧ bit mode 9 = bit mode 20 := by
  rw [← syscallMode_eq_iff]
  constructor
  · intro kept
    exact kept.1 .mkdir
  · intro same
    refine ⟨?_, reportedMode_eq⟩
    intro op
    cases op with
    | mkdir => exact same
    | create => exact same
    | setattr => exact syscallMode_fromFuse mode

/-- A directory that is to be sticky. -/
theorem mkdir_loses_sticky : Operation.mkdir.passedMode 0o41777 = 0o777 := by decide

end Wsfs.Unix
