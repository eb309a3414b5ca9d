/-
`xattr.Get` and `xattr.List` of the server. Both read into a buffer that they enlarge to
the size that the kernel names, at most three times, and other parties may change the value
between any two of their system calls. `Wsfs.Client.XAttr` takes such a read for one step.
-/

import Wsfs.Base.Codec
import Wsfs.Unix.Errno

namespace Wsfs.Server.XAttr

open Wsfs.Base Wsfs.Protocol Wsfs.Unix

def bufGrowTry : Nat := 3

def bufInitSize : Nat := 256

/-- `getxattr` or `listxattr` into `room` bytes. -/
def fetch (value : Except Errno Bytes) (room : Nat) : Except Errno Bytes :=
  match value with
  | .error err => .error err
  | .ok data => if data.length ≤ room then .ok data else .error .erange

/-- The loop, with the rounds that are left. At its system call `call` it finds `value call`,
the bytes or the error that reading them meets. -/
def grow (value : Nat → Except Errno Bytes) : Nat → Nat → Nat → Except Errno Bytes
  | 0, _, _ => .error .eio
  | tries + 1, call, room =>
      match fetch (value call) room with
      | .ok data => .ok data
      | .error err =>
          if err ≠ .erange then .error err
          else
            match value (call + 1) with
            | .error err => .error err
            | .ok data =>
                if data.length = 0 then .ok [] else grow value tries (call + 2) data.length

def fetchAll (value : Nat → Except Errno Bytes) (mode : UInt32) : Except Errno Bytes :=
  if mode &&& ~~~xattrNofollow ≠ 0 then .error .einval else grow value bufGrowTry 0 bufInitSize

/-- The call that the mode asks for, of the two that follow a link or do not. -/
def called (follows itself : Nat → Except Errno Bytes) (mode : UInt32) : Nat → Except Errno Bytes :=
  if mode &&& xattrNofollow ≠ 0 then itself else follows

def get (getxattr lgetxattr : Nat → Except Errno Bytes) (mode : UInt32) : Except Errno Bytes :=
  fetchAll (called getxattr lgetxattr mode) mode

def list (listxattr llistxattr : Nat → Except Errno Bytes) (mode : UInt32) : Except Errno Bytes :=
  fetchAll (called listxattr llistxattr mode) mode

/-- A mode that is not known is refused. Otherwise the result is the value at one of six system
calls, or `EIO` after it has changed. -/
def Atomic (value : Nat → Except Errno Bytes) (mode : UInt32) (result : Except Errno Bytes) : Prop :=
  mode &&& ~~~xattrNofollow ≠ 0 ∧ result = .error .einval ∨
    (∃ moment < 6, result = value moment) ∨
    result = .error .eio ∧ (value 1 ≠ value 0 ∨ value 2 ≠ value 0)

variable {value : Nat → Except Errno Bytes}

theorem fetch_eq {found : Except Errno Bytes} {room : Nat} (fits : fetch found room ≠ .error .erange) :
    fetch found room = found := by
  unfold fetch at fits ⊢
  split
  · rfl
  · exact if_pos (by_contra fun large => fits (if_neg large))

theorem grow_moment (tries call room : Nat) :
    (∃ moment < call + 2 * tries, grow value tries call room = value moment) ∨
      grow value tries call room = .error .eio := by
  induction tries generalizing call room with
  | zero => exact .inr rfl
  | succ tries ih =>
    rw [grow]
    split
    · rename_i data read
      exact .inl ⟨call, by omega, read.symm.trans (fetch_eq (by simp [read]))⟩
    · rename_i err failed
      split
      · exact .inl ⟨call, by omega, failed.symm.trans (fetch_eq (by simpa [failed]))⟩
      · cases later : value (call + 1) with
        | error err => exact .inl ⟨call + 1, by omega, later.symm⟩
        | ok data =>
          dsimp only
          split
          · rename_i empty
            exact .inl ⟨call + 1, by omega, by rw [later, List.length_eq_zero_iff.mp empty]⟩
          · rcases ih (call + 2) data.length with ⟨moment, inside, same⟩ | failed
            · exact .inl ⟨moment, by omega, same⟩
            · exact .inr failed

theorem grow_unchanged (tries call room : Nat) (next : value (call + 1) = value call)
    (last : value (call + 2) = value call) : grow value (tries + 2) call room = value call := by
  cases now : value call with
  | error err => simp [grow, fetch, next, now]
  | ok data =>
    by_cases fits : data.length ≤ room
    · simp [grow, fetch, now, fits]
    · have nonempty : data ≠ [] := by
        rintro rfl
        exact fits (Nat.zero_le _)
      simp [grow, fetch, next, last, now, fits, nonempty]

theorem fetchAll_atomic (value : Nat → Except Errno Bytes) (mode : UInt32) :
    Atomic value mode (fetchAll value mode) := by
  by_cases unknown : mode &&& ~~~xattrNofollow ≠ 0
  · exact .inl ⟨unknown, if_pos unknown⟩
  rw [fetchAll, if_neg unknown]
  by_cases unchanged : value 1 = value 0 ∧ value 2 = value 0
  · exact .inr (.inl ⟨0, by decide, grow_unchanged 1 0 bufInitSize unchanged.1 unchanged.2⟩)
  · exact .inr ((grow_moment bufGrowTry 0 bufInitSize).imp_right fun failed =>
      ⟨failed, not_and_or.mp unchanged⟩)

/-- Whatever others do between the system calls, `Get` and `List` return what the value or the
list of names was at one of their own. -/
theorem get_list_atomic (getxattr lgetxattr listxattr llistxattr : Nat → Except Errno Bytes)
    (mode : UInt32) :
    Atomic (called getxattr lgetxattr mode) mode (get getxattr lgetxattr mode) ∧
      Atomic (called listxattr llistxattr mode) mode (list listxattr llistxattr mode) :=
  ⟨fetchAll_atomic _ mode, fetchAll_atomic _ mode⟩

end Wsfs.Server.XAttr
