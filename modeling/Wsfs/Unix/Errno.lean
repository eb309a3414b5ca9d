/-
Errors of system calls and the two tables that carry them over the wire: the
server's from an errno to a protocol code, the client's from a code back to an
errno.
-/

import Wsfs.Protocol.Const

namespace Wsfs.Unix

/-- The errnos that one of the tables names; `other` is every other one. For `enodata`
Darwin has `ENOATTR`. -/
inductive Errno
  | eacces
  | erofs
  | eperm
  | ebusy
  | eexist
  | exdev
  | enametoolong
  | einval
  | ebadf
  | enoent
  | eloop
  | edquot
  | enospc
  | enotempty
  | enotdir
  | eio
  | enotsup
  | etxtbsy
  | erange
  | enodata
  | other (code : Nat)
deriving DecidableEq, Repr

end Wsfs.Unix

namespace Wsfs.Server

open Wsfs.Protocol Wsfs.Unix

def errorCodeMap : Errno → Option UInt8
  | .eacces => some errorAccessRestricted
  | .erofs => some errorAccessRestricted
  | .eperm => some errorStateBlocked
  | .ebusy => some errorBusy
  | .eexist => some errorExists
  | .exdev => some errorCrossDevice
  | .enametoolong => some errorTooLong
  | .einval => some errorInvalid
  | .ebadf => some errorInvalidFD
  | .enoent => some errorNotExists
  | .eloop => some errorLoop
  | .edquot => some errorNoSpace
  | .enospc => some errorNoSpace
  | .enotempty => some errorNotEmpty
  | .enotdir => some errorType
  | .eio => some errorIo
  | .enotsup => some errorNotSupport
  | .etxtbsy => some errorSpecialFileBlocked
  | .erange => some errorRange
  | .enodata | .other _ => none

/-- An error that wraps no errno gets the code of an unlisted one. -/
def wsfsErrCode (err : Errno) : UInt8 :=
  match errorCodeMap err with
  | some code => code
  | none => errorUnknown

theorem wsfsErrCode_ne_errorOK (err : Errno) : wsfsErrCode err ≠ errorOK := by
  cases err with
  | other code => exact (by decide : errorUnknown ≠ errorOK)
  | _ => decide

end Wsfs.Server

namespace Wsfs.Client

open Wsfs.Protocol Wsfs.Unix

/-- `none` is `syscall.Errno(0)`, the success value. -/
def errorCodeMap : List (UInt8 × Option Errno) :=
  [(errorOK, none),
    (errorUnknown, some .eio),
    (errorAccessRestricted, some .eacces),
    (errorBusy, some .ebusy),
    (errorExists, some .eexist),
    (errorTooLong, some .enametoolong),
    (errorInvalid, some .einval),
    (errorInvalidFD, some .ebadf),
    (errorNotExists, some .enoent),
    (errorLoop, some .eloop),
    (errorNoSpace, some .enospc),
    (errorNotEmpty, some .enotempty),
    (errorType, some .enotdir),
    (errorIo, some .eio),
    (errorNotSupport, some .enotsup),
    (errorStateBlocked, some .eperm),
    (errorSpecialFileBlocked, some .etxtbsy),
    (errorCrossDevice, some .exdev),
    (errorRange, some .erange),
    (errorNoXAttr, some .enodata)]

def errnoFromCode (code : UInt8) : Option Errno :=
  match errorCodeMap.lookup code with
  | some errno => errno
  | none => some .eio

theorem errnoFromCode_eq_none {code : UInt8} : errnoFromCode code = none ↔ code = errorOK := by
  constructor
  · intro success
    unfold errnoFromCode at success
    cases found : errorCodeMap.lookup code with
    | none => rw [found] at success; cases success
    | some errno =>
      rw [found] at success
      obtain rfl : errno = none := success
      obtain ⟨before, after, split, -⟩ := List.lookup_eq_some_iff.mp found
      have member : (code, (none : Option Errno)) ∈ errorCodeMap := by
        rw [split]
        exact List.mem_append_right _ List.mem_cons_self
      simpa [errorCodeMap] using member
  · rintro rfl
    rfl

end Wsfs.Client
