/-
Byte-range locks of one open file description.

The locks a descriptor holds are a map from bytes to lock kinds. A request of
the kernel interface names a start and a length, where length zero reaches the
last byte a file can have; a request of the abstract interface names its first
and last byte. Locks of other holders decide whether a request is granted.
-/

import Mathlib.Algebra.Ring.Nat
import Mathlib.Data.List.Basic

namespace Wsfs.FileLock

inductive LockKind where
  | read
  | write
deriving DecidableEq, Repr

/-- The three requests of `fcntl`: take a lock of some kind, or unlock. -/
inductive LockOp where
  | lock (kind : LockKind)
  | unlock
deriving DecidableEq, Repr

def LockOp.held : LockOp → Option LockKind
  | .lock kind => some kind
  | .unlock => none

abbrev Locks := Nat → Option LockKind

def offsetMax : Nat := 2 ^ 63 - 1

def Locks.empty : Locks := fun _ => none

def Locks.assign (locks : Locks) (first last : Nat) (value : Option LockKind) : Locks :=
  fun byte => if first ≤ byte ∧ byte ≤ last then value else locks byte

variable {first last : Nat} {byte : Nat} {locks : Locks}

theorem Locks.assign_inside (locks : Locks) (value : Option LockKind)
    (inside : first ≤ byte ∧ byte ≤ last) : locks.assign first last value byte = value :=
  if_pos inside

theorem Locks.assign_outside (locks : Locks) (value : Option LockKind)
    (outside : ¬(first ≤ byte ∧ byte ≤ last)) : locks.assign first last value byte = locks byte :=
  if_neg outside

def Locks.Bounded (locks : Locks) : Prop :=
  ∀ byte, locks byte ≠ none → byte ≤ offsetMax

theorem Locks.assign_bounded (value : Option LockKind) (bounded : locks.Bounded)
    (within : last ≤ offsetMax) : (locks.assign first last value).Bounded := by
  intro byte held
  by_cases inside : first ≤ byte ∧ byte ≤ last
  · exact Nat.le_trans inside.2 within
  · rw [locks.assign_outside value inside] at held
    exact bounded byte held

structure HeldRange where
  first : Nat
  last : Nat
  kind : LockKind
deriving DecidableEq, Repr

def HeldRange.conflicts (other : HeldRange) (kind : LockKind) (first last : Nat) : Bool :=
  decide (other.first ≤ last) && decide (first ≤ other.last) &&
    (decide (kind = .write) || decide (other.kind = .write))

/-- What one call meets: the locks of other holders when it is decided, the
position and size of the file, and refusals that do not depend on the range (a
descriptor without the access mode, no lock space, an interrupted wait). -/
structure KernelEnv where
  others : List HeldRange
  fileOffset : Int
  fileSize : Int
  refused : Bool
deriving DecidableEq, Repr

def KernelEnv.conflict (env : KernelEnv) (kind : LockKind) (first last : Nat) : Bool :=
  env.others.any fun other => other.conflicts kind first last

/-- Granting is the same for a call that waits and for one that does not: with
a conflict the first goes on waiting and the second fails, and neither changes
what the descriptor holds. -/
def KernelEnv.grants (env : KernelEnv) (op : LockOp) (first last : Nat) : Bool :=
  !env.refused &&
    match op with
    | .lock kind => !env.conflict kind first last
    | .unlock => true

def applyOp (env : KernelEnv) (locks : Locks) (op : LockOp) (first last : Nat) : Locks :=
  if env.grants op first last then locks.assign first last op.held else locks

theorem applyOp_bounded {env : KernelEnv} {op : LockOp} (bounded : locks.Bounded)
    (within : last ≤ offsetMax) : (applyOp env locks op first last).Bounded := by
  unfold applyOp
  split
  · exact Locks.assign_bounded op.held bounded within
  · exact bounded

/-! ### The system call -/

def fRdlck : Int16 := 0
def fWrlck : Int16 := 1
def fUnlck : Int16 := 2

def LockOp.unix : LockOp → Int16
  | .lock .read => fRdlck
  | .lock .write => fWrlck
  | .unlock => fUnlck

def LockOp.ofUnix? (type : Int16) : Option LockOp :=
  if type = fRdlck then some (.lock .read)
  else if type = fWrlck then some (.lock .write)
  else if type = fUnlck then some .unlock
  else none

theorem LockOp.ofUnix?_unix (op : LockOp) : LockOp.ofUnix? op.unix = some op := by
  rcases op with (_ | _) | _ <;> rfl

/-- `struct flock`. -/
structure Flock where
  type : Int16
  whence : Int16
  start : Int64
  len : Int64
deriving DecidableEq, Repr

def KernelEnv.whenceBase? (env : KernelEnv) (whence : Int16) : Option Int :=
  if whence = 0 then some 0
  else if whence = 1 then some env.fileOffset
  else if whence = 2 then some env.fileSize
  else none

/-- First and last byte of a request; none for a negative or overflowing
range. -/
def Flock.range? (env : KernelEnv) (flock : Flock) : Option (Nat × Nat) := do
  let base ← env.whenceBase? flock.whence
  let start := base + flock.start.toInt
  if start < 0 ∨ (offsetMax : Int) < start then none
  else if 0 < flock.len.toInt then
    let last := start + flock.len.toInt - 1
    if (offsetMax : Int) < last then none else some (start.toNat, last.toNat)
  else if flock.len.toInt < 0 then
    let first := start + flock.len.toInt
    if first < 0 then none else some (first.toNat, (start - 1).toNat)
  else some (start.toNat, offsetMax)

theorem Flock.range?_fromStart (env : KernelEnv) (flock : Flock) (start len : Nat)
    (fromStart : flock.whence = 0) (startEq : flock.start.toInt = start)
    (lenEq : flock.len.toInt = len) (startInside : start ≤ offsetMax)
    (lastInside : start + len ≤ offsetMax + 1) :
    flock.range? env = some (start, if len = 0 then offsetMax else start + len - 1) := by
  have inside : ¬((start : Int) < 0 ∨ (offsetMax : Int) < start) := by omega
  simp only [Flock.range?, KernelEnv.whenceBase?, if_pos fromStart, Option.bind_eq_bind,
    Option.bind_some, startEq, lenEq, Int.zero_add, if_neg inside, Int.toNat_natCast]
  by_cases toEnd : len = 0
  · subst len
    rfl
  · have lastFits : ¬((offsetMax : Int) < start + len - 1) := by omega
    have lastNat : ((start : Int) + len - 1).toNat = start + len - 1 := by omega
    rw [if_pos (by omega), if_neg lastFits, if_neg toEnd, lastNat]

/-- `fcntl` with `F_OFD_SETLK` or `F_OFD_SETLKW`, as its effect on the locks of
the open file description. -/
def fcntlFlock (env : KernelEnv) (locks : Locks) (flock : Flock) : Locks :=
  match LockOp.ofUnix? flock.type, flock.range? env with
  | some op, some (first, last) => applyOp env locks op first last
  | _, _ => locks

end Wsfs.FileLock
