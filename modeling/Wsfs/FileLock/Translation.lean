/-
Translation of a FUSE lock request to the system call on the server.

A request passes `fileLockToProtocol` on the client, the wire, and `lockToSys`
on the server before `fcntl` sees it. Locking requests arrive with their range
intact. An unlocking request arrives without one: `lockToSys` fills the range
only for the other lock types, and the zero range it leaves reaches from the
first to the last byte. The main result says exactly which request sequences
this leaves undisturbed.
-/

import Wsfs.FileLock.Kernel
import Wsfs.Protocol.Const
import Wsfs.Protocol.Struct

namespace Wsfs.FileLock

open Wsfs.Protocol

def lockTypeToUnix (type : UInt8) : Option Int16 :=
  if type = filelockReadlock then some fRdlck
  else if type = filelockUnlock then some fUnlck
  else if type = filelockWritelock then some fWrlck
  else none

def lockTypeFromUnix (type : Int16) : Option UInt8 :=
  if type = fRdlck then some filelockReadlock
  else if type = fUnlck then some filelockUnlock
  else if type = fWrlck then some filelockWritelock
  else none

/-- The Linux table; a whence that is not in it yields the zero value. -/
def whenceToUnix (whence : UInt8) : Int16 :=
  if whence = whenceSet then 0
  else if whence = whenceCur then 1
  else if whence = whenceEnd then 2
  else if whence = whenceData then 3
  else if whence = whenceHole then 4
  else 0

/-- `fuse.FileLock`: both ends of the range are part of it. -/
structure FuseFileLock where
  start : UInt64
  «end» : UInt64
  typ : UInt32
deriving DecidableEq, Repr

def fileLockToProtocol (fileLock : FuseFileLock) : Option FileLockInfo :=
  match lockTypeFromUnix fileLock.typ.toUInt16.toInt16 with
  | none => none
  | some lockType =>
      let lockLength :=
        if fileLock.end ≠ ((1 : UInt64) <<< 63) - 1 then fileLock.end - fileLock.start + 1 else 0
      some { start := fileLock.start, size := lockLength, type := lockType, whence := 0 }

def lockToSys (info : FileLockInfo) : Option Flock :=
  match lockTypeToUnix info.type with
  | none => none
  | some type =>
      -- Only a lock that is not an unlock gets its range.
      if info.type ≠ filelockUnlock then
        some { type := type
               len := info.size.toInt64
               start := info.start.toInt64
               whence := whenceToUnix info.whence }
      else some { type := type, len := 0, start := 0, whence := 0 }

/-- `ofdlock.SetLock`; the two commands of the system call differ only in what
a conflict does to the caller. -/
def setLock (env : KernelEnv) (locks : Locks) (lock : FileLockInfo) : Locks :=
  match lockToSys lock with
  | none => locks
  | some flock => fcntlFlock env locks flock

/-- A request `Setlk` or `Setlkw` receives for one file handle, with what the
kernel of the server meets when it decides it. -/
structure LockRequest where
  op : LockOp
  start : UInt64
  «end» : UInt64
  blocking : Bool
  env : KernelEnv
  ordered : start.toNat ≤ «end».toNat
  bounded : «end».toNat ≤ offsetMax

def LockRequest.fuse (request : LockRequest) : FuseFileLock :=
  { start := request.start
    «end» := request.end
    typ := request.op.unix.toUInt16.toUInt32 }

/-- `Setlk` and `Setlkw` on the client, the command on the wire, and
`cmdSetFileLockCommon` on the server. Either command carries the same struct. -/
def setlk (fd : UInt32) (locks : Locks) (request : LockRequest) : Locks :=
  match fileLockToProtocol request.fuse with
  | none => locks
  | some info =>
      match CmdSetFileLockStruct.codec.write { fd := fd, fileLock := info } with
      | none => locks
      | some payload =>
          match CmdSetFileLockStruct.codec.read payload with
          | none => locks
          | some (command, _) => setLock request.env locks command.fileLock

def directSetlk (locks : Locks) (request : LockRequest) : Locks :=
  applyOp request.env locks request.op request.start.toNat request.end.toNat

def setlkAll (fd : UInt32) (requests : List LockRequest) : Locks :=
  requests.foldl (setlk fd) Locks.empty

def directAll (requests : List LockRequest) : Locks :=
  requests.foldl directSetlk Locks.empty

/-! ### One request -/

private def LockOp.protocol : LockOp → UInt8
  | .lock .read => filelockReadlock
  | .lock .write => filelockWritelock
  | .unlock => filelockUnlock

private def LockRequest.info (request : LockRequest) : FileLockInfo :=
  { start := request.start
    size := if request.end ≠ ((1 : UInt64) <<< 63) - 1 then
      request.end - request.start + 1 else 0
    type := request.op.protocol
    whence := 0 }

private theorem fileLockToProtocol_fuse (request : LockRequest) :
    fileLockToProtocol request.fuse = some request.info := by
  have known : lockTypeFromUnix request.op.unix.toUInt16.toUInt32.toUInt16.toInt16 =
      some request.op.protocol := by
    rcases request.op with (_ | _) | _ <;> rfl
  simp only [fileLockToProtocol, LockRequest.fuse, known, LockRequest.info]
  rfl

private theorem setlk_eq (fd : UInt32) (locks : Locks) (request : LockRequest) :
    setlk fd locks request = setLock request.env locks request.info := by
  let command : CmdSetFileLockStruct := { fd := fd, fileLock := request.info }
  obtain ⟨payload, written⟩ :
      ∃ payload, CmdSetFileLockStruct.codec.write command = some payload := ⟨_, rfl⟩
  have readBack := CmdSetFileLockStruct.codec.read_write command payload [] written
  rw [List.append_nil] at readBack
  simp only [setlk, fileLockToProtocol_fuse, command] at written readBack ⊢
  simp only [written, readBack]

private theorem toInt64_toInt {value : UInt64} (small : value.toNat ≤ offsetMax) :
    value.toInt64.toInt = value.toNat := by
  have below : 2 * value.toBitVec.toNat < 2 ^ 64 := by
    change 2 * value.toNat < 2 ^ 64
    unfold offsetMax at small
    omega
  exact BitVec.toInt_eq_toNat_of_lt below

/-- Length on the wire: zero exactly for a range that reaches the last
offset. -/
private theorem info_size_toNat (request : LockRequest) :
    request.info.size.toNat =
      if request.end.toNat = offsetMax then 0
      else request.end.toNat - request.start.toNat + 1 := by
  have last : (((1 : UInt64) <<< 63) - 1).toNat = offsetMax := by decide
  have ordered := request.ordered
  have bounded := request.bounded
  unfold offsetMax at bounded
  unfold LockRequest.info
  by_cases whole : request.end = ((1 : UInt64) <<< 63) - 1
  · rw [if_neg (not_not_intro whole), if_pos (by rw [whole, last])]
    rfl
  · have partialRange : request.end.toNat ≠ offsetMax := by
      rw [← last]
      exact fun same => whole (UInt64.toNat_inj.mp same)
    rw [if_pos whole, if_neg partialRange, UInt64.toNat_add,
      UInt64.toNat_sub_of_le _ _ (UInt64.le_iff_toNat_le.mpr ordered)]
    change (request.end.toNat - request.start.toNat + 1) % 2 ^ 64 = _
    omega

private theorem range_of_info (request : LockRequest) (flock : Flock)
    (startEq : flock.start = request.info.start.toInt64)
    (lenEq : flock.len = request.info.size.toInt64) (fromStart : flock.whence = 0) :
    flock.range? request.env = some (request.start.toNat, request.end.toNat) := by
  have ordered := request.ordered
  have bounded := request.bounded
  have sizeEq := info_size_toNat request
  have sizeFits : request.start.toNat + request.info.size.toNat ≤ offsetMax + 1 := by
    rw [sizeEq]
    split <;> omega
  have startSmall : request.start.toNat ≤ offsetMax := Nat.le_trans ordered bounded
  have sizeSmall : request.info.size.toNat ≤ offsetMax := by
    rw [sizeEq]
    split
    · omega
    · omega
  rw [Flock.range?_fromStart _ flock request.start.toNat request.info.size.toNat fromStart
    (startEq ▸ toInt64_toInt startSmall) (lenEq ▸ toInt64_toInt sizeSmall)
    startSmall sizeFits, sizeEq]
  by_cases whole : request.end.toNat = offsetMax
  · simp only [if_true, whole]
  · simp only [if_neg whole, Nat.add_eq_zero_iff, Nat.one_ne_zero, and_false, if_false,
      Option.some.injEq, Prod.mk.injEq, true_and]
    omega

theorem setlk_lock (fd : UInt32) (locks : Locks) (request : LockRequest) (kind : LockKind)
    (locking : request.op = .lock kind) :
    setlk fd locks request = directSetlk locks request := by
  obtain ⟨flock, translated, typeEq, startEq, lenEq, fromStart⟩ :
      ∃ flock, lockToSys request.info = some flock ∧ flock.type = request.op.unix ∧
        flock.start = request.info.start.toInt64 ∧
        flock.len = request.info.size.toInt64 ∧ flock.whence = 0 := by
    simp only [lockToSys, LockRequest.info, locking]
    cases kind <;> exact ⟨_, rfl, rfl, rfl, rfl, rfl⟩
  have range := range_of_info request flock startEq lenEq fromStart
  simp only [setlk_eq, setLock, translated, fcntlFlock, typeEq, LockOp.ofUnix?_unix, range,
    directSetlk]

theorem setlk_unlock (fd : UInt32) (locks : Locks) (request : LockRequest)
    (unlocking : request.op = .unlock) :
    setlk fd locks request = applyOp request.env locks .unlock 0 offsetMax := by
  have translated : lockToSys request.info =
      some { type := fUnlck, len := 0, start := 0, whence := 0 } := by
    simp only [lockToSys, LockRequest.info, unlocking]
    rfl
  have range := Flock.range?_fromStart request.env
    { type := fUnlck, len := 0, start := 0, whence := 0 } 0 0 rfl rfl rfl
    (Nat.zero_le _) (Nat.zero_le _)
  simp only [setlk_eq, setLock, translated, fcntlFlock, range]
  rfl

/-- A request that leaves the kernel call without effect, or whose range loses
nothing in translation. -/
def LockRequest.Covers (request : LockRequest) (locks : Locks) : Prop :=
  request.op = .unlock → request.env.refused = false →
    ∀ byte, locks byte ≠ none → request.start.toNat ≤ byte ∧ byte ≤ request.end.toNat

theorem setlk_eq_directSetlk_iff (fd : UInt32) (locks : Locks) (bounded : locks.Bounded)
    (request : LockRequest) :
    setlk fd locks request = directSetlk locks request ↔ request.Covers locks := by
  cases kind : request.op with
  | lock kind' =>
    have locking := setlk_lock fd locks request kind' kind
    constructor
    · intro _same unlocking
      rw [kind] at unlocking
      cases unlocking
    · intro _covered
      exact locking
  | unlock =>
    rw [setlk_unlock fd locks request kind]
    unfold directSetlk LockRequest.Covers applyOp KernelEnv.grants
    rw [kind]
    cases refused : request.env.refused with
    | true =>
      simp only [Bool.not_true, Bool.false_and, Bool.false_eq_true, if_false, reduceCtorEq,
        false_implies, implies_true]
    | false =>
      simp only [Bool.not_false, Bool.true_and, if_true, forall_const, LockOp.held]
      constructor
      · intro same byte held
        by_contra outside
        have atByte := congrFun same byte
        rw [Locks.assign_inside _ _ ⟨Nat.zero_le byte, bounded byte held⟩,
          Locks.assign_outside _ _ outside] at atByte
        exact held atByte.symm
      · intro covered
        funext byte
        by_cases inside : request.start.toNat ≤ byte ∧ byte ≤ request.end.toNat
        · have whole : 0 ≤ byte ∧ byte ≤ offsetMax :=
            ⟨Nat.zero_le byte, Nat.le_trans inside.2 request.bounded⟩
          rw [Locks.assign_inside _ _ inside, Locks.assign_inside _ _ whole]
        · have free : locks byte = none := by
            by_contra held
            exact inside (covered byte held)
          rw [Locks.assign_outside _ _ inside, free]
          unfold Locks.assign
          split
          · rfl
          · exact free

/-! ### Request sequences -/

private theorem foldl_directSetlk_bounded (requests : List LockRequest) (locks : Locks)
    (bounded : locks.Bounded) : (requests.foldl directSetlk locks).Bounded := by
  induction requests generalizing locks with
  | nil => exact bounded
  | cons request rest ih => exact ih _ (applyOp_bounded bounded request.bounded)

theorem directAll_bounded (requests : List LockRequest) : (directAll requests).Bounded :=
  foldl_directSetlk_bounded requests Locks.empty (fun _ held => absurd rfl held)

/-- At every point of a request sequence the server's descriptor holds exactly
what the requests ask for if and only if no unlocking request leaves a locked
byte outside its own range. -/
theorem setlkAll_take_eq_directAll_iff (fd : UInt32) (requests : List LockRequest) :
    (∀ count : Nat, setlkAll fd (requests.take count) = directAll (requests.take count)) ↔
      ∀ (count : Nat) (request : LockRequest), requests[count]? = some request →
        request.Covers (directAll (requests.take count)) := by
  have stepCode (count : Nat) (request : LockRequest) (at_ : requests[count]? = some request) :
      setlkAll fd (requests.take (count + 1)) =
        setlk fd (setlkAll fd (requests.take count)) request := by
    unfold setlkAll
    rw [List.take_add_one, at_, List.foldl_append]
    rfl
  have stepDirect (count : Nat) (request : LockRequest) (at_ : requests[count]? = some request) :
      directAll (requests.take (count + 1)) =
        directSetlk (directAll (requests.take count)) request := by
    unfold directAll
    rw [List.take_add_one, at_, List.foldl_append]
    rfl
  constructor
  · intro agree count request at_
    have before := agree count
    have after := agree (count + 1)
    rw [stepCode count request at_, stepDirect count request at_, before] at after
    exact (setlk_eq_directSetlk_iff fd _ (directAll_bounded _) request).mp after
  · intro covered count
    induction count with
    | zero => rfl
    | succ count ih =>
      cases at_ : requests[count]? with
      | none =>
        have past : requests.length ≤ count := List.getElem?_eq_none_iff.mp at_
        rw [List.take_of_length_le (by omega)]
        rw [List.take_of_length_le past] at ih
        exact ih
      | some request =>
        rw [stepCode count request at_, stepDirect count request at_, ih]
        exact (setlk_eq_directSetlk_iff fd _ (directAll_bounded _) request).mpr
          (covered count request at_)

/-- Two write-locked halves, of which the first is unlocked again: the server
drops the second as well. -/
theorem setlkAll_partial_unlock_loses_lock :
    ∃ requests : List LockRequest,
      directAll requests 7 = some .write ∧ setlkAll 3 requests 7 = none := by
  let quiet : KernelEnv := { others := [], fileOffset := 0, fileSize := 10, refused := false }
  refine ⟨[
    { op := .lock .write, start := 0, «end» := 9, blocking := false, env := quiet
      ordered := by decide, bounded := by decide },
    { op := .unlock, start := 0, «end» := 4, blocking := false, env := quiet
      ordered := by decide, bounded := by decide }], ?_, ?_⟩
  · decide
  · decide

end Wsfs.FileLock
