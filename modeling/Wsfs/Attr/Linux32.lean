/-
Setting the modification time on a 32-bit Linux server. The time goes to the system call
with 64-bit fields as it is; only where the kernel has no such call is it checked, and put
into 32 bits for the older one.

Of the nanoseconds that make a second or more the kernel takes two values and rejects the
others.
-/

import Wsfs.Attr.SetAttr

namespace Wsfs.Attr.Linux32

open Wsfs.Base Wsfs.Protocol Wsfs.Unix

def enosys : Errno := .other 38

def utimeNow : Int64 := 1073741823
def utimeOmit : Int64 := 1073741822

/-- Whether there is a call for 64-bit times, what either call refuses at a path, and the
time. -/
structure Kernel where
  time64 : Bool
  utimens64 : Bytes → Option Errno
  utimens32 : Bytes → Option Errno
  now : Timespec

def stamp (now ts : Timespec) (file : FileAttr) : FileAttr :=
  if ts.nanoseconds = utimeNow then { file with mtime := now }
  else if ts.nanoseconds = utimeOmit then file
  else { file with mtime := ts }

def utimensat (refusal : Option Errno) (now ts : Timespec) : Call :=
  if validNsec ts.nanoseconds ∨ ts.nanoseconds = utimeNow ∨ ts.nanoseconds = utimeOmit then
    Call.refusable refusal (stamp now ts)
  else Call.fail .einval

/-- A path with a zero byte in it is no C string. -/
def utimensatTime64 (kernel : Kernel) (path : Bytes) (ts : Timespec) : Call :=
  if 0 ∈ path then Call.fail .einval
  else if kernel.time64 then utimensat (kernel.utimens64 path) kernel.now ts
  else Call.fail enosys

def fitsInt32 (v : Int64) : Bool := v.toInt32.toInt64 = v

def unixTimespecs (ts : Timespec) : Except Errno (Int32 × Int32) :=
  if !validNsec ts.nanoseconds then .error .einval
  else if !fitsInt32 ts.seconds then .error .erange
  else .ok (ts.seconds.toInt32, ts.nanoseconds.toInt32)

def utimesNanoAt (kernel : Kernel) (path : Bytes) (times : Int32 × Int32) : Call :=
  if 0 ∈ path then Call.fail .einval
  else utimensat (kernel.utimens32 path) kernel.now ⟨times.1.toInt64, times.2.toInt64⟩

def setPathMTime (kernel : Kernel) (path : Bytes) (ts : Timespec) : Call := fun file =>
  match utimensatTime64 kernel path ts file with
  | (after, some err) =>
      if err = enosys then
        match unixTimespecs ts with
        | .error convErr => (after, some convErr)
        | .ok times => utimesNanoAt kernel path times after
      else (after, some err)
  | (after, none) => (after, none)

def fdPath (fd : Nat) : Bytes := "/proc/self/fd/".toUTF8.toList ++ (toString fd).toUTF8.toList

/-- The same on the path of the descriptor in `/proc`. -/
def setFDMTime (kernel : Kernel) (fd : Nat) (ts : Timespec) : Call :=
  setPathMTime kernel (fdPath fd) ts

/-! ### What is set -/

structure Exact (call : Call) (ts : Timespec) : Prop where
  set : ∀ file after, call file = (after, none) → after = { file with mtime := ts }
  rejected : validNsec ts.nanoseconds = false → ∀ file, (call file).2 ≠ none

variable {ts : Timespec} {file after : FileAttr} {kernel : Kernel} {path : Bytes}

theorem utimensat_set {refusal : Option Errno} {now : Timespec} (notNow : ts.nanoseconds ≠ utimeNow)
    (notOmit : ts.nanoseconds ≠ utimeOmit) (called : utimensat refusal now ts file = (after, none)) :
    validNsec ts.nanoseconds = true ∧ after = { file with mtime := ts } := by
  unfold utimensat at called
  split at called
  · rename_i taken
    have updated := Call.refusable_eq_none called
    rw [stamp, if_neg notNow, if_neg notOmit] at updated
    exact ⟨taken.resolve_right fun special => special.elim notNow notOmit, updated⟩
  · cases called

theorem utimensat_failed {refusal : Option Errno} {now : Timespec} {err : Errno}
    (called : utimensat refusal now ts file = (after, some err)) : after = file := by
  unfold utimensat at called
  split at called
  · unfold Call.refusable at called
    split at called
    · cases called
      rfl
    · cases called
  · cases called
    rfl

theorem narrow_nanoseconds {nsec : Int64} (valid : validNsec nsec = true) :
    nsec.toInt32.toInt64 = nsec := by
  simp only [validNsec, Bool.and_eq_true, decide_eq_true_eq, Int64.le_iff_toInt_le,
    Int64.lt_iff_toInt_lt] at valid
  have low : (0 : Int) ≤ nsec.toInt := valid.1
  have high : nsec.toInt < 1000000000 := valid.2
  apply Int64.toInt_inj.mp
  rw [Int32.toInt_toInt64, Int64.toInt_toInt32]
  exact Int.bmod_eq_of_le (by omega) (by omega)

theorem unixTimespecs_ok {times : Int32 × Int32} (converted : unixTimespecs ts = .ok times) :
    (⟨times.1.toInt64, times.2.toInt64⟩ : Timespec) = ts := by
  unfold unixTimespecs at converted
  split at converted
  · cases converted
  · rename_i valid
    split at converted
    · cases converted
    · rename_i fits
      cases converted
      have seconds : ts.seconds.toInt32.toInt64 = ts.seconds := by
        simpa [fitsInt32] using fits
      have nanoseconds : ts.nanoseconds.toInt32.toInt64 = ts.nanoseconds :=
        narrow_nanoseconds (by simpa using valid)
      simp only [seconds, nanoseconds]

theorem utimensatTime64_cases {err : Option Errno}
    (called : utimensatTime64 kernel path ts file = (after, err)) :
    (err ≠ none ∧ after = file) ∨
      (err = none ∧ utimensat (kernel.utimens64 path) kernel.now ts file = (after, none)) := by
  unfold utimensatTime64 at called
  split at called
  · cases called
    exact .inl ⟨nofun, rfl⟩
  · split at called
    · cases err with
      | none => exact .inr ⟨rfl, called⟩
      | some err => exact .inl ⟨nofun, utimensat_failed called⟩
    · cases called
      exact .inl ⟨nofun, rfl⟩

theorem setPathMTime_set (notNow : ts.nanoseconds ≠ utimeNow) (notOmit : ts.nanoseconds ≠ utimeOmit)
    (called : setPathMTime kernel path ts file = (after, none)) :
    validNsec ts.nanoseconds = true ∧ after = { file with mtime := ts } := by
  unfold setPathMTime at called
  split at called
  · rename_i middle err first
    have unchanged : middle = file := by
      cases utimensatTime64_cases first with
      | inl failed => exact failed.2
      | inr passed => cases passed.1
    split at called
    · split at called
      · cases called
      · rename_i times converted
        unfold utimesNanoAt at called
        split at called
        · cases called
        · rw [unixTimespecs_ok converted, unchanged] at called
          exact utimensat_set notNow notOmit called
    · cases called
  · rename_i first
    cases called
    cases utimensatTime64_cases first with
    | inl failed => exact absurd rfl failed.1
    | inr passed => exact utimensat_set notNow notOmit passed.2

theorem setPathMTime_exact (notNow : ts.nanoseconds ≠ utimeNow) (notOmit : ts.nanoseconds ≠ utimeOmit) :
    Exact (setPathMTime kernel path ts) ts := by
  constructor
  · intro file after called
    exact (setPathMTime_set notNow notOmit called).2
  · intro invalid file succeeded
    have called : setPathMTime kernel path ts file = ((setPathMTime kernel path ts file).1, none) := by
      rw [← succeeded]
    rw [(setPathMTime_set notNow notOmit called).1] at invalid
    cases invalid

/-- A kernel with the call for 64-bit times, which refuses nothing. -/
def willing : Kernel := ⟨true, fun _ => none, fun _ => none, ⟨0, 0⟩⟩

theorem willing_accepts (special : ts.nanoseconds = utimeNow ∨ ts.nanoseconds = utimeOmit)
    (file : FileAttr) : setPathMTime willing [0x2f, 0x61] ts file = (stamp ⟨0, 0⟩ ts file, none) := by
  simp [setPathMTime, utimensatTime64, willing, utimensat, Call.refusable, special]

def blank : FileAttr := ⟨0, 0, false, 0, by decide, 0, ⟨0, 0⟩⟩

theorem setMTime_exact_iff (ts : Timespec) :
    (∀ kernel, (∀ path, Exact (setPathMTime kernel path ts) ts) ∧
      ∀ fd, Exact (setFDMTime kernel fd ts) ts) ↔
      ts.nanoseconds ≠ utimeNow ∧ ts.nanoseconds ≠ utimeOmit := by
  constructor
  · intro always
    by_contra reserved
    have special : ts.nanoseconds = utimeNow ∨ ts.nanoseconds = utimeOmit := by
      by_contra neither
      exact reserved (not_or.mp neither)
    have invalid : validNsec ts.nanoseconds = false := by
      cases special with
      | inl isNow => rw [isNow]; decide
      | inr isOmit => rw [isOmit]; decide
    apply ((always willing).1 [0x2f, 0x61]).rejected invalid blank
    rw [willing_accepts special]
  · intro plain kernel
    exact ⟨fun path => setPathMTime_exact plain.1 plain.2,
      fun fd => setPathMTime_exact plain.1 plain.2⟩

/-- One second with the nanoseconds of `UTIME_OMIT`, at "/a": success, and the file is as
before. -/
theorem setPathMTime_leaves_time :
    setPathMTime willing [0x2f, 0x61] ⟨1, utimeOmit⟩ blank = (blank, none) := by
  rw [willing_accepts (Or.inr rfl)]
  rfl

end Wsfs.Attr.Linux32
