/-
The caches of the Windows mount client. Attributes and listings are kept under keys made
from paths: a path itself, and the path of a directory with a slash at its end. A listing
also answers for the names in it and for those that are not. Listings of subdirectories
arrive in the background, and a goroutine puts them into the same table.

Operations come one after another. An operation that waits for a channel is not enabled
until the channel is closed.
-/

import Wsfs.Base.Cache
import Wsfs.Mount.Remote
import Wsfs.Unix.Errno
import Wsfs.Unix.Mode
import Wsfs.Util.Path

namespace Wsfs.Mount.Windows

open Wsfs.Base Wsfs.Protocol Wsfs.Unix Wsfs.Util Function

/-! ### Answers -/

/-- `none` is `fuseOK`; the codes below are returned with a minus sign. -/
def errorCodeMap : List (UInt8 × Option Errno) :=
  [(errorOK, none),
    (errorUnknown, some .eio),
    (errorAccessRestricted, some .eacces),
    (errorBusy, some .ebusy),
    (errorExists, some .eexist),
    (errorTooLong, some .enametoolong),
    (errorInvalid, some .einval),
    (errorInvalidFD, some .ebadf),
    (errorNotExists, some .enoent),
    (errorLoop, some .eloop),
    (errorNoSpace, some .enospc),
    (errorNotEmpty, some .enotempty),
    (errorType, some .enotdir),
    (errorIo, some .eio),
    (errorNotSupport, some .enotsup),
    (errorStateBlocked, some .eperm),
    (errorSpecialFileBlocked, some .ebusy),
    (errorCrossDevice, some .exdev)]

def errnoFromCode (code : UInt8) : Option Errno :=
  match errorCodeMap.lookup code with
  | some errno => errno
  | none => some .eio

structure Stat where
  size : UInt64
  atim : Timespec
  ctim : Timespec
  mtim : Timespec
  mode : UInt32
  nlink : Nat
  blksize : Nat
  blocks : UInt64
deriving DecidableEq, Repr

def fileMode (mode : UInt32) : UInt32 :=
  let r := 0o777
  let r := carryBit mode modeSetuid sIsuid r
  let r := carryBit mode modeSetgid sIsgid r
  let r := carryBit mode modeSticky sIsvtx r
  if mode &&& modeDir ≠ 0 then r ||| sIfdir
  else if mode &&& modeSymlink ≠ 0 then r ||| sIflnk
  else if mode &&& (modeDevice ||| modeNamedPipe ||| modeSocket) ≠ 0 then sIfreg
  else r ||| sIfreg

def fsBlockSize : Nat := 4096

def statFromFileInfo (fi : FileInfo) : Stat where
  size := fi.size
  atim := fi.mtime
  ctim := fi.mtime
  mtim := fi.mtime
  mode := fileMode fi.mode
  nlink := 1
  blksize := fsBlockSize
  blocks := if fi.size % 512 ≠ 0 then fi.size / 512 + 1 else fi.size / 512

def statFromDirItem (item : Dirent) : Stat := statFromFileInfo (fileInfoFromDirItem item)

/-- What `Getattr` and `Readdir` give back. -/
inductive Answer
  | stat (stat : Stat)
  | listing (entries : List (Bytes × Option Stat))
  | failed (errc : Option Errno)
deriving DecidableEq, Repr

/-- The entries that `Readdir` fills in. -/
def listing (attr : FileInfo) (items : List Dirent) : Answer :=
  .listing ([([dot], some (statFromFileInfo attr)), ([dot, dot], none)] ++
    items.map fun item => (item.name, some (statFromDirItem item)))

def childAnswer (items : List Dirent) (name : Bytes) : Answer :=
  match items.find? fun item => item.name = name with
  | some item => .stat (statFromDirItem item)
  | none => .failed (some .enoent)

/-! ### Keys -/

def backslash : UInt8 := 0x5c

def normalizeCachePath (path : Bytes) : Bytes :=
  let path := path.map fun byte => if byte = backslash then slash else byte
  if path = [] then [slash]
  else
    let path := if hasPrefix path [slash] then path else slash :: path
    let path := (path.reverse.dropWhile (· = slash)).reverse
    if path = [] then [slash] else path

def pathCacheKey (path : Bytes) : Bytes := normalizeCachePath path

def dirCacheKey (path : Bytes) : Bytes :=
  let path := normalizeCachePath path
  if path = [slash] then [slash] else path ++ [slash]

/-! ### State -/

/-- `items` is absent where the slice is nil. -/
structure CachedData where
  items : Option (List Dirent)
  attr : FileInfo
deriving DecidableEq, Repr

/-- An item whose prefetched listing the goroutine of a `Readdir` waits for. -/
structure Job where
  key : Bytes
  attr : FileInfo
  chan : Nat
deriving DecidableEq, Repr

/-- `delivered` has the channels that are closed, with the child that was set before.
`answers` has what was returned by `Getattr` and `Readdir`. -/
structure State (Storage : Type) where
  storage : Storage
  now : Nat
  cache : Bytes → Option (Timed CachedData)
  pending : Bytes → Option Nat
  made : Nat
  delivered : Nat → Option (Option (List Dirent))
  jobs : List (List Job)
  answers : List Answer

def initial {Storage : Type} (storage : Storage) : State Storage :=
  ⟨storage, 0, fun _ => none, fun _ => none, 0, fun _ => none, [], []⟩

/-- The bits of the flags that are looked at. -/
structure WinFlag where
  wronly : Bool
  rdwr : Bool
  trunc : Bool
  excl : Bool
  creat : Bool
  append : Bool
deriving DecidableEq, Repr

def wsfsOpenFlagFromWinOpenFlag (winflag : WinFlag) : UInt32 :=
  let flag :=
    match winflag.wronly, winflag.rdwr with
    | true, true => oRdonly
    | true, false => oWronly
    | false, true => oRdwr
    | false, false => oRdonly
  let flag := if winflag.trunc then flag ||| oTrunc else flag
  let flag := if winflag.excl then flag ||| oExcl else flag
  let flag := if winflag.creat then flag ||| oCreat else flag
  if winflag.append then flag ||| oAppend else flag

/-- `fh` of `truncate` is absent where it is `^uint64(0)`. -/
inductive Op
  | open (path : Bytes) (winflag : WinFlag)
  | getattr (path : Bytes)
  | readdir (path : Bytes)
  | mkdir (path : Bytes)
  | unlink (path : Bytes)
  | rmdir (path : Bytes)
  | symlink (target newpath : Bytes)
  | rename (oldpath newpath : Bytes) (flags : UInt32)
  | create (path : Bytes) (winflag : WinFlag)
  | truncate (path : Bytes) (size : UInt64) (fh : Option UInt32)
  | write (path : Bytes) (buff : Bytes) (ofst : UInt64) (fh : UInt32)
  | release (path : Bytes) (fh : UInt32)
deriving DecidableEq, Repr

inductive Action
  | call (op : Op)
  | wait (time : Nat)
  | deliver (chan : Nat) (child : Option (List Dirent))
  | store (job : Nat)
  | sweep (key : Bytes)

def defaultFileMode : UInt32 := 0o644
def defaultDirMode : UInt32 := 0o755

def Op.request (mountpoint : Bytes) : Op → Option Request
  | .open path winflag => some (.open path (wsfsOpenFlagFromWinOpenFlag winflag) defaultFileMode)
  | .getattr _ => none
  | .readdir _ => none
  | .mkdir path => some (.mkdir path defaultDirMode)
  | .unlink path => some (.remove path)
  | .rmdir path => some (.rmDir path)
  | .symlink target newpath =>
      if hasPrefix target mountpoint then some (.symLink (target.drop mountpoint.length) newpath)
      else none
  | .rename oldpath newpath flags => some (.rename oldpath newpath flags)
  | .create path winflag => some (.open path (wsfsOpenFlagFromWinOpenFlag winflag) defaultFileMode)
  | .truncate path size none => some (.setAttr path setattrSize ⟨size, ⟨0, 0⟩, 0, 0⟩)
  | .truncate _ size (some fh) => some (.setAttrByFD fh setattrSize ⟨size, ⟨0, 0⟩, 0, 0⟩)
  | .write _ buff ofst fh => some (.writeAt fh ofst buff)
  | .release _ fh => some (.close fh)

namespace State

variable {Storage : Type}

def set (timeout : Nat) (state : State Storage) (key : Bytes) (data : CachedData) : State Storage :=
  { state with cache := update state.cache key (some ⟨data, state.now + timeout⟩) }

def get (state : State Storage) (key : Bytes) : Option CachedData × State Storage :=
  ((load state.now state.cache key).1, { state with cache := (load state.now state.cache key).2 })

def deleteDirState (state : State Storage) (key : Bytes) : State Storage :=
  { state with
    cache := update state.cache key none
    pending := update state.pending key none }

def delParentCache (path : Bytes) (state : State Storage) : State Storage :=
  if dir path ≠ path then state.deleteDirState (dirCacheKey (dir path)) else state

def deletePathState (path : Bytes) (state : State Storage) : State Storage :=
  { state with cache := update state.cache (pathCacheKey path) none }.deleteDirState
    (dirCacheKey path)

def deletePending (state : State Storage) (key : Bytes) : State Storage :=
  { state with pending := update state.pending key none }

def deletePendingIfMatch (state : State Storage) (key : Bytes) (ready : Nat) : State Storage :=
  if state.pending key = some ready then state.deletePending key else state

def getItems (state : State Storage) (key : Bytes) :
    Option (FileInfo × List Dirent) × State Storage :=
  ((state.get key).1.bind fun data => data.items.map fun items => (data.attr, items),
    (state.get key).2)

def lookupChildFromDirCache (state : State Storage) (dirKey name : Bytes) :
    Option Answer × State Storage :=
  ((state.getItems dirKey).1.map fun found => childAnswer found.2 name, (state.getItems dirKey).2)

end State

def Op.clear {Storage : Type} (mountpoint : Bytes) : Op → State Storage → State Storage
  | .open path winflag, state =>
      if winflag.wronly || winflag.rdwr then (state.delParentCache path).deletePathState path
      else state
  | .getattr _, state => state
  | .readdir _, state => state
  | .mkdir path, state => state.delParentCache path
  | .unlink path, state => (state.delParentCache path).deletePathState path
  | .rmdir path, state => (state.delParentCache path).deletePathState path
  | .symlink target newpath, state =>
      if hasPrefix target mountpoint then
        let target := target.drop mountpoint.length
        (((state.delParentCache target).deletePathState target).delParentCache
          newpath).deletePathState newpath
      else state
  | .rename oldpath newpath _, state =>
      (((state.delParentCache oldpath).deletePathState oldpath).delParentCache
        newpath).deletePathState newpath
  | .create path _, state => (state.delParentCache path).deletePathState path
  | .truncate path _ _, state => (state.delParentCache path).deletePathState path
  | .write _ _ _ _, state => state
  | .release path _, state => (state.delParentCache path).deletePathState path

section Steps

variable {Storage : Type} (remote : Remote Storage) (timeout : Nat) (mountpoint : Bytes)

namespace State

/-- The rest of `Getattr` after the listing of the parent. -/
def getattrOwn (state : State Storage) (path : Bytes) : Answer × State Storage :=
  match state.get (pathCacheKey path) with
  | (some data, state) => (.stat (statFromFileInfo data.attr), state)
  | (none, state) =>
      let (fi, code) := remote.getAttr state.storage path
      if code ≠ errorOK then (.failed (errnoFromCode code), state)
      else (.stat (statFromFileInfo fi), state.set timeout (pathCacheKey path) ⟨none, fi⟩)

def getattr (state : State Storage) (path : Bytes) : Option (Answer × State Storage) :=
  if dir path ≠ path then
    let dirKey := dirCacheKey (dir path)
    match state.lookupChildFromDirCache dirKey (base path) with
    | (some answer, state) => some (answer, state)
    | (none, state) =>
        match state.pending dirKey with
        | none => some (state.getattrOwn remote timeout path)
        | some chan =>
            match state.delivered chan with
            | none => none
            | some _ =>
                match state.lookupChildFromDirCache dirKey (base path) with
                | (some answer, state) => some (answer, state)
                | (none, state) =>
                    some ((state.deletePending dirKey).getattrOwn remote timeout path)
  else some (state.getattrOwn remote timeout path)

def jobsOf (path : Bytes) : Nat → List Dirent → List Job
  | _, [] => []
  | chan, item :: rest =>
      if item.mode &&& modeDir ≠ 0 then
        ⟨dirCacheKey (path ++ item.name ++ [slash]), fileInfoFromDirItem item, chan⟩ ::
          jobsOf path (chan + 1) rest
      else jobsOf path chan rest

/-- `storePendingDir` for every channel, and `cachePrefetchedDirChildren`. -/
def prefetch (state : State Storage) (jobs : List Job) : State Storage :=
  { state with
    pending := jobs.foldl (fun pending job => update pending job.key (some job.chan))
      state.pending
    made := state.made + jobs.length
    jobs := state.jobs ++ [jobs] }

/-- The part of `Readdir` that asks the server. -/
def fetch (storage : Storage) (path : Bytes) : Except (Option Errno) (FileInfo × Listed) :=
  let (varfi, code) := remote.getAttr storage path
  if code ≠ errorOK then .error (errnoFromCode code)
  else
    let listed := remote.list storage path
    if listed.code ≠ errorOK then .error (errnoFromCode listed.code) else .ok (varfi, listed)

/-- What `Readdir` stores. An empty listing is a nil slice. -/
def fetchedData (varfi : FileInfo) (listed : Listed) : CachedData :=
  ⟨if listed.items = [] then none else some listed.items, varfi⟩

def fetchDir (state : State Storage) (cacheKey path : Bytes) : Answer × State Storage :=
  match fetch remote state.storage path with
  | .error errc => (.failed errc, state)
  | .ok (varfi, listed) =>
      let jobs := if listed.plus then jobsOf path state.made listed.items else []
      (listing varfi listed.items,
        (state.prefetch jobs).set timeout cacheKey (fetchedData varfi listed))

/-- The path that `Readdir` sends. -/
def dirPath (path : Bytes) : Bytes :=
  if path.getLast? ≠ some slash then path ++ [slash] else path

/-- Absent while the operation waits, and for the empty path, which has no last byte. -/
def readdir (state : State Storage) (path : Bytes) : Option (Answer × State Storage) :=
  if path = [] then none
  else
    let cacheKey := dirCacheKey path
    match state.getItems cacheKey with
    | (some (attr, items), state) => some (listing attr items, state)
    | (none, state) =>
        match state.pending cacheKey with
        | none => some (state.fetchDir remote timeout cacheKey (dirPath path))
        | some chan =>
            match state.delivered chan with
            | none => none
            | some _ =>
                match state.getItems cacheKey with
                | (some (attr, items), state) => some (listing attr items, state)
                | (none, state) =>
                    some ((state.deletePending cacheKey).fetchDir remote timeout cacheKey
                      (dirPath path))

def answered (result : Answer × State Storage) : State Storage :=
  { result.2 with answers := result.2.answers ++ [result.1] }

/-- An operation other than `Getattr` and `Readdir`. -/
def change (state : State Storage) (op : Op) : State Storage :=
  match op.request mountpoint with
  | none => op.clear mountpoint state
  | some request =>
      { op.clear mountpoint state with storage := (remote.serve state.storage request).1 }

def call (state : State Storage) : Op → Option (State Storage)
  | .getattr path => (state.getattr remote timeout path).map answered
  | .readdir path => (state.readdir remote timeout path).map answered
  | op => some (state.change remote mountpoint op)

/-- The stream has come to the directory of a channel: with its listing or without. -/
def deliver (state : State Storage) (chan : Nat) (child : Option (List Dirent)) :
    Option (State Storage) :=
  if chan < state.made ∧ state.delivered chan = none then
    some { state with delivered := update state.delivered chan (some child) }
  else none

/-- One round of the goroutine of a `Readdir`. -/
def store (state : State Storage) (index : Nat) : Option (State Storage) :=
  match state.jobs[index]? with
  | some (job :: rest) =>
      match state.delivered job.chan with
      | none => none
      | some child =>
          let state := { state with jobs := state.jobs.set index rest }
          match child with
          | none => some (state.deletePendingIfMatch job.key job.chan)
          | some items =>
              some ((state.set timeout job.key ⟨some items, job.attr⟩).deletePendingIfMatch job.key
                job.chan)
  | _ => none

/-- `Run` looks at one record. -/
def sweep (state : State Storage) (key : Bytes) : State Storage := (state.get key).2

/-- The client without what it has cached and what it waits for. -/
def forget (state : State Storage) : State Storage :=
  { state with
    cache := fun _ => none
    pending := fun _ => none
    made := 0
    delivered := fun _ => none
    jobs := [] }

end State

def step (state : State Storage) : Action → Option (State Storage)
  | .call op => state.call remote timeout mountpoint op
  | .wait time => some { state with now := state.now + time }
  | .deliver chan child => state.deliver chan child
  | .store job => state.store timeout job
  | .sweep key => some (state.sweep key)

/-- The same client with its cache and its table of pending directories always empty. -/
def bareStep (state : State Storage) (action : Action) : Option (State Storage) :=
  (step remote timeout mountpoint state.forget action).map State.forget

end Steps

/-! ### Coherence -/

/-- The client without caches has no channels to wait for, and no records. -/
def Action.visible : Action → Option Action
  | .call op => some (.call op)
  | .wait time => some (.wait time)
  | _ => none

section Coherence

variable {Storage : Type} (remote : Remote Storage) (asked : Bytes → Prop)

def bareGetattr (storage : Storage) (path : Bytes) : Answer :=
  let (fi, code) := remote.getAttr storage path
  if code ≠ errorOK then .failed (errnoFromCode code) else .stat (statFromFileInfo fi)

def bareReaddir (storage : Storage) (path : Bytes) : Answer :=
  match State.fetch remote storage (State.dirPath path) with
  | .error errc => .failed errc
  | .ok (varfi, listed) => listing varfi listed.items

/-- A record says what the server says, about every path in use that leads to its key. -/
structure Agrees (storage : Storage) (key : Bytes) (data : CachedData) : Prop where
  own : ∀ path, asked path → pathCacheKey path = key →
    bareGetattr remote storage path = .stat (statFromFileInfo data.attr)
  child : ∀ items, data.items = some items → ∀ path, asked path → dir path ≠ path →
    dirCacheKey (dir path) = key → bareGetattr remote storage path = childAnswer items (base path)
  listed : ∀ items, data.items = some items → ∀ path, asked path → dirCacheKey path = key →
    bareReaddir remote storage path = listing data.attr items

/-- A change of the storage does not concern what a record says. -/
structure Spares (before after : Storage) (key : Bytes) (data : CachedData) : Prop where
  own : ∀ path, asked path → pathCacheKey path = key →
    bareGetattr remote after path = bareGetattr remote before path
  child : data.items ≠ none → ∀ path, asked path → dir path ≠ path →
    dirCacheKey (dir path) = key → bareGetattr remote after path = bareGetattr remote before path
  listed : data.items ≠ none → ∀ path, asked path → dirCacheKey path = key →
    bareReaddir remote after path = bareReaddir remote before path

/-- The paths of `Getattr` and `Readdir` are among those in use. Those that share a key have
the same attributes. A listing that is stored agrees with the server. An operation that
changes the storage spares the records that it leaves and that have not expired. -/
def Careful (mountpoint : Bytes) (state : State Storage) : Action → Prop
  | .call (.getattr path) =>
      asked path ∧ ∀ other, asked other → pathCacheKey other = pathCacheKey path →
        bareGetattr remote state.storage other = bareGetattr remote state.storage path
  | .call (.readdir path) =>
      asked path ∧ ∀ varfi listed,
        State.fetch remote state.storage (State.dirPath path) = .ok (varfi, listed) →
        Agrees remote asked state.storage (dirCacheKey path) (State.fetchedData varfi listed)
  | .call op =>
      ∀ request, op.request mountpoint = some request →
        ∀ key timed, (op.clear mountpoint state).cache key = some timed →
          state.now ≤ timed.expireAt →
          Spares remote asked state.storage (remote.serve state.storage request).1 key timed.record
  | .store index =>
      ∀ job rest items, state.jobs[index]? = some (job :: rest) →
        state.delivered job.chan = some (some items) →
        Agrees remote asked state.storage job.key ⟨some items, job.attr⟩
  | _ => True

end Coherence

/-! ### Records agree -/

section Invariant

variable {Storage : Type} {remote : Remote Storage} {asked : Bytes → Prop} {timeout : Nat}
  {mountpoint : Bytes}

def Sound (remote : Remote Storage) (asked : Bytes → Prop) (state : State Storage) : Prop :=
  Coherent (Agrees remote asked state.storage) state.now state.cache

variable {state next : State Storage} {key path : Bytes}

theorem Agrees.spared {before after : Storage} {data : CachedData}
    (agrees : Agrees remote asked before key data) (spares : Spares remote asked before after key data) :
    Agrees remote asked after key data := by
  constructor
  · intro path inUse same
    exact (spares.own path inUse same).trans (agrees.own path inUse same)
  · intro items some_ path inUse below same
    have listed : data.items ≠ none := by rw [some_]; nofun
    exact (spares.child listed path inUse below same).trans
      (agrees.child items some_ path inUse below same)
  · intro items some_ path inUse same
    have listed : data.items ≠ none := by rw [some_]; nofun
    exact (spares.listed listed path inUse same).trans (agrees.listed items some_ path inUse same)

theorem get_sound (sound : Sound remote asked state) (key : Bytes) :
    Sound remote asked (state.get key).2 :=
  sound.remains key

theorem get_twice_sound (sound : Sound remote asked state) (key : Bytes) :
    Sound remote asked (((state.get key).2.get key).2.deletePending key) :=
  get_sound (get_sound sound key) key

theorem getItems_agrees (sound : Sound remote asked state) {attr : FileInfo} {items : List Dirent}
    (found : (state.getItems key).1 = some (attr, items)) :
    Agrees remote asked state.storage key ⟨some items, attr⟩ := by
  obtain ⟨data, loaded, isItems⟩ := Option.bind_eq_some_iff.mp found
  obtain ⟨inside, isInside, same⟩ := Option.map_eq_some_iff.mp isItems
  cases same
  have agrees := sound.loaded loaded
  obtain ⟨dataItems, dataAttr⟩ := data
  cases isInside
  exact agrees

/-- The result of a `Getattr` or `Readdir`: the answer of the server, nothing outside of the
caches changed, and the records still agree. -/
structure Faithful (remote : Remote Storage) (asked : Bytes → Prop) (bare : State Storage)
    (answer : Answer) (result : Answer × State Storage) : Prop where
  answer : result.1 = answer
  forget : result.2.forget = bare
  sound : Sound remote asked result.2

theorem getattrOwn_faithful (sound : Sound remote asked state) (inUse : asked path)
    (distinct : ∀ other, asked other → pathCacheKey other = pathCacheKey path →
      bareGetattr remote state.storage other = bareGetattr remote state.storage path) :
    Faithful remote asked state.forget (bareGetattr remote state.storage path)
      (state.getattrOwn remote timeout path) := by
  unfold State.getattrOwn
  split
  · rename_i data next loaded
    cases congrArg Prod.snd loaded
    have agrees := sound.loaded (congrArg Prod.fst loaded)
    exact ⟨(agrees.own path inUse rfl).symm, rfl, get_sound sound _⟩
  · rename_i next loaded
    cases congrArg Prod.snd loaded
    dsimp only
    split
    · rename_i failed
      exact ⟨(if_pos failed).symm, rfl, get_sound sound _⟩
    · rename_i code
      have answer : bareGetattr remote state.storage path =
          .stat (statFromFileInfo (remote.getAttr state.storage path).1) := if_neg code
      refine ⟨answer.symm, rfl, (get_sound sound _).set ?_ _⟩
      constructor
      · intro other otherInUse same
        exact (distinct other otherInUse same).trans answer
      · nofun
      · nofun

variable {result : Answer × State Storage} {op : Op}

theorem getattr_faithful (sound : Sound remote asked state) (inUse : asked path)
    (distinct : ∀ other, asked other → pathCacheKey other = pathCacheKey path →
      bareGetattr remote state.storage other = bareGetattr remote state.storage path)
    (called : state.getattr remote timeout path = some result) :
    Faithful remote asked state.forget (bareGetattr remote state.storage path) result := by
  -- The listing of the parent answers in one place for two lookups.
  have fromParent : ∀ {before after : State Storage} {answer : Answer}, Sound remote asked before →
      before.storage = state.storage → before.forget = state.forget → dir path ≠ path →
      before.lookupChildFromDirCache (dirCacheKey (dir path)) (base path) = (some answer, after) →
      Faithful remote asked state.forget (bareGetattr remote state.storage path) (answer, after) := by
    intro before after answer soundBefore same unchanged below found
    cases congrArg Prod.snd found
    obtain ⟨⟨attr, items⟩, isItems, isAnswer⟩ := Option.map_eq_some_iff.mp (congrArg Prod.fst found)
    have agrees := getItems_agrees soundBefore isItems
    rw [same] at agrees
    exact ⟨isAnswer.symm.trans (agrees.child items rfl path inUse below rfl).symm, unchanged,
      get_sound soundBefore _⟩
  unfold State.getattr at called
  split at called
  · rename_i below
    dsimp only at called
    split at called
    · rename_i answer next found
      cases called
      exact fromParent sound rfl rfl below found
    · rename_i next missed
      cases congrArg Prod.snd missed
      split at called
      · cases called
        exact getattrOwn_faithful (get_sound sound _) inUse distinct
      · split at called
        · cases called
        · split at called
          · rename_i answer next found
            cases called
            exact fromParent (get_sound sound _) rfl rfl below found
          · rename_i next missedAgain
            cases congrArg Prod.snd missedAgain
            cases called
            exact getattrOwn_faithful (get_twice_sound sound _) inUse distinct
  · cases called
    exact getattrOwn_faithful sound inUse distinct

theorem fetchDir_faithful (sound : Sound remote asked state) (agrees : ∀ varfi listed,
      State.fetch remote state.storage (State.dirPath path) = .ok (varfi, listed) →
      Agrees remote asked state.storage (dirCacheKey path) (State.fetchedData varfi listed)) :
    Faithful remote asked state.forget (bareReaddir remote state.storage path)
      (state.fetchDir remote timeout (dirCacheKey path) (State.dirPath path)) := by
  unfold State.fetchDir bareReaddir
  cases fetched : State.fetch remote state.storage (State.dirPath path) with
  | error errc => exact ⟨rfl, rfl, sound⟩
  | ok found =>
    obtain ⟨varfi, listed⟩ := found
    exact ⟨rfl, rfl, sound.set (agrees varfi listed fetched) _⟩

theorem readdir_faithful (sound : Sound remote asked state) (inUse : asked path)
    (agrees : ∀ varfi listed,
      State.fetch remote state.storage (State.dirPath path) = .ok (varfi, listed) →
      Agrees remote asked state.storage (dirCacheKey path) (State.fetchedData varfi listed))
    (called : state.readdir remote timeout path = some result) :
    Faithful remote asked state.forget (bareReaddir remote state.storage path) result := by
  have fromRecord : ∀ {before after : State Storage} {attr : FileInfo} {items : List Dirent},
      Sound remote asked before → before.storage = state.storage → before.forget = state.forget →
      before.getItems (dirCacheKey path) = (some (attr, items), after) →
      Faithful remote asked state.forget (bareReaddir remote state.storage path)
        (listing attr items, after) := by
    intro before after attr items soundBefore same unchanged found
    cases congrArg Prod.snd found
    have recorded := getItems_agrees soundBefore (congrArg Prod.fst found)
    rw [same] at recorded
    exact ⟨(recorded.listed items rfl path inUse rfl).symm, unchanged, get_sound soundBefore _⟩
  unfold State.readdir at called
  split at called
  · cases called
  · dsimp only at called
    split at called
    · rename_i attr items next found
      cases called
      exact fromRecord sound rfl rfl found
    · rename_i next missed
      cases congrArg Prod.snd missed
      split at called
      · cases called
        exact fetchDir_faithful (get_sound sound _) agrees
      · split at called
        · cases called
        · split at called
          · rename_i attr items next found
            cases called
            exact fromRecord (get_sound sound _) rfl rfl found
          · rename_i next missedAgain
            cases congrArg Prod.snd missedAgain
            cases called
            exact fetchDir_faithful (get_twice_sound sound _) agrees

/-- Records were dropped, and directories that are waited for. -/
structure Drops (state next : State Storage) : Prop where
  forget : next.forget = state.forget
  kept : ∀ key timed, next.cache key = some timed → state.cache key = some timed

theorem Drops.refl (state : State Storage) : Drops state state := ⟨rfl, fun _ _ found => found⟩

theorem Drops.trans {first middle last : State Storage} (before : Drops first middle)
    (after : Drops middle last) : Drops first last :=
  ⟨after.forget.trans before.forget,
    fun key timed found => before.kept key timed (after.kept key timed found)⟩

theorem update_kept {cache : Bytes → Option (Timed CachedData)} {other : Bytes}
    {timed : Timed CachedData} (found : update cache key none other = some timed) :
    cache other = some timed := by
  cases update_eq_some found with
  | inl new => cases new.1
  | inr old => exact old.1

theorem deleteDirState_drops (state : State Storage) (key : Bytes) :
    Drops state (state.deleteDirState key) :=
  ⟨rfl, fun _ _ found => update_kept found⟩

theorem delParentCache_drops (state : State Storage) (path : Bytes) :
    Drops state (state.delParentCache path) := by
  unfold State.delParentCache
  split
  · exact deleteDirState_drops state _
  · exact .refl state

theorem deletePathState_drops (state : State Storage) (path : Bytes) :
    Drops state (state.deletePathState path) :=
  ⟨rfl, fun _ _ found => update_kept (update_kept found)⟩

theorem delete_drops (state : State Storage) (path : Bytes) :
    Drops state ((state.delParentCache path).deletePathState path) :=
  (delParentCache_drops state path).trans (deletePathState_drops _ path)

theorem clear_drops (op : Op) (state : State Storage) : Drops state (op.clear mountpoint state) := by
  cases op with
  | «open» path winflag =>
    simp only [Op.clear]
    split
    · exact delete_drops state path
    · exact .refl state
  | getattr | readdir | write => exact .refl state
  | mkdir path => exact delParentCache_drops state path
  | unlink | rmdir | create | truncate | release => exact delete_drops state _
  | symlink target newpath =>
    simp only [Op.clear]
    split
    · exact (delete_drops state _).trans (delete_drops _ newpath)
    · exact .refl state
  | rename oldpath newpath flags => exact (delete_drops state oldpath).trans (delete_drops _ newpath)

theorem Drops.now (drops : Drops state next) : next.now = state.now := by
  have same := congrArg State.now drops.forget
  exact same

theorem Drops.storage (drops : Drops state next) : next.storage = state.storage := by
  have same := congrArg State.storage drops.forget
  exact same

theorem Drops.sound (drops : Drops state next) (sound : Sound remote asked state) :
    Sound remote asked next := by
  unfold Sound
  rw [drops.storage, drops.now]
  exact sound.subset drops.kept

theorem change_forget (op : Op) (state : State Storage) :
    (state.forget.change remote mountpoint op).forget = (state.change remote mountpoint op).forget := by
  have bare : (op.clear mountpoint state.forget).forget = state.forget :=
    (clear_drops op state.forget).forget
  have cached : (op.clear mountpoint state).forget = state.forget := (clear_drops op state).forget
  unfold State.change
  cases op.request mountpoint with
  | none => exact bare.trans cached.symm
  | some request =>
    have replaced := congrArg (fun other : State Storage =>
      { other with storage := (remote.serve state.storage request).1 }) (bare.trans cached.symm)
    exact replaced

theorem change_sound (sound : Sound remote asked state)
    (spared : ∀ request, op.request mountpoint = some request →
      ∀ key timed, (op.clear mountpoint state).cache key = some timed →
        state.now ≤ timed.expireAt →
        Spares remote asked state.storage (remote.serve state.storage request).1 key timed.record) :
    Sound remote asked (state.change remote mountpoint op) := by
  have drops := @clear_drops _ mountpoint op state
  unfold State.change
  cases isRequest : op.request mountpoint with
  | none => exact drops.sound sound
  | some request =>
    have kept := sound.subset drops.kept
    unfold Sound
    dsimp only
    rw [drops.now]
    refine kept.change fun key timed found live agrees => ?_
    exact agrees.spared (spared request isRequest key timed found live)

/-! ### Runs -/

theorem forget_sound (state : State Storage) : Sound remote asked state.forget :=
  coherent_empty _ _

theorem getattr_forget (state : State Storage) (path : Bytes) :
    ∃ next, state.forget.getattr remote timeout path =
      some (bareGetattr remote state.storage path, next) ∧ next.forget = state.forget := by
  have enabled : ∃ result, state.forget.getattr remote timeout path = some result := by
    unfold State.getattr
    split
    · exact ⟨_, rfl⟩
    · exact ⟨_, rfl⟩
  obtain ⟨⟨answer, next⟩, called⟩ := enabled
  have faithful := @getattr_faithful _ remote (· = path) _ _ _ _ (forget_sound state) rfl
    (fun other same _ => same ▸ rfl) called
  refine ⟨next, ?_, faithful.forget⟩
  rw [called]
  exact congrArg (fun found => some (found, next)) faithful.answer

theorem readdir_forget (state : State Storage) (nonempty : path ≠ []) :
    ∃ next, state.forget.readdir remote timeout path =
      some (bareReaddir remote state.storage path, next) ∧ next.forget = state.forget := by
  unfold State.readdir
  rw [if_neg nonempty]
  dsimp only [State.getItems, State.get, load, State.forget, Option.bind_none]
  unfold State.fetchDir bareReaddir
  dsimp only
  cases State.fetch remote state.storage (State.dirPath path) with
  | error errc => exact ⟨_, rfl, rfl⟩
  | ok found => exact ⟨_, rfl, rfl⟩

theorem answered_forget {other : State Storage} {answer same : Answer} (equal : answer = same)
    (forget : state.forget = other.forget) :
    (State.answered (answer, state)).forget = (State.answered (same, other)).forget := by
  have answers : state.answers = other.answers := by
    have shown := congrArg State.answers forget
    exact shown
  have extended := congrArg (fun bare : State Storage =>
    { bare with answers := other.answers ++ [same] }) forget
  unfold State.answered
  rw [equal, answers]
  exact extended

/-- Both clients answer the same: the one with caches from records that agree, the other one
from the server. -/
theorem call_simulated (sound : Sound remote asked state)
    (careful : Careful remote asked mountpoint state (.call op))
    (called : state.call remote timeout mountpoint op = some next) :
    bareStep remote timeout mountpoint state.forget (.call op) = some next.forget ∧
      Sound remote asked next := by
  cases op with
  | getattr path =>
    obtain ⟨inUse, distinct⟩ := careful
    obtain ⟨⟨answer, after⟩, isResult, rfl⟩ := Option.map_eq_some_iff.mp called
    have faithful := getattr_faithful sound inUse distinct isResult
    obtain ⟨bare, bareCalled, bareForget⟩ := @getattr_forget _ remote timeout state path
    refine ⟨?_, faithful.sound⟩
    simp only [bareStep, step, State.call]
    rw [show state.forget.forget = state.forget from rfl, bareCalled]
    exact congrArg some (answered_forget faithful.answer.symm (bareForget.trans faithful.forget.symm))
  | readdir path =>
    obtain ⟨inUse, agrees⟩ := careful
    obtain ⟨⟨answer, after⟩, isResult, rfl⟩ := Option.map_eq_some_iff.mp called
    have faithful := readdir_faithful sound inUse agrees isResult
    have nonempty : path ≠ [] := by
      rintro rfl
      cases isResult
    obtain ⟨bare, bareCalled, bareForget⟩ := @readdir_forget _ remote timeout path state nonempty
    refine ⟨?_, faithful.sound⟩
    simp only [bareStep, step, State.call]
    rw [show state.forget.forget = state.forget from rfl, bareCalled]
    exact congrArg some (answered_forget faithful.answer.symm (bareForget.trans faithful.forget.symm))
  | _ =>
    cases called
    exact ⟨congrArg some (change_forget _ state), change_sound sound careful⟩

theorem store_sound {index : Nat} (sound : Sound remote asked state)
    (careful : Careful remote asked mountpoint state (.store index))
    (stored : state.store timeout index = some next) :
    next.forget = state.forget ∧ Sound remote asked next := by
  unfold State.store at stored
  split at stored
  · rename_i job rest found
    split at stored
    · cases stored
    · rename_i child delivered
      dsimp only at stored
      split at stored
      · cases stored
        unfold State.deletePendingIfMatch
        split <;> exact ⟨rfl, sound⟩
      · rename_i items
        cases stored
        have agrees := careful job rest items found delivered
        unfold State.deletePendingIfMatch
        split <;> exact ⟨rfl, sound.set agrees _⟩
  · cases stored

/-- The client without caches stands where the other one stands. -/
def Beside (remote : Remote Storage) (asked : Bytes → Prop) (state other : State Storage) : Prop :=
  other = state.forget ∧ Sound remote asked state

theorem step_simulated (state : State Storage) (action : Action) (next other : State Storage)
    (beside : Beside remote asked state other)
    (careful : Careful remote asked mountpoint state action)
    (stepped : step remote timeout mountpoint state action = some next) :
    (action.visible = none → Beside remote asked next other) ∧
      ∀ seen, action.visible = some seen →
        ∃ after, bareStep remote timeout mountpoint other seen = some after ∧
          Beside remote asked next after := by
  obtain ⟨rfl, sound⟩ := beside
  cases action with
  | call op =>
    refine ⟨nofun, ?_⟩
    rintro seen ⟨⟩
    obtain ⟨bare, soundNext⟩ := call_simulated sound careful stepped
    exact ⟨_, bare, rfl, soundNext⟩
  | wait time =>
    refine ⟨nofun, ?_⟩
    rintro seen ⟨⟩
    cases stepped
    exact ⟨_, rfl, rfl, sound.wait time⟩
  | deliver chan child =>
    refine ⟨fun _ => ?_, nofun⟩
    simp only [step, State.deliver] at stepped
    split at stepped
    · cases stepped
      exact ⟨rfl, sound⟩
    · cases stepped
  | store index =>
    refine ⟨fun _ => ?_, nofun⟩
    obtain ⟨same, soundNext⟩ := @store_sound _ _ _ _ mountpoint _ _ _ sound careful stepped
    exact ⟨same.symm, soundNext⟩
  | sweep key =>
    refine ⟨fun _ => ?_, nofun⟩
    cases stepped
    exact ⟨rfl, get_sound sound key⟩

end Invariant

/-- `Getattr` and `Readdir` answer what the client without caches answers: in every run in
which listings are stored only while they agree with the server, and no operation changes
what an unexpired record that it leaves stands for. -/
theorem answers_as_without_caches {Storage : Type} (remote : Remote Storage) (timeout : Nat)
    (mountpoint : Bytes) (asked : Bytes → Prop) (storage : Storage) (actions : List Action)
    (last : State Storage)
    (careful : Guarded (step remote timeout mountpoint) (Careful remote asked mountpoint)
      (initial storage) actions)
    (reached : run (step remote timeout mountpoint) (initial storage) actions = some last) :
    ∃ bare, run (bareStep remote timeout mountpoint) (initial storage)
        (actions.filterMap Action.visible) = some bare ∧ bare.answers = last.answers := by
  have beside : Beside remote asked (initial storage) (initial storage) := ⟨rfl, coherent_empty _ _⟩
  obtain ⟨bare, bareReached, rfl, _⟩ :=
    run_simulates (bareStep remote timeout mountpoint) Action.visible step_simulated beside careful
      reached
  exact ⟨_, bareReached, rfl⟩

/-! ### A file and its directory -/

private def forWriting : WinFlag := ⟨true, false, false, false, false, false⟩

private def writeThenList : List Action :=
  [.call (.open filePath forWriting), .call (.write filePath [7] 0 3), .call (.release filePath 3),
    .call (.readdir rootPath), .wait 5, .call (.getattr filePath)]

private def inUse (path : Bytes) : Prop := path = rootPath ∨ path = filePath

private theorem listing_agrees :
    Agrees oneFile inUse 1 rootPath ⟨some [fileItem 1], folder⟩ := by
  constructor
  · rintro path (rfl | rfl) same
    · rfl
    · exact absurd same (by decide)
  · rintro items ⟨⟩ path (rfl | rfl) below same
    · exact absurd rfl below
    · decide
  · rintro items ⟨⟩ path (rfl | rfl) same
    · decide
    · exact absurd same (by decide)

private theorem clear_empty {state : State UInt64} (op : Op) (empty : ∀ key, state.cache key = none)
    (key : Bytes) : (op.clear [] state).cache key = none := by
  cases found : (op.clear [] state).cache key with
  | none => rfl
  | some timed =>
    have old := (clear_drops op state).kept key timed found
    rw [empty key] at old
    cases old

private theorem writeThenList_careful :
    Guarded (step oneFile 10 []) (Careful oneFile inUse []) (initial 0) writeThenList := by
  have opened := @clear_empty (initial 0) (.open filePath forWriting) fun _ => rfl
  have written := clear_empty (.write filePath [7] 0 3) opened
  have released := clear_empty (.release filePath 3) written
  have spared : ∀ {state : State UInt64} {after : UInt64} {cache : Bytes → Option (Timed CachedData)},
      (∀ key, cache key = none) → ∀ key timed, cache key = some timed → state.now ≤ timed.expireAt →
      Spares oneFile inUse state.storage after key timed.record := by
    intro state after cache empty key timed found _
    rw [empty key] at found
    cases found
  refine .cons rfl (fun request _ => spared opened) ?_
  refine .cons rfl (fun request _ => spared written) ?_
  refine .cons rfl (fun request _ => spared released) ?_
  refine .cons rfl ⟨.inl rfl, ?_⟩ ?_
  · rintro varfi listed fetched
    cases fetched
    exact listing_agrees
  refine .cons rfl trivial ?_
  refine .cons rfl ⟨.inr rfl, ?_⟩ trivial
  rintro other (rfl | rfl) same
  · exact absurd same (by decide)
  · rfl

theorem answers_as_without_caches_writeThenList :
    ∃ last bare,
      run (step oneFile 10 []) (initial 0) writeThenList = some last ∧
      run (bareStep oneFile 10 []) (initial 0) (writeThenList.filterMap Action.visible) =
        some bare ∧
      last.answers = [listing folder [fileItem 1],
        .stat (statFromFileInfo (sized 1))] ∧ bare.answers = last.answers := by
  obtain ⟨last, reached, answers⟩ : ∃ last,
      run (step oneFile 10 []) (initial 0) writeThenList = some last ∧
        last.answers = [listing folder [fileItem 1],
          .stat (statFromFileInfo (sized 1))] := ⟨_, rfl, rfl⟩
  obtain ⟨bare, bareReached, same⟩ := answers_as_without_caches oneFile 10 [] inUse 0
    writeThenList last writeThenList_careful reached
  exact ⟨last, bare, reached, bareReached, answers, same⟩

/-- A file is opened, looked at and written. Its attributes are still those from before. -/
theorem written_size_not_seen :
    ∃ last bare,
      run (step oneFile 10 []) (initial 0)
        [.call (.open filePath forWriting), .call (.getattr filePath),
          .call (.write filePath [7] 0 3), .call (.getattr filePath)] = some last ∧
      run (bareStep oneFile 10 []) (initial 0)
        [.call (.open filePath forWriting), .call (.getattr filePath),
          .call (.write filePath [7] 0 3), .call (.getattr filePath)] = some bare ∧
      last.answers = [.stat (statFromFileInfo (sized 0)), .stat (statFromFileInfo (sized 0))] ∧
      bare.answers = [.stat (statFromFileInfo (sized 0)), .stat (statFromFileInfo (sized 1))] ∧
      last.answers ≠ bare.answers := by
  refine ⟨_, _, rfl, rfl, rfl, rfl, ?_⟩
  decide

end Wsfs.Mount.Windows
