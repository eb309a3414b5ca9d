/-
The caches of the Unix mount client. They sit on the nodes of the file tree: a listing on a
directory, which also answers for its names and hands prefetched listings to the nodes of
subdirectories, and attributes on every node.

The tree of nodes belongs to go-fuse. It decides which node a lookup gives, and where the
nodes are afterwards; the client asks it for the path of a node. The session never sets the
content of an entry, so the caches of file content stay empty and are left out.

Operations come one after another. An operation that waits for a channel is not enabled
until the channel is closed.
-/

import Wsfs.Attr.SetAttr
import Wsfs.Base.Cache
import Wsfs.Mount.Remote
import Wsfs.Util.Path

namespace Wsfs.Mount.Nodes

open Wsfs.Base Wsfs.Protocol Wsfs.Unix Wsfs.Util Function
open Wsfs.Client (errnoFromCode)
open Wsfs.Attr (FsIds SetAttrIn attrOwner requestFlag requestFi)

/-! ### Answers -/

/-- What `attrFromFileInfo` shows, without the inode number. -/
structure Shown where
  size : UInt64
  time : UInt64
  timensec : UInt32
  mode : UInt32
  nlink : Nat
  blksize : Nat
  blocks : UInt64
  uid : UInt32
  gid : UInt32
deriving DecidableEq, Repr

def fsBlockSize : Nat := 4096

def attrFromFileInfo (fsIds : FsIds) (fi : FileInfo) : Shown where
  size := fi.size
  time := fi.mtime.seconds.toUInt64
  timensec := fi.mtime.nanoseconds.toUInt64.toUInt32
  mode := wsfsFileModeToFuseMode fi.mode
  nlink := 1
  blksize := fsBlockSize
  blocks := if fi.size % 512 ≠ 0 then fi.size / 512 + 1 else fi.size / 512
  uid := (attrOwner fi fsIds).1
  gid := (attrOwner fi fsIds).2

def attrFromDirItem (fsIds : FsIds) (item : Dirent) : Shown :=
  attrFromFileInfo fsIds (fileInfoFromDirItem item)

/-- What `Lookup`, `Getattr` and `Readdir` give back. -/
inductive Answer
  | attr (ino : UInt64) (shown : Shown)
  | listing (entries : List (Bytes × UInt32))
  | failed (errno : Option Errno)
deriving DecidableEq, Repr

/-- A directory entry with the channel of its prefetched listing. -/
structure Item where
  dirent : Dirent
  chan : Option Nat
deriving DecidableEq, Repr

/-- The entries of a `dirListStream`. -/
def listing (items : List Item) : Answer :=
  .listing (items.map fun item => (item.dirent.name, item.dirent.mode))

/-! ### Operations -/

/-- What go-fuse makes of the node that `Lookup` has prepared: it keeps it under a new number,
or it knows a node with the same attributes, or it gives none. -/
inductive Inode
  | fresh (node : Nat)
  | known
  | refused
deriving DecidableEq, Repr

/-- Nodes are numbers. A file handle is absent where it is nil. -/
inductive Op
  | lookup (node : Nat) (name : Bytes) (inode : Inode)
  | readdir (node : Nat)
  | getattr (node : Nat)
  | create (node : Nat) (name : Bytes) (flags mode : UInt32) (inode : Inode)
  | mkdir (node : Nat) (name : Bytes) (mode : UInt32) (inode : Inode)
  | symlink (node : Nat) (target name : Bytes) (inode : Inode)
  | unlink (node : Nat) (name : Bytes)
  | rmdir (node : Nat) (name : Bytes)
  | rename (node : Nat) (name : Bytes) (newParent : Nat) (newName : Bytes) (flags : UInt32)
  | open (node : Nat) (flags : UInt32)
  | write (node : Nat) (fd : Option UInt32) (data : Bytes) (off : UInt64)
  | flush (node : Nat)
  | release (node : Nat) (fd : Option UInt32)
  | setattr (node : Nat) (fd : Option UInt32) (input : SetAttrIn)

def Op.adds : Op → Option Nat
  | .lookup _ _ (.fresh node) | .create _ _ _ _ (.fresh node) | .mkdir _ _ _ (.fresh node)
  | .symlink _ _ _ (.fresh node) => some node
  | _ => none

def Op.moves : Op → Bool
  | .lookup _ _ _ | .create _ _ _ _ _ | .mkdir _ _ _ _ | .symlink _ _ _ _ | .unlink _ _ | .rmdir _ _
  | .rename _ _ _ _ _ => true
  | _ => false

def Op.places (op : Op) (before after : Nat → Bytes) : Nat → Bytes := if op.moves then after else before

/-- `paths` is where go-fuse has the nodes after the operation. -/
inductive Action
  | call (op : Op) (paths : Nat → Bytes)
  | wait (time : Nat)
  | deliver (chan : Nat) (child : Option (List Dirent))
  | drop (node : Nat)

/-- The mount and the server behind it. The number of an inode is a hash of its path, and the
tables of the flags belong to the platform. -/
structure FileSystem (Storage : Type) where
  remote : Remote Storage
  mountpoint : Bytes
  fsIds : FsIds
  structTimeout : Nat
  inodeHash : Bytes → UInt64
  openFlagFromSys : UInt32 → Option UInt32
  renameFlagFromUnix : UInt32 → Option UInt32

/-! ### State -/

/-- `dirs` has no entry where the slice in a `dirCache` is nil: every reader treats the two
alike. -/
structure State (Storage : Type) where
  storage : Storage
  now : Nat
  paths : Nat → Bytes
  dirs : Nat → Option (Timed (List Item))
  attrs : Nat → Option (Timed FileInfo)
  made : Nat
  delivered : Nat → Option (Option (List Dirent))
  answers : List Answer

def initial {Storage : Type} (storage : Storage) (paths : Nat → Bytes) : State Storage :=
  ⟨storage, 0, paths, fun _ => none, fun _ => none, 0, fun _ => none, []⟩

namespace State

variable {Storage : Type} (fs : FileSystem Storage)

def wipeDirCache (state : State Storage) (node : Nat) : State Storage :=
  { state with dirs := update state.dirs node none }

def wipeAttrCache (state : State Storage) (node : Nat) : State Storage :=
  { state with attrs := update state.attrs node none }

def getDirCache (state : State Storage) (node : Nat) : Option (List Item) × State Storage :=
  ((load state.now state.dirs node).1, { state with dirs := (load state.now state.dirs node).2 })

def getAttrCache (state : State Storage) (node : Nat) : Option FileInfo × State Storage :=
  ((load state.now state.attrs node).1, { state with attrs := (load state.now state.attrs node).2 })

def send (state : State Storage) (request : Request) : Reply × State Storage :=
  ((fs.remote.serve state.storage request).2,
    { state with storage := (fs.remote.serve state.storage request).1 })

/-- `NewInode` for a node with the given listing. -/
def newInode (state : State Storage) (path : Bytes) (shown : Shown) (inode : Inode)
    (child : Option (Timed (List Item))) : Answer × State Storage :=
  match inode with
  | .fresh node =>
      (.attr (fs.inodeHash path) shown,
        { state with dirs := update state.dirs node child })
  | .known => (.attr (fs.inodeHash path) shown, state)
  | .refused => (.failed (some .eio), state)

/-- `WaitPrefetch`: the listing that was set before the channel was closed. -/
def waitPrefetch (state : State Storage) (item : Item) : Option (Option (List Dirent)) :=
  match item.chan with
  | none => some none
  | some chan => state.delivered chan

/-- The listing for the node of a subdirectory expires with that of its parent. -/
def subDirCache (state : State Storage) (father : Nat) (child : Option (List Dirent)) :
    Option (Timed (List Item)) :=
  match child, state.dirs father with
  | some items, some timed => some ⟨items.map fun item => ⟨item, none⟩, timed.expireAt⟩
  | _, _ => none

def lookup (state : State Storage) (node : Nat) (name : Bytes) (inode : Inode) :
    Option (Answer × State Storage) :=
  let p := join (state.paths node) name
  match state.getDirCache node with
  | (some items, state) =>
      match items.find? fun item => item.dirent.name = name with
      | none => some (.failed (some .enoent), state)
      | some item =>
          match state.waitPrefetch item with
          | none => none
          | some child =>
              some (state.newInode fs p (attrFromDirItem fs.fsIds item.dirent) inode
                (state.subDirCache node child))
  | (none, state) =>
      let (fi, code) := fs.remote.getAttr state.storage p
      if code ≠ errorOK then some (.failed (errnoFromCode code), state)
      else some (state.newInode fs p (attrFromFileInfo fs.fsIds fi) inode none)

def itemsOf : Nat → List Dirent → List Item
  | _, [] => []
  | chan, dirent :: rest =>
      if dirent.mode &&& modeDir ≠ 0 then ⟨dirent, some chan⟩ :: itemsOf (chan + 1) rest
      else ⟨dirent, none⟩ :: itemsOf chan rest

def listedItems (made : Nat) (listed : Listed) : List Item :=
  if listed.plus then itemsOf made listed.items else listed.items.map fun item => ⟨item, none⟩

/-- The path that `Readdir` sends. -/
def dirPath (path : Bytes) : Bytes :=
  if path.getLast? ≠ some slash then path ++ [slash] else path

def saveDirCache (state : State Storage) (node : Nat) (items : List Item) : State Storage :=
  { state with
    dirs := update state.dirs node
      (if items = [] then none else some ⟨items, state.now + fs.structTimeout⟩) }

def readdir (state : State Storage) (node : Nat) : Answer × State Storage :=
  match state.getDirCache node with
  | (some items, state) => (listing items, state)
  | (none, state) =>
      let listed := fs.remote.list state.storage (dirPath (state.paths node))
      if listed.code ≠ errorOK then (.failed (errnoFromCode listed.code), state)
      else
        let items := listedItems state.made listed
        (listing items,
          { state.saveDirCache fs node items with made := state.made + listed.items.length })

/-- `Getattr` without the number of the inode. -/
def getattr (state : State Storage) (node : Nat) :
    Except (Option Errno) Shown × State Storage :=
  match state.getAttrCache node with
  | (some fi, state) => (.ok (attrFromFileInfo fs.fsIds fi), state)
  | (none, state) =>
      let (fi, code) := fs.remote.getAttr state.storage (state.paths node)
      if code ≠ errorOK then (.error (errnoFromCode code), state)
      else
        (.ok (attrFromFileInfo fs.fsIds fi),
          { state with
            attrs := update state.attrs node
              (some ⟨fi, state.now + fs.structTimeout⟩) })

def answered (result : Answer × State Storage) : State Storage :=
  { result.2 with answers := result.2.answers ++ [result.1] }

def getattrAnswer (path : Bytes) : Except (Option Errno) Shown → Answer
  | .ok shown => .attr (fs.inodeHash path) shown
  | .error errno => .failed errno

/-- The requests of `Setattr`: by descriptor if it has a handle. -/
def setattrRequest (path : Bytes) (fd : Option UInt32) (orig : Shown) (input : SetAttrIn) : Request :=
  let fi := requestFi fs.fsIds (orig.uid, orig.gid) input
  match fd with
  | some fd => .setAttrByFD fd (requestFlag input) fi
  | none => .setAttr path (requestFlag input) fi

def setattr (state : State Storage) (node : Nat) (fd : Option UInt32) (input : SetAttrIn) :
    State Storage :=
  match state.getattr fs node with
  | (.error _, state) => state
  | (.ok orig, state) =>
      let (reply, state) := state.send fs (setattrRequest fs (state.paths node) fd orig input)
      if reply.code = errorOK then state.wipeAttrCache node else state

/-- The end of `Create`, `Mkdir` and `Symlink`. `Create` closes the file if the lookup has
failed. -/
def looked (opens : Bool) (fd : UInt32) : Answer × State Storage → State Storage
  | (.failed errno, state) =>
      if opens then answered (.failed errno, (state.send fs (.close fd)).2)
      else answered (.failed errno, state)
  | result => answered result

/-- The request of `Create`, `Mkdir` or `Symlink`, and the lookup after it. -/
def make (state : State Storage) (node : Nat) (name : Bytes) (inode : Inode) (request : Request)
    (opens : Bool) : Option (State Storage) :=
  let (reply, state) := state.send fs request
  if reply.code ≠ errorOK then some state
  else (state.lookup fs node name inode).map (looked fs opens reply.fd)

def call (state : State Storage) : Op → Option (State Storage)
  | .lookup node name inode => (state.lookup fs node name inode).map answered
  | .readdir node => some (answered (state.readdir fs node))
  | .getattr node =>
      let (result, next) := state.getattr fs node
      some (answered (getattrAnswer fs (state.paths node) result, next))
  | .create node name flags mode inode =>
      match fs.openFlagFromSys flags with
      | none => some (state.wipeDirCache node)
      | some wsfsFlag =>
          (state.wipeDirCache node).make fs node name inode
            (.open (join (state.paths node) name) (wsfsFlag ||| oCreat) mode) true
  | .mkdir node name mode inode =>
      (state.wipeDirCache node).make fs node name inode
        (.mkdir (join (state.paths node) name) mode) false
  | .symlink node target name inode =>
      if hasPrefix target fs.mountpoint then
        (state.wipeDirCache node).make fs node name inode
          (.symLink (target.drop fs.mountpoint.length) (join (state.paths node) name)) false
      else some (state.wipeDirCache node)
  | .unlink node name =>
      some ((state.wipeDirCache node).send fs (.remove (join (state.paths node) name))).2
  | .rmdir node name =>
      some ((state.wipeDirCache node).send fs (.rmDir (join (state.paths node) name))).2
  | .rename node name newParent newName flags =>
      match fs.renameFlagFromUnix flags with
      | none => some (state.wipeDirCache node)
      | some wsfsFlags =>
          some ((state.wipeDirCache node).send fs (.rename (join (state.paths node) name)
            (join (state.paths newParent) newName) wsfsFlags)).2
  | .open node flags =>
      match fs.openFlagFromSys flags with
      | none => some state
      | some wsfsFlag => some (state.send fs (.open (state.paths node) wsfsFlag 0o644)).2
  | .write node fd data off =>
      match fd with
      | none => some state
      | some fd => some ((state.wipeAttrCache node).send fs (.writeAt fd off data)).2
  | .flush node => some (state.wipeAttrCache node)
  | .release _ fd =>
      match fd with
      | none => some state
      | some fd => some (state.send fs (.close fd)).2
  | .setattr node fd input => some (state.setattr fs node fd input)

def drop (state : State Storage) (node : Nat) : State Storage :=
  (state.wipeDirCache node).wipeAttrCache node

def deliver (state : State Storage) (chan : Nat) (child : Option (List Dirent)) :
    Option (State Storage) :=
  if chan < state.made ∧ state.delivered chan = none then
    some { state with delivered := update state.delivered chan (some child) }
  else none

def forget (state : State Storage) : State Storage :=
  { state with
    dirs := fun _ => none
    attrs := fun _ => none
    made := 0
    delivered := fun _ => none }

end State

section Steps

variable {Storage : Type} (fs : FileSystem Storage)

def Op.admissible (op : Op) (state : State Storage) : Bool :=
  match op.adds with
  | none => true
  | some node => (state.dirs node).isNone && (state.attrs node).isNone

def step (state : State Storage) : Action → Option (State Storage)
  | .call op paths =>
      if op.admissible state then
        (state.call fs op).map fun next =>
          { next with paths := op.places state.paths paths }
      else none
  | .wait time => some { state with now := state.now + time }
  | .deliver chan child => state.deliver chan child
  | .drop node => some (state.drop node)

def bareStep (state : State Storage) (action : Action) : Option (State Storage) :=
  (step fs state.forget action).map State.forget

end Steps

/-! ### Coherence -/

/-- The client without caches has no channels to wait for, and nothing to drop. -/
def Action.visible : Action → Option Action
  | .call op paths => some (.call op paths)
  | .wait time => some (.wait time)
  | _ => none

section Coherence

variable {Storage : Type} (fs : FileSystem Storage) (asked : Bytes → Prop)

def bareInfo (storage : Storage) (path : Bytes) : Except (Option Errno) Shown :=
  let (fi, code) := fs.remote.getAttr storage path
  if code ≠ errorOK then .error (errnoFromCode code) else .ok (attrFromFileInfo fs.fsIds fi)

def bareListing (storage : Storage) (path : Bytes) : Answer :=
  let listed := fs.remote.list storage (State.dirPath path)
  if listed.code ≠ errorOK then .failed (errnoFromCode listed.code)
  else .listing (listed.items.map fun item => (item.name, item.mode))

def bareLookup (storage : Storage) (path : Bytes) (inode : Inode) : Answer :=
  match bareInfo fs storage path, inode with
  | .error errno, _ => .failed errno
  | .ok _, .refused => .failed (some .eio)
  | .ok shown, _ => .attr (fs.inodeHash path) shown

def childInfo (fsIds : FsIds) (items : List Item) (name : Bytes) : Except (Option Errno) Shown :=
  match items.find? fun item => item.dirent.name = name with
  | some item => .ok (attrFromDirItem fsIds item.dirent)
  | none => .error (some .enoent)

/-- The listing on a node says what the server says: about the directory where the node is,
and about the names in use. -/
structure AgreesDir (storage : Storage) (paths : Nat → Bytes) (node : Nat) (items : List Item) :
    Prop where
  child : ∀ name, asked name →
    bareInfo fs storage (join (paths node) name) = childInfo fs.fsIds items name
  listed : bareListing fs storage (paths node) = listing items

def AgreesAttr (storage : Storage) (paths : Nat → Bytes) (node : Nat) (fi : FileInfo) : Prop :=
  bareInfo fs storage (paths node) = .ok (attrFromFileInfo fs.fsIds fi)

/-- Neither the change of the storage nor the move of a node concerns the listing on it. -/
structure SparesDir (before after : Storage) (path newPath : Bytes) : Prop where
  child : ∀ name, asked name →
    bareInfo fs after (join newPath name) = bareInfo fs before (join path name)
  listed : bareListing fs after newPath = bareListing fs before path

def Op.kept (op : Op) (state : State Storage) : State Storage :=
  match op with
  | .create node _ _ _ _ | .mkdir node _ _ _ | .symlink node _ _ _ | .unlink node _ | .rmdir node _
  | .rename node _ _ _ _ => state.wipeDirCache node
  | .write node (some _) _ _ | .flush node => state.wipeAttrCache node
  | .setattr node fd input => state.setattr fs node fd input
  | _ => state

/-- The listings that an operation stores agree: that of `Readdir`, and a prefetched one that
`Lookup` hands to a new node. -/
def Stores (state : State Storage) (paths : Nat → Bytes) : Op → Prop
  | .readdir node =>
      let listed := fs.remote.list state.storage (State.dirPath (state.paths node))
      (load state.now state.dirs node).1 = none → listed.code = errorOK → listed.items ≠ [] →
        AgreesDir fs asked state.storage state.paths node (State.listedItems state.made listed)
  | .lookup node name (.fresh new) =>
      asked name ∧ ∀ timed item child, state.dirs node = some timed →
        state.now ≤ timed.expireAt →
        (timed.record.find? fun item => item.dirent.name = name) = some item →
        state.waitPrefetch item = some (some child) →
        AgreesDir fs asked state.storage paths new (child.map fun item => ⟨item, none⟩)
  | .lookup _ name _ => asked name
  | _ => True

/-- The unexpired caches that an operation leaves are spared by its change of the storage and
by the moves of the nodes. -/
def Careful (state : State Storage) : Action → Prop
  | .call op paths =>
      Stores fs asked state paths op ∧ ∀ next, state.call fs op = some next →
        ∀ node,
          (∀ timed, (op.kept fs state).dirs node = some timed → state.now ≤ timed.expireAt →
            SparesDir fs asked state.storage next.storage (state.paths node)
              (op.places state.paths paths node)) ∧
          ∀ timed, (op.kept fs state).attrs node = some timed → state.now ≤ timed.expireAt →
            bareInfo fs next.storage (op.places state.paths paths node) =
              bareInfo fs state.storage (state.paths node)
  | _ => True

end Coherence

/-! ### Caches agree -/

section Invariant

variable {Storage : Type} {fs : FileSystem Storage} {asked : Bytes → Prop}

/-- The caches of one state, for a storage and places of the nodes. -/
structure Sound (fs : FileSystem Storage) (asked : Bytes → Prop) (storage : Storage)
    (paths : Nat → Bytes) (state : State Storage) : Prop where
  dirs : Coherent (AgreesDir fs asked storage paths) state.now state.dirs
  attrs : Coherent (AgreesAttr fs storage paths) state.now state.attrs

variable {state next : State Storage} {storage : Storage} {paths : Nat → Bytes} {node : Nat}
  {name : Bytes} {inode : Inode} {op : Op} {before after : Storage} {newPaths : Nat → Bytes}
  {path : Bytes} {shown : Shown} {child : Option (Timed (List Item))}
  {result first second : Answer × State Storage} {other : State Storage} {request : Request}
  {opens : Bool}

theorem AgreesDir.spared {items : List Item} (agrees : AgreesDir fs asked before paths node items)
    (spares : SparesDir fs asked before after (paths node) (newPaths node)) :
    AgreesDir fs asked after newPaths node items := by
  constructor
  · intro name inUse
    exact (spares.child name inUse).trans (agrees.child name inUse)
  · exact spares.listed.trans agrees.listed

theorem Sound.spared (sound : Sound fs asked before paths state) (spared : ∀ node,
      (∀ timed, state.dirs node = some timed → state.now ≤ timed.expireAt →
        SparesDir fs asked before after (paths node) (newPaths node)) ∧
      ∀ timed, state.attrs node = some timed → state.now ≤ timed.expireAt →
        bareInfo fs after (newPaths node) = bareInfo fs before (paths node)) :
    Sound fs asked after newPaths state := by
  constructor
  · refine sound.dirs.change fun node timed found live agrees => ?_
    exact agrees.spared ((spared node).1 timed found live)
  · refine sound.attrs.change fun node timed found live agrees => ?_
    exact ((spared node).2 timed found live).trans agrees

theorem Sound.wipeDirCache (sound : Sound fs asked storage paths state) (node : Nat) :
    Sound fs asked storage paths (state.wipeDirCache node) :=
  ⟨sound.dirs.del node, sound.attrs⟩

theorem Sound.wipeAttrCache (sound : Sound fs asked storage paths state) (node : Nat) :
    Sound fs asked storage paths (state.wipeAttrCache node) :=
  ⟨sound.dirs, sound.attrs.del node⟩

theorem Sound.extend {kept : State Storage} (sound : Sound fs asked storage paths kept)
    (now : next.now = kept.now) (dirs : ∀ node timed, next.dirs node = some timed →
      kept.dirs node = some timed ∨ AgreesDir fs asked storage paths node timed.record)
    (attrs : ∀ node timed, next.attrs node = some timed → kept.attrs node = some timed) :
    Sound fs asked storage paths next := by
  constructor
  · intro node timed found live
    cases dirs node timed found with
    | inl old => exact sound.dirs node timed old (now ▸ live)
    | inr agrees => exact agrees
  · intro node timed found live
    exact sound.attrs node timed (attrs node timed found) (now ▸ live)

/-! ### Reading operations -/

/-- The result of a reading operation: the answer of the server, and nothing changed outside
of the caches. -/
structure Faithful {Result : Type} (state : State Storage) (answer : Result)
    (result : Result × State Storage) : Prop where
  answer : result.1 = answer
  forget : result.2.forget = state.forget

theorem getattr_faithful (sound : Sound fs asked state.storage state.paths state) (node : Nat) :
    Faithful state (bareInfo fs state.storage (state.paths node)) (state.getattr fs node) ∧
      Sound fs asked state.storage state.paths (state.getattr fs node).2 := by
  unfold State.getattr
  split
  · rename_i fi next loaded
    cases congrArg Prod.snd loaded
    have agrees := sound.attrs.loaded (congrArg Prod.fst loaded)
    exact ⟨⟨agrees.symm, rfl⟩, sound.dirs, sound.attrs.remains node⟩
  · rename_i next loaded
    cases congrArg Prod.snd loaded
    dsimp only
    split
    · rename_i failed
      exact ⟨⟨(if_pos failed).symm, rfl⟩, sound.dirs, sound.attrs.remains node⟩
    · rename_i code
      have info : bareInfo fs state.storage (state.paths node) =
          .ok (attrFromFileInfo fs.fsIds (fs.remote.getAttr state.storage (state.paths node)).1) :=
        if_neg code
      exact ⟨⟨info.symm, rfl⟩, sound.dirs, (sound.attrs.remains node).set info _⟩

theorem listing_itemsOf (chan : Nat) (dirents : List Dirent) :
    listing (State.itemsOf chan dirents) =
      .listing (dirents.map fun item => (item.name, item.mode)) := by
  have entries : ∀ chan, (State.itemsOf chan dirents).map Item.dirent = dirents := by
    induction dirents with
    | nil => intro chan; rfl
    | cons dirent rest ih =>
      intro chan
      rw [State.itemsOf]
      split
      · rw [List.map_cons, ih]
      · rw [List.map_cons, ih]
  unfold listing
  conv => rhs; rw [← entries chan]
  rw [List.map_map]
  rfl

theorem listing_listedItems (made : Nat) (listed : Listed) :
    listing (State.listedItems made listed) =
      .listing (listed.items.map fun item => (item.name, item.mode)) := by
  unfold State.listedItems
  split
  · exact listing_itemsOf made listed.items
  · unfold listing
    rw [List.map_map]
    rfl

theorem readdir_faithful (sound : Sound fs asked state.storage state.paths state)
    (stores : Stores fs asked state paths (.readdir node)) :
    Faithful state (bareListing fs state.storage (state.paths node)) (state.readdir fs node) ∧
      Sound fs asked state.storage state.paths (state.readdir fs node).2 := by
  unfold State.readdir
  split
  · rename_i items next loaded
    cases congrArg Prod.snd loaded
    have agrees := sound.dirs.loaded (congrArg Prod.fst loaded)
    exact ⟨⟨agrees.listed.symm, rfl⟩, sound.dirs.remains node, sound.attrs⟩
  · rename_i next loaded
    cases congrArg Prod.snd loaded
    dsimp only
    split
    · rename_i failed
      exact ⟨⟨(if_pos failed).symm, rfl⟩, sound.dirs.remains node, sound.attrs⟩
    · rename_i code
      refine ⟨⟨?_, rfl⟩, ?_, sound.attrs⟩
      · rw [bareListing]
        dsimp only
        rw [if_neg code]
        exact listing_listedItems _ _
      · unfold State.saveDirCache
        dsimp only
        split
        · exact (sound.dirs.remains node).del node
        · rename_i stored
          have agrees := stores (congrArg Prod.fst loaded) (not_not.mp code) fun empty => stored ?_
          · exact (sound.dirs.remains node).set agrees _
          · simp only [State.listedItems, empty, State.itemsOf, List.map_nil, ite_self]

theorem newInode_dirs {timed : Timed (List Item)}
    (found : (state.newInode fs path shown inode child).2.dirs node = some timed) :
    state.dirs node = some timed ∨ inode = .fresh node ∧ child = some timed := by
  cases inode with
  | known | refused => exact .inl found
  | fresh new =>
    cases update_eq_some found with
    | inl prepared =>
      obtain ⟨same, rfl⟩ := prepared
      exact .inr ⟨rfl, same⟩
    | inr old => exact .inl old.1

theorem newInode_attrs (state : State Storage) (path : Bytes) (shown : Shown) (inode : Inode)
    (child : Option (Timed (List Item))) :
    (state.newInode fs path shown inode child).2.attrs = state.attrs := by
  cases inode <;> rfl

theorem newInode_faithful (info : bareInfo fs state.storage path = .ok shown) :
    Faithful state (bareLookup fs state.storage path inode)
      (state.newInode fs path shown inode child) := by
  unfold bareLookup
  rw [info]
  cases inode with
  | fresh _ | known | refused => exact ⟨rfl, rfl⟩

theorem Stores.named (stores : Stores fs asked state paths (.lookup node name inode)) : asked name := by
  cases inode with
  | fresh new => exact stores.1
  | known | refused => exact stores

theorem lookup_miss (missing : (load state.now state.dirs node).1 = none)
    (called : state.lookup fs node name inode = some result) :
    Faithful state (bareLookup fs state.storage (join (state.paths node) name) inode) result ∧
      (∀ other timed, result.2.dirs other = some timed → state.dirs other = some timed) ∧
      result.2.attrs = state.attrs := by
  have notFound : state.getDirCache node = (none, (state.getDirCache node).2) :=
    Prod.ext missing rfl
  unfold State.lookup at called
  rw [notFound] at called
  dsimp only at called
  split at called
  · rename_i failed
    cases called
    have info : bareInfo fs state.storage (join (state.paths node) name) =
        .error (errnoFromCode (fs.remote.getAttr state.storage (join (state.paths node) name)).2) :=
      if_pos failed
    refine ⟨⟨?_, rfl⟩, fun _ _ found => load_kept found, rfl⟩
    unfold bareLookup
    rw [info]
    rfl
  · rename_i code
    cases called
    have info : bareInfo fs state.storage (join (state.paths node) name) =
        .ok (attrFromFileInfo fs.fsIds
          (fs.remote.getAttr state.storage (join (state.paths node) name)).1) := if_neg code
    have faithful := @newInode_faithful _ fs (state.getDirCache node).2 inode _ _ none info
    refine ⟨⟨faithful.answer, faithful.forget⟩, ?_, newInode_attrs _ _ _ _ _⟩
    intro other timed found
    cases newInode_dirs found with
    | inl old => exact load_kept old
    | inr prepared => cases prepared.2

theorem lookup_faithful (sound : Sound fs asked state.storage state.paths state)
    (stores : Stores fs asked state paths (.lookup node name inode))
    (called : state.lookup fs node name inode = some result) :
    Faithful state (bareLookup fs state.storage (join (state.paths node) name) inode) result ∧
      (∀ other timed, result.2.dirs other = some timed →
        state.dirs other = some timed ∨ AgreesDir fs asked state.storage paths other timed.record) ∧
      result.2.attrs = state.attrs := by
  cases loaded : (load state.now state.dirs node).1 with
  | none =>
    obtain ⟨faithful, dirs, attrs⟩ := lookup_miss loaded called
    exact ⟨faithful, fun other timed found => .inl (dirs other timed found), attrs⟩
  | some items =>
    obtain ⟨timed, atNode, live, rfl, same⟩ := load_some loaded
    have agrees := (sound.dirs node timed atNode live).child name stores.named
    have hit : state.getDirCache node = (some timed.record, state) := by
      unfold State.getDirCache
      rw [loaded, same]
    unfold State.lookup at called
    rw [hit] at called
    dsimp only at called
    unfold childInfo at agrees
    split at called
    · rename_i absent
      cases called
      rw [absent] at agrees
      refine ⟨⟨?_, rfl⟩, fun _ _ found => .inl found, rfl⟩
      unfold bareLookup
      rw [agrees]
    · rename_i item present
      rw [present] at agrees
      split at called
      · cases called
      · rename_i child waited
        cases called
        refine ⟨newInode_faithful agrees, ?_, newInode_attrs _ _ _ _ _⟩
        intro other found isFound
        cases newInode_dirs isFound with
        | inl old => exact .inl old
        | inr prepared =>
          obtain ⟨rfl, isChild⟩ := prepared
          unfold State.subDirCache at isChild
          split at isChild
          · rename_i listed father isFather
            cases isChild
            exact .inr (stores.2 timed item listed atNode live present waited)
          · cases isChild

/-! ### The client without caches -/

theorem lookup_forget (state : State Storage) (node : Nat) (name : Bytes) (inode : Inode) :
    ∃ result, state.forget.lookup fs node name inode = some result ∧
      Faithful state (bareLookup fs state.storage (join (state.paths node) name) inode) result := by
  have enabled : ∃ result, state.forget.lookup fs node name inode = some result := by
    unfold State.lookup
    dsimp only [State.getDirCache, State.forget, load]
    split <;> exact ⟨_, rfl⟩
  obtain ⟨result, called⟩ := enabled
  obtain ⟨faithful, _⟩ := lookup_miss rfl called
  exact ⟨result, called, faithful.answer, faithful.forget⟩

theorem readdir_forget (state : State Storage) (node : Nat) :
    Faithful state (bareListing fs state.storage (state.paths node))
      (state.forget.readdir fs node) := by
  unfold State.readdir bareListing
  dsimp only [State.getDirCache, State.forget, load]
  split
  · exact ⟨rfl, rfl⟩
  · exact ⟨listing_listedItems _ _, rfl⟩

theorem getattr_forget (sound : Sound fs asked state.storage state.paths state) (node : Nat) :
    (state.forget.getattr fs node).1 = (state.getattr fs node).1 ∧
      (state.forget.getattr fs node).2.forget = (state.getattr fs node).2.forget := by
  have cached := (getattr_faithful sound node).1
  have bareSound : Sound fs asked state.forget.storage state.forget.paths state.forget :=
    ⟨coherent_empty _ _, coherent_empty _ _⟩
  have bare := (getattr_faithful bareSound node).1
  exact ⟨bare.answer.trans cached.answer.symm, bare.forget.trans cached.forget.symm⟩

theorem forget_eq_iff :
    state.forget = other.forget ↔ state.storage = other.storage ∧ state.now = other.now ∧
      state.paths = other.paths ∧ state.answers = other.answers := by
  constructor
  · intro same
    unfold State.forget at same
    injection same with storage now paths _ _ _ _ answers
    exact ⟨storage, now, paths, answers⟩
  · rintro ⟨storage, now, paths, answers⟩
    unfold State.forget
    rw [storage, now, paths, answers]

theorem send_forget (same : state.forget = other.forget) (request : Request) :
    (state.send fs request).1 = (other.send fs request).1 ∧
      (state.send fs request).2.forget = (other.send fs request).2.forget := by
  obtain ⟨storage, now, paths, answers⟩ := forget_eq_iff.mp same
  unfold State.send
  rw [storage]
  exact ⟨rfl, forget_eq_iff.mpr ⟨rfl, now, paths, answers⟩⟩

theorem answered_forget (answer : first.1 = second.1) (same : first.2.forget = second.2.forget) :
    (State.answered first).forget = (State.answered second).forget := by
  obtain ⟨storage, now, paths, answers⟩ := forget_eq_iff.mp same
  refine forget_eq_iff.mpr ⟨storage, now, paths, ?_⟩
  unfold State.answered
  dsimp only
  rw [answers, answer]

theorem looked_forget (answer : first.1 = second.1) (same : first.2.forget = second.2.forget)
    (opens : Bool) (fd : UInt32) :
    (State.looked fs opens fd first).forget = (State.looked fs opens fd second).forget := by
  obtain ⟨firstAnswer, state⟩ := first
  obtain ⟨secondAnswer, other⟩ := second
  cases answer
  cases firstAnswer with
  | attr _ _ | listing _ => exact answered_forget rfl same
  | failed errno =>
    unfold State.looked
    dsimp only
    split
    · exact answered_forget rfl (send_forget same _).2
    · exact answered_forget rfl same

theorem looked_caches (opens : Bool) (fd : UInt32) (result : Answer × State Storage) :
    (State.looked fs opens fd result).dirs = result.2.dirs ∧
      (State.looked fs opens fd result).attrs = result.2.attrs ∧
      (State.looked fs opens fd result).now = result.2.now := by
  obtain ⟨answer, state⟩ := result
  cases answer with
  | attr _ _ | listing _ => exact ⟨rfl, rfl, rfl⟩
  | failed errno =>
    unfold State.looked
    dsimp only
    split <;> exact ⟨rfl, rfl, rfl⟩

theorem wipeDirCache_forget (state : State Storage) (node : Nat) :
    state.forget.wipeDirCache node = (state.wipeDirCache node).forget := by
  have empty : update (fun _ => none : Nat → Option (Timed (List Item))) node none =
      fun _ => none := update_eq_self node _
  unfold State.wipeDirCache State.forget
  dsimp only
  rw [empty]

/-- `Create`, `Mkdir` and `Symlink` have wiped the listing, so both clients ask the server. -/
theorem make_simulated
    (made : (state.wipeDirCache node).make fs node name inode request opens = some next) :
    (∃ bare, (state.forget.wipeDirCache node).make fs node name inode request opens = some bare ∧
      bare.forget = next.forget) ∧
    next.now = state.now ∧
    (∀ other timed, next.dirs other = some timed →
      (state.wipeDirCache node).dirs other = some timed) ∧
    next.attrs = state.attrs := by
  have missing : (state.wipeDirCache node).dirs node = none := update_self _ _ _
  rw [wipeDirCache_forget]
  change _ ∧ next.now = (state.wipeDirCache node).now ∧ _ ∧ next.attrs = (state.wipeDirCache node).attrs
  generalize state.wipeDirCache node = state at made missing
  unfold State.make at made ⊢
  dsimp only at made ⊢
  have sent := @send_forget _ fs state.forget state rfl request
  rw [sent.1]
  by_cases code : (state.send fs request).1.code ≠ errorOK
  · rw [if_pos code] at made ⊢
    cases made
    exact ⟨⟨_, rfl, sent.2⟩, rfl, fun _ _ found => found, rfl⟩
  · rw [if_neg code] at made ⊢
    obtain ⟨result, called, rfl⟩ := Option.map_eq_some_iff.mp made
    have missed : (load state.now state.dirs node).1 = none := by
      unfold load
      rw [missing]
    obtain ⟨faithful, dirs, attrs⟩ := @lookup_miss _ _ (state.send fs request).2 _ _ _ _ missed called
    obtain ⟨bare, bareCalled, bareFaithful⟩ :=
      @lookup_forget _ fs (state.send fs request).2 node name inode
    obtain ⟨sameDirs, sameAttrs, sameNow⟩ := looked_caches opens (state.send fs request).1.fd result
    refine ⟨⟨_, ?_, looked_forget (bareFaithful.answer.trans faithful.answer.symm)
      (bareFaithful.forget.trans faithful.forget.symm) opens _⟩, ?_, ?_, sameAttrs.trans attrs⟩
    · exact congrArg (Option.map _) bareCalled
    · exact sameNow.trans (forget_eq_iff.mp faithful.forget).2.1
    · intro other timed found
      rw [sameDirs] at found
      exact dirs other timed found

/-! ### Steps and runs -/

variable (sound : Sound fs asked state.storage state.paths state)
include sound

theorem setattr_sound (node : Nat) (fd : Option UInt32) (input : SetAttrIn) :
    Sound fs asked state.storage state.paths (state.setattr fs node fd input) := by
  have read := (getattr_faithful sound node).2
  unfold State.setattr
  split
  · rename_i errno next got
    rw [got] at read
    exact read
  · rename_i orig next got
    rw [got] at read
    dsimp only
    split
    · exact ⟨read.dirs, read.attrs.del node⟩
    · exact ⟨read.dirs, read.attrs⟩

theorem setattr_forget (node : Nat) (fd : Option UInt32) (input : SetAttrIn) :
    (state.forget.setattr fs node fd input).forget = (state.setattr fs node fd input).forget := by
  obtain ⟨answer, same⟩ := getattr_forget sound node
  unfold State.setattr
  cases gotBare : state.forget.getattr fs node with
  | mk bareResult bareNext =>
    cases got : state.getattr fs node with
    | mk result next =>
      rw [gotBare, got] at answer same
      cases answer
      cases bareResult with
      | error errno => exact same
      | ok orig =>
        dsimp only at same ⊢
        obtain ⟨_, _, paths, _⟩ := forget_eq_iff.mp same
        rw [paths]
        have sent := @send_forget _ fs _ _ same
          (State.setattrRequest fs (next.paths node) fd orig input)
        rw [sent.1]
        split
        · exact sent.2
        · exact sent.2

theorem kept_now (op : Op) :
    (op.kept fs state).now = state.now := by
  cases op with
  | setattr node fd input =>
    have read := (forget_eq_iff.mp (getattr_faithful sound node).1.forget).2.1
    simp only [Op.kept, State.setattr]
    split
    · rename_i errno next got
      rw [got] at read
      exact read
    · rename_i orig next got
      rw [got] at read
      split <;> exact read
  | write node fd data off => cases fd <;> rfl
  | _ => rfl

theorem kept_sound (op : Op) :
    Sound fs asked state.storage state.paths (op.kept fs state) := by
  cases op with
  | create node | mkdir node | symlink node | unlink node | rmdir node | rename node =>
    exact sound.wipeDirCache node
  | write node fd data off =>
    cases fd with
    | none => exact sound
    | some fd => exact sound.wipeAttrCache node
  | flush node => exact sound.wipeAttrCache node
  | setattr node fd input => exact setattr_sound sound node fd input
  | _ => exact sound

omit sound

/-- Both clients have come to the same state outside of the caches, and the caches agree with
the storage and the places of the nodes after the operation. -/
structure Simulated (fs : FileSystem Storage) (asked : Bytes → Prop) (state : State Storage)
    (op : Op) (after : Nat → Bytes) (next : State Storage) : Prop where
  bare : ∃ bare, state.forget.call fs op = some bare ∧ bare.forget = next.forget
  sound : Sound fs asked next.storage after next

/-- The caches after an operation are those that it leaves, apart from listings that agree. -/
theorem simulated_of_kept (sound : Sound fs asked state.storage state.paths state)
    (careful : Careful fs asked state (.call op paths)) (called : state.call fs op = some next)
    (bare : ∃ bare, state.forget.call fs op = some bare ∧ bare.forget = next.forget)
    (now : next.now = state.now)
    (dirs : ∀ node timed, next.dirs node = some timed → (op.kept fs state).dirs node = some timed ∨
      AgreesDir fs asked next.storage (op.places state.paths paths) node timed.record)
    (attrs : ∀ node timed, next.attrs node = some timed →
      (op.kept fs state).attrs node = some timed) :
    Simulated fs asked state op (op.places state.paths paths) next := by
  refine ⟨bare, ?_⟩
  have spared := careful.2 next called
  have keptNow := kept_now sound op
  have kept : Sound fs asked next.storage (op.places state.paths paths)
      (op.kept fs state) := by
    apply (kept_sound sound op).spared
    rw [keptNow]
    exact spared
  exact kept.extend (now.trans keptNow.symm) dirs attrs

theorem simulated_of_effect (effect : State Storage → State Storage)
    (sound : Sound fs asked state.storage state.paths state)
    (careful : Careful fs asked state (.call op paths)) (called : state.call fs op = some next)
    (calls : ∀ state : State Storage, state.call fs op = some (effect state))
    (bare : (effect state.forget).forget = (effect state).forget) (now : (effect state).now = state.now)
    (dirs : (effect state).dirs = (op.kept fs state).dirs)
    (attrs : (effect state).attrs = (op.kept fs state).attrs) :
    Simulated fs asked state op (op.places state.paths paths) next := by
  cases (calls state).symm.trans called
  refine simulated_of_kept sound careful called ⟨_, calls state.forget, bare⟩ now ?_ ?_
  · intro node timed found
    exact .inl (dirs ▸ found)
  · intro node timed found
    exact attrs ▸ found

variable (sound : Sound fs asked state.storage state.paths state)
include sound

theorem simulated_of_make (careful : Careful fs asked state (.call op paths)) (called : state.call fs op = some next)
    (kept : op.kept fs state = state.wipeDirCache node)
    (isMake : state.call fs op = (state.wipeDirCache node).make fs node name inode request opens)
    (isBareMake : state.forget.call fs op =
      (state.forget.wipeDirCache node).make fs node name inode request opens) :
    Simulated fs asked state op (op.places state.paths paths) next := by
  obtain ⟨bare, now, dirs, attrs⟩ := make_simulated (isMake.symm.trans called)
  rw [← isBareMake] at bare
  refine simulated_of_kept sound careful called bare now ?_ ?_
  · intro other timed found
    rw [kept]
    exact .inl (dirs other timed found)
  · intro other timed found
    rw [kept]
    exact attrs ▸ found

theorem lookup_simulated (careful : Careful fs asked state (.call (.lookup node name inode) paths))
    (called : state.call fs (.lookup node name inode) = some next) :
    Simulated fs asked state (.lookup node name inode) paths next := by
  obtain ⟨result, looked, rfl⟩ := Option.map_eq_some_iff.mp called
  obtain ⟨faithful, dirs, attrs⟩ := lookup_faithful sound careful.1 looked
  obtain ⟨bare, bareLooked, bareFaithful⟩ := @lookup_forget _ fs state node name inode
  obtain ⟨storage, now, _, _⟩ := forget_eq_iff.mp faithful.forget
  refine simulated_of_kept sound careful called ?_ now ?_ ?_
  · exact ⟨_, congrArg (Option.map _) bareLooked,
      answered_forget (bareFaithful.answer.trans faithful.answer.symm)
        (bareFaithful.forget.trans faithful.forget.symm)⟩
  · intro other timed found
    have agrees := dirs other timed found
    rw [← storage] at agrees
    exact agrees
  · intro other timed found
    exact attrs ▸ found

theorem readdir_simulated (stores : Stores fs asked state paths (.readdir node))
    (called : state.call fs (.readdir node) = some next) :
    Simulated fs asked state (.readdir node) state.paths next := by
  cases called
  obtain ⟨faithful, soundNext⟩ := readdir_faithful sound stores
  have bare := @readdir_forget _ fs state node
  obtain ⟨storage, _, _, _⟩ := forget_eq_iff.mp faithful.forget
  refine ⟨⟨_, rfl, answered_forget (bare.answer.trans faithful.answer.symm)
    (bare.forget.trans faithful.forget.symm)⟩, ?_⟩
  rw [← storage] at soundNext
  exact ⟨soundNext.dirs, soundNext.attrs⟩

theorem getattr_simulated (called : state.call fs (.getattr node) = some next) :
    Simulated fs asked state (.getattr node) state.paths next := by
  cases called
  obtain ⟨faithful, soundNext⟩ := getattr_faithful sound node
  obtain ⟨answer, same⟩ := getattr_forget sound node
  obtain ⟨storage, _, _, _⟩ := forget_eq_iff.mp faithful.forget
  refine ⟨⟨_, rfl, answered_forget (congrArg (State.getattrAnswer fs _) answer) same⟩, ?_⟩
  rw [← storage] at soundNext
  exact ⟨soundNext.dirs, soundNext.attrs⟩

theorem call_simulated (careful : Careful fs asked state (.call op paths))
    (called : state.call fs op = some next) :
    Simulated fs asked state op (op.places state.paths paths) next := by
  cases op with
  | lookup node name inode => exact lookup_simulated sound careful called
  | readdir node => exact readdir_simulated sound careful.1 called
  | getattr node => exact getattr_simulated sound called
  | create node name flags mode inode =>
    cases flag : fs.openFlagFromSys flags with
    | none =>
      have wipes (state : State Storage) : state.call fs (.create node name flags mode inode) =
          some (state.wipeDirCache node) := by
        simp only [State.call, flag]
      exact simulated_of_effect _ sound careful called wipes rfl rfl rfl rfl
    | some wsfsFlag =>
      have makes (state : State Storage) : state.call fs (.create node name flags mode inode) =
          (state.wipeDirCache node).make fs node name inode
            (.open (join (state.paths node) name) (wsfsFlag ||| oCreat) mode) true := by
        simp only [State.call, flag]
      exact simulated_of_make sound careful called rfl (makes state) (makes state.forget)
  | mkdir node name mode inode => exact simulated_of_make sound careful called rfl rfl rfl
  | symlink node target name inode =>
    by_cases inside : hasPrefix target fs.mountpoint
    · have makes (state : State Storage) : state.call fs (.symlink node target name inode) =
          (state.wipeDirCache node).make fs node name inode
            (.symLink (target.drop fs.mountpoint.length) (join (state.paths node) name)) false := by
        simp only [State.call, if_pos inside]
      exact simulated_of_make sound careful called rfl (makes state) (makes state.forget)
    · have wipes (state : State Storage) : state.call fs (.symlink node target name inode) =
          some (state.wipeDirCache node) := by
        simp only [State.call, if_neg inside]
      exact simulated_of_effect _ sound careful called wipes rfl rfl rfl rfl
  | unlink _ _ | rmdir _ _ | flush _ =>
    exact simulated_of_effect _ sound careful called (fun _ => rfl) rfl rfl rfl rfl
  | rename node name newParent newName flags =>
    cases flag : fs.renameFlagFromUnix flags with
    | none =>
      have wipes (state : State Storage) :
          state.call fs (.rename node name newParent newName flags) =
            some (state.wipeDirCache node) := by
        simp only [State.call, flag]
      exact simulated_of_effect _ sound careful called wipes rfl rfl rfl rfl
    | some wsfsFlags =>
      have sends (state : State Storage) :
          state.call fs (.rename node name newParent newName flags) =
            some ((state.wipeDirCache node).send fs (.rename (join (state.paths node) name)
              (join (state.paths newParent) newName) wsfsFlags)).2 := by
        simp only [State.call, flag]
      exact simulated_of_effect _ sound careful called sends rfl rfl rfl rfl
  | «open» node flags =>
    cases flag : fs.openFlagFromSys flags with
    | none =>
      have stays (state : State Storage) : state.call fs (.open node flags) = some state := by
        simp only [State.call, flag]
      exact simulated_of_effect _ sound careful called stays rfl rfl rfl rfl
    | some wsfsFlag =>
      have sends (state : State Storage) : state.call fs (.open node flags) =
          some (state.send fs (.open (state.paths node) wsfsFlag 0o644)).2 := by
        simp only [State.call, flag]
      exact simulated_of_effect _ sound careful called sends rfl rfl rfl rfl
  | write node fd data off =>
    cases fd with
    | none | some _ => exact simulated_of_effect _ sound careful called (fun _ => rfl) rfl rfl rfl rfl
  | release node fd =>
    cases fd with
    | none | some _ => exact simulated_of_effect _ sound careful called (fun _ => rfl) rfl rfl rfl rfl
  | setattr node fd input =>
    exact simulated_of_effect _ sound careful called (fun _ => rfl)
      (setattr_forget sound node fd input) (kept_now sound (.setattr node fd input)) rfl rfl

omit sound

/-- The client without caches stands where the other one stands. -/
def Beside (fs : FileSystem Storage) (asked : Bytes → Prop) (state other : State Storage) : Prop :=
  other = state.forget ∧ Sound fs asked state.storage state.paths state

theorem step_simulated (state : State Storage) (action : Action) (next other : State Storage)
    (beside : Beside fs asked state other) (careful : Careful fs asked state action)
    (stepped : step fs state action = some next) :
    (action.visible = none → Beside fs asked next other) ∧
      ∀ seen, action.visible = some seen →
        ∃ after, bareStep fs other seen = some after ∧ Beside fs asked next after := by
  obtain ⟨rfl, sound⟩ := beside
  cases action with
  | call op paths =>
    refine ⟨nofun, ?_⟩
    rintro seen ⟨⟩
    simp only [step] at stepped
    split at stepped
    · obtain ⟨middle, called, rfl⟩ := Option.map_eq_some_iff.mp stepped
      obtain ⟨⟨bare, bareCalled, same⟩, soundMiddle⟩ := call_simulated sound careful called
      obtain ⟨storage, now, _, answers⟩ := forget_eq_iff.mp same
      have admissible : op.admissible state.forget = true := by
        unfold Op.admissible
        cases op.adds <;> rfl
      refine ⟨_, ?_, rfl, soundMiddle.dirs, soundMiddle.attrs⟩
      simp only [bareStep, step]
      rw [show state.forget.forget = state.forget from rfl, admissible, if_pos rfl, bareCalled]
      exact congrArg some (forget_eq_iff.mpr ⟨storage, now, rfl, answers⟩)
    · cases stepped
  | wait time =>
    refine ⟨nofun, ?_⟩
    rintro seen ⟨⟩
    cases stepped
    exact ⟨_, rfl, rfl, sound.dirs.wait time, sound.attrs.wait time⟩
  | deliver chan child =>
    refine ⟨fun _ => ?_, nofun⟩
    simp only [step, State.deliver] at stepped
    split at stepped
    · cases stepped
      exact ⟨rfl, sound.dirs, sound.attrs⟩
    · cases stepped
  | drop node =>
    refine ⟨fun _ => ?_, nofun⟩
    cases stepped
    exact ⟨rfl, sound.dirs.del node, sound.attrs.del node⟩

end Invariant

/-- `Lookup`, `Getattr` and `Readdir` answer what the client without caches answers: in every
run in which listings are stored only while they agree with the server, and neither a change
of the storage nor a move of a node concerns the unexpired caches that an operation leaves. -/
theorem answers_as_with_empty_caches {Storage : Type} (fs : FileSystem Storage)
    (asked : Bytes → Prop) (storage : Storage) (paths : Nat → Bytes) (actions : List Action)
    (last : State Storage)
    (careful : Guarded (step fs) (Careful fs asked) (initial storage paths) actions)
    (reached : run (step fs) (initial storage paths) actions = some last) :
    ∃ bare, run (bareStep fs) (initial storage paths) (actions.filterMap Action.visible) =
        some bare ∧ bare.answers = last.answers := by
  have beside : Beside fs asked (initial storage paths) (initial storage paths) :=
    ⟨rfl, coherent_empty _ _, coherent_empty _ _⟩
  obtain ⟨bare, bareReached, rfl, _⟩ :=
    run_simulates (bareStep fs) Action.visible step_simulated beside careful reached
  exact ⟨_, bareReached, rfl⟩

/-! ### A file and its directory -/

private def oneFileSystem : FileSystem UInt64 where
  remote := oneFile
  mountpoint := []
  fsIds := ⟨1000, 1000, 65534, 65534⟩
  structTimeout := 10
  inodeHash path := path.length.toUInt64
  openFlagFromSys := some
  renameFlagFromUnix := some

private def places (node : Nat) : Bytes := if node = 0 then rootPath else filePath

private def writeThenLookup : List Action :=
  [.call (.open 1 oWronly) places, .call (.write 1 (some 3) [7] 0) places, .call (.readdir 0) places,
    .wait 5, .call (.lookup 0 fileName .known) places]

private theorem rootListing_agrees :
    AgreesDir oneFileSystem (· = fileName) 1 places 0 [⟨fileItem 1, none⟩] := by
  constructor
  · rintro name rfl
    decide
  · decide

private theorem writeThenLookup_careful :
    Guarded (step oneFileSystem) (Careful oneFileSystem (· = fileName)) (initial 0 places)
      writeThenLookup := by
  refine .cons rfl ⟨trivial, ?_⟩ ?_
  · rintro next ⟨⟩ node
    exact ⟨nofun, nofun⟩
  refine .cons rfl ⟨trivial, ?_⟩ ?_
  · rintro next ⟨⟩ node
    refine ⟨nofun, ?_⟩
    intro timed found
    cases update_eq_some found with
    | inl wiped => cases wiped.1
    | inr old => cases old.1
  refine .cons rfl ⟨fun _ _ _ => rootListing_agrees, ?_⟩ ?_
  · rintro next ⟨⟩ node
    exact ⟨fun _ _ _ => ⟨fun _ _ => rfl, rfl⟩, fun _ _ _ => rfl⟩
  refine .cons rfl trivial ?_
  refine .cons rfl ⟨rfl, ?_⟩ trivial
  rintro next ⟨⟩ node
  exact ⟨fun _ _ _ => ⟨fun _ _ => rfl, rfl⟩, fun _ _ _ => rfl⟩

theorem answers_as_with_empty_caches_writeThenLookup :
    ∃ last bare,
      run (step oneFileSystem) (initial 0 places) writeThenLookup = some last ∧
      run (bareStep oneFileSystem) (initial 0 places) (writeThenLookup.filterMap Action.visible) =
        some bare ∧
      last.answers = [.listing [(fileName, 0o644)],
        .attr 2 (attrFromFileInfo oneFileSystem.fsIds (sized 1))] ∧
      bare.answers = last.answers := by
  obtain ⟨last, reached, answers⟩ : ∃ last,
      run (step oneFileSystem) (initial 0 places) writeThenLookup = some last ∧
        last.answers = [.listing [(fileName, 0o644)],
          .attr 2 (attrFromFileInfo oneFileSystem.fsIds (sized 1))] := ⟨_, rfl, by decide⟩
  obtain ⟨bare, bareReached, same⟩ := answers_as_with_empty_caches oneFileSystem (· = fileName) 0
    places writeThenLookup last writeThenLookup_careful reached
  exact ⟨last, bare, reached, bareReached, answers, same⟩

private def listThenWrite : List Action :=
  [.call (.lookup 0 fileName (.fresh 1)) places, .call (.open 1 oWronly) places,
    .call (.readdir 0) places, .call (.write 1 (some 3) [7] 0) places,
    .call (.lookup 0 fileName .known) places]

/-- A directory is listed, and a file in it is written. The directory still says what size
the file had before. -/
theorem listed_size_outlives_write :
    ∃ last bare,
      run (step oneFileSystem) (initial 0 places) listThenWrite = some last ∧
      run (bareStep oneFileSystem) (initial 0 places) listThenWrite = some bare ∧
      last.answers = [.attr 2 (attrFromFileInfo oneFileSystem.fsIds (sized 0)),
        .listing [(fileName, 0o644)],
        .attr 2 (attrFromFileInfo oneFileSystem.fsIds (sized 0))] ∧
      bare.answers = [.attr 2 (attrFromFileInfo oneFileSystem.fsIds (sized 0)),
        .listing [(fileName, 0o644)],
        .attr 2 (attrFromFileInfo oneFileSystem.fsIds (sized 1))] ∧
      last.answers ≠ bare.answers := by
  refine ⟨_, _, rfl, rfl, ?_, ?_, ?_⟩
  all_goals decide

end Wsfs.Mount.Nodes
