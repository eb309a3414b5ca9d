/-
The file system calls of the WebDAV handlers, over trees of files, directories and
symbolic links. A path string leads along its components; redundant slashes are nothing
to it, and a slash at the end asks for a directory. `RemoveAll`, `Mkdir` and `Rename` act
on the entry itself where it is a link, the other calls on what the link leads to.

Any call may fail for a reason of its own, such as a permission or an I/O error: which
calls do is up to the system, and so is what a failed `RemoveAll` has removed by then,
what a failed copy has written, and the order in which a directory is listed.
-/

import Wsfs.Base.Resolution
import Wsfs.Util.Path

namespace Wsfs.Webdav

open Wsfs.Base Wsfs.Util

inductive Errno
  | noent
  | notdir
  | isdir
  | exist
  | inval
  | loop
  | other (code : Nat)
deriving DecidableEq, Repr

def Errno.ofWalk : WalkError → Errno
  | .missing => .noent
  | .notDir => .notdir
  | .loop => .loop

abbrev Tree := FileTree UInt32 Bytes FileName

abbrev FileNode := Node UInt32 Bytes FileName

/-- Calls are counted, and every answer may depend on the count. -/
structure Os where
  fault : Nat → Option Nat
  removedPartly : Nat → List (List FileName)
  copiedPartly : Nat → Nat
  umask : UInt32
  order : Nat → List FileName → List FileName
  order_perm : ∀ count names, (order count names).Perm names

/-- `removed` lists the subtrees that have gone, the last one first. An open directory
knows by it whether it still exists. -/
structure World where
  tree : Tree
  calls : Nat
  removed : List (List FileName)

abbrev OsM := StateM World

structure Handle where
  place : List FileName
  node : FileNode
  removedBefore : Nat

variable {α : Type}

def endsWithSlash (path : Bytes) : Bool := path.getLast? == some slash

def nodePerm : FileNode → UInt32
  | .file perm _ => perm
  | .dir perm => perm
  | .link _ _ => 0o777

def nodeContent : FileNode → Bytes
  | .file _ content => content
  | _ => []

/-! ### The tree behind the calls -/

/-- So many links Linux follows in one path. -/
def maxLinks : Nat := 40

def leads (tree : Tree) (follow : Bool) (path : Bytes) : Except WalkError (Reached FileName) :=
  tree.leads maxLinks follow (components path)

def lookup (tree : Tree) (path : Bytes) : Except Errno (List FileName × FileNode) :=
  match leads tree true path with
  | .error error => .error (.ofWalk error)
  | .ok reached =>
      match tree.node reached.place with
      | none => .error .noent
      | some node =>
          if endsWithSlash path ∧ node.isDir = false then .error .notdir
          else .ok (reached.place, node)

def setNode (tree : Tree) (place : List FileName) (node : FileNode) : Except Errno Tree :=
  match place.getLast? with
  | none => .error .exist
  | some name =>
      if dir : tree.IsDir place.dropLast then
        if leaf : tree.names (place.dropLast ++ [name]) = [] then
          .ok (tree.put place.dropLast name node dir leaf)
        else .error .isdir
      else .error .noent

def makeDir (tree : Tree) (path : Bytes) (perm : UInt32) : Except Errno Tree :=
  match leads tree false path with
  | .error error => .error (.ofWalk error)
  | .ok reached =>
      if (tree.node reached.place).isSome then .error .exist
      else setNode tree reached.place (.dir perm)

/-- `O_CREATE|O_TRUNC`: a file that is there keeps its permissions, and a link that leads
nowhere gets its file. The place is that of the file. -/
def createFile (tree : Tree) (path : Bytes) (perm : UInt32) :
    Except Errno (List FileName × Tree) :=
  if endsWithSlash path then .error .isdir
  else
    match leads tree true path with
    | .error error => .error (.ofWalk error)
    | .ok reached =>
        let written (perm : UInt32) :=
          (setNode tree reached.place (.file perm [])).map (Prod.mk reached.place)
        match tree.node reached.place with
        | some (.dir _) => .error .isdir
        | some (.link _ _) => .error .loop
        | some (.file old _) => written old
        | none => written perm

/-- Nothing comes between the opening of a file and a write to it, so the file is at
its place. -/
def writeFile (tree : Tree) (place : List FileName) (content : Bytes) : Tree :=
  match tree.node place with
  | some (.file perm _) =>
      match setNode tree place (.file perm content) with
      | .ok written => written
      | .error _ => tree
  | _ => tree

def moveTree (tree : Tree) (source target : List FileName) : Except Errno Tree :=
  match target.getLast? with
  | none => .error .exist
  | some name =>
      if outside : ¬source <+: target.dropLast ++ [name] then
        if dir : tree.IsDir target.dropLast then
          if present : (tree.node source).isSome = true then
            .ok (tree.move source target.dropLast name present dir outside)
          else .error .noent
        else .error .noent
      else .error .inval

/-- `os.Rename` refuses a directory at the new path before the system is asked. -/
def renameTree (tree : Tree) (src dst : Bytes) : Except Errno Tree :=
  match leads tree false src, leads tree false dst with
  | .error error, _ => .error (.ofWalk error)
  | _, .error error => .error (.ofWalk error)
  | .ok source, .ok target =>
      match tree.node source.place with
      | none => .error .noent
      | some node =>
          if endsWithSlash src ∧ node.isDir = false then .error .notdir
          else if target.place = source.place then .ok tree
          else if tree.IsDir target.place then .error .exist
          else if node.isDir = false ∧ endsWithSlash dst then .error .notdir
          else if node.isDir ∧ (tree.node target.place).isSome then .error .notdir
          else moveTree tree source.place target.place

/-! ### Calls -/

def World.start (tree : Tree) : World := ⟨tree, 0, []⟩

namespace Os

def calm : Os := ⟨fun _ => none, fun _ => [], fun _ => 0, 0, fun _ names => names, fun _ _ => .rfl⟩

variable (os : Os)

/-- One call: a fault of the system, with what the call has done by then, or its proper
answer. -/
def call (faulted : World → World) (answer : World → Except Errno α × World) :
    OsM (Except Errno α) := fun world =>
  let counted := { world with calls := world.calls + 1 }
  match os.fault world.calls with
  | some code => (.error (.other code), faulted counted)
  | none => answer counted

def ask (answer : World → Except Errno α) : OsM (Except Errno α) :=
  os.call id fun world => (answer world, world)

/-- A call that puts a new tree in place, or fails without effect. -/
def change (result : Tree → Except Errno (α × Tree)) : OsM (Except Errno α) :=
  os.call id fun world =>
    match result world.tree with
    | .error error => (.error error, world)
    | .ok (value, tree) => (.ok value, { world with tree := tree })

/-- `os.OpenFile(path, os.O_RDONLY, 0)` -/
def openFile (path : Bytes) : OsM (Except Errno Handle) :=
  os.ask fun world =>
    match lookup world.tree path with
    | .error error => .error error
    | .ok (place, node) => .ok ⟨place, node, world.removed.length⟩

/-- `File.Stat` -/
def fileStat (file : Handle) : OsM (Except Errno FileNode) := os.ask fun _ => .ok file.node

def stat (path : Bytes) : OsM (Except Errno FileNode) :=
  os.ask fun world => (lookup world.tree path).map Prod.snd

/-- A path that leads nowhere is nothing to remove. -/
def removeAll (path : Bytes) : OsM (Except Errno Unit) :=
  os.call
    (fun world =>
      match leads world.tree false path with
      | .error _ => world
      | .ok victim =>
          { world with tree := world.tree.removeSome victim.place (os.removedPartly world.calls) })
    fun world =>
      match leads world.tree false path with
      | .error .missing => (.ok (), world)
      | .error error => (.error (.ofWalk error), world)
      | .ok victim =>
          (.ok (), { world with
            tree := world.tree.remove victim.place
            removed := victim.place :: world.removed })

def mkdir (path : Bytes) (perm : UInt32) : OsM (Except Errno Unit) :=
  os.change fun tree => (makeDir tree path (perm &&& ~~~os.umask)).map (Prod.mk ())

/-- `File.Readdir(-1)`, which fails on a directory that has been removed. -/
def readdir (file : Handle) : OsM (Except Errno (List FileName)) :=
  os.ask fun world =>
    let since := world.removed.take (world.removed.length - file.removedBefore)
    if since.any fun removed => removed.isPrefixOf file.place then .error .noent
    else .ok (os.order world.calls (world.tree.names file.place))

/-- `os.OpenFile(path, os.O_RDWR|os.O_CREATE|os.O_TRUNC, perm)` -/
def create (path : Bytes) (perm : UInt32) : OsM (Except Errno (List FileName)) :=
  os.change fun tree => createFile tree path (perm &&& ~~~os.umask)

/-- `io.Copy` into an open file. -/
def copyContent (place : List FileName) (content : Bytes) : OsM (Except Errno Unit) :=
  os.call
    (fun world =>
      { world with
        tree := writeFile world.tree place (content.take (os.copiedPartly world.calls)) })
    fun world => (.ok (), { world with tree := writeFile world.tree place content })

def close : OsM (Except Errno Unit) := os.ask fun _ => .ok ()

def rename (src dst : Bytes) : OsM (Except Errno Unit) :=
  os.change fun tree => (renameTree tree src dst).map (Prod.mk ())

end Os

end Wsfs.Webdav
