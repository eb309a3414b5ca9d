/-
Every path that a request can make the server use: the WSFS commands that take paths, the
path of an HTTP request, and the destination of a COPY or MOVE. Each is checked by
`IsUrlValid` and appended to the root of the user's storage, and what the handlers derive
from it stays below the root as well.
-/

import Wsfs.ReadDir.Server
import Wsfs.Storage.Root
import Wsfs.Webdav.Files

namespace Wsfs.Storage

open Wsfs.Base Wsfs.Util
open Wsfs.Protocol (errorInvalid)
open Wsfs.ReadDir.Server (ensureDirBase)

/-! ### Handlers -/

structure Refusal where
  code : UInt8
  desc : String
deriving DecidableEq, Repr

/-- What `FileInfo.Name` answers for a path: its last part that is not empty. -/
def baseName (path : Bytes) : Bytes :=
  ((path.splitOn slash).filter (· ≠ [])).getLast?.getD (path.take 1)

/-- The paths that a handler hands to the file system, past its check. -/
def onPath (root path : Bytes) (uses : Bytes → List Bytes) : Except Refusal (List Bytes) :=
  if !isUrlValid path then .error ⟨errorInvalid, "bad path"⟩ else .ok (uses (root ++ path))

def onPaths (root first second : Bytes) (uses : Bytes → Bytes → List Bytes) :
    Except Refusal (List Bytes) :=
  if !isUrlValid first || !isUrlValid second then .error ⟨errorInvalid, "bad path"⟩
  else .ok (uses (root ++ first) (root ++ second))

def cmdOpen (root path : Bytes) := onPath root path fun apath => [apath]
def cmdReadLink (root path : Bytes) := onPath root path fun apath => [apath]
def cmdSetAttr (root path : Bytes) := onPath root path fun apath => [apath]
def cmdMkdir (root path : Bytes) := onPath root path fun apath => [apath]
def cmdRemove (root path : Bytes) := onPath root path fun apath => [apath]
def cmdRmDir (root path : Bytes) := onPath root path fun apath => [apath]
def cmdFsStat (root path : Bytes) := onPath root path fun apath => [apath]
def cmdSetXAttr (root path : Bytes) := onPath root path fun apath => [apath]
def cmdGetXAttr (root path : Bytes) := onPath root path fun apath => [apath]
def cmdListXAttr (root path : Bytes) := onPath root path fun apath => [apath]
def cmdRemoveXAttr (root path : Bytes) := onPath root path fun apath => [apath]

/-- The second path is the one that `restrictingSymlinkByFileInfo` goes by. -/
def cmdGetAttr (root path : Bytes) :=
  onPath root path fun apath => [apath, dir apath ++ [slash] ++ baseName apath]

def cmdReadDir (root path : Bytes) (entries : List FileName) :=
  onPath root path fun apath => apath :: entries.map fun entry => ensureDirBase apath ++ entry.val

/-- A directory among the entries is opened too, and its own entries are looked up. -/
def cmdReadDirPlus (root path : Bytes) (entries : List (FileName × List FileName)) :=
  onPath root path fun apath =>
    apath :: entries.flatMap fun (entry, children) =>
      let childAbsPath := ensureDirBase apath ++ entry.val ++ [slash]
      (ensureDirBase apath ++ entry.val) :: childAbsPath ::
        children.map fun child => childAbsPath ++ child.val

def cmdSymLink (root targetPath filePath : Bytes) :=
  onPaths root targetPath filePath fun aOldPath aNewPath => [aOldPath, aNewPath]

def cmdLink (root targetPath filePath : Bytes) :=
  onPaths root targetPath filePath fun aOldPath aNewPath => [aOldPath, aNewPath]

def cmdRename (root oldPath newPath : Bytes) (flag : UInt32) :=
  onPaths root oldPath newPath fun aOldPath aNewPath =>
    if flag = 0 then [aOldPath, aNewPath] else [dir aOldPath, dir aNewPath, aOldPath, aNewPath]

/-- `Server.ServeHTTP`, up to the path that the WebDAV handlers and the web pages open. -/
def serveHTTP (root urlPath : Bytes) : Except (Nat × String) Bytes :=
  if !isUrlValid urlPath then .error (Webdav.statusBadRequest, "invalid URL path")
  else .ok (root ++ urlPath)

inductive PathCommand
  | open_ (path : Bytes)
  | readLink (path : Bytes)
  | setAttr (path : Bytes)
  | mkdir (path : Bytes)
  | remove (path : Bytes)
  | rmDir (path : Bytes)
  | fsStat (path : Bytes)
  | setXAttr (path : Bytes)
  | getXAttr (path : Bytes)
  | listXAttr (path : Bytes)
  | removeXAttr (path : Bytes)
  | getAttr (path : Bytes)
  | readDir (path : Bytes) (entries : List FileName)
  | readDirPlus (path : Bytes) (entries : List (FileName × List FileName))
  | symLink (targetPath filePath : Bytes)
  | link (targetPath filePath : Bytes)
  | rename (oldPath newPath : Bytes) (flag : UInt32)

def PathCommand.paths (root : Bytes) : PathCommand → Except Refusal (List Bytes)
  | .open_ path => cmdOpen root path
  | .readLink path => cmdReadLink root path
  | .setAttr path => cmdSetAttr root path
  | .mkdir path => cmdMkdir root path
  | .remove path => cmdRemove root path
  | .rmDir path => cmdRmDir root path
  | .fsStat path => cmdFsStat root path
  | .setXAttr path => cmdSetXAttr root path
  | .getXAttr path => cmdGetXAttr root path
  | .listXAttr path => cmdListXAttr root path
  | .removeXAttr path => cmdRemoveXAttr root path
  | .getAttr path => cmdGetAttr root path
  | .readDir path entries => cmdReadDir root path entries
  | .readDirPlus path entries => cmdReadDirPlus root path entries
  | .symLink targetPath filePath => cmdSymLink root targetPath filePath
  | .link targetPath filePath => cmdLink root targetPath filePath
  | .rename oldPath newPath flag => cmdRename root oldPath newPath flag

/-! ### Paths that handlers derive -/

def Plain (path : Bytes) : Prop := ∀ part ∈ path.splitOn slash, part ≠ [dot] ∧ part ≠ [dot, dot]

variable {first second path : Bytes}

theorem plain_append : Plain (first ++ slash :: second) ↔ Plain first ∧ Plain second := by
  unfold Plain
  rw [List.splitOn_append_cons_self]
  exact List.forall_mem_append

theorem plain_name (name : FileName) : Plain name.val := by
  intro part member
  rw [List.splitOn_eq_singleton name.property.2.1] at member
  cases List.mem_singleton.mp member
  exact ⟨name.property.2.2.1, name.property.2.2.2⟩

theorem plain_nil : Plain [] := by
  intro part member
  cases List.mem_singleton.mp member
  exact ⟨nofun, nofun⟩

theorem isUrlValid_iff_plain (v : Bytes) : isUrlValid v = true ↔ v.head? = some slash ∧ Plain v :=
  isUrlValid_iff v

variable {v w root : Bytes} {paths : List Bytes} {names : List FileName}

theorem isUrlValid_append (valid : isUrlValid v = true) (plain : Plain w) :
    isUrlValid (v ++ slash :: w) = true := by
  obtain ⟨rooted, plainV⟩ := (isUrlValid_iff_plain v).mp valid
  refine (isUrlValid_iff_plain _).mpr ⟨?_, plain_append.mpr ⟨plainV, plain⟩⟩
  obtain ⟨rest, rfl⟩ := List.head?_eq_some_iff.mp rooted
  rfl

theorem isUrlValid_dirBase (valid : isUrlValid v = true) (plain : Plain w) :
    isUrlValid (ensureDirBase v ++ w) = true := by
  unfold ensureDirBase
  split
  · rename_i ends
    obtain ⟨front, rfl⟩ := List.getLast?_eq_some_iff.mp ((hasSuffix_slash v).mp ends)
    obtain ⟨rooted, plainV⟩ := (isUrlValid_iff_plain _).mp valid
    rw [List.append_assoc, List.singleton_append]
    refine (isUrlValid_iff_plain _).mpr ⟨?_, plain_append.mpr ⟨(plain_append.mp plainV).1, plain⟩⟩
    cases front with
    | nil => rfl
    | cons byte rest => exact rooted
  · rw [List.append_assoc, List.singleton_append]
    exact isUrlValid_append valid plain

theorem isUrlValid_ne_nil (valid : isUrlValid v = true) : v ≠ [] := by
  rintro rfl
  cases valid

theorem confined_dirBase (root : Bytes) (valid : isUrlValid v = true) (plain : Plain w) :
    Confined isSlash root (ensureDirBase (root ++ v) ++ w) := by
  rw [← ReadDir.Server.append_ensureDirBase root (isUrlValid_ne_nil valid), List.append_assoc]
  exact confined_append root (isUrlValid_dirBase valid plain)

section Rooted

variable {names : List FileName} {root : Bytes}

theorem Rooted.components (rooted : Rooted names root) : Util.components root = names := by
  rw [rooted]
  split
  · rename_i empty
    rw [empty]
    rfl
  · exact components_absolute names

theorem Rooted.descending (rooted : Rooted names root) : root = [] ∨ Descending root := by
  rw [rooted]
  split
  · exact .inl rfl
  · exact .inr (descending_absolute names)

theorem Rooted.trimmed (rooted : Rooted names root) : root.getLast? ≠ some slash := by
  rw [rooted]
  split
  · exact nofun
  · rename_i nonempty
    exact absolute_trimmed nonempty

variable {v : Bytes}

theorem Rooted.components_append (rooted : Rooted names root) (valid : isUrlValid v = true) :
    Util.components (root ++ v) = names ++ Util.components v := by
  obtain ⟨tail, rfl⟩ := List.head?_eq_some_iff.mp (isUrlValid_rooted valid)
  have below : Util.components (slash :: tail) = Util.components tail := by
    rw [Util.components, List.splitOn_cons_eq_if_modifyHead, if_pos (beq_self_eq_true slash),
      List.filterMap_cons_none ofBytes?_nil, Util.components]
  rw [below, Util.components, List.splitOn_append_cons_self, List.filterMap_append]
  exact congrArg (· ++ Util.components tail) rooted.components

theorem Rooted.clean_parts (rooted : Rooted names root) (valid : isUrlValid v = true) :
    ∃ rest, (clean (root ++ v)).splitOn slash = root.splitOn slash ++ rest ∧
      [dot, dot] ∉ rest := by
  have descending := descending_append rooted.descending valid
  rw [clean_eq_absolute descending, rooted.components_append valid, rooted.parts]
  by_cases empty : names ++ Util.components v = []
  · obtain ⟨none, _⟩ := List.append_eq_nil_iff.mp empty
    rw [empty, none]
    exact ⟨[[]], rfl, by decide⟩
  · rw [splitOn_absolute _ empty, List.map_append]
    refine ⟨(Util.components v).map Subtype.val, rfl, ?_⟩
    intro member
    obtain ⟨name, _, up⟩ := List.mem_map.mp member
    exact name.property.2.2.2 up

theorem dir_append (root : Bytes) (valid : isUrlValid v = true) :
    ∃ front, isUrlValid front = true ∧ dir (root ++ v) = clean (root ++ front) := by
  obtain ⟨rooted, plain⟩ := (isUrlValid_iff_plain v).mp valid
  have hasSlash : slash ∈ v.reverse := List.mem_reverse.mpr (List.mem_of_mem_head? rooted)
  obtain ⟨last, before, reversed, separate⟩ := List.eq_append_cons_of_mem hasSlash
  obtain rfl : v = before.reverse ++ slash :: last.reverse := by
    rw [← List.reverse_reverse v, reversed]
    simp
  refine ⟨before.reverse ++ [slash], ?_, ?_⟩
  · refine (isUrlValid_iff_plain _).mpr
      ⟨?_, plain_append.mpr ⟨(plain_append.mp plain).1, plain_nil⟩⟩
    cases front : before.reverse with
    | nil => rfl
    | cons byte rest =>
      rw [front] at rooted
      exact rooted
  · unfold dir
    rw [List.reverse_append, reversed, List.append_assoc, List.dropWhile_append_of_pos]
    · simp [slash]
    · intro byte member
      exact bne_iff_ne.mpr fun same => separate (same ▸ member)

theorem Rooted.confined_dir (rooted : Rooted names root) (valid : isUrlValid v = true) :
    Confined isSlash root (dir (root ++ v)) := by
  obtain ⟨front, validFront, same⟩ := dir_append root valid
  obtain ⟨rest, parts, plain⟩ := rooted.clean_parts validFront
  rw [same]
  exact confined_of_parts parts plain

theorem Rooted.plain (rooted : Rooted names root) : Plain root := by
  intro part member
  rw [rooted.parts] at member
  rcases List.mem_cons.mp member with rfl | inNames
  · exact ⟨nofun, nofun⟩
  · obtain ⟨name, _, rfl⟩ := List.mem_map.mp inNames
    exact ⟨name.property.2.2.1, name.property.2.2.2⟩

theorem plain_baseName {path : Bytes} (plain : Plain path) : Plain (baseName path) := by
  unfold baseName
  cases last : ((path.splitOn slash).filter (· ≠ [])).getLast? with
  | none =>
    -- Only slashes: the name is the first of them.
    have empty : ∀ part ∈ path.splitOn slash, part = [] := by
      intro part member
      by_contra nonempty
      have kept : part ∈ (path.splitOn slash).filter (· ≠ []) := by simp [member, nonempty]
      rw [List.getLast?_eq_none_iff.mp last] at kept
      cases kept
    cases path with
    | nil => exact plain_nil
    | cons byte rest =>
      by_cases separator : byte = slash
      · rw [separator]
        exact plain_append.mpr ⟨plain_nil, plain_nil⟩
      · rw [List.splitOn_cons_eq_if_modifyHead,
          if_neg fun same => separator (beq_iff_eq.mp same)] at empty
        obtain ⟨first, others, parts⟩ :=
          List.exists_cons_of_ne_nil (List.splitOn_ne_nil slash rest)
        rw [parts] at empty
        cases empty _ List.mem_cons_self
  | some part =>
    have member := List.mem_of_mem_filter (List.mem_of_getLast? last)
    intro other inPart
    rw [Option.getD_some, List.splitOn_eq_singleton (slash_not_mem_part path part member)] at inPart
    cases List.mem_singleton.mp inPart
    exact plain part member

end Rooted

/-! ### Confinement -/

theorem onPath_confined {uses : Bytes → List Bytes} (named : onPath root path uses = .ok paths)
    (inside : isUrlValid path = true → ∀ used ∈ uses (root ++ path), Confined isSlash root used) :
    ∀ used ∈ paths, Confined isSlash root used := by
  unfold onPath at named
  split at named
  · cases named
  · rename_i valid
    cases named
    exact inside (by simpa using valid)

theorem onPaths_confined {uses : Bytes → Bytes → List Bytes}
    (named : onPaths root first second uses = .ok paths)
    (inside : isUrlValid first = true → isUrlValid second = true →
      ∀ used ∈ uses (root ++ first) (root ++ second), Confined isSlash root used) :
    ∀ used ∈ paths, Confined isSlash root used := by
  unfold onPaths at named
  split at named
  · cases named
  · rename_i valid
    cases named
    have both : isUrlValid first = true ∧ isUrlValid second = true := by simpa using valid
    exact inside both.1 both.2

theorem Rooted.plain_baseName (rooted : Rooted names root) (valid : isUrlValid v = true) :
    Plain (baseName (root ++ v)) := by
  obtain ⟨isRooted, plainPath⟩ := (isUrlValid_iff_plain v).mp valid
  obtain ⟨tail, rfl⟩ := List.head?_eq_some_iff.mp isRooted
  have plainTail := (@plain_append [] tail).mp plainPath
  exact Storage.plain_baseName (plain_append.mpr ⟨rooted.plain, plainTail.2⟩)

theorem Rooted.confined_dir_baseName (rooted : Rooted names root) (valid : isUrlValid v = true) :
    Confined isSlash root (dir (root ++ v) ++ [slash] ++ baseName (root ++ v)) := by
  obtain ⟨front, validFront, same⟩ := dir_append root valid
  obtain ⟨rest, parts, plain⟩ := rooted.clean_parts validFront
  rw [same, List.append_assoc, List.singleton_append]
  refine @confined_of_parts root _ (rest ++ (baseName (root ++ v)).splitOn slash) ?_ ?_
  · rw [List.splitOn_append_cons_self, parts, List.append_assoc]
  · intro up
    rcases List.mem_append.mp up with inDir | inBase
    · exact plain inDir
    · exact (rooted.plain_baseName valid _ inBase).2 rfl

theorem PathCommand.confined (rooted : Rooted names root) (command : PathCommand)
    (named : command.paths root = .ok paths) : ∀ used ∈ paths, Confined isSlash root used := by
  have pair : ∀ {first second : Bytes}, isUrlValid first = true → isUrlValid second = true →
      ∀ used ∈ [root ++ first, root ++ second], Confined isSlash root used := by
    intro first second validFirst validSecond used member
    rcases List.mem_cons.mp member with rfl | last
    · exact confined_append root validFirst
    · cases List.mem_singleton.mp last
      exact confined_append root validSecond
  -- Most commands use the path as it is.
  have single : ∀ {path : Bytes}, onPath root path (fun apath => [apath]) = .ok paths →
      ∀ used ∈ paths, Confined isSlash root used := by
    intro path named
    refine onPath_confined named fun valid used member => ?_
    cases List.mem_singleton.mp member
    exact confined_append root valid
  cases command with
  | open_ _ | readLink _ | setAttr _ | mkdir _ | remove _ | rmDir _ | fsStat _ | setXAttr _ | getXAttr _
  | listXAttr _ | removeXAttr _ => exact single named
  | getAttr path =>
    simp only [PathCommand.paths, cmdGetAttr] at named
    refine onPath_confined named fun valid used member => ?_
    rcases List.mem_cons.mp member with rfl | last
    · exact confined_append root valid
    · cases List.mem_singleton.mp last
      exact rooted.confined_dir_baseName valid
  | readDir path entries =>
    simp only [PathCommand.paths, cmdReadDir] at named
    refine onPath_confined named fun valid used member => ?_
    rcases List.mem_cons.mp member with rfl | inEntries
    · exact confined_append root valid
    · obtain ⟨entry, _, rfl⟩ := List.mem_map.mp inEntries
      exact confined_dirBase root valid (plain_name entry)
  | readDirPlus path entries =>
    simp only [PathCommand.paths, cmdReadDirPlus] at named
    refine onPath_confined named fun valid used member => ?_
    rcases List.mem_cons.mp member with rfl | inEntries
    · exact confined_append root valid
    · obtain ⟨⟨entry, children⟩, _, inEntry⟩ := List.mem_flatMap.mp inEntries
      rcases List.mem_cons.mp inEntry with rfl | deeper
      · exact confined_dirBase root valid (plain_name entry)
      · rcases List.mem_cons.mp deeper with rfl | inChildren
        · rw [List.append_assoc]
          exact confined_dirBase root valid (plain_append.mpr ⟨plain_name entry, plain_nil⟩)
        · obtain ⟨child, _, rfl⟩ := List.mem_map.mp inChildren
          rw [List.append_assoc, List.append_assoc, List.singleton_append]
          exact confined_dirBase root valid (plain_append.mpr ⟨plain_name entry, plain_name child⟩)
  | symLink targetPath filePath =>
    simp only [PathCommand.paths, cmdSymLink] at named
    exact onPaths_confined named pair
  | link targetPath filePath =>
    simp only [PathCommand.paths, cmdLink] at named
    exact onPaths_confined named pair
  | rename oldPath newPath flag =>
    simp only [PathCommand.paths, cmdRename] at named
    refine onPaths_confined named fun validOld validNew used member => ?_
    split at member
    · exact pair validOld validNew used member
    · rcases List.mem_cons.mp member with rfl | later
      · exact rooted.confined_dir validOld
      · rcases List.mem_cons.mp later with rfl | last
        · exact rooted.confined_dir validNew
        · exact pair validOld validNew used last

theorem serveHTTP_confined {urlPath : Bytes} (served : serveHTTP root urlPath = .ok path) :
    Confined isSlash root path := by
  unfold serveHTTP at served
  split at served
  · cases served
  · rename_i valid
    cases served
    exact confined_append root (by simpa using valid)

theorem getPathAndDest_confined {parseUrl : Bytes → Option Webdav.Url} {st : Webdav.Storage}
    {req : Webdav.Request} {src dst : Bytes}
    (accepted : Webdav.getPathAndDest parseUrl st req = .ok (src, dst)) :
    Confined isSlash st.path src ∧ Confined isSlash st.path dst := by
  unfold Webdav.getPathAndDest at accepted
  dsimp only at accepted
  split at accepted
  · cases accepted
  split at accepted
  · cases accepted
  split at accepted
  · cases accepted
  split at accepted
  · cases accepted
  split at accepted
  · cases accepted
  · rename_i desturl _ _ notInvalid different
    cases accepted
    exact ⟨confined_append _ req.valid, confined_append _ (by simpa using notInvalid)⟩

/-- The check is the grammar of paths without dot components, and so nothing that a client
sends leads out of its storage. -/
theorem isUrlValid_confines :
    (∀ v : Bytes, isUrlValid v = true ↔
      v.head? = some slash ∧ ∀ part ∈ v.splitOn slash, part ≠ [dot] ∧ part ≠ [dot, dot]) ∧
    ∀ (getwd : Option Bytes) (path root : Bytes), (∀ wd, getwd = some wd → wd.head? = some slash) →
      newStorage getwd path = some root →
      (∀ v, isUrlValid v = true → Confined isSlash root (root ++ v)) ∧
      (∀ (command : PathCommand) (paths : List Bytes), command.paths root = .ok paths →
        ∀ used ∈ paths, Confined isSlash root used) ∧
      (∀ urlPath served, serveHTTP root urlPath = .ok served → Confined isSlash root served) ∧
      ∃ st : Webdav.Storage, st.path = root ∧
        ∀ (parseUrl : Bytes → Option Webdav.Url) (req : Webdav.Request) (src dst : Bytes),
          Webdav.getPathAndDest parseUrl st req = .ok (src, dst) →
          Confined isSlash root src ∧ Confined isSlash root dst := by
  refine ⟨isUrlValid_iff_plain, fun getwd path root workDir made => ?_⟩
  obtain ⟨names, rooted⟩ := newStorage_rooted workDir made
  refine ⟨fun v => confined_append root, fun command paths => command.confined rooted,
    fun urlPath served => serveHTTP_confined, ⟨root, rooted.descending, rooted.trimmed⟩, rfl, ?_⟩
  intro parseUrl req src dst accepted
  exact getPathAndDest_confined accepted

/-- The storage at "/s/", and the command to open "/a". -/
theorem isUrlValid_confines_sample :
    newStorage none [slash, 0x73, slash] = some [slash, 0x73] ∧
    (PathCommand.open_ [slash, 0x61]).paths [slash, 0x73] =
      .ok [[slash, 0x73, slash, 0x61]] ∧
    Confined isSlash [slash, 0x73] [slash, 0x73, slash, 0x61] := by
  have made : newStorage none [slash, 0x73, slash] = some [slash, 0x73] := by decide +kernel
  refine ⟨made, rfl, ?_⟩
  exact (isUrlValid_confines.2 none _ _ (by simp) made).2.1 (.open_ [slash, 0x61]) _ rfl _
    (List.mem_singleton.mpr rfl)

end Wsfs.Storage
