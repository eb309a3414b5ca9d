/-
What the calls and the copy leave alone. A copy removes at most what is at its
destination, and then only adds to the tree, whatever fails on the way.
-/

import Wsfs.Webdav.Files

namespace Wsfs.Webdav

open Wsfs.Base Wsfs.Util
open Wsfs.Base.FileTree (Extends OnlyAt Shrinks)

/-! ### Trees -/

def Resolves (tree : Tree) (path : Bytes) : Prop := ∃ found, lookup tree path = .ok found

/-- The path leads to nothing. -/
def Vacant (tree : Tree) (path : Bytes) : Prop :=
  ∀ reached, leads tree true path = .ok reached → tree.node reached.place = none

variable {tree tree' : Tree} {place : List FileName} {path : Bytes}

theorem Resolves.leads (resolves : Resolves tree path) :
    ∃ reached, leads tree true path = .ok reached ∧ (tree.node reached.place).isSome = true := by
  obtain ⟨found, isFound⟩ := resolves
  unfold lookup at isFound
  split at isFound
  · cases isFound
  · rename_i reached led
    refine ⟨reached, led, ?_⟩
    split at isFound
    · cases isFound
    · rename_i node present
      rw [present]
      rfl

theorem Resolves.entry (resolves : Resolves tree path) :
    ∃ entry, Webdav.leads tree false path = .ok entry ∧ (tree.node entry.place).isSome = true := by
  obtain ⟨reached, led, present⟩ := resolves.leads
  exact FileTree.leads_entry led present

theorem vacant_of_noent (notFound : lookup tree path = .error .noent) : Vacant tree path := by
  intro reached led
  simp only [lookup, led] at notFound
  split at notFound
  · assumption
  · split at notFound
    · cases notFound
    · cases notFound

/-- With its entry removed, a path leads to nothing: what it would lead to now, it would
have led to before. -/
theorem vacant_remove {entry : Reached FileName} (found : leads tree false path = .ok entry) :
    Vacant (tree.remove entry.place) path := by
  intro reached led
  by_contra present
  rw [← ne_eq, ← Option.isSome_iff_ne_none] at present
  obtain ⟨left, leftFound, leftPresent⟩ := FileTree.leads_entry led present
  have before : leads tree false path = .ok left := by
    refine FileTree.entry_transfer leftFound fun other passed => ?_
    have still := FileTree.leads_present leftFound other passed
    rcases tree.remove_shrinks entry.place other with same | ⟨_, gone⟩
    · exact same.symm
    · rw [gone] at still
      cases still
  cases before.symm.trans found
  have gone : (tree.remove entry.place).node entry.place = none := if_pos List.prefix_rfl
  rw [gone] at leftPresent
  cases leftPresent

theorem setNode_ok {node : FileNode} (set : setNode tree place node = .ok tree') :
    OnlyAt place tree tree' ∧ tree'.node place = some node := by
  unfold setNode at set
  split at set
  · cases set
  · rename_i name last
    have whole : place.dropLast ++ [name] = place := List.dropLast_append_getLast? name last
    split at set
    · split at set
      · cases set
        refine ⟨fun other different => if_neg ?_, if_pos whole.symm⟩
        rwa [whole]
      · cases set
    · cases set

theorem makeDir_ok {perm : UInt32} (made : makeDir tree path perm = .ok tree') :
    components path ≠ [] ∧ ∃ reached, leads tree false path = .ok reached ∧
      tree.node reached.place = none ∧ OnlyAt reached.place tree tree' ∧
      tree'.node reached.place = some (.dir perm) := by
  unfold makeDir at made
  split at made
  · cases made
  · rename_i reached led
    split at made
    · cases made
    · refine ⟨fun root => ?_, reached, led, Option.not_isSome_iff_eq_none.mp ‹_›, setNode_ok made⟩
      rw [leads, root] at led
      rw [FileTree.leads_nil_iff.mp led] at made
      cases made

theorem createFile_ok {perm : UInt32} (vacant : Vacant tree path)
    (created : createFile tree path perm = .ok (place, tree')) :
    tree.node place = none ∧ OnlyAt place tree tree' := by
  unfold createFile at created
  split at created
  · cases created
  · split at created
    · cases created
    · rename_i reached led
      have absent := vacant reached led
      simp only [absent] at created
      cases set : setNode tree reached.place (.file perm []) with
      | error error =>
        rw [set] at created
        cases created
      | ok larger =>
        rw [set] at created
        cases created
        exact ⟨absent, (setNode_ok set).1⟩

theorem writeFile_onlyAt (tree : Tree) (place : List FileName) (content : Bytes) :
    OnlyAt place tree (writeFile tree place content) := by
  unfold writeFile
  split
  · split
    · exact (setNode_ok ‹_›).1
    · exact fun _ _ => rfl
  · exact fun _ _ => rfl

/-! ### Calls -/

section Calls

variable {α β : Type} (os : Os) {world : World}

theorem bind_apply (action : OsM α) (next : α → OsM β) (world : World) :
    (action >>= next) world = next (action world).1 (action world).2 :=
  rfl

theorem Os.ask_tree (answer : World → Except Errno α) (world : World) :
    (os.ask answer world).2.tree = world.tree := by
  unfold Os.ask Os.call
  dsimp only
  split <;> rfl

theorem Os.ask_ok {answer : World → Except Errno α} {value : α}
    (answered : (os.ask answer world).1 = .ok value) :
    answer { world with calls := world.calls + 1 } = .ok value := by
  unfold Os.ask Os.call at answered
  dsimp only at answered
  split at answered
  · cases answered
  · exact answered

theorem Os.stat_ok {node : FileNode} (found : (os.stat path world).1 = .ok node) :
    Resolves world.tree path := by
  have answered := os.ask_ok found
  cases isFound : lookup world.tree path with
  | error error =>
    simp only [isFound] at answered
    cases answered
  | ok value => exact ⟨value, isFound⟩

theorem Os.stat_noent (notFound : (os.stat path world).1 = .error .noent) :
    Vacant world.tree path := by
  unfold Os.stat Os.ask Os.call at notFound
  dsimp only at notFound
  split at notFound
  · cases notFound
  · cases isFound : lookup world.tree path with
    | error error =>
      simp only [isFound] at notFound
      cases notFound
      exact vacant_of_noent isFound
    | ok value =>
      simp only [isFound] at notFound
      cases notFound

theorem Os.openFile_ok {file : Handle} (opened : (os.openFile path world).1 = .ok file) :
    Resolves world.tree path := by
  have answered := os.ask_ok opened
  dsimp only at answered
  split at answered
  · cases answered
  · exact ⟨_, ‹_›⟩

theorem Os.removeAll_shrinks {entry : Reached FileName} (found : leads world.tree false path = .ok entry) :
    Shrinks entry.place world.tree (os.removeAll path world).2.tree := by
  unfold Os.removeAll Os.call
  dsimp only
  split
  · simp only [found]
    exact world.tree.removeSome_shrinks _ _
  · simp only [found]
    exact world.tree.remove_shrinks _

theorem Os.removeAll_cases {entry : Reached FileName} (found : leads world.tree false path = .ok entry) :
    (∃ error, (os.removeAll path world).1 = .error error ∧ isNotExist error = false) ∨
      (os.removeAll path world).1 = .ok () ∧
        (os.removeAll path world).2.tree = world.tree.remove entry.place := by
  unfold Os.removeAll Os.call
  dsimp only
  split
  · exact .inl ⟨_, rfl, rfl⟩
  · simp [found]

theorem Os.change_cases (result : Tree → Except Errno (α × Tree)) (world : World) :
    (∃ error, (os.change result world).1 = .error error ∧
      (os.change result world).2.tree = world.tree) ∨
    ∃ value, (os.change result world).1 = .ok value ∧
      result world.tree = .ok (value, (os.change result world).2.tree) := by
  unfold Os.change Os.call
  dsimp only
  split
  · exact .inl ⟨_, rfl, rfl⟩
  · cases changed : result world.tree with
    | error error => exact .inl ⟨error, rfl, rfl⟩
    | ok outcome => exact .inr ⟨outcome.1, rfl, rfl⟩

theorem Os.copyContent_onlyAt (place : List FileName) (content : Bytes) (world : World) :
    OnlyAt place world.tree (os.copyContent place content world).2.tree := by
  unfold Os.copyContent Os.call
  dsimp only
  split
  · exact writeFile_onlyAt _ _ _
  · exact writeFile_onlyAt _ _ _

end Calls

/-! ### Destinations -/

private theorem trimDestination_cases (src dst : Bytes) :
    trimDestination src dst = dst ∨ dst = trimDestination src dst ++ [slash] := by
  unfold trimDestination
  split
  · rename_i slashes
    obtain ⟨shorter, rfl⟩ := List.getLast?_eq_some_iff.mp (beq_iff_eq.mp slashes.2)
    exact .inr (by rw [List.dropLast_concat])
  · exact .inl rfl

theorem components_trimDestination (src dst : Bytes) :
    components (trimDestination src dst) = components dst := by
  rcases trimDestination_cases src dst with same | longer
  · rw [same]
  · rw [longer, components_concat_slash, ← longer]

theorem leads_trimDestination (tree : Tree) (follow : Bool) (src dst : Bytes) :
    leads tree follow (trimDestination src dst) = leads tree follow dst := by
  rw [leads, leads, components_trimDestination]

theorem descending_trimDestination (src : Bytes) {dst : Bytes} (descending : Descending dst)
    (nonempty : components dst ≠ []) : Descending (trimDestination src dst) := by
  rcases trimDestination_cases src dst with same | longer
  · rwa [same]
  · rw [longer] at descending
    refine descending.of_concat_slash fun empty => nonempty ?_
    rw [← components_trimDestination src dst, empty]
    rfl

/-! ### copyFiles -/

/-- Nothing has gone, or a part of what was at a destination that is to be overwritten. -/
def Clears (overwrite : Bool) (dst : Bytes) (before after : Tree) : Prop :=
  after = before ∨ overwrite = true ∧ Resolves before dst ∧
    ∃ entry, leads before false dst = .ok entry ∧ Shrinks entry.place before after

theorem clearDestination_clears (os : Os) (dst : Bytes) (overwrite : Bool) (world : World) :
    Clears overwrite dst world.tree (clearDestination os dst overwrite world).2.tree ∧
      ∀ created, (clearDestination os dst overwrite world).1 = .ok created →
        Vacant (clearDestination os dst overwrite world).2.tree dst := by
  have unchanged : (os.stat dst world).2.tree = world.tree := os.ask_tree _ _
  rw [clearDestination, bind_apply]
  cases found : (os.stat dst world).1 with
  | error error =>
    dsimp only
    by_cases noent : isNotExist error = true
    · rw [if_pos noent]
      rw [beq_iff_eq.mp noent] at found
      refine ⟨.inl unchanged, fun _ _ => ?_⟩
      change Vacant (os.stat dst world).2.tree dst
      rw [unchanged]
      exact os.stat_noent found
    · rw [if_neg noent]
      exact ⟨.inl unchanged, nofun⟩
  | ok node =>
    cases overwrite with
    | false => exact ⟨.inl unchanged, nofun⟩
    | true =>
      have resolves := os.stat_ok found
      obtain ⟨entry, led, _⟩ := resolves.entry
      rw [← unchanged] at led resolves
      have clears : Clears true dst world.tree (os.removeAll dst (os.stat dst world).2).2.tree := by
        rw [← unchanged]
        exact .inr ⟨rfl, resolves, entry, led, os.removeAll_shrinks led⟩
      simp only [Bool.not_true, Bool.false_eq_true, if_false, bind_apply]
      rcases os.removeAll_cases led with ⟨error, failed, other⟩ | ⟨removed, tree⟩
      · simp only [failed, other]
        exact ⟨clears, nofun⟩
      · simp only [removed]
        refine ⟨clears, fun _ _ => ?_⟩
        change Vacant (os.removeAll dst (os.stat dst world).2).2.tree dst
        rw [tree]
        exact vacant_remove led

/-- The computation keeps this of the tree. -/
def Keeps {α : Type} (kept : Tree → Prop) (action : OsM α) : Prop :=
  ∀ world, kept world.tree → kept (action world).2.tree

section Rules

variable {α β : Type} {kept : Tree → Prop} {action : OsM α}

theorem keeps_pure (value : α) : Keeps kept (pure value) := fun _ => id

theorem keeps_bind {next : α → OsM β} (first : Keeps kept action)
    (rest : ∀ value, Keeps kept (next value)) : Keeps kept (action >>= next) :=
  fun world before => rest _ _ (first world before)

theorem keeps_ite {condition : Prop} [Decidable condition] {left right : OsM α}
    (whenTrue : Keeps kept left) (whenFalse : Keeps kept right) :
    Keeps kept (if condition then left else right) := by
  split
  · exact whenTrue
  · exact whenFalse

theorem keeps_ask (os : Os) (answer : World → Except Errno α) : Keeps kept (os.ask answer) := by
  intro world before
  rwa [os.ask_tree]

end Rules

variable {world : World} {copy : FileName → OsM Outcome} {base : Tree}

theorem copyFile_extends (os : Os) (content : Bytes) {dst : Bytes} (srcPerm : UInt32) (created : Bool)
    (vacant : Vacant world.tree dst) :
    Extends world.tree (copyFile os content dst srcPerm created world).2.tree := by
  rw [copyFile, Os.create, bind_apply]
  rcases os.change_cases (fun tree => createFile tree dst (srcPerm &&& ~~~os.umask)) world with
    ⟨error, failed, same⟩ | ⟨place, opened, isNew⟩
  · rw [failed]
    exact same ▸ .refl _
  · rw [opened]
    obtain ⟨absent, only⟩ := createFile_ok vacant isNew
    refine OnlyAt.extends ?_ absent
    refine keeps_bind (fun _ before => before.trans (os.copyContent_onlyAt place content _))
      (fun copied => ?_) _ only
    refine keeps_bind (keeps_ask os _) fun closed => ?_
    cases copied with
    | error error => exact keeps_pure _
    | ok _ => cases closed <;> exact keeps_pure _

theorem copyChildren_keeps {kept : Tree → Prop} (each : ∀ name, Keeps kept (copy name))
    (children : List FileName) : Keeps kept (copyChildren copy children) := by
  induction children with
  | nil => exact keeps_pure _
  | cons name rest ih =>
    exact keeps_bind (each name) fun outcome => keeps_ite (keeps_pure _) ih

/-- A new directory has nothing in it, and the path leads to it. -/
theorem makeDir_new {tree made : Tree} {dst : Bytes} {perm : UInt32}
    (isNew : makeDir tree dst perm = .ok made) :
    Extends tree made ∧ components dst ≠ [] ∧ ∃ reached, leads made true dst = .ok reached ∧
      (made.node reached.place).isSome = true ∧ ∀ name, made.node (reached.place ++ [name]) = none := by
  obtain ⟨nonempty, reached, led, absent, only, isDir⟩ := makeDir_ok isNew
  have entry : leads made false dst = .ok reached := by
    refine FileTree.entry_transfer led fun other passed => only other ?_
    rintro rfl
    have present := FileTree.leads_present led _ passed
    rw [absent] at present
    cases present
  have follows : leads made true dst = .ok reached := by
    refine FileTree.leads_follow_of_plain entry fun absolute target => ?_
    rw [isDir]
    exact nofun
  refine ⟨only.extends absent, nonempty, reached, follows, by rw [isDir]; rfl, fun name => ?_⟩
  rw [only _ (by simp)]
  by_contra present
  have above := tree.isSome_of_append reached.place [name] (Option.isSome_iff_ne_none.mpr present)
  rw [absent] at above
  cases above

/-- Whatever the children do below the new directory, they leave the rest alone. -/
theorem copyDir_extends (os : Os) (srcFile : Handle) {dst : Bytes} (srcPerm : UInt32) (depth : Int)
    (created : Bool)
    (each : ∀ (base : Tree) (reached : Reached FileName), components dst ≠ [] →
      leads base true dst = .ok reached → (base.node reached.place).isSome = true →
      (∀ name, base.node (reached.place ++ [name]) = none) →
        ∀ name, Keeps (Extends base) (copy name)) :
    Extends world.tree (copyDir os copy srcFile dst srcPerm depth created world).2.tree := by
  rw [copyDir, Os.mkdir, bind_apply]
  rcases os.change_cases (fun tree => (makeDir tree dst (srcPerm &&& ~~~os.umask)).map (Prod.mk ()))
    world with ⟨error, failed, same⟩ | ⟨_, isOk, isNew⟩
  · rw [failed]
    exact same ▸ .refl _
  · rw [isOk]
    generalize (os.change _ world).2 = made at isNew
    cases directory : makeDir world.tree dst (srcPerm &&& ~~~os.umask) with
    | error error =>
      rw [directory] at isNew
      cases isNew
    | ok base =>
      rw [directory] at isNew
      obtain rfl : base = made.tree := congrArg Prod.snd (Except.ok.inj isNew)
      obtain ⟨grown, nonempty, reached, led, present, empty⟩ := makeDir_new directory
      have later := each made.tree reached nonempty led present empty
      refine grown.trans (keeps_ite ?_ (keeps_pure _) made (.refl _))
      refine keeps_bind (keeps_ask os _) fun listed => ?_
      cases listed with
      | error error => exact keeps_pure _
      | ok children =>
        refine keeps_bind (copyChildren_keeps later children) fun outcome => ?_
        cases outcome <;> exact keeps_pure _

/-- What a copy may have done when it ends. -/
def Copies (overwrite : Bool) (src dst : Bytes) (before after : Tree) : Prop :=
  ∃ middle, Clears overwrite dst before middle ∧ (middle = before ∨ Resolves before src) ∧
    Extends middle after

theorem Copies.extends {overwrite : Bool} {src dst below : Bytes} {name : FileName}
    {reached : Reached FileName} {before after : Tree} (copies : Copies overwrite src below before after)
    (child : components below = components dst ++ [name]) (led : leads base true dst = .ok reached)
    (present : (base.node reached.place).isSome = true)
    (empty : base.node (reached.place ++ [name]) = none) (grown : Extends base before) :
    Extends base after := by
  obtain ⟨middle, clears, _, extended⟩ := copies
  refine Extends.trans ?_ extended
  rcases clears with rfl | ⟨_, _, entry, entryLed, shrinks⟩
  · exact grown
  · have still : leads before true dst = .ok reached := by
      refine FileTree.leads_transfer led fun other seen => ?_
      have there : (base.node other).isSome = true := by
        rcases List.mem_cons.mp seen with rfl | passed
        · exact present
        · exact FileTree.leads_present led other passed
      obtain ⟨node, found⟩ := Option.isSome_iff_exists.mp there
      rw [found, grown other node found]
    have place : entry.place = reached.place ++ [name] := by
      rw [leads, child] at entryLed
      exact FileTree.leads_below still entryLed
    intro path node found
    rw [shrinks.node_eq]
    · exact grown path node found
    · intro under
      rw [place] at under
      have above := base.isSome_of_prefix under (by rw [found]; rfl)
      rw [empty] at above
      cases above

/-- The induction is on the levels that are left; each child is copied one name further
down. -/
theorem copyFiles_copies (os : Os) (overwrite : Bool) (depth : Int) (levels : Nat) (src dst : Bytes)
    (descending : Descending dst) (world : World) :
    Copies overwrite src dst world.tree (copyFiles os overwrite depth levels src dst world).2.tree := by
  induction levels generalizing src dst world with
  | zero => exact ⟨world.tree, .inl rfl, .inl rfl, .refl _⟩
  | succ levels ih =>
    have each : ∀ (base : Tree) (reached : Reached FileName),
        components (trimDestination src dst) ≠ [] → leads base true (trimDestination src dst) = .ok reached →
        (base.node reached.place).isSome = true →
        (∀ name, base.node (reached.place ++ [name]) = none) →
        ∀ name : FileName, Keeps (Extends base) (copyFiles os overwrite depth levels
          (join src name.val) (join (trimDestination src dst) name.val)) := by
      intro base reached nonempty led present empty name world grown
      rw [components_trimDestination] at nonempty
      rw [join_eq_absolute (descending_trimDestination src descending nonempty) name]
      have child := ih (join src name.val) _ (descending_absolute
        (components (trimDestination src dst) ++ [name])) world
      exact child.extends (components_absolute _) led present (empty name) grown
    have openTree : (os.openFile src world).2.tree = world.tree := os.ask_tree _ _
    rw [copyFiles, bind_apply]
    cases opened : (os.openFile src world).1 with
    | error error => exact ⟨_, .inl rfl, .inl rfl, openTree ▸ .refl _⟩
    | ok srcFile =>
      have statTree : (os.fileStat srcFile (os.openFile src world).2).2.tree = world.tree :=
        (os.ask_tree _ _).trans openTree
      simp only [bind_apply]
      generalize os.fileStat srcFile (os.openFile src world).2 = stated at statTree
      obtain ⟨found, stated⟩ := stated
      cases found with
      | error error => exact ⟨_, .inl rfl, .inl rfl, statTree ▸ .refl _⟩
      | ok srcStat =>
        obtain ⟨clears, vacant⟩ := clearDestination_clears os dst overwrite stated
        rw [show stated.tree = world.tree from statTree] at clears
        refine ⟨_, clears, .inr (os.openFile_ok opened), ?_⟩
        simp only [bind_apply]
        cases cleared : (clearDestination os dst overwrite stated).1 with
        | error outcome => exact .refl _
        | ok created =>
          dsimp only
          split
          · exact copyDir_extends os srcFile _ depth created each
          · refine copyFile_extends os _ _ created ?_
            intro reached led
            rw [leads_trimDestination] at led
            exact vacant created cleared reached led

end Wsfs.Webdav
