/-
What a failed `moveFiles` leaves of its source.
-/

import Wsfs.Webdav.Frame

namespace Wsfs.Webdav

open Wsfs.Base Wsfs.Util
open Wsfs.Base.FileTree (Shrinks)

/-- The subtree at `place` is the same in both trees. -/
def SameBelow (place : List FileName) (before after : Tree) : Prop :=
  ∀ below, place <+: below → after.node below = before.node below

/-- The path of the source leads along the same places as before, and there everything is
as it was, at the entry itself and at what a link there leads to. -/
def SameSource (src : Bytes) (before after : Tree) : Prop :=
  ∀ follow source, leads before follow src = .ok source → (before.node source.place).isSome = true →
    leads after follow src = .ok source ∧ SameBelow source.place before after

/-- To remove the destination cuts the way to the source, or takes the source or a part of
it. -/
def Across (tree : Tree) (src dst : Bytes) : Prop :=
  ∃ follow source target, leads tree follow src = .ok source ∧
    (tree.node source.place).isSome = true ∧ leads tree false dst = .ok target ∧
    ((∃ place ∈ source.seen, target.place <+: place) ∨ source.place <+: target.place)

variable {tree : Tree} {src dst : Bytes}

theorem seen_present {follow : Bool} {reached : Reached FileName}
    (led : leads tree follow src = .ok reached) (present : (tree.node reached.place).isSome = true) :
    ∀ place ∈ reached.seen, (tree.node place).isSome = true :=
  List.forall_mem_cons.mpr ⟨present, FileTree.leads_present led⟩

/-! ### What a failed move has done -/

private theorem renameTo_failed (os : Os) {created : Bool} {world : World}
    (failed : (moveFiles.renameTo os src dst created world).1.err.isSome = true) :
    (moveFiles.renameTo os src dst created world).2.tree = world.tree := by
  rw [moveFiles.renameTo, Os.rename, bind_apply] at failed ⊢
  rcases os.change_cases (fun tree => (renameTree tree src dst).map (Prod.mk ())) world with
    ⟨error, refused, same⟩ | ⟨_, renamed, _⟩
  · rw [refused]
    exact same
  · rw [renamed] at failed
    cases failed

theorem moveFiles_failed (os : Os) (src dst : Bytes) (overwrite : Bool) (tree : Tree)
    (failed : (moveFiles os src dst overwrite (.start tree)).1.err.isSome = true) :
    Clears overwrite dst tree (moveFiles os src dst overwrite (.start tree)).2.tree := by
  rw [moveFiles, bind_apply] at failed ⊢
  have unchanged : (os.stat dst (.start tree)).2.tree = tree := os.ask_tree _ _
  cases found : (os.stat dst (.start tree)).1 with
  | error error =>
    rw [found] at failed
    dsimp only at failed ⊢
    split at failed
    · rename_i other
      rw [if_pos other]
      exact .inl unchanged
    · rename_i other
      rw [if_neg other]
      exact .inl ((renameTo_failed os failed).trans unchanged)
  | ok node =>
    rw [found] at failed
    cases overwrite with
    | false => exact .inl unchanged
    | true =>
      have resolves : Resolves tree dst := os.stat_ok found
      obtain ⟨entry, led, _⟩ := resolves.entry
      have shrinks := os.removeAll_shrinks (unchanged.symm ▸ led)
      rw [unchanged] at shrinks
      refine .inr ⟨rfl, resolves, entry, led, ?_⟩
      simp only [if_true, bind_apply] at failed ⊢
      cases removed : (os.removeAll dst (os.stat dst (.start tree)).2).1 with
      | error error => exact shrinks
      | ok _ =>
        rw [removed] at failed
        dsimp only at failed ⊢
        rw [renameTo_failed os failed]
        exact shrinks

/-! ### Moves that lose the source -/

def Os.failingFrom (first : Nat) : Os :=
  { Os.calm with fault := fun count => if count < first then none else some 0 }

/-- Two calls take the move past `RemoveAll`, and `Rename` fails. -/
private theorem moveFiles_cut {target : Reached FileName} (resolves : Resolves tree dst)
    (led : leads tree false dst = .ok target) :
    (moveFiles (.failingFrom 2) src dst true (.start tree)).1.err.isSome = true ∧
      (moveFiles (.failingFrom 2) src dst true (.start tree)).2.tree = tree.remove target.place := by
  obtain ⟨found, isFound⟩ := resolves
  have stat : (Os.failingFrom 2).stat dst (.start tree) = (.ok found.2, ⟨tree, 1, []⟩) := by
    simp [Os.stat, Os.ask, Os.call, Os.failingFrom, World.start, isFound, Except.map]
  have removed : (Os.failingFrom 2).removeAll dst ⟨tree, 1, []⟩ =
      (.ok (), ⟨tree.remove target.place, 2, [target.place]⟩) := by
    simp [Os.removeAll, Os.call, Os.failingFrom, led]
  rw [moveFiles, bind_apply, stat]
  simp only [if_true, bind_apply, removed]
  exact ⟨rfl, rfl⟩

theorem failed_move_keeps_source_iff (tree : Tree) (src dst : Bytes) (overwrite : Bool) :
    (∀ os : Os, (moveFiles os src dst overwrite (.start tree)).1.err.isSome = true →
      SameSource src tree (moveFiles os src dst overwrite (.start tree)).2.tree) ↔
    ¬(overwrite = true ∧ Resolves tree dst ∧ Across tree src dst) := by
  constructor
  · rintro keeps ⟨rfl, resolves, follow, source, target, led, present, targetLed, across⟩
    obtain ⟨failed, removed⟩ := moveFiles_cut resolves targetLed
    obtain ⟨still, same⟩ := keeps (.failingFrom 2) failed follow source led present
    rw [removed] at still same
    have gone : ∀ place, target.place <+: place → (tree.remove target.place).node place = none :=
      fun place under => if_pos under
    rcases across with ⟨place, seen, under⟩ | inside
    · have stillPresent : ((tree.remove target.place).node source.place).isSome = true := by
        rw [same _ List.prefix_rfl]
        exact present
      have there := seen_present still stillPresent place seen
      rw [gone place under] at there
      cases there
    · obtain ⟨entry, entryLed, there⟩ := resolves.entry
      cases entryLed.symm.trans targetLed
      rw [← same _ inside, gone _ List.prefix_rfl] at there
      cases there
  · intro safe os failed follow source led present
    rcases moveFiles_failed os src dst overwrite tree failed with
      unchanged | ⟨set, resolves, target, targetLed, shrinks⟩
    · rw [unchanged]
      exact ⟨led, fun _ _ => rfl⟩
    · have apart : ¬((∃ place ∈ source.seen, target.place <+: place) ∨ source.place <+: target.place) :=
        fun across => safe ⟨set, resolves, follow, source, target, led, present, targetLed, across⟩
      rw [not_or] at apart
      constructor
      · exact FileTree.leads_transfer led fun place seen =>
          shrinks.node_eq fun under => apart.1 ⟨place, seen, under⟩
      · intro below under
        refine shrinks.node_eq fun beyond => ?_
        -- The node lies below both places, so one of them is above the other.
        rcases List.prefix_or_prefix_of_prefix beyond under with above | inside
        · exact apart.1 ⟨source.place, List.mem_cons_self, above⟩
        · exact apart.2 inside

/-! ### A directory and its own path with a slash -/

def treeOf (nodes : List (List FileName × FileNode)) : Tree :=
  nodes.foldl
    (fun tree entry =>
      match setNode tree entry.1 entry.2 with
      | .ok larger => larger
      | .error _ => tree)
    (FileTree.root 0o755)

private def storageName : FileName := ⟨[0x73], by decide⟩
private def dirName : FileName := ⟨[0x61], by decide⟩
private def fileName : FileName := ⟨[0x66], by decide⟩
private def linkName : FileName := ⟨[0x6c], by decide⟩

/-- The storage `/s` with the directory `a`, in it the file `f`, and the link `l` to the
storage itself. -/
def sampleTree : Tree :=
  treeOf [([storageName], .dir 0o755), ([storageName, dirName], .dir 0o755),
    ([storageName, dirName, fileName], .file 0o644 [1, 2, 3]),
    ([storageName, linkName], .link false [.stay])]

def samplePlace : List FileName := [storageName, dirName, fileName]

def sampleStorage : Storage := ⟨[slash, 0x73], .inr ⟨by decide, by decide⟩, by decide⟩

/-- A request for `/a/` with the destination `/a`. -/
def sampleRequest (method : Method) : Request :=
  ⟨method, [slash, 0x61, slash], by decide, [], [slash, 0x61], [], overwriteT⟩

/-- `url.Parse` of a bare path. -/
def parseBarePath (text : Bytes) : Option Url := some ⟨[], text⟩

theorem move_onto_itself_loses_source :
    getPathAndDest parseBarePath sampleStorage (sampleRequest .move) =
      .ok ([slash, 0x73, slash, 0x61, slash], [slash, 0x73, slash, 0x61]) ∧
    (handleCopyMove parseBarePath .calm sampleStorage (sampleRequest .move)
      (.start sampleTree)).1 = failure statusForbidden .noent ∧
    sampleTree.node samplePlace = some (.file 0o644 [1, 2, 3]) ∧
    (moveFiles .calm [slash, 0x73, slash, 0x61, slash] [slash, 0x73, slash, 0x61] true
      (.start sampleTree)).1.err.isSome = true ∧
    (moveFiles .calm [slash, 0x73, slash, 0x61, slash] [slash, 0x73, slash, 0x61] true
      (.start sampleTree)).2.tree.node samplePlace = none := by
  decide +kernel

end Wsfs.Webdav
