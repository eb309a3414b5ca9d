/-
What a COPY request leaves of its source.
-/

import Wsfs.Webdav.Move

namespace Wsfs.Webdav

open Wsfs.Base Wsfs.Util
open Wsfs.Base.FileTree (Extends Shrinks)

/-- The path of the source leads along the same places as before, and everything under it
is as it was, apart from what lay in a destination strictly inside it. -/
def KeepsSource (src dst : Bytes) (before after : Tree) : Prop :=
  ∀ source, leads before true src = .ok source → (before.node source.place).isSome = true →
    leads after true src = .ok source ∧
    ∀ place node, source.place <+: place → before.node place = some node →
      (∀ target, leads before false dst = .ok target → source.place <+: target.place →
        source.place ≠ target.place → ¬target.place <+: place) →
      after.node place = some node

/-- The copy begins by removing its source, or a directory or link on the way to it. -/
def RemovesSource (tree : Tree) (req : Request) (src dst : Bytes) : Prop :=
  (copyDepth req = 0 ∨ copyDepth req = infiniteDepth) ∧ req.overwrite ≠ overwriteF ∧
    Resolves tree src ∧ Resolves tree dst ∧
    ∃ source target, leads tree true src = .ok source ∧ leads tree false dst = .ok target ∧
      ∃ place ∈ source.seen, target.place <+: place

variable {src dst : Bytes} {before after : Tree}

theorem KeepsSource.of_extends (extended : Extends before after) :
    KeepsSource src dst before after := by
  intro source led present
  refine ⟨FileTree.leads_transfer led fun place seen => ?_,
    fun place node _ found _ => extended place node found⟩
  obtain ⟨node, found⟩ := Option.isSome_iff_exists.mp (seen_present led present place seen)
  rw [found, extended place node found]

/-- What goes from a destination that is nowhere above the way to the source lies strictly
inside the source or apart from it. -/
theorem KeepsSource.of_shrinks {middle : Tree} {target : Reached FileName}
    (targetLed : leads before false dst = .ok target)
    (apart : ∀ source, leads before true src = .ok source → ¬∃ place ∈ source.seen, target.place <+: place)
    (shrinks : Shrinks target.place before middle) (extended : Extends middle after) :
    KeepsSource src dst before after := by
  intro source led present
  have clear := apart source led
  constructor
  · refine FileTree.leads_transfer led fun place seen => ?_
    have kept := shrinks.node_eq fun under => clear ⟨place, seen, under⟩
    obtain ⟨node, found⟩ := Option.isSome_iff_exists.mp (seen_present led present place seen)
    rw [found, extended place node (kept.trans found)]
  · intro place node under found elsewhere
    refine extended place node ((shrinks.node_eq fun beyond => ?_).trans found)
    rcases List.prefix_or_prefix_of_prefix beyond under with above | inside
    · exact clear ⟨source.place, List.mem_cons_self, above⟩
    · refine elsewhere target targetLed inside (fun same => ?_) beyond
      exact clear ⟨source.place, List.mem_cons_self, same ▸ List.prefix_rfl⟩

/-! ### Copies that lose the source -/

/-- Four calls take the copy past `RemoveAll`, and the fifth would put something in place
of what it has removed. -/
theorem copyFiles_cut {tree : Tree} (depth : Int) (levels : Nat) {target : Reached FileName}
    (source : Resolves tree src) (resolves : Resolves tree dst)
    (led : leads tree false dst = .ok target) :
    (copyFiles (.failingFrom 4) true depth (levels + 1) src dst (.start tree)).2.tree =
      tree.remove target.place := by
  obtain ⟨⟨srcPlace, srcNode⟩, srcFound⟩ := source
  obtain ⟨dstFound, isFound⟩ := resolves
  have opened : (Os.failingFrom 4).openFile src (.start tree) =
      (.ok ⟨srcPlace, srcNode, 0⟩, ⟨tree, 1, []⟩) := by
    simp [Os.openFile, Os.ask, Os.call, Os.failingFrom, World.start, srcFound]
  have cleared : clearDestination (.failingFrom 4) dst true ⟨tree, 2, []⟩ =
      (.ok false, ⟨tree.remove target.place, 4, [target.place]⟩) := by
    have found : (Os.failingFrom 4).stat dst ⟨tree, 2, []⟩ = (.ok dstFound.2, ⟨tree, 3, []⟩) := by
      simp [Os.stat, Os.ask, Os.call, Os.failingFrom, isFound, Except.map]
    have removed : (Os.failingFrom 4).removeAll dst ⟨tree, 3, []⟩ =
        (.ok (), ⟨tree.remove target.place, 4, [target.place]⟩) := by
      simp [Os.removeAll, Os.call, Os.failingFrom, led]
    rw [clearDestination, bind_apply, found]
    simp only [Bool.not_true, Bool.false_eq_true, if_false, bind_apply, removed]
    rfl
  have stated : (Os.failingFrom 4).fileStat ⟨srcPlace, srcNode, 0⟩ ⟨tree, 1, []⟩ =
      (.ok srcNode, ⟨tree, 2, []⟩) :=
    rfl
  rw [copyFiles, bind_apply, opened]
  simp only [bind_apply, stated, cleared]
  split
  · rfl
  · rfl

/-! ### Requests -/

theorem getPathAndDest_ok {parseUrl : Bytes → Option Url} {st : Storage} {req : Request}
    (accepted : getPathAndDest parseUrl st req = .ok (src, dst)) : src ≠ dst ∧ Descending dst := by
  unfold getPathAndDest at accepted
  dsimp only at accepted
  split at accepted
  · cases accepted
  split at accepted
  · cases accepted
  split at accepted
  · cases accepted
  split at accepted
  · cases accepted
  split at accepted
  · cases accepted
  · rename_i desturl _ _ notInvalid different
    cases accepted
    have valid : isUrlValid desturl.path = true := by
      rw [Bool.not_eq_true', Bool.not_eq_false] at notInvalid
      exact notInvalid
    exact ⟨different, descending_append st.descending valid⟩

theorem copy_keeps_source_iff (parseUrl : Bytes → Option Url) (st : Storage) (req : Request)
    (src dst : Bytes) (tree : Tree) (copy : req.method = .copy)
    (accepted : getPathAndDest parseUrl st req = .ok (src, dst)) :
    (∀ os : Os, KeepsSource src dst tree (handleCopyMove parseUrl os st req (.start tree)).2.tree) ↔
    ¬RemovesSource tree req src dst := by
  obtain ⟨different, descending⟩ := getPathAndDest_ok accepted
  have handled : ∀ os : Os, handleCopyMove parseUrl os st req (.start tree) =
      (if copyDepth req ≠ 0 ∧ copyDepth req ≠ infiniteDepth then
        pure ⟨statusBadRequest, some .invalidDepth⟩
      else copyFiles os (req.overwrite ≠ overwriteF) (copyDepth req) recursionMax src dst :
        OsM Outcome) (.start tree) := by
    intro os
    simp only [handleCopyMove, accepted, if_neg different.symm, copy]
  constructor
  · rintro keeps ⟨depth, overwrite, resolves, target, source, entry, led, entryLed, place, seen, above⟩
    have kept := keeps (.failingFrom 4)
    have accepts : ¬(copyDepth req ≠ 0 ∧ copyDepth req ≠ infiniteDepth) := by
      rw [not_and_or, not_not, not_not]
      exact depth
    rw [handled, if_neg accepts, decide_eq_true overwrite, show recursionMax = 255 + 1 from rfl,
      copyFiles_cut _ _ resolves target entryLed] at kept
    obtain ⟨reached, reachedLed, present⟩ := resolves.leads
    cases reachedLed.symm.trans led
    obtain ⟨still, same⟩ := kept _ led present
    have gone : (tree.remove entry.place).node place = none := if_pos above
    rcases List.mem_cons.mp seen with rfl | passed
    · obtain ⟨node, found⟩ := Option.isSome_iff_exists.mp present
      have there := same source.place node List.prefix_rfl found (by
        rintro _ led inside distinct _
        cases led.symm.trans entryLed
        exact distinct (inside.eq_of_length_le above.length_le))
      rw [gone] at there
      cases there
    · have there := FileTree.leads_present still place passed
      rw [gone] at there
      cases there
  · intro safe os
    rw [handled]
    split
    · exact .of_extends (.refl _)
    · rename_i accepts
      rw [not_and_or, not_not, not_not] at accepts
      obtain ⟨middle, clears, resolves, extended⟩ :=
        copyFiles_copies os (req.overwrite ≠ overwriteF) (copyDepth req) recursionMax src dst descending
          (.start tree)
      rcases clears with rfl | ⟨overwrite, target, entry, entryLed, shrinks⟩
      · exact .of_extends extended
      · rcases resolves with rfl | resolves
        · exact .of_extends extended
        · refine .of_shrinks entryLed (fun source led above => ?_) shrinks extended
          exact safe ⟨accepts, of_decide_eq_true overwrite, resolves, target, source, entry, led,
            entryLed, above⟩

/-- A copy of `/a/` to `/l/a/f`, a file inside it by way of the link, costs that file
only. -/
theorem copy_keeps_source_iff_inside :
    let req := { sampleRequest .copy with destination := [slash, 0x6c, slash, 0x61, slash, 0x66] }
    KeepsSource [slash, 0x73, slash, 0x61, slash] [slash, 0x73, slash, 0x6c, slash, 0x61, slash, 0x66]
      sampleTree (handleCopyMove parseBarePath .calm sampleStorage req (.start sampleTree)).2.tree := by
  intro req
  refine (copy_keeps_source_iff parseBarePath sampleStorage req _ _ sampleTree rfl
    (by decide +kernel)).mpr ?_ .calm
  rintro ⟨_, _, _, _, source, target, led, targetLed, place, seen, above⟩
  have apart : (do
      let source ← leads sampleTree true [slash, 0x73, slash, 0x61, slash]
      let target ← leads sampleTree false [slash, 0x73, slash, 0x6c, slash, 0x61, slash, 0x66]
      return decide (∀ place ∈ source.seen, ¬target.place <+: place)) = .ok true := by decide +kernel
  rw [led, targetLed] at apart
  exact of_decide_eq_true (Except.ok.inj apart) place seen above

/-- A copy of `/a/` to `/a`, or of `/a` to `/l/a`, is accepted and leaves an empty
directory. -/
theorem copy_onto_itself_loses_source :
    let viaLink : Request := ⟨.copy, [slash, 0x61], by decide, [], [slash, 0x6c, slash, 0x61], [], overwriteT⟩
    getPathAndDest parseBarePath sampleStorage (sampleRequest .copy) =
      .ok ([slash, 0x73, slash, 0x61, slash], [slash, 0x73, slash, 0x61]) ∧
    getPathAndDest parseBarePath sampleStorage viaLink =
      .ok ([slash, 0x73, slash, 0x61], [slash, 0x73, slash, 0x6c, slash, 0x61]) ∧
    (leads sampleTree true [slash, 0x73, slash, 0x61]).map Reached.place = .ok samplePlace.dropLast ∧
    sampleTree.node samplePlace = some (.file 0o644 [1, 2, 3]) ∧
    ∀ req ∈ [sampleRequest .copy, viaLink],
      (handleCopyMove parseBarePath .calm sampleStorage req (.start sampleTree)).1 =
        failure statusForbidden .noent ∧
      (handleCopyMove parseBarePath .calm sampleStorage req (.start sampleTree)).2.tree.node
        samplePlace = none := by
  decide +kernel

end Wsfs.Webdav
