import DiscPatch.Proofs.Patch.Faults
import DiscPatch.Proofs.Patch.Runs

/-!
# Patches without external files

A patch is asked for its external files before its directives are looked at, so a patch without any
ends the batch, also if it has no directive that needs them.

* `Patch.Supplied` — a patch has external files, and its lengths are natural;
* `outcome_applyPatches_of_supplied` — a batch of such patches always returns;
* `outcome_applyPatches_stop` — a batch stops at its first patch without external files;
* `applyPatches_fails_iff` — that is the only way to fail, and the patches in front of it have been
  carried out.
-/

namespace DiscPatch

open Edit

variable {executable : String} {disc : Disc}

/-! ## Patches with external files -/

/-- The patch has external files kept in memory under ordinary names, and no folder directive of it
has a negative length. -/
def Patch.Supplied (patch : Patch) : Prop :=
  ∃ shelved : ShelfPatch, shelved.toPatch = patch ∧ shelved.NaturalFolders

theorem exists_shelved {patches : List Patch} (h : ∀ patch ∈ patches, patch.Supplied) :
    ∃ shelved : List ShelfPatch, shelved.map (·.toPatch) = patches ∧
      ∀ patch ∈ shelved, patch.NaturalFolders := by
  induction patches with
  | nil => exact ⟨[], rfl, by simp⟩
  | cons patch rest ih =>
    obtain ⟨⟨first, rfl, hfirst⟩, hrest⟩ := List.forall_mem_cons.mp h
    obtain ⟨others, rfl, hothers⟩ := ih hrest
    exact ⟨first :: others, rfl, List.forall_mem_cons.mpr ⟨hfirst, hothers⟩⟩

/-- **A batch of patches with external files returns.** -/
theorem outcome_applyPatches_of_supplied (hdisc : disc.Natural) {patches : List Patch}
    (h : ∀ patch ∈ patches, patch.Supplied) :
    ∃ reports after, (applyPatches executable patches).outcome disc = (.ok reports, after) := by
  obtain ⟨shelved, rfl, hnatural⟩ := exists_shelved h
  obtain ⟨hperformed, -⟩ := performed_map_ok (shelved.flatMap (·.orders))
  obtain ⟨reports, after, hrun, -⟩ :=
    outcome_steps executable ((shelved.flatMap (·.orders)).map .ok) hdisc
  rw [hperformed] at hrun
  exact ⟨reports, after, by rw [applyPatches_eq hnatural, outcome_bind_ok hrun]; rfl⟩

/-! ## Patches without external files -/

/-- A patch without external files fails whatever its directives are, and leaves the disc alone. -/
theorem outcome_applyPatch_of_none {patch : Patch} (h : patch.external = none) :
    (applyPatch executable patch).outcome disc = (.error (.noExternal patch.name), disc) := by
  have hrequired : patch.required = .error (.noExternal patch.name) := by rw [Patch.required, h]
  rw [applyPatch, hrequired]
  rfl

/-- **A batch stops at a patch without external files**, with the disc that the patches in front of
it leave. -/
theorem outcome_applyPatches_stop (hdisc : disc.Natural) {front back : List Patch} {patch : Patch}
    (hfront : ∀ other ∈ front, other.Supplied) (hpatch : patch.external = none) :
    ∃ reports after, (applyPatches executable front).outcome disc = (.ok reports, after) ∧
      (applyPatches executable (front ++ patch :: back)).outcome disc =
        (.error (.noExternal patch.name), after) := by
  obtain ⟨reports, after, hrun⟩ := outcome_applyPatches_of_supplied hdisc hfront
  refine ⟨reports, after, hrun, ?_⟩
  rw [outcome_applyPatches] at hrun ⊢
  rw [List.mapM_append, List.mapM_cons, outcome_bind]
  generalize (front.mapM (applyPatch executable)).outcome disc = result at hrun
  obtain ⟨error | groups, mid⟩ := result
  · cases hrun
  · cases hrun
    dsimp only
    rw [bind_assoc, outcome_bind_error (outcome_applyPatch_of_none hpatch), Except.map]

/-- **A batch fails exactly if a patch has no external files**, whether it needs them or not. It
names the first such patch, and leaves the disc that the patches in front of it leave, which return
on their own. -/
theorem applyPatches_fails_iff (hdisc : disc.Natural) {patches : List Patch}
    (h : ∀ patch ∈ patches, patch.external = none ∨ patch.Supplied) (executable : String) :
    ((∃ error, ((applyPatches executable patches).outcome disc).1 = .error error) ↔
      ∃ patch ∈ patches, patch.external = none) ∧
    ∀ front patch back, patches = front ++ patch :: back →
      (∀ other ∈ front, other.external ≠ none) → patch.external = none →
      ∃ reports after, (applyPatches executable front).outcome disc = (.ok reports, after) ∧
        (applyPatches executable patches).outcome disc =
          (.error (.noExternal patch.name), after) := by
  refine ⟨⟨?_, ?_⟩, ?_⟩
  · rintro ⟨error, herror⟩
    by_contra hnone
    have hsupplied : ∀ patch ∈ patches, patch.Supplied := fun patch hpatch =>
      (h patch hpatch).resolve_left fun hexternal => hnone ⟨patch, hpatch, hexternal⟩
    obtain ⟨reports, after, hrun⟩ := outcome_applyPatches_of_supplied hdisc hsupplied
    rw [hrun] at herror
    cases herror
  · rintro ⟨patch, hpatch, hexternal⟩
    -- the first of them stops the batch
    have hsome : (patches.find? (·.external.isNone)).isSome :=
      List.find?_isSome.mpr ⟨patch, hpatch, Option.isNone_iff_eq_none.mpr hexternal⟩
    obtain ⟨first, hfirst⟩ := Option.isSome_iff_exists.mp hsome
    obtain ⟨hnone, front, back, rfl, hfront⟩ := List.find?_eq_some_iff_append.mp hfirst
    have hsupplied : ∀ other ∈ front, other.Supplied := by
      intro other hother
      refine (h other (List.mem_append_left _ hother)).resolve_left fun hexternal => ?_
      simpa [hexternal] using hfront other hother
    obtain ⟨_, _, -, hstop⟩ :=
      outcome_applyPatches_stop hdisc hsupplied (Option.isNone_iff_eq_none.mp hnone)
    exact ⟨_, congrArg Prod.fst hstop⟩
  · rintro front patch back rfl hfront hpatch
    exact outcome_applyPatches_stop hdisc (fun other hother =>
      (h other (List.mem_append_left _ hother)).resolve_left (hfront other hother)) hpatch

/-- A patch that only writes to memory ends the batch after the first patch has made its file, and
the last patch is not reached. -/
theorem applyPatches_fails_iff_memory :
    let tree := FileTree.folder [("a", .file [120])]
    let disc : Disc := ⟨⟨"", []⟩, none⟩
    let first : Patch := ⟨"p", [⟨"/m", "a", 0, 0, 0, false, true⟩], [], [], [],
      some (External.shelf tree ⟨"", ""⟩)⟩
    let second : Patch := ⟨"m", [], [], [⟨16, [1, 2], "", [], false, 1, false⟩], [], none⟩
    let third : Patch := ⟨"q", [⟨"/n", "a", 0, 0, 0, false, true⟩], [], [], [],
      some (External.shelf tree ⟨"", ""⟩)⟩
    let result := (applyPatches "main.dol" [first, second, third]).outcome disc
    disc.Natural ∧ first.Supplied ∧ third.Supplied ∧ result.1 = .error (.noExternal "m") ∧
      (listing "" result.2.root.children).map (·.1) = ["m"] := by
  intro tree disc first second third result
  have hdisc : disc.Natural := by simp [Disc.Natural, Disc.files, disc]
  have htree : tree.Ordinary :=
    ⟨by decide, ⟨by decide, by decide, by decide⟩, trivial, trivial⟩
  have hshelved (patch : Patch) (hkept : patch.external = some (External.shelf tree ⟨"", ""⟩))
      (hfolders : patch.folders = []) : patch.Supplied :=
    ⟨⟨patch, tree, ⟨"", ""⟩, hkept, htree⟩, rfl, by simp [ShelfPatch.NaturalFolders, hfolders]⟩
  have hfirst : first.Supplied := hshelved first rfl rfl
  have hthird : third.Supplied := hshelved third rfl rfl
  have hall : ∀ patch ∈ [first, second, third], patch.external = none ∨ patch.Supplied := by
    simp only [List.forall_mem_cons]
    exact ⟨.inr hfirst, .inl rfl, .inr hthird, by simp⟩
  obtain ⟨-, hstop⟩ := applyPatches_fails_iff hdisc hall "main.dol"
  obtain ⟨reports, after, hfront, hfails⟩ := hstop [first] second [third] rfl (by simp [first]) rfl
  have hafter : after = ((applyPatches "main.dol" [first]).outcome disc).2 := by rw [hfront]
  refine ⟨hdisc, hfirst, hthird, congrArg Prod.fst hfails, ?_⟩
  have hresult : result.2 = after := congrArg Prod.snd hfails
  rw [hresult, hafter]
  decide +kernel

end DiscPatch
