import DiscPatch.External.Shelf
import DiscPatch.Proofs.Disc.Growth
import DiscPatch.Proofs.Patch.Application
import Mathlib.Data.List.Basic

/-!
# Directives without their external file

A directive first finds its target, which may create it, and only then asks for its external file.
If that is missing, no file changes, but a target that was created stays.

* `modifyAt_self`, `Disc.setFile_self` — a file replaced by itself;
* `File.applyDirective_eq_false` — a file is left as it is if the external file is missing;
* `FileDirective.Creates` — the directive has a path that leads to no file yet, and may create one;
* `applyFile_of_unavailable` — a directive without its external file changes nothing exactly if it
  does not create its target, and otherwise adds the target and nothing else.
-/

namespace DiscPatch

open Edit

/-! ## Replacing a file by itself -/

theorem modifyAt_self {place : Location} {nodes : List Node} {file : File}
    (h : fileAt? place nodes = some file) : modifyAt file place nodes = nodes := by
  induction place generalizing nodes with
  | nil => cases h
  | cons index place ih =>
    rcases fileAt?_cases h with ⟨front, back, hplace, rfl⟩ |
      ⟨front, back, name, below, rest, hplace, rfl, hbelow⟩
    · rw [hplace, modifyAt_here]
    · obtain ⟨rfl, rfl⟩ := List.cons.inj hplace
      rw [modifyAt_below, ih hbelow]

theorem Disc.setFile_self {disc : Disc} {target : Target} {file : File}
    (h : disc.file? target = some file) : disc.setFile file target = disc := by
  cases target with
  | main =>
    have hmain : disc.main = some file := h
    rw [setFile, ← hmain]
  | place place => rw [setFile, modifyAt_self h]

/-! ## Directives -/

/-- A file is left as it is if the external file is missing, and only then the answer is no. -/
theorem File.applyDirective_eq_false {external : External} {directive : FileDirective}
    {file new : File}
    (h : (File.applyDirective external directive).outcome file = (.ok false, new)) :
    new = file ∧ (external.size? directive.external).value = none := by
  rw [applyDirective, overwrite] at h
  split at h
  · cases h
  rw [outcome_bind_ok (outcome_fromLogged _ file)] at h
  rcases hsize : (external.size? directive.external).value with _ | size
  · rw [hsize] at h
    cases h
    exact ⟨rfl, rfl⟩
  · rw [hsize] at h
    dsimp only at h
    rw [outcome_bind_ok (outcome_get file)] at h
    split at h
    · cases h
    · cases h

/-- The directive has a path that leads to no file, and it may create one. -/
def FileDirective.Creates (directive : FileDirective) (disc : Disc) : Prop :=
  directive.disc.toList.head? = some '/' ∧ directive.create = true ∧
    ¬ LeadsToFile directive.parts disc.root.children

section Unavailable

variable {external : External} {executable : String} {directive : FileDirective}
  {disc after : Disc}

/-- Looking for a target leaves the disc as it is, or creates the target and nothing else. -/
theorem Targeting.same_or_grown {target : Target}
    (h : Targeting executable directive disc (.ok target) after) :
    after = disc ∧ ¬ directive.Creates disc ∨
      ∃ nodes, after = disc.withChildren nodes ∧ directive.Creates disc ∧
        Grown directive.parts disc.root.children nodes := by
  cases h with
  | @path nodes place hpath hnodes =>
    rcases hnodes.found_or_grown place rfl with ⟨rfl, hfile⟩ | ⟨hcreate, hgrown, hnone⟩
    · exact .inl ⟨rfl, fun hcreates => hcreates.2.2 hfile⟩
    · exact .inr ⟨nodes, rfl, ⟨hpath, hcreate, hnone⟩, hgrown⟩
  | main hpath => exact .inl ⟨rfl, fun hcreates => hpath hcreates.1⟩
  | name hpath => exact .inl ⟨rfl, fun hcreates => hpath hcreates.1⟩

/-- A directive that reports its external file as missing has found its target, and has done nothing
else. -/
theorem Carried.targeting_of_unavailable {answer : Except Error FileReport} {report : FileReport}
    (h : Carried external executable directive disc answer after) (hanswer : answer = .ok report)
    (hreport : report.outcome = .resourceUnavailable) :
    (external.size? directive.external).value = none ∧
      ∃ target, Targeting executable directive disc (.ok target) after := by
  cases h with
  | refused =>
    cases hanswer
    cases hreport
  | untargeted _ htarget =>
    cases hanswer
    obtain rfl : _ = Outcome.resourceUnavailable := hreport
    generalize houtcome : Except.error Outcome.resourceUnavailable = answer at htarget
    cases htarget with
    | @noPath _ fault =>
      have hfault := Except.error.inj houtcome
      rw [LookupFault.outcome] at hfault
      split at hfault <;> cases hfault
    | _ => cases houtcome
  | @changed target mid file new answer _ htarget hfile hchanged =>
    rcases answer with error | done
    · cases hanswer
    · cases hanswer
      cases done with
      | true => cases hreport
      | false =>
        obtain ⟨rfl, hmissing⟩ := File.applyDirective_eq_false hchanged
        rw [Disc.setFile_self hfile]
        exact ⟨hmissing, target, htarget⟩

/-- **A directive without its external file.** Neither the main executable nor any file of the tree
changes. The disc is left exactly as it is unless the directive creates its target; then the tree
has grown by the target, an empty file, and by the folders it needs. -/
theorem applyFile_of_unavailable {report : FileReport}
    (h : (applyFile external executable directive).outcome disc = (.ok report, after))
    (hreport : report.outcome = .resourceUnavailable) :
    (external.size? directive.external).value = none ∧
      (after = disc ↔ ¬ directive.Creates disc) ∧
      after.main = disc.main ∧ after.root.name = disc.root.name ∧
      (directive.Creates disc →
        Grown directive.parts disc.root.children after.root.children ∧
        ∃ front path name back, listing "" disc.root.children = front ++ back ∧
          listing "" after.root.children = front ++ (path, File.empty name) :: back) := by
  have hcarried := carried external executable directive disc
  rw [h] at hcarried
  obtain ⟨hmissing, target, htarget⟩ := hcarried.targeting_of_unavailable rfl hreport
  refine ⟨hmissing, ?_⟩
  rcases htarget.same_or_grown with ⟨rfl, hnot⟩ | ⟨nodes, rfl, hcreates, hgrown⟩
  · exact ⟨iff_of_true rfl hnot, rfl, rfl, fun hcreates => absurd hcreates hnot⟩
  · have hchanged : disc.withChildren nodes ≠ disc :=
      fun hsame => hgrown.ne (congrArg (·.root.children) hsame)
    exact ⟨iff_of_false hchanged fun hnot => hnot hcreates, rfl, rfl,
      fun _ => ⟨hgrown, hgrown.listing ""⟩⟩

end Unavailable

/-- A missing external file for a path of which nothing exists: the report says that the file is
missing, and yet the tree has a new folder with a new file in it. -/
theorem applyFile_of_unavailable_created :
    let external := External.shelf (.folder []) ⟨"", ""⟩
    let directive : FileDirective := ⟨"/new/a.bin", "missing.bin", 0, 0, 0, false, true⟩
    let disc : Disc := ⟨⟨"", []⟩, none⟩
    let result := (applyFile external "main.dol" directive).outcome disc
    let report := directive.report .resourceUnavailable
    result.1 = .ok report ∧ report.outcome = .resourceUnavailable ∧ directive.Creates disc ∧
      result.2 ≠ disc ∧ (listing "" result.2.root.children).map (·.1) = ["new/a.bin"] := by
  intro external directive disc result report
  have hreport : result.1 = .ok report := by decide +kernel
  have hpaths : (listing "" result.2.root.children).map (·.1) = ["new/a.bin"] := by decide +kernel
  have hparts : directive.parts = ["new", "a.bin"] := by decide +kernel
  have hcreates : directive.Creates disc := by
    refine ⟨by decide, rfl, ?_⟩
    rw [hparts]
    exact not_leadsToFile_of_absent (by simp [disc])
  have hresult : (applyFile external "main.dol" directive).outcome disc = (.ok report, result.2) :=
    Prod.ext hreport rfl
  obtain ⟨-, hsame, -⟩ := applyFile_of_unavailable hresult rfl
  exact ⟨hreport, rfl, hcreates, fun hafter => hsame.mp hafter hcreates, hpaths⟩

end DiscPatch
