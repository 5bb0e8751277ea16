import DiscPatch.Proofs.Content.WellFormed
import DiscPatch.Proofs.Disc.Entries
import DiscPatch.Proofs.Patch.Unavailable

/-!
# The one file that a directive may change

A directive has at most one target: the main executable, the file at the end of a path, or the first
file of a name. Nothing else on the disc changes, apart from what is created for a path.

* `FileDirective.NamesMain`, `FileDirective.number?` — the target, read off the directive and the
  disc;
* `Targeting.touched`, `Targeting.untouched` — replacing the file that was found touches the entry of
  that number and no other; where none is found, no entry is touched;
* `applyFile_touches_target` — what a directive that is carried out leaves as it was, for each
  outcome.
-/

namespace DiscPatch

open Edit

/-- The directive is for the main executable: its name is not a path, and it is the executable's. -/
def FileDirective.NamesMain (directive : FileDirective) (executable : String) : Prop :=
  directive.disc.toList.head? ≠ some '/' ∧ sameName directive.disc executable

instance (directive : FileDirective) (executable : String) :
    Decidable (directive.NamesMain executable) :=
  inferInstanceAs (Decidable (_ ∧ _))

/-- The number of the file of the tree that the directive is for, among all files in the order of
the listing. -/
def FileDirective.number? (directive : FileDirective) (executable : String) (nodes : List Node) :
    Option Nat :=
  if directive.disc.toList.head? = some '/' then pathNumber? directive.parts nodes
  else if sameName directive.disc executable then none
  else nameNumber? directive.disc nodes

section Targets

variable {external : External} {executable : String} {directive : FileDirective}
  {disc mid after : Disc}

/-- **Replacing the file that was found touches one entry.** For the main executable, the tree stays
as it is; for a file of the tree, the main executable does. -/
theorem Targeting.touched {target : Target} {old new : File}
    (h : Targeting executable directive disc (.ok target) mid)
    (hold : mid.file? target = some old) (hnew : new.name = old.name) :
    directive.NamesMain executable ∧ disc.main = some old ∧
        mid.setFile new target = { disc with main := some new } ∨
      ¬ directive.NamesMain executable ∧ (mid.setFile new target).main = disc.main ∧
        Touched old new (directive.number? executable disc.root.children)
          (listing "" disc.root.children) (listing "" (mid.setFile new target).root.children) := by
  cases h with
  | @path nodes place hpath hnodes =>
    refine .inr ⟨fun hmain => hmain.1 hpath, rfl, ?_⟩
    rw [FileDirective.number?, if_pos hpath]
    exact hnodes.touched "" place old new rfl hold hnew
  | main hpath hname hmain => exact .inl ⟨⟨hpath, hname⟩, hold, rfl⟩
  | name hpath hname hfile =>
    obtain rfl := Option.some.inj (hfile.fileAt?.symm.trans hold)
    obtain ⟨number, hnumber, htouched⟩ := hfile.touched hnew ""
    refine .inr ⟨fun hmain => hname hmain.2, rfl, ?_⟩
    rw [FileDirective.number?, if_neg hpath, if_neg hname, nameNumber?, hnumber]
    exact htouched

/-- A directive without a target changes no file, and nothing at all if its path meets something of
the wrong kind. -/
theorem Targeting.untouched {outcome : Outcome}
    (h : Targeting executable directive disc (.error outcome) after) :
    after.main = disc.main ∧ (directive.NamesMain executable → after = disc) ∧
      listing "" after.root.children = listing "" disc.root.children ∧ outcome ≠ .applied ∧
      (outcome = .typeMismatch → after = disc) := by
  generalize hanswer : Except.error outcome = answer at h
  cases h with
  | @noPath nodes fault hpath hnodes =>
    cases hanswer
    refine ⟨rfl, fun hmain => absurd hpath hmain.1, hnodes.listing_of_error "" fault rfl, ?_, ?_⟩
    · rw [LookupFault.outcome]
      split <;> simp
    · intro houtcome
      rw [LookupFault.outcome] at houtcome
      split at houtcome
      · next hmismatch =>
        rw [(hnodes.eq_of_mismatch fault rfl hmismatch).1]
        rfl
      · cases houtcome
  | noMain | noName =>
    cases hanswer
    exact ⟨rfl, fun _ => rfl, rfl, by simp, fun _ => rfl⟩
  | _ => cases hanswer

/-- A directive that is carried out has no target and changes no file, or has edited its target.
Unless it is applied, the edit leaves the target as it is. -/
theorem Carried.untouched_or_edited {answer : Except Error FileReport} {report : FileReport}
    (h : Carried external executable directive disc answer after) (hanswer : answer = .ok report) :
    (after.main = disc.main ∧ (directive.NamesMain executable → after = disc) ∧
      listing "" after.root.children = listing "" disc.root.children ∧
      report.outcome ≠ .applied ∧ (report.outcome = .typeMismatch → after = disc)) ∨
    ∃ target mid old new, Targeting executable directive disc (.ok target) mid ∧
      mid.file? target = some old ∧ new.name = old.name ∧ after = mid.setFile new target ∧
      report.outcome ≠ .typeMismatch ∧ (report.outcome ≠ .applied → new = old) ∧
      (report.outcome = .applied →
        (File.applyDirective external directive).outcome old = (.ok true, new)) := by
  cases h with
  | refused =>
    cases hanswer
    exact .inl ⟨rfl, fun _ => rfl, rfl, by simp [FileDirective.report], fun _ => rfl⟩
  | untargeted _ htarget =>
    cases hanswer
    exact .inl htarget.untouched
  | @changed target mid old new answer _ htarget hfile hchanged =>
    have hname : new.name = old.name := by
      rw [← File.name_applyDirective external directive old, hchanged]
    cases answer with
    | error error => cases hanswer
    | ok done =>
      cases hanswer
      refine .inr ⟨target, mid, old, new, htarget, hfile, hname, rfl, ?_⟩
      cases done with
      | true => exact ⟨by simp [FileDirective.report], fun hnot => absurd rfl hnot, fun _ => hchanged⟩
      | false =>
        obtain ⟨rfl, -⟩ := File.applyDirective_eq_false hchanged
        exact ⟨by simp [FileDirective.report], fun _ => rfl, by simp [FileDirective.report]⟩

/-- **A directive changes its target and nothing else.** All entries of the tree but that of the
target are listed as before, and at most one entry comes with them. Only a directive that is applied
changes a file, and it lays the external file over its target. A directive whose path meets
something of the wrong kind leaves the disc exactly as it is. -/
theorem applyFile_touches_target {report : FileReport}
    (h : (applyFile external executable directive).outcome disc = (.ok report, after)) :
    let number? := directive.number? executable disc.root.children
    let before := listing "" disc.root.children
    let now := listing "" after.root.children
    (othersOf number? before).Sublist now ∧ now.length ≤ (othersOf number? before).length + 1 ∧
      (directive.NamesMain executable → after.root = disc.root) ∧
      (¬ directive.NamesMain executable → after.main = disc.main) ∧
      (report.outcome ≠ .applied → before.Sublist now ∧ after.main = disc.main) ∧
      (report.outcome = .typeMismatch → after = disc) ∧
      (report.outcome = .applied → ∃ old new,
        (File.applyDirective external directive).outcome old = (.ok true, new) ∧
          (directive.NamesMain executable → disc.main = some old ∧ after.main = some new) ∧
          (¬ directive.NamesMain executable → Touched old new number? before now)) := by
  intro number? before now
  have hcarried := carried external executable directive disc
  rw [h] at hcarried
  rcases hcarried.untouched_or_edited rfl with
    ⟨hmain, hsame, hlisting, hnotApplied, hmismatch⟩ |
      ⟨target, mid, old, new, htarget, hold, hname, rfl, hnotMismatch, hkept, hedited⟩
  · have hnow : now = before := hlisting
    obtain ⟨hothers, hlength⟩ := othersOf_self number? before
    rw [hnow]
    exact ⟨hothers, hlength, fun hnames => congrArg (·.root) (hsame hnames), fun _ => hmain,
      fun _ => ⟨List.Sublist.refl _, hmain⟩, hmismatch, fun happlied => absurd happlied hnotApplied⟩
  rcases htarget.touched hold hname with ⟨hnames, hmain, hafter⟩ | ⟨hnames, hmain, htouched⟩
  · have hnow : now = before := congrArg (listing "" ·.root.children) hafter
    obtain ⟨hothers, hlength⟩ := othersOf_self number? before
    rw [hnow, hafter]
    refine ⟨hothers, hlength, fun _ => rfl, fun hnot => absurd hnames hnot, fun hnotApplied => ?_,
      fun hmismatch => absurd hmismatch hnotMismatch, fun happlied => ?_⟩
    · exact ⟨List.Sublist.refl _, by rw [hkept hnotApplied, hmain]⟩
    · exact ⟨old, new, hedited happlied, fun _ => ⟨hmain, rfl⟩, fun hnot => absurd hnames hnot⟩
  · obtain ⟨hothers, hlength⟩ := htouched.others
    refine ⟨hothers, Nat.le_of_eq hlength, fun hnot => absurd hnot hnames, fun _ => hmain,
      fun hnotApplied => ⟨?_, hmain⟩, fun hmismatch => absurd hmismatch hnotMismatch,
      fun happlied => ⟨old, new, hedited happlied, fun hnot => absurd hnot hnames,
        fun _ => htouched⟩⟩
    obtain rfl := hkept hnotApplied
    exact htouched.sublist_of_same

end Targets

/-- A path whose names are written otherwise leads to the first folder and the first file that have
them, although others come after: entry `1` of four is the target, and the three others stay. -/
theorem applyFile_touches_target_duplicates :
    let external := External.shelf (.folder [("e", .file [7])]) ⟨"", ""⟩
    let directive : FileDirective := ⟨"/D/X", "e", 0, 0, 0, true, true⟩
    let disc : Disc := ⟨⟨"", [.file (File.empty "X"),
      .folder "d" [.file (File.empty "x"), .file (File.empty "X")],
      .folder "D" [.file (File.empty "X")]]⟩, none⟩
    let result := (applyFile external "main.dol" directive).outcome disc
    result.1 = .ok (directive.report .applied) ∧
      directive.number? "main.dol" disc.root.children = some 1 ∧
      ((listing "" disc.root.children).eraseIdx 1).Sublist (listing "" result.2.root.children) ∧
      (listing "" result.2.root.children).map (·.2.size) = [0, 1, 0, 0] := by
  intro external directive disc result
  have hreport : result.1 = .ok (directive.report .applied) := by decide +kernel
  have hnumber : directive.number? "main.dol" disc.root.children = some 1 := by decide +kernel
  have hresult : (applyFile external "main.dol" directive).outcome disc =
      (.ok (directive.report .applied), result.2) := Prod.ext hreport rfl
  have hothers := (applyFile_touches_target hresult).1
  rw [hnumber] at hothers
  exact ⟨hreport, hnumber, hothers, by decide +kernel⟩

end DiscPatch
