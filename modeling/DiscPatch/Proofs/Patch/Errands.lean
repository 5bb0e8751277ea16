import DiscPatch.Proofs.Patch.Expansion
import DiscPatch.Proofs.Patch.Runs

/-!
# Batches are file directives in turn

Whatever the external files are, the file directives that a batch stands for can be read off its
patches and the listings of their external folders, before anything is carried out.

* `Errand` — a file directive together with the external files it refers to;
* `Patch.errands` — the errands of a patch, with errors in place of those that cannot be formed;
* `outcome_applyFolderAt`, `outcome_applyPatch` — carrying out a folder directive or a patch is
  carrying out its errands;
* `outcome_applyPatches_errands` — so it is for a batch;
* `holds_errands_iff` — what a batch that returns brings about, if each errand says what it brings
  about.

The equations are between outcomes: listing a folder may note events.
-/

namespace DiscPatch

open Edit

/-- A file directive together with the external files it refers to. -/
structure Errand where
  /-- the external files -/
  external : External
  /-- what to do -/
  directive : FileDirective

/-- Carry out an errand, unless an error stands in its place. -/
def carryErrand (executable : String) (step : Except Error Errand) : Edit Disc FileReport := do
  let errand ← ExceptT.mk (pure step)
  applyFile errand.external executable errand.directive

theorem carryErrand_ok (executable : String) (errand : Errand) :
    carryErrand executable (.ok errand) =
      applyFile errand.external executable errand.directive := rfl

/-- The errands that a folder directive stands for at one folder: those of its files in turn, and
those of its folders where they stand among them. -/
def FolderDirective.errands (external : External) (directive : FolderDirective) :
    (fuel : Nat) → (disc path : String) → List (Except Error Errand)
  | 0, _, _ => [.error .nestedTooDeep]
  | fuel + 1, disc, path =>
    match (external.entries path).value with
    | .error error => [.error error]
    | .ok entries => entries.flatMap fun entry =>
      let childDisc := joinPaths disc entry.name
      let childPath := joinPaths path entry.name
      if entry.isFolder then
        if directive.recursive then directive.errands external fuel childDisc childPath else []
      else [(directive.forFile childDisc childPath).map (Errand.mk external)]

/-- The errands of a patch: its file directives, and then what its folder directives stand for. -/
def Patch.errands (patch : Patch) : List (Except Error Errand) :=
  match patch.required with
  | .error error => [.error error]
  | .ok external =>
    patch.files.map (fun directive => .ok ⟨external, directive⟩) ++
      patch.folders.flatMap fun directive =>
        directive.errands external (external.depth + 1) directive.disc directive.external

variable {executable : String} {external : External}

/-- Groups of edits that amount to lists of steps amount to all the steps in turn. -/
theorem outcome_flatten {σ α β γ : Type} {step : β → Edit σ γ} {group : α → Edit σ (List γ)}
    {members : α → List β} {items : List α}
    (h : ∀ item ∈ items, (group item).outcome = ((members item).mapM step).outcome) :
    (do return (← items.mapM group).flatten : Edit σ (List γ)).outcome =
      ((items.flatMap members).mapM step).outcome := by
  rw [← mapM_flatten fun _ _ => rfl]
  exact outcome_bind_congr (outcome_mapM_congr h) fun _ => rfl

/-- Going through a folder is carrying out its errands. -/
theorem outcome_applyFolderAt (directive : FolderDirective) (fuel : Nat) (disc path : String) :
    (applyFolderAt external executable directive fuel disc path).outcome =
      ((directive.errands external fuel disc path).mapM (carryErrand executable)).outcome := by
  induction fuel generalizing disc path with
  | zero => rfl
  | succ fuel ih =>
    funext state
    rw [applyFolderAt, FolderDirective.errands, outcome_bind, outcome_fromFallible]
    rcases (external.entries path).value with error | entries
    · rfl
    · refine congrFun (outcome_flatten fun entry _ => ?_) state
      dsimp only
      split
      · split
        · exact ih _ _
        · rfl
      · rw [List.mapM_cons, List.mapM_nil, carryErrand]
        rcases directive.forFile (joinPaths disc entry.name) (joinPaths path entry.name) with
          error | single <;> rfl

/-- **A patch is its errands in turn.** -/
theorem outcome_applyPatch (patch : Patch) :
    (applyPatch executable patch).outcome =
      (patch.errands.mapM (carryErrand executable)).outcome := by
  rcases hrequired : patch.required with error | external
  · rw [applyPatch, Patch.errands, hrequired]
    rfl
  · rw [applyPatch_of_required hrequired, Patch.errands, hrequired, List.mapM_append,
      List.mapM_map]
    refine outcome_bind_congr rfl fun files => outcome_bind_congr ?_ fun _ => rfl
    exact outcome_flatten fun directive _ => outcome_applyFolderAt directive _ _ _

/-- **A batch is the errands of its patches in turn.** -/
theorem outcome_applyPatches_errands (patches : List Patch) :
    (applyPatches executable patches).outcome =
      ((patches.flatMap (·.errands)).mapM (carryErrand executable)).outcome := by
  rw [← outcome_flatten fun patch _ => outcome_applyPatch patch]
  funext disc
  rw [outcome_bind_pure, outcome_applyPatches]

/-! ## What errands bring about -/

/-- **If each errand says whether it brings something about, so do errands in turn.** -/
theorem holds_errands_iff {T : Disc → Prop} {M : FileDirective → Prop}
    (hstep : ∀ {external directive disc report after},
      Carried external executable directive disc (.ok report) after →
        (T after ↔ T disc ∨ M directive))
    {steps : List (Except Error Errand)} {disc after : Disc} {reports : List FileReport}
    (h : (steps.mapM (carryErrand executable)).outcome disc = (.ok reports, after)) :
    T after ↔ T disc ∨ ∃ errand, .ok errand ∈ steps ∧ M errand.directive := by
  induction steps generalizing disc reports with
  | nil =>
    cases h
    simp
  | cons step rest ih =>
    rw [List.mapM_cons, outcome_bind] at h
    rcases step with error | errand
    · cases h
    · have hcarried := carried errand.external executable errand.directive disc
      rw [carryErrand_ok] at h
      generalize (applyFile errand.external executable errand.directive).outcome disc = result
        at h hcarried
      obtain ⟨error | report, mid⟩ := result
      · cases h
      · dsimp only at h
        rw [outcome_bind_pure] at h
        generalize hrest : (rest.mapM (carryErrand executable)).outcome mid = result at h
        obtain ⟨error | others, last⟩ := result
        · cases h
        · cases h
          rw [ih hrest, hstep hcarried, or_assoc]
          simp [or_and_right, exists_or]

end DiscPatch
