import DiscPatch.Proofs.Patch.Application

/-!
# What every run of directives does

Whatever the patches and their external files are, a batch is a row of single file directives, and
it may fail between two of them. So what is to be known of a batch only has to be shown of one file
directive.

* `Ledger` — a relation between the disc before a run, the reports of the run and the disc after it,
  which runs in a row keep;
* `Follows` — every run of an edit is in the ledger;
* `follows_applyPatches` — if single file directives follow a ledger, so do all batches.
-/

namespace DiscPatch

open Edit

/-- A relation between the disc before a run, its reports, and the disc after it. A run that fails
has no reports. -/
structure Ledger (R : Disc → Option (List FileReport) → Disc → Prop) : Prop where
  /-- a run that does nothing -/
  idle : ∀ disc, R disc (some []) disc
  /-- a run that fails at once -/
  failed : ∀ disc, R disc none disc
  /-- a run and the rest of it -/
  next : ∀ {before mid after first rest}, R before (some first) mid → R mid rest after →
    R before (rest.map (first ++ ·)) after

/-- Every run of the edit is in the ledger. -/
def Follows (R : Disc → Option (List FileReport) → Disc → Prop)
    (edit : Edit Disc (List FileReport)) : Prop :=
  ∀ disc, R disc (edit.outcome disc).1.toOption (edit.outcome disc).2

variable {R : Disc → Option (List FileReport) → Disc → Prop}

/-! ## Putting runs together -/

namespace Ledger

theorem follows_pure (h : Ledger R) : Follows R (pure []) :=
  h.idle

theorem follows_throw (h : Ledger R) (error : Error) : Follows R (throw error) :=
  h.failed

/-- A step that leaves the disc as it is, and what comes after it. -/
theorem follows_after {α : Type} (h : Ledger R) {edit : Edit Disc α}
    {next : α → Edit Disc (List FileReport)} (hedit : ∀ disc, (edit.outcome disc).2 = disc)
    (hnext : ∀ a, Follows R (next a)) : Follows R (edit >>= next) := by
  intro disc
  have hsame := hedit disc
  rw [outcome_bind]
  generalize edit.outcome disc = result at hsame
  obtain ⟨error | a, after⟩ := result
  · obtain rfl : after = disc := hsame
    exact h.failed after
  · obtain rfl : after = disc := hsame
    exact hnext a after

theorem follows_append (h : Ledger R) {first rest : Edit Disc (List FileReport)}
    (hfirst : Follows R first) (hrest : Follows R rest) :
    Follows R (do return (← first) ++ (← rest)) := by
  intro disc
  have hone := hfirst disc
  rw [outcome_bind]
  generalize first.outcome disc = result at hone
  obtain ⟨error | reports, mid⟩ := result
  · exact hone
  · have hmore := h.next hone (hrest mid)
    dsimp only
    rw [outcome_bind]
    generalize rest.outcome mid = result at hmore
    obtain ⟨error | others, after⟩ := result <;> exact hmore

/-- Groups of reports, one after the other. -/
theorem follows_flatten {α : Type} (h : Ledger R) {group : α → Edit Disc (List FileReport)}
    {items : List α} (hgroup : ∀ item ∈ items, Follows R (group item)) :
    Follows R (do return (← items.mapM group).flatten) := by
  induction items with
  | nil =>
    rw [List.mapM_nil, pure_bind]
    exact h.follows_pure
  | cons item rest ih =>
    obtain ⟨hitem, hrest⟩ := List.forall_mem_cons.mp hgroup
    have hsplit : (do return (← (item :: rest).mapM group).flatten : Edit Disc (List FileReport)) =
      do
        let first ← group item
        let others ← List.flatten <$> rest.mapM group
        return first ++ others := by
      rw [List.mapM_cons]
      simp
    rw [hsplit]
    refine h.follows_append hitem ?_
    simpa using ih hrest

/-- Single reports, one after the other. -/
theorem follows_mapM {α : Type} (h : Ledger R) {step : α → Edit Disc FileReport} {items : List α}
    (hstep : ∀ item ∈ items, Follows R (do return [← step item])) :
    Follows R (items.mapM step) := by
  have hgroups : (do return (← items.mapM fun item => do return [← step item]).flatten) =
      items.mapM step := by
    induction items with
    | nil => rfl
    | cons item rest ih =>
      rw [List.mapM_cons, List.mapM_cons, ← ih fun other hother => hstep other (.tail _ hother)]
      simp
  rw [← hgroups]
  exact h.follows_flatten hstep

end Ledger

/-! ## Batches -/

section Batches

variable {executable : String}

/-- The edits that a batch is made of follow a ledger if single file directives do. -/
theorem follows_applyFolderAt (h : Ledger R) {external : External}
    (hfile : ∀ directive, Follows R (do return [← applyFile external executable directive]))
    (directive : FolderDirective) (fuel : Nat) (disc path : String) :
    Follows R (applyFolderAt external executable directive fuel disc path) := by
  induction fuel generalizing disc path with
  | zero => exact h.follows_throw _
  | succ fuel ih =>
    rw [applyFolderAt]
    refine h.follows_after (fun _ => rfl) fun entries => ?_
    refine h.follows_flatten fun entry _ => ?_
    dsimp only
    split
    · split
      · exact ih _ _
      · exact h.follows_pure
    · exact h.follows_after (fun _ => rfl) fun single => hfile single

/-- A patch with external files is its file directives and then its folder directives. -/
theorem applyPatch_of_required {patch : Patch} {external : External}
    (h : patch.required = .ok external) :
    applyPatch executable patch = do
      let files ← patch.files.mapM (applyFile external executable)
      let others ← (do return (← patch.folders.mapM fun directive =>
        applyFolder external executable directive directive.disc directive.external).flatten)
      return files ++ others := by
  have hrequired : (ExceptT.mk (pure patch.required) : Edit Disc External) = pure external := by
    rw [h]
    rfl
  rw [applyPatch, hrequired, pure_bind]
  simp

theorem follows_applyPatch (h : Ledger R)
    (hfile : ∀ external directive,
      Follows R (do return [← applyFile external executable directive]))
    (patch : Patch) : Follows R (applyPatch executable patch) := by
  rcases hrequired : patch.required with error | external
  · rw [applyPatch, hrequired]
    exact h.follows_throw error
  · rw [applyPatch_of_required hrequired]
    exact h.follows_append (h.follows_mapM fun directive _ => hfile external directive)
      (h.follows_flatten fun directive _ =>
        follows_applyFolderAt h (hfile external) directive _ _ _)

/-- A batch answers with the reports of its patches, one after the other, and leaves what they
leave. -/
theorem outcome_applyPatches (executable : String) (patches : List Patch) (disc : Disc) :
    (applyPatches executable patches).outcome disc =
      (((patches.mapM (applyPatch executable)).outcome disc).1.map List.flatten,
        ((patches.mapM (applyPatch executable)).outcome disc).2) := by
  rw [applyPatches, outcome_bind]
  rcases (patches.mapM (applyPatch executable)).outcome disc with ⟨error | groups, after⟩ <;> rfl

/-- **What single file directives do, every batch does.** -/
theorem follows_applyPatches (h : Ledger R)
    (hfile : ∀ external directive,
      Follows R (do return [← applyFile external executable directive]))
    (patches : List Patch) : Follows R (applyPatches executable patches) := by
  intro disc
  have hgroups := h.follows_flatten (fun patch (_ : patch ∈ patches) =>
    follows_applyPatch h hfile patch) disc
  rw [outcome_bind_pure] at hgroups
  rw [outcome_applyPatches]
  exact hgroups

end Batches

end DiscPatch
