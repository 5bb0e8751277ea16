import DiscPatch.Proofs.Patch.PlainModel

/-!
# What can stop a batch

On a disc whose files have natural sizes a file directive never fails: whatever its paths and
numbers are, it is reported. So a batch of patches whose external files are kept in memory can only
fail where a folder directive stands for file directives that are refused, because its length is
negative.

* `Disc.Natural` — no file has a negative size;
* `outcome_applyFile` — one directive answers with its report;
* `performed`, `fault?` — the orders in front of the first error, and that error;
* `outcome_steps` — a batch carries out those orders and then ends with the error, if there is one;
* `applyPatches_faults` — a batch returns exactly if no folder directive of negative length has
  files, and then has one report for each order.
-/

namespace DiscPatch

open Edit

/-- No file of the disc has a negative size. -/
def Disc.Natural (disc : Disc) : Prop :=
  ∀ file ∈ disc.files, 0 ≤ file.size

variable {external : External} {executable : String} {disc : Disc}

/-! ## File directives -/

/-- An overwrite with natural numbers answers, and leaves a natural size. -/
theorem File.outcome_applyDirective {directive : FileDirective} (h : directive.Natural)
    {file : File} (hsize : 0 ≤ file.size) :
    ∃ done new, (File.applyDirective external directive).outcome file = (.ok done, new) ∧
      0 ≤ new.size := by
  rw [File.applyDirective_of_natural h, outcome_overwrite hsize]
  rcases (external.size? directive.external).value with _ | externalSize
  · exact ⟨false, file, rfl, hsize⟩
  · exact ⟨true, _, rfl, Int.natCast_nonneg _⟩

/-- **A file directive answers with its report**, whatever its numbers are. -/
theorem outcome_applyFile (external : External) (executable : String) (directive : FileDirective)
    (hdisc : disc.Natural) :
    ∃ outcome after, (applyFile external executable directive).outcome disc =
      (.ok (directive.report outcome), after) ∧ after.Natural := by
  have hcarried := carried external executable directive disc
  generalize (applyFile external executable directive).outcome disc = result at hcarried ⊢
  obtain ⟨answer, after⟩ := result
  have hempty (name : String) : 0 ≤ (File.empty name).size := Int.le_refl _
  cases hcarried with
  | refused => exact ⟨.skipped, _, rfl, hdisc⟩
  | untargeted _ htarget => exact ⟨_, after, rfl, htarget.forall_files hempty hdisc⟩
  | @changed target mid file new answer hnumbers htarget hfile hchanged =>
    have hmid : mid.Natural := htarget.forall_files hempty hdisc
    obtain ⟨done, laid, hlaid, hsize⟩ :=
      File.outcome_applyDirective hnumbers (hmid file (Disc.mem_files_of_file? hfile))
    obtain ⟨rfl, rfl⟩ := Prod.mk.inj (hchanged.symm.trans hlaid)
    exact ⟨_, _, rfl, Disc.forall_files_setFile hmid hfile hsize⟩

/-! ## Runs of steps -/

/-- The orders in front of the first error. -/
def performed : List (Except Error Order) → List Order
  | .ok order :: rest => order :: performed rest
  | .error _ :: _ | [] => []

/-- The first error. -/
def fault? : List (Except Error Order) → Option Error
  | .ok _ :: rest => fault? rest
  | .error error :: _ => some error
  | [] => none

/-- What a report is about: the file of the disc and the external file. -/
def FileReport.subject (report : FileReport) : String × String :=
  (report.disc, report.external)

/-- What an order is about. -/
def Order.subject (order : Order) : String × String :=
  (order.directive.disc, order.directive.external)

/-- **Steps are carried out up to the first error.** The orders in front of it are all reported. -/
theorem outcome_steps (executable : String) (steps : List (Except Error Order))
    (hdisc : disc.Natural) :
    ∃ reports after,
      ((performed steps).mapM (Order.apply executable)).outcome disc = (.ok reports, after) ∧
      reports.map (·.subject) = (performed steps).map (·.subject) ∧
      (steps.mapM (carryStep executable)).outcome disc =
        ((fault? steps).elim (.ok reports) .error, after) := by
  induction steps generalizing disc with
  | nil => exact ⟨[], disc, rfl, rfl, rfl⟩
  | cons step rest ih =>
    rcases step with error | order
    · refine ⟨[], disc, rfl, rfl, ?_⟩
      rw [List.mapM_cons]
      rfl
    · obtain ⟨outcome, mid, hfirst, hmid⟩ :=
        outcome_applyFile (External.shelf order.tree order.roots) executable order.directive hdisc
      have horder : (order.apply executable).outcome disc =
          (.ok (order.directive.report outcome), mid) := hfirst
      have hstep : (carryStep executable (.ok order)).outcome disc =
          (.ok (order.directive.report outcome), mid) := hfirst
      obtain ⟨reports, after, hrun, hsubjects, hsteps⟩ := ih hmid
      refine ⟨order.directive.report outcome :: reports, after, ?_, ?_, ?_⟩
      · rw [performed, List.mapM_cons, outcome_bind_ok horder, outcome_bind_ok hrun]
        rfl
      · rw [performed, List.map_cons, List.map_cons, hsubjects]
        rfl
      · rw [List.mapM_cons, outcome_bind_ok hstep, outcome_bind, hsteps, fault?]
        rcases fault? rest with _ | error <;> rfl

theorem performed_map_ok (orders : List Order) :
    performed (orders.map .ok) = orders ∧ fault? (orders.map .ok) = none := by
  induction orders with
  | nil => exact ⟨rfl, rfl⟩
  | cons order rest ih => exact ⟨congrArg (order :: ·) ih.1, ih.2⟩

theorem mem_of_fault? {steps : List (Except Error Order)} {error : Error}
    (h : fault? steps = some error) : .error error ∈ steps := by
  induction steps with
  | nil => cases h
  | cons step rest ih =>
    rcases step with other | order
    · obtain rfl := Option.some.inj h
      exact List.mem_cons_self
    · exact List.mem_cons_of_mem _ (ih h)

theorem exists_fault? {steps : List (Except Error Order)} {error : Error}
    (h : .error error ∈ steps) : ∃ first, fault? steps = some first := by
  induction steps with
  | nil => cases h
  | cons step rest ih =>
    rcases step with other | order
    · exact ⟨other, rfl⟩
    · rcases List.mem_cons.mp h with h | h
      · cases h
      · exact ih h

/-! ## Patches -/

/-- A folder directive of the patch has a negative length, and there are files for it. -/
def ShelfPatch.Refuses (patch : ShelfPatch) (directive : FolderDirective) : Prop :=
  directive ∈ patch.folders ∧ directive.length < 0 ∧
    directive.expansion patch.tree patch.roots ≠ []

/-- The error of a negative length. -/
def lengthError (length : Int) : Error :=
  .invalid (Segment.negativeFlaw "length" length)

/-- The errors among the steps of a patch are those of the lengths it refuses. -/
theorem ShelfPatch.error_mem_steps_iff {patch : ShelfPatch} {error : Error} :
    .error error ∈ patch.steps ↔
      ∃ directive, patch.Refuses directive ∧ error = lengthError directive.length := by
  simp only [steps, List.mem_append, List.mem_flatMap, List.mem_map]
  constructor
  · rintro (⟨_, -, hok⟩ | ⟨directive, hmem, single, hsingle, herror⟩)
    · cases hok
    · rw [FolderDirective.checked] at herror
      split at herror
      · next hlength =>
        cases herror
        exact ⟨directive, ⟨hmem, hlength, List.ne_nil_of_mem hsingle⟩, rfl⟩
      · cases herror
  · rintro ⟨directive, ⟨hmem, hlength, hfiles⟩, rfl⟩
    obtain ⟨single, hsingle⟩ := List.exists_mem_of_ne_nil _ hfiles
    refine .inr ⟨directive, hmem, single, hsingle, ?_⟩
    rw [FolderDirective.checked, if_pos hlength]
    rfl

/-- **A batch only fails at a folder directive of negative length that has files.** Otherwise it
returns with one report for each order, in their order. Either way the disc is left as the orders
leave it that come before the failure, and each of them answers. -/
theorem applyPatches_faults (hdisc : disc.Natural) (patches : List ShelfPatch)
    (executable : String) :
    let result := (applyPatches executable (patches.map (·.toPatch))).outcome disc
    let orders := performed (patches.flatMap (·.steps))
    ∃ reports after,
      (orders.mapM (Order.apply executable)).outcome disc = (.ok reports, after) ∧
      reports.map (·.subject) = orders.map (·.subject) ∧ result.2 = after ∧
      ((∀ patch ∈ patches, ∀ directive, ¬ patch.Refuses directive) →
        orders = patches.flatMap (·.orders) ∧ result.1 = .ok reports) ∧
      ((∃ patch ∈ patches, ∃ directive, patch.Refuses directive) →
        ∃ patch ∈ patches, ∃ directive, patch.Refuses directive ∧
          result.1 = .error (lengthError directive.length)) := by
  intro result orders
  obtain ⟨reports, after, hrun, hsubjects, hsteps⟩ :=
    outcome_steps executable (patches.flatMap (·.steps)) hdisc
  have hresult : result =
      ((fault? (patches.flatMap (·.steps))).elim (.ok reports) .error, after) := by
    change (applyPatches executable (patches.map (·.toPatch))).outcome disc = _
    rw [applyPatches_eq_steps, outcome_bind, hsteps]
    -- the event at the end is only noted if there is no error
    generalize fault? (patches.flatMap (·.steps)) = fault
    cases fault <;> rfl
  refine ⟨reports, after, hrun, hsubjects, congrArg (·.2) hresult, fun hnone => ?_, ?_⟩
  · have hall : patches.flatMap (·.steps) = (patches.flatMap (·.orders)).map .ok := by
      rw [List.map_flatMap]
      refine List.flatMap_congr fun patch hpatch => ShelfPatch.steps_eq_orders ?_
      intro directive hmem hlength
      exact Decidable.byContradiction fun hfiles =>
        hnone patch hpatch directive ⟨hmem, hlength, hfiles⟩
    obtain ⟨hperformed, hfault⟩ := performed_map_ok (patches.flatMap (·.orders))
    rw [← hall] at hperformed hfault
    rw [hresult, hfault]
    exact ⟨hperformed, rfl⟩
  · rintro ⟨patch, hpatch, directive, hrefuses⟩
    have hmem : .error (lengthError directive.length) ∈ patches.flatMap (·.steps) :=
      List.mem_flatMap.mpr ⟨patch, hpatch,
        ShelfPatch.error_mem_steps_iff.mpr ⟨directive, hrefuses, rfl⟩⟩
    obtain ⟨error, hfault⟩ := exists_fault? hmem
    obtain ⟨first, hfirst, herror⟩ := List.mem_flatMap.mp (mem_of_fault? hfault)
    obtain ⟨culprit, hculprit, rfl⟩ := ShelfPatch.error_mem_steps_iff.mp herror
    rw [hresult, hfault]
    exact ⟨first, hfirst, culprit, hculprit, rfl⟩

/-- A negative offset is skipped and the next directive is carried out; then a folder directive of
negative length ends the batch. -/
theorem applyPatches_faults_length :
    let tree := FileTree.folder [("d", .folder [("a", .file [120])])]
    let disc : Disc := ⟨⟨"", []⟩, none⟩
    let patch : Patch := ⟨"p", [⟨"/n", "d/a", -8, 0, 0, false, true⟩,
      ⟨"/m", "d/a", 0, 0, 0, false, true⟩], [⟨"", "d", true, true, true, -1⟩], [], [],
      some (External.shelf tree ⟨"", ""⟩)⟩
    let result := (applyPatches "main.dol" [patch]).outcome disc
    tree.Ordinary ∧ disc.Natural ∧ result.1 = .error (lengthError (-1)) ∧
      (listing "" result.2.root.children).map (·.1) = ["m"] := by
  intro tree disc patch result
  let shelved : ShelfPatch := ⟨patch, tree, ⟨"", ""⟩, rfl,
    ⟨by decide, ⟨by decide, by decide, by decide⟩, ⟨by decide, ⟨by decide, by decide, by decide⟩,
      trivial, trivial⟩, trivial⟩⟩
  have hdisc : disc.Natural := by simp [Disc.Natural, Disc.files, disc]
  have hrefuses : shelved.Refuses ⟨"", "d", true, true, true, -1⟩ :=
    ⟨List.mem_singleton.mpr rfl, by decide, by decide +kernel⟩
  obtain ⟨_, _, -, -, -, -, hfault⟩ := applyPatches_faults hdisc [shelved] "main.dol"
  obtain ⟨first, hfirst, culprit, hculprit, herror⟩ :=
    hfault ⟨shelved, List.mem_singleton.mpr rfl, _, hrefuses⟩
  obtain rfl := List.mem_singleton.mp hfirst
  obtain rfl := List.mem_singleton.mp hculprit.1
  exact ⟨shelved.ordinary, hdisc, herror, by decide +kernel⟩

end DiscPatch
