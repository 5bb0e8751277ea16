import DiscPatch.External.Shelf
import DiscPatch.Proofs.Machine.Changes

/-!
# Why a batch of memory directives stops

Most of what can go wrong with a memory directive is reported, and the batch goes on. What stops a
batch is a directive that has to read a file and has none to read, and, where that is asked for, a
hook without a return instruction.

* `Starved` — a directive that has no file to read when it comes to reading;
* `Carrying` — all that can come of one directive; `carrying_applyDirect`, `carrying_applySearch`,
  `carrying_applyHook` say that nothing else does. The three look at different fields before they
  read, so each has its own reasons to be idle;
* `Ended` — how a batch ends, with the machine it leaves;
* `ended_mapM`, `fails_iff` — what follows for runs of directives;
* `batches_stop` — what follows for the two batches.
-/

namespace DiscPatch

/-- The external files of the patch, if it has any, are kept in memory. -/
def Patch.Shelved (patch : Patch) : Prop :=
  ∀ external, patch.external = some external →
    ∃ tree roots, external = External.shelf tree roots

namespace Machine

open Edit

/-- A directive that takes a file in place of its value, of a patch that has no files, and that gets
as far as reading: a search does if it looks for some bytes and its places are a positive distance
apart, anything else if its offset is not zero. -/
def Starved (patch : Patch) (directive : MemoryDirective) : Prop :=
  directive.valueFile ≠ "" ∧ patch.external = none ∧
    (directive.search = true ∧ directive.hook = false ∧ directive.expected ≠ [] ∧
        0 < directive.align ∨
      (directive.search = false ∨ directive.hook = true) ∧ directive.offset ≠ 0)

instance (patch : Patch) (directive : MemoryDirective) : Decidable (Starved patch directive) :=
  inferInstanceAs (Decidable (_ ∧ _ ∧ _))

variable {μ : Type} {patch : Patch} {directive : MemoryDirective}

/-! ## Changes of memory

Once a directive has its bytes, only a hook can fail. -/

section Changes

variable [Image μ] (machine : Machine μ)

theorem exists_writeDirect (address : Int) (value expected : Bytes) :
    ∃ report after, (writeDirect address value expected).outcome machine = (.ok report, after) := by
  rw [outcome_writeDirect]
  split
  · exact ⟨_, _, rfl⟩
  split <;> exact ⟨_, _, rfl⟩

theorem exists_writeFound (value expected : Bytes) (stride start length : Int) :
    ∃ report after,
      (writeFound value expected stride start length).outcome machine = (.ok report, after) := by
  rw [outcome_writeFound]
  split
  · exact ⟨_, _, rfl⟩
  split
  · next k _ =>
    obtain ⟨report, after, hwrite⟩ := exists_writeDirect machine (start + k * stride) value []
    rw [hwrite]
    exact ⟨_, _, rfl⟩
  · exact ⟨_, _, rfl⟩

theorem placeBranch_cases (pattern : Bytes) (target start length : Int) (strict : Bool) :
    (∃ report after,
      (placeBranch pattern target start length strict).outcome machine = (.ok report, after)) ∨
    ∃ address, strict = true ∧
      (placeBranch pattern target start length strict).outcome machine =
        (.error (.noReturn address), machine) := by
  rw [outcome_placeBranch]
  split
  · exact .inl ⟨_, _, rfl⟩
  split
  · exact .inl ⟨_, _, rfl⟩
  split
  · exact .inl ⟨_, _, rfl⟩
  split
  · next hstrict => exact .inr ⟨_, hstrict, rfl⟩
  · exact .inl ⟨_, _, rfl⟩

end Changes

/-! ## One directive -/

/-- The bytes of a directive can be had, unless they are in a file and there is none to read. -/
theorem valueOf_cases (hkept : patch.Shelved) (directive : MemoryDirective) :
    (directive.valueFile ≠ "" ∧ patch.external = none) ∧
        (valueOf patch directive).value = .error (.noExternal patch.name) ∨
      ¬ (directive.valueFile ≠ "" ∧ patch.external = none) ∧
        ∃ bytes, (valueOf patch directive).value = .ok bytes := by
  rw [valueOf]
  split
  · next hplain => exact .inr ⟨fun h => h.1 hplain, _, rfl⟩
  · next hfile =>
    rcases hexternal : patch.external with _ | external
    · rw [Patch.required, hexternal]
      exact .inl ⟨⟨hfile, rfl⟩, rfl⟩
    · -- a path that leads nowhere on a shelf counts as an empty file
      obtain ⟨tree, roots, rfl⟩ := hkept external hexternal
      rw [Patch.required, hexternal]
      exact .inr ⟨by simp, _, rfl⟩

/-- Carrying out a directive gives an answer, and leaves the machine `after`. -/
inductive Carrying (strict : Bool) (patch : Patch) (directive : MemoryDirective)
    (machine : Machine μ) : Except Error Report → (after : Machine μ) → Prop where
  /-- there is something to report -/
  | reported {report : Report} {after : Machine μ} (hfed : ¬ Starved patch directive) :
    Carrying strict patch directive machine (.ok report) after
  /-- there is no file to read -/
  | starved (hstarved : Starved patch directive) :
    Carrying strict patch directive machine (.error (.noExternal patch.name)) machine
  /-- no return instruction follows the pattern of a hook -/
  | unreturned {address : Int} (hfed : ¬ Starved patch directive) (hstrict : strict = true)
    (hhook : directive.hook = true) :
    Carrying strict patch directive machine (.error (.noReturn address)) machine

/-- A directive is idle, or it gets its bytes and then changes the machine. It is starved if it is
not idle and its bytes cannot be had. -/
theorem carrying_unless {strict : Bool} {idle : Prop} [Decidable idle] {report : Report}
    {change : Bytes → Edit (Machine μ) Report} (hkept : patch.Shelved)
    (hstarved : Starved patch directive ↔
      (directive.valueFile ≠ "" ∧ patch.external = none) ∧ ¬ idle) (machine : Machine μ)
    (hchange : ∀ bytes, ¬ Starved patch directive → Carrying strict patch directive machine
      ((change bytes).outcome machine).1 ((change bytes).outcome machine).2) :
    let edit := if idle then pure report else fromFallible (valueOf patch directive) >>= change
    Carrying strict patch directive machine (edit.outcome machine).1 (edit.outcome machine).2 := by
  dsimp only
  split
  · next hidle => exact .reported fun h => (hstarved.mp h).2 hidle
  · next hbusy =>
    rw [outcome_bind, outcome_fromFallible]
    rcases valueOf_cases hkept directive with ⟨hnone, hvalue⟩ | ⟨hsome, bytes, hvalue⟩
    · rw [hvalue]
      exact .starved (hstarved.mpr ⟨hnone, hbusy⟩)
    · rw [hvalue]
      exact hchange bytes fun h => hsome (hstarved.mp h).1

section Directives

variable [Image μ] (hkept : patch.Shelved) (machine : Machine μ)
include hkept

theorem carrying_applyDirect (base : Int) (hhook : directive.hook = false)
    (hsearch : directive.search = false) :
    Carrying false patch directive machine ((applyDirect base patch directive).outcome machine).1
      ((applyDirect base patch directive).outcome machine).2 := by
  rw [applyDirect]
  refine carrying_unless hkept ?_ machine fun bytes hfed => ?_
  · simp [Starved, hhook, hsearch, and_assoc]
  · obtain ⟨report, after, hwrite⟩ := exists_writeDirect machine
      (bitOr directive.offset base) bytes directive.expected
    rw [hwrite]
    exact .reported hfed

theorem carrying_applySearch (strict : Bool) (start length : Int) (hhook : directive.hook = false)
    (hsearch : directive.search = true) :
    Carrying strict patch directive machine
      ((applySearch start length patch directive).outcome machine).1
      ((applySearch start length patch directive).outcome machine).2 := by
  rw [applySearch]
  refine carrying_unless hkept ?_ machine fun bytes hfed => ?_
  · simp [Starved, hhook, hsearch, and_assoc]
  · obtain ⟨report, after, hwrite⟩ := exists_writeFound machine bytes directive.expected
      directive.align start length
    rw [hwrite]
    exact .reported hfed

theorem carrying_applyHook (base start length : Int) (strict : Bool)
    (hhook : directive.hook = true) :
    Carrying strict patch directive machine
      ((applyHook base start length strict patch directive).outcome machine).1
      ((applyHook base start length strict patch directive).outcome machine).2 := by
  rw [applyHook]
  refine carrying_unless hkept ?_ machine fun bytes hfed => ?_
  · simp [Starved, hhook, and_assoc]
  · rcases placeBranch_cases machine bytes (bitOr directive.offset base) start length strict with
      ⟨report, after, hplace⟩ | ⟨address, hstrict, hplace⟩
    · rw [hplace]
      exact .reported hfed
    · rw [hplace]
      exact .unreturned hfed hstrict hhook

end Directives

/-! ## Runs of directives -/

/-- Why a directive stops a batch. -/
inductive Reason (strict : Bool) (item : Patch × MemoryDirective) : Error → Prop where
  /-- it has no file to read -/
  | starved (h : Starved item.1 item.2) : Reason strict item (.noExternal item.1.name)
  /-- it is a hook without a return instruction, which `strict` does not let pass -/
  | unreturned (hstrict : strict = true) (hhook : item.2.hook = true) (address : Int) :
    Reason strict item (.noReturn address)

/-- How a batch ends. -/
inductive Ended (strict : Bool) (carry : Patch × MemoryDirective → Edit (Machine μ) Report)
    (items : List (Patch × MemoryDirective)) (machine : Machine μ) :
    Except Error (List Report) → (after : Machine μ) → Prop where
  /-- every directive is carried out and has its report -/
  | returned {reports : List Report} {after : Machine μ}
    (h : Ran carry machine items reports after) :
    Ended strict carry items machine (.ok reports) after
  /-- a directive stops it, and the machine is left as those in front of it leave it -/
  | stopped {front back : List (Patch × MemoryDirective)} {item : Patch × MemoryDirective}
    {reports : List Report} {after : Machine μ} {error : Error}
    (hitems : items = front ++ item :: back) (hfront : Ran carry machine front reports after)
    (hfails : (carry item).outcome after = (.error error, after))
    (hreason : Reason strict item error) :
    Ended strict carry items machine (.error error) after

section Runs

variable {strict : Bool} {carry : Patch × MemoryDirective → Edit (Machine μ) Report}
  {items : List (Patch × MemoryDirective)}
  (hcarry : ∀ item ∈ items, ∀ machine, Carrying strict item.1 item.2 machine
    ((carry item).outcome machine).1 ((carry item).outcome machine).2)
include hcarry

/-- A directive that fails leaves the machine alone, so the machine is left as it was handed to
it. -/
theorem ended_mapM (machine : Machine μ) :
    Ended strict carry items machine ((items.mapM carry).outcome machine).1
      ((items.mapM carry).outcome machine).2 := by
  have hsteps := stepped_mapM carry items machine
  generalize (items.mapM carry).outcome machine = result at hsteps
  obtain ⟨answer, after⟩ := result
  cases hsteps with
  | returned h => exact .returned h
  | @stopped front back item reports mid _ error hitems hfront hitem =>
    have hcarried := hcarry item (by simp [hitems]) mid
    rw [hitem] at hcarried
    cases hcarried with
    | starved hstarved => exact .stopped hitems hfront hitem (.starved hstarved)
    | unreturned _ hstrict hhook =>
      exact .stopped hitems hfront hitem (.unreturned hstrict hhook _)

/-- A run with a starved directive fails, and one without fails only if `strict` says so. -/
theorem fails_iff (machine : Machine μ) :
    (∃ error after, (items.mapM carry).outcome machine = (.error error, after)) ↔
      (∃ item ∈ items, Starved item.1 item.2) ∨ strict = true ∧
        ∃ address after, (items.mapM carry).outcome machine = (.error (.noReturn address), after) := by
  have hended := ended_mapM hcarry machine
  generalize (items.mapM carry).outcome machine = result at hended
  obtain ⟨answer, after⟩ := result
  constructor
  · rintro ⟨error, _, ⟨⟩⟩
    obtain _ | ⟨hitems, -, -, hreason⟩ := hended
    cases hreason with
    | starved h => exact .inl ⟨_, by simp [hitems], h⟩
    | unreturned hstrict _ address => exact .inr ⟨hstrict, address, after, rfl⟩
  · rintro (⟨item, hitem, hstarved⟩ | ⟨-, address, _, hfails⟩)
    · cases hended with
      | stopped => exact ⟨_, _, rfl⟩
      | returned h =>
        -- the starved directive would have a report
        obtain ⟨before, report, next, hreport⟩ := h.exists_of_mem hitem
        have hcarried := hcarry item hitem before
        rw [hreport] at hcarried
        obtain hfed | _ | _ := hcarried
        exact absurd hstarved hfed
    · exact ⟨_, _, hfails⟩

end Runs

/-! ## Batches -/

/-- The directives of a batch over all of memory: all but the hooks. -/
def generalDirectives (patches : List Patch) : List (Patch × MemoryDirective) :=
  (memoryDirectives patches).filter (!·.2.hook)

/-- The directives of a batch over a range: the hooks and the searches. -/
def loadedDirectives (patches : List Patch) : List (Patch × MemoryDirective) :=
  (memoryDirectives patches).filter fun item => item.2.hook || item.2.search

theorem mem_memoryDirectives {patches : List Patch} {item : Patch × MemoryDirective} :
    item ∈ memoryDirectives patches ↔ item.1 ∈ patches ∧ item.2 ∈ item.1.memory := by
  obtain ⟨patch, directive⟩ := item
  simp only [memoryDirectives, List.mem_flatMap, List.mem_map, Prod.mk.injEq]
  constructor
  · rintro ⟨_, hpatch, _, hdirective, rfl, rfl⟩
    exact ⟨hpatch, hdirective⟩
  · rintro ⟨hpatch, hdirective⟩
    exact ⟨patch, hpatch, directive, hdirective, rfl, rfl⟩

/-- A starved directive that a batch takes is a directive of one of its patches. -/
theorem exists_starved_iff (patches : List Patch) (takes : MemoryDirective → Bool) :
    (∃ item ∈ (memoryDirectives patches).filter (takes ·.2), Starved item.1 item.2) ↔
      ∃ patch ∈ patches, ∃ directive ∈ patch.memory,
        takes directive = true ∧ Starved patch directive := by
  constructor
  · rintro ⟨⟨patch, directive⟩, hitem, hstarved⟩
    obtain ⟨hmem, htakes⟩ := List.mem_filter.mp hitem
    obtain ⟨hpatch, hdirective⟩ := mem_memoryDirectives.mp hmem
    exact ⟨patch, hpatch, directive, hdirective, htakes, hstarved⟩
  · rintro ⟨patch, hpatch, directive, hdirective, htakes, hstarved⟩
    exact ⟨(patch, directive),
      List.mem_filter.mpr ⟨mem_memoryDirectives.mpr ⟨hpatch, hdirective⟩, htakes⟩, hstarved⟩

section Batches

variable [Image μ]

/-- One directive of a batch over all of memory. -/
def carryGeneral (base size : Int) (item : Patch × MemoryDirective) : Edit (Machine μ) Report :=
  if item.2.search then applySearch base size item.1 item.2 else applyDirect base item.1 item.2

/-- One directive of a batch over a range. -/
def carryLoaded (base start length : Int) (strict : Bool) (item : Patch × MemoryDirective) :
    Edit (Machine μ) Report :=
  if item.2.hook then applyHook base start length strict item.1 item.2
  else applySearch start length item.1 item.2

theorem applyGeneral_eq (base size : Int) (patches : List Patch) :
    (applyGeneral base size patches : Edit (Machine μ) (List Report)) =
      (generalDirectives patches).mapM (carryGeneral base size) := rfl

theorem applyLoaded_eq (base start length : Int) (strict : Bool) (patches : List Patch) :
    (applyLoaded base start length strict patches : Edit (Machine μ) (List Report)) =
      (loadedDirectives patches).mapM (carryLoaded base start length strict) := rfl

variable {patches : List Patch} (hkept : ∀ patch ∈ patches, patch.Shelved)
include hkept

theorem carrying_general (base size : Int) (item : Patch × MemoryDirective)
    (hitem : item ∈ generalDirectives patches) (machine : Machine μ) :
    Carrying false item.1 item.2 machine ((carryGeneral base size item).outcome machine).1
      ((carryGeneral base size item).outcome machine).2 := by
  obtain ⟨hmem, hhook⟩ := List.mem_filter.mp hitem
  have hshelved := hkept item.1 (mem_memoryDirectives.mp hmem).1
  rw [Bool.not_eq_true'] at hhook
  rw [carryGeneral]
  split
  · next hsearch => exact carrying_applySearch hshelved machine false base size hhook hsearch
  · next hsearch =>
    rw [Bool.not_eq_true] at hsearch
    exact carrying_applyDirect hshelved machine base hhook hsearch

theorem carrying_loaded (base start length : Int) (strict : Bool)
    (item : Patch × MemoryDirective) (hitem : item ∈ loadedDirectives patches)
    (machine : Machine μ) :
    Carrying strict item.1 item.2 machine
      ((carryLoaded base start length strict item).outcome machine).1
      ((carryLoaded base start length strict item).outcome machine).2 := by
  obtain ⟨hmem, htaken⟩ := List.mem_filter.mp hitem
  have hshelved := hkept item.1 (mem_memoryDirectives.mp hmem).1
  rw [carryLoaded]
  split
  · next hhook => exact carrying_applyHook hshelved machine base start length strict hhook
  · next hhook =>
    rw [Bool.not_eq_true] at hhook
    rw [hhook, Bool.false_or] at htaken
    exact carrying_applySearch hshelved machine strict start length hhook htaken

end Batches

/-- **A batch of memory directives stops for two reasons only, and at an exact point.** If the
external files there are can be read, a batch over all of memory fails exactly if one of its
directives is starved. So does a batch over a range, unless it is `strict` and fails for want of a
return instruction. However a batch fails, the machine is left as the directives in front of the
failing one leave it; if it does not, each of its directives has one report, in order. -/
theorem batches_stop [Image μ] {patches : List Patch} (hkept : ∀ patch ∈ patches, patch.Shelved)
    (machine : Machine μ) (base size start length : Int) (strict : Bool) :
    ((∃ error after, (applyGeneral base size patches).outcome machine = (.error error, after)) ↔
      ∃ patch ∈ patches, ∃ directive ∈ patch.memory,
        directive.hook = false ∧ Starved patch directive) ∧
    ((∃ error after, (applyLoaded base start length strict patches).outcome machine =
        (.error error, after)) ↔
      (∃ patch ∈ patches, ∃ directive ∈ patch.memory,
        (directive.hook = true ∨ directive.search = true) ∧ Starved patch directive) ∨
      strict = true ∧ ∃ address after,
        (applyLoaded base start length strict patches).outcome machine =
          (.error (.noReturn address), after)) ∧
    (∀ answer after, (applyGeneral base size patches).outcome machine = (answer, after) →
      Ended false (carryGeneral base size) (generalDirectives patches) machine answer after) ∧
    ∀ answer after, (applyLoaded base start length strict patches).outcome machine =
        (answer, after) →
      Ended strict (carryLoaded base start length strict) (loadedDirectives patches) machine answer
        after := by
  have hgeneral := carrying_general hkept (μ := μ) base size
  have hloaded := carrying_loaded hkept (μ := μ) base start length strict
  rw [applyGeneral_eq, applyLoaded_eq]
  refine ⟨(fails_iff hgeneral machine).trans ?_, (fails_iff hloaded machine).trans ?_, ?_, ?_⟩
  · have hstarved := exists_starved_iff patches fun directive => !directive.hook
    simpa [generalDirectives] using hstarved
  · have hstarved := exists_starved_iff patches fun directive => directive.hook || directive.search
    simp only [Bool.or_eq_true] at hstarved
    exact or_congr_left hstarved
  · intro answer after h
    have hended := ended_mapM hgeneral machine
    rwa [h] at hended
  · intro answer after h
    have hended := ended_mapM hloaded machine
    rwa [h] at hended

/-- One directive reads its file. Of the other patch two directives name a file but do not come to
reading it, and the third cannot. The last one is not reached, and of the two hooks the one that was
written over is gone. -/
theorem batches_stop_halfway :
    let machine : Machine Region := ⟨⟨0x80000000, #[0, 0, 0, 0, 0, 0, 0, 0]⟩,
      [⟨0x80000000, 0x80000004, "a"⟩, ⟨0x80000006, 0x80000008, "b"⟩]⟩
    let first : Patch := ⟨"p", [], [], [⟨1, [], "f", [], false, 1, false⟩], [],
      some (External.shelf (.folder [("f", .file [7])]) ⟨"", ""⟩)⟩
    let second : Patch := ⟨"q", [], [], [⟨0, [], "f", [], false, 1, false⟩,
      ⟨2, [], "f", [], true, 1, false⟩, ⟨2, [], "f", [], false, 1, false⟩,
      ⟨6, [8], "", [], false, 1, false⟩], [], none⟩
    let result := (applyGeneral 0x80000000 8 [first, second]).outcome machine
    first.Shelved ∧ second.Shelved ∧ (∃ error after, result = (.error error, after)) ∧
      result.2.image.data = #[0, 7, 0, 0, 0, 0, 0, 0] ∧
      result.2.hooks.map (·.name) = ["b"] := by
  intro machine first second result
  have hfirst : first.Shelved := by
    rintro external ⟨⟩
    exact ⟨_, _, rfl⟩
  have hsecond : second.Shelved := by
    rintro external ⟨⟩
  have hkept : ∀ patch ∈ [first, second], patch.Shelved := by
    simp only [List.forall_mem_cons]
    exact ⟨hfirst, hsecond, by simp⟩
  have hfails := (batches_stop hkept machine 0x80000000 8 0 0 false).1.mpr
    ⟨second, by simp, ⟨2, [], "f", [], false, 1, false⟩, by simp [second], rfl, by decide⟩
  exact ⟨hfirst, hsecond, hfails, by decide +kernel, by decide +kernel⟩

end Machine

end DiscPatch
