import DiscPatch.Machine.Batch
import DiscPatch.Proofs.Edit

/-!
# What a memory directive answers and leaves

A directive that changes anything does so in one way: it writes bytes in a row and drops the hooks
whose range they touch.

* `rewritten` — a machine after that;
* `outcome_writeDirect`, `outcome_writeFound`, `outcome_placeBranch` — the three changes of memory,
  each as an equation;
* `Changing` — all that can happen to a directive, one rule for each way;
* `changes_applyDirect`, `changes_applySearch`, `changes_applyHook` — every directive goes one of
  these ways.
-/

namespace DiscPatch.Machine

open Edit

variable {μ : Type} [Image μ]

/-- The machine with bytes written from an address on, as far as it is mapped, and without the hooks
whose range they touch. -/
def rewritten (machine : Machine μ) (address : Int) (bytes : Bytes) : Machine μ where
  image := (writeBytes machine.image address bytes).1
  hooks := (dropHooks machine.hooks address (address + bytes.length)).1

/-- The report of a change that was carried out. -/
def applied (manner : Manner) (machine : Machine μ) (address : Int) (bytes : Bytes) : Report where
  manner := manner
  outcome := .applied
  address := some address
  written := (writeBytes machine.image address bytes).2
  dropped := (dropHooks machine.hooks address (address + bytes.length)).2

/-! ## The three changes -/

theorem outcome_writeDirect (address : Int) (value expected : Bytes) (machine : Machine μ) :
    (writeDirect address value expected).outcome machine =
      if value = [] then (.ok (.idle .direct .skipped (some address)), machine)
      else if expected ≠ [] ∧ matchesAt machine.image address expected = false then
        (.ok (.idle .direct .expectedMismatch (some address)), machine)
      else (.ok (applied .direct machine address value), machine.rewritten address value) := by
  rw [writeDirect, outcome_bind_ok (outcome_get machine)]
  by_cases hvalue : value = []
  · rw [if_pos hvalue, if_pos hvalue]
    rfl
  rw [if_neg hvalue, if_neg hvalue]
  by_cases hexpected : expected ≠ [] ∧ matchesAt machine.image address expected = false
  · rw [if_pos hexpected, if_pos hexpected]
    rfl
  rw [if_neg hexpected, if_neg hexpected]
  dsimp only
  rw [outcome_bind_ok (outcome_set _ machine)]
  split <;> rfl

theorem outcome_writeFound (value expected : Bytes) (stride start length : Int)
    (machine : Machine μ) :
    (writeFound value expected stride start length).outcome machine =
      if expected = [] ∨ stride ≤ 0 then (.ok (.idle .search .skipped none), machine)
      else match firstFrom (fun k => matchesAt machine.image (start + k * stride) expected)
          (length / stride).toNat 0 with
        | some k =>
          let (answer, after) := (writeDirect (start + k * stride) value []).outcome machine
          (answer.map fun report => { report with manner := .search }, after)
        | none => (.ok (.idle .search .patternNotFound none), machine) := by
  rw [writeFound]
  by_cases hnothing : expected = [] ∨ stride ≤ 0
  · rw [if_pos hnothing, if_pos hnothing]
    rfl
  rw [if_neg hnothing, if_neg hnothing, outcome_bind_ok (outcome_get machine)]
  dsimp only
  rcases firstFrom (fun k => matchesAt machine.image (start + k * stride) expected)
    (length / stride).toNat 0 with _ | k
  · rfl
  · exact outcome_bind_pure _ _ machine

theorem branchWord_fits (target site : Int) :
    ¬ (branchWord target site < 0 ∨ 0x100000000 ≤ branchWord target site) := by
  unfold branchWord branchCode branchField
  omega

theorem outcome_placeBranch (pattern : Bytes) (target start length : Int) (strict : Bool)
    (machine : Machine μ) :
    (placeBranch pattern target start length strict).outcome machine =
      if pattern = [] then (.ok (.idle .hook .skipped none), machine)
      else match firstFrom (fun k => matchesAt machine.image (start + k * wordSize) pattern)
          (countSteps length wordSize) 0 with
        | none => (.ok (.idle .hook .patternNotFound none), machine)
        | some first =>
          match firstFrom
              (fun k => readWord? machine.image (start + k * wordSize) == some returnWord)
              (countSteps length wordSize - first) first with
          | some k =>
            let site := start + k * wordSize
            let word := wordBytes (branchWord target site).toNat
            (.ok (applied .hook machine site word), machine.rewritten site word)
          | none =>
            if strict then (.error (.noReturn (start + first * wordSize)), machine)
            else
              (.ok (.idle .hook .patternNotFound (some (start + first * wordSize))), machine) := by
  rw [placeBranch]
  by_cases hpattern : pattern = []
  · rw [if_pos hpattern, if_pos hpattern]
    rfl
  rw [if_neg hpattern, if_neg hpattern, outcome_bind_ok (outcome_get machine)]
  dsimp only
  rcases firstFrom (fun k => matchesAt machine.image (start + k * wordSize) pattern)
    (countSteps length wordSize) 0 with _ | first
  · rfl
  dsimp only
  rcases firstFrom (fun k => readWord? machine.image (start + k * wordSize) == some returnWord)
    (countSteps length wordSize - first) first with _ | k
  · cases strict <;> rfl
  · -- the word for a branch always fits
    simp only [writeNumber, if_neg (branchWord_fits target (start + k * wordSize)), writeWord]
    rw [outcome_bind_ok (outcome_answer _ machine), outcome_bind_ok (outcome_set _ machine)]
    split <;> rfl

/-! ## Directives -/

/-- Carrying out a memory directive gives an answer, and leaves the machine `after`. -/
inductive Changing (machine : Machine μ) : Except Error Report → (after : Machine μ) → Prop where
  /-- nothing is written -/
  | idle (manner : Manner) (outcome : Outcome) (address : Option Int) :
    Changing machine (.ok (.idle manner outcome address)) machine
  /-- it fails before anything is written -/
  | failed (error : Error) : Changing machine (.error error) machine
  /-- bytes are written -/
  | written (manner : Manner) (address : Int) (bytes : Bytes) :
    Changing machine (.ok (applied manner machine address bytes))
      (machine.rewritten address bytes)

/-- Every run of the edit goes one of these ways. -/
def Changes (edit : Edit (Machine μ) Report) : Prop :=
  ∀ machine, Changing machine (edit.outcome machine).1 (edit.outcome machine).2

theorem changes_idle (manner : Manner) (outcome : Outcome) (address : Option Int) :
    Changes (pure (.idle manner outcome address) : Edit (Machine μ) Report) :=
  fun _ => .idle manner outcome address

theorem changes_writeDirect (address : Int) (value expected : Bytes) :
    Changes (writeDirect address value expected : Edit (Machine μ) Report) := by
  intro machine
  rw [outcome_writeDirect]
  split
  · exact .idle ..
  split
  · exact .idle ..
  · exact .written ..

theorem changes_writeFound (value expected : Bytes) (stride start length : Int) :
    Changes (writeFound value expected stride start length : Edit (Machine μ) Report) := by
  intro machine
  rw [outcome_writeFound]
  split
  · exact .idle ..
  split
  · next k _ =>
    have hdirect := changes_writeDirect (start + k * stride) value [] machine
    generalize (writeDirect (start + k * stride) value []).outcome machine = result at hdirect ⊢
    obtain ⟨answer, after⟩ := result
    -- only the manner is reported differently
    cases hdirect with
    | idle => exact .idle ..
    | failed => exact .failed _
    | written _ _ bytes => exact .written .search _ bytes
  · exact .idle ..

theorem changes_placeBranch (pattern : Bytes) (target start length : Int) (strict : Bool) :
    Changes (placeBranch pattern target start length strict : Edit (Machine μ) Report) := by
  intro machine
  rw [outcome_placeBranch]
  split
  · exact .idle ..
  split
  · exact .idle ..
  split
  · exact .written ..
  split
  · exact .failed _
  · exact .idle ..

/-- A change whose bytes come from an external file, which may be out of reach. -/
theorem changes_bind {answer : Logged (Except Error Bytes)}
    {change : Bytes → Edit (Machine μ) Report} (h : ∀ bytes, Changes (change bytes)) :
    Changes (fromFallible answer >>= change) := by
  intro machine
  rw [outcome_bind, outcome_fromFallible]
  rcases answer.value with error | bytes
  · exact .failed error
  · exact h bytes machine

section Directives

variable (patch : Patch) (directive : MemoryDirective)

theorem changes_applyDirect (base : Int) :
    Changes (applyDirect base patch directive : Edit (Machine μ) Report) := by
  rw [applyDirect]
  split
  · exact changes_idle _ _ _
  · exact changes_bind fun value => changes_writeDirect _ value _

theorem changes_applySearch (start length : Int) :
    Changes (applySearch start length patch directive : Edit (Machine μ) Report) := by
  rw [applySearch]
  split
  · exact changes_idle _ _ _
  · exact changes_bind fun value => changes_writeFound value _ _ _ _

theorem changes_applyHook (base start length : Int) (strict : Bool) :
    Changes (applyHook base start length strict patch directive : Edit (Machine μ) Report) := by
  rw [applyHook]
  split
  · exact changes_idle _ _ _
  · exact changes_bind fun pattern => changes_placeBranch pattern _ _ _ _

end Directives

end DiscPatch.Machine
