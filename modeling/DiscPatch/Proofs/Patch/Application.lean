import DiscPatch.Patch.Compose
import DiscPatch.Proofs.Disc.Places
import DiscPatch.Proofs.Edit

/-!
# What a file directive answers and leaves

A file directive is carried out in two steps: `findTarget` finds its file, and `editTarget` changes
it.

* `Targeting`, `targeting` — all that can happen in the first step, one rule for each way;
* `Carried`, `carried` — all that can happen to the directive as a whole: it is refused, it has no
  target, or its target is changed.
-/

namespace DiscPatch

open DiscPatch.Text (split)
open Edit

/-- The outcome of a directive whose path cannot be followed. -/
def LookupFault.outcome (fault : LookupFault) : Outcome :=
  if fault.isMismatch then .typeMismatch else .skipped

/-- The disc with other nodes in the top folder. -/
def Disc.withChildren (disc : Disc) (children : List Node) : Disc :=
  { disc with root := { disc.root with children := children } }

/-- The names on the path of a directive. -/
def FileDirective.parts (directive : FileDirective) : List String :=
  split '/' (String.ofList directive.disc.toList.tail)

/-! ## Finding the target -/

/-- Looking for the target of a directive gives an answer, and leaves the disc `after`. -/
inductive Targeting (executable : String) (directive : FileDirective) (disc : Disc) :
    Except Outcome Target → (after : Disc) → Prop where
  /-- a path is followed to a file -/
  | path {nodes : List Node} {place : Location} (hpath : directive.disc.toList.head? = some '/')
    (hnodes : Reaching directive.create directive.parts disc.root.children nodes (.ok place)) :
    Targeting executable directive disc (.ok (.place place)) (disc.withChildren nodes)
  /-- a path cannot be followed -/
  | noPath {nodes : List Node} {fault : LookupFault}
    (hpath : directive.disc.toList.head? = some '/')
    (hnodes : Reaching directive.create directive.parts disc.root.children nodes (.error fault)) :
    Targeting executable directive disc (.error fault.outcome) (disc.withChildren nodes)
  /-- the executable is meant -/
  | main {file : File} (hpath : directive.disc.toList.head? ≠ some '/')
    (hname : sameName directive.disc executable) (hmain : disc.main = some file) :
    Targeting executable directive disc (.ok .main) disc
  /-- the executable is meant, and there is none -/
  | noMain (hpath : directive.disc.toList.head? ≠ some '/')
    (hname : sameName directive.disc executable) (hmain : disc.main = none) :
    Targeting executable directive disc (.error .skipped) disc
  /-- a file has the name -/
  | name {place : Location} {file : File} (hpath : directive.disc.toList.head? ≠ some '/')
    (hname : ¬ sameName directive.disc executable)
    (hfile : Holding directive.disc disc.root.children place file) :
    Targeting executable directive disc (.ok (.place place)) disc
  /-- no file has the name -/
  | noName (hpath : directive.disc.toList.head? ≠ some '/')
    (hname : ¬ sameName directive.disc executable)
    (hnone : findFile? directive.disc 0 disc.root.children = none) :
    Targeting executable directive disc (.error .skipped) disc

/-- **Looking for a target goes one of these ways.** -/
theorem targeting (executable : String) (directive : FileDirective) (disc : Disc) :
    ∃ answer after, (findTarget executable directive).outcome disc = (.ok answer, after) ∧
      Targeting executable directive disc answer after := by
  rw [findTarget, outcome_bind_ok (outcome_get disc)]
  by_cases hpath : directive.disc.toList.head? = some '/'
  · have hreaching := reaching directive.create directive.parts disc.root.children
    rw [if_pos hpath]
    dsimp only [reach]
    rw [← FileDirective.parts]
    generalize reachParts directive.create directive.parts disc.root.children = lookup
      at hreaching ⊢
    obtain ⟨nodes, fault | place⟩ := lookup
    · exact ⟨_, _, rfl, .noPath hpath hreaching⟩
    · exact ⟨_, _, rfl, .path hpath hreaching⟩
  rw [if_neg hpath]
  by_cases hname : sameName directive.disc executable
  · rw [if_pos hname]
    rcases hmain : disc.main with _ | file
    · exact ⟨_, _, rfl, .noMain hpath hname hmain⟩
    · exact ⟨_, _, rfl, .main hpath hname hmain⟩
  · rw [if_neg hname]
    rcases hfound : findFile? directive.disc 0 disc.root.children with _ | place
    · exact ⟨_, _, rfl, .noName hpath hname hfound⟩
    · obtain ⟨file, hfile⟩ := holding_of_findFile? hfound
      exact ⟨_, _, rfl, .name hpath hname hfile⟩

/-- A target that is found is a file. -/
theorem Targeting.exists_file {executable : String} {directive : FileDirective} {disc after : Disc}
    {target : Target} (h : Targeting executable directive disc (.ok target) after) :
    ∃ file, after.file? target = some file := by
  cases h with
  | path _ hnodes => exact hnodes.exists_file _ rfl
  | main _ _ hmain => exact ⟨_, hmain⟩
  | name _ _ hfile => exact ⟨_, hfile.fileAt?⟩

variable {external : External} {executable : String} {directive : FileDirective} {disc : Disc}

/-! ## Changing the target -/

theorem outcome_editTarget {α : Type} {edit : Edit File α} {absent : α} {target : Target}
    {file : File} (h : disc.file? target = some file) :
    (editTarget target edit absent).outcome disc =
      ((edit.outcome file).1, disc.setFile (edit.outcome file).2 target) := by
  rw [editTarget, outcome_bind_ok (outcome_get disc), h]
  rfl

/-! ## The directive as a whole -/

/-- No number of the directive is negative. -/
structure FileDirective.Natural (directive : FileDirective) : Prop where
  /-- where to start is natural -/
  offset : 0 ≤ directive.offset
  /-- where to start to read is natural -/
  fileOffset : 0 ≤ directive.fileOffset
  /-- how much to cover is natural -/
  length : 0 ≤ directive.length

theorem FileDirective.Natural.not_negative (h : directive.Natural) :
    ¬ min (min directive.offset directive.fileOffset) directive.length < 0 := by
  have := h.offset
  have := h.fileOffset
  have := h.length
  omega

/-- With natural numbers, the bounds of a directive are numbers to count with. -/
theorem File.applyDirective_of_natural (h : directive.Natural) :
    File.applyDirective external directive = File.overwrite external directive.external
      ↑(directive.offset.toNat / 4 * 4) directive.fileOffset.toNat directive.length.toNat
      directive.resize := by
  have hword : wordStart directive.offset = ↑(directive.offset.toNat / 4 * 4) := by
    have := h.offset
    rw [wordStart]
    omega
  rw [File.applyDirective, hword, Int.toNat_of_nonneg h.fileOffset, Int.toNat_of_nonneg h.length]

/-- The report of a directive that ended so. -/
def FileDirective.report (directive : FileDirective) (outcome : Outcome) : FileReport :=
  ⟨directive.disc, directive.external, outcome⟩

/-- Carrying out a directive gives an answer, and leaves the disc `after`. -/
inductive Carried (external : External) (executable : String) (directive : FileDirective)
    (disc : Disc) : Except Error FileReport → (after : Disc) → Prop where
  /-- a number is negative -/
  | refused (hnumbers : ¬ directive.Natural) :
    Carried external executable directive disc (.ok (directive.report .skipped)) disc
  /-- there is no target -/
  | untargeted {outcome : Outcome} {after : Disc} (hnumbers : directive.Natural)
    (htarget : Targeting executable directive disc (.error outcome) after) :
    Carried external executable directive disc (.ok (directive.report outcome)) after
  /-- the target is changed -/
  | changed {target : Target} {after : Disc} {file new : File} {answer : Except Error Bool}
    (hnumbers : directive.Natural)
    (htarget : Targeting executable directive disc (.ok target) after)
    (hfile : after.file? target = some file)
    (hchanged : (File.applyDirective external directive).outcome file = (answer, new)) :
    Carried external executable directive disc
      (answer.map fun done => directive.report (if done then .applied else .resourceUnavailable))
      (after.setFile new target)

/-- **Carrying out a directive goes one of these ways.** -/
theorem carried (external : External) (executable : String) (directive : FileDirective)
    (disc : Disc) :
    Carried external executable directive disc
      ((applyFile external executable directive).outcome disc).1
      ((applyFile external executable directive).outcome disc).2 := by
  rw [applyFile]
  by_cases hnumbers : directive.Natural
  · obtain ⟨answer, after, hfound, htarget⟩ := targeting executable directive disc
    rw [if_neg hnumbers.not_negative, outcome_bind_ok hfound]
    rcases answer with outcome | target
    · exact .untargeted hnumbers htarget
    · obtain ⟨file, hfile⟩ := htarget.exists_file
      dsimp only
      rw [outcome_bind_pure, outcome_editTarget hfile]
      exact .changed hnumbers htarget hfile rfl
  · have hnegative : min (min directive.offset directive.fileOffset) directive.length < 0 :=
      Decidable.byContradiction fun hnot => hnumbers ⟨by omega, by omega, by omega⟩
    rw [if_pos hnegative]
    exact .refused hnumbers

end DiscPatch
