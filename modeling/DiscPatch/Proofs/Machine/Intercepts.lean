import DiscPatch.Proofs.Machine.Changes

/-!
# No hook outlives the code it was placed on

A batch of memory directives writes bytes and drops hooks. It may do so many times over, and stop
halfway.

* `Region.SameOutside` — two states of a region that differ within a range at most;
* `sameOutside_writeBytes` — writing changes nothing outside the range it is asked to write;
* `Spared` — the hooks that are left, and the bytes under them, are as they were;
* `Changing.spared`, `Changing.dropped` — what one directive does;
* `keeps_batches` — what whole batches do.
-/

namespace DiscPatch.Machine

open Edit

/-! ## Writing to a region -/

/-- The region `after` is mapped as `before` is, and has the same bytes outside of a range. -/
structure Region.SameOutside (start stop : Int) (before after : Region) : Prop where
  /-- it starts at the same address -/
  base : after.base = before.base
  /-- it has as many bytes -/
  size : after.data.size = before.data.size
  /-- outside of the range it has the same bytes -/
  read : ∀ address, address < start ∨ stop ≤ address → after.read? address = before.read? address

namespace Region.SameOutside

variable {start stop : Int} {before mid after : Region}

theorem refl (start stop : Int) (region : Region) : SameOutside start stop region region :=
  ⟨rfl, rfl, fun _ _ => rfl⟩

theorem trans (hfirst : SameOutside start stop before mid)
    (hnext : SameOutside start stop mid after) : SameOutside start stop before after where
  base := hnext.base.trans hfirst.base
  size := hnext.size.trans hfirst.size
  read address h := (hnext.read address h).trans (hfirst.read address h)

/-- What holds outside of a range holds outside of a wider one. -/
theorem widen {start' stop' : Int} (h : SameOutside start stop before after)
    (hstart : start' ≤ start) (hstop : stop ≤ stop') : SameOutside start' stop' before after where
  base := h.base
  size := h.size
  read address houtside := h.read address (by omega)

end Region.SameOutside

theorem Region.index?_eq_some {region : Region} {address : Int} {index : Nat}
    (h : region.index? address = some index) :
    address = region.base + index ∧ index < region.data.size := by
  simp only [Region.index?] at h
  split at h
  · next hmapped =>
    cases h
    omega
  · cases h

/-- One byte is written where it is asked for, and nowhere else. -/
theorem Region.sameOutside_write? {region changed : Region} {address : Int} {byte : UInt8}
    (h : region.write? address byte = some changed) :
    SameOutside address (address + 1) region changed := by
  obtain ⟨index, hindex, rfl⟩ := Option.map_eq_some_iff.mp h
  obtain ⟨hplace, -⟩ := index?_eq_some hindex
  refine ⟨rfl, Array.size_setIfInBounds, fun other hother => ?_⟩
  have hmapped : Region.index? ⟨region.base, region.data.setIfInBounds index byte⟩ other =
      region.index? other := by
    simp only [Region.index?, Array.size_setIfInBounds]
  rw [Region.read?, Region.read?, hmapped]
  rcases hfound : region.index? other with _ | found
  · rfl
  · obtain ⟨hfoundPlace, -⟩ := index?_eq_some hfound
    exact Array.getElem?_setIfInBounds_ne (by omega)

/-- **Writing stays within its range.** -/
theorem sameOutside_writeBytes (region : Region) (address : Int) (bytes : Bytes) :
    Region.SameOutside address (address + bytes.length) region
      (writeBytes region address bytes).1 := by
  induction bytes generalizing region address with
  | nil => exact .refl ..
  | cons byte rest ih =>
    rw [writeBytes, List.length_cons]
    rcases hwritten : (Image.write? region address byte : Option Region) with _ | changed
    · exact (ih region (address + 1)).widen (by omega) (by omega)
    · have hfirst := Region.sameOutside_write? hwritten
      exact (hfirst.widen (by omega) (by omega)).trans
        ((ih changed (address + 1)).widen (by omega) (by omega))

/-! ## Hooks -/

theorem sublist_dropHooks (hooks : List Hook) (start stop : Int) :
    (dropHooks hooks start stop).1.Sublist hooks :=
  List.filter_sublist

theorem dropHooks_count (hooks : List Hook) (start stop : Int) :
    (dropHooks hooks start stop).2 = hooks.length - (dropHooks hooks start stop).1.length :=
  rfl

/-- A hook that is kept has no address in the range. -/
theorem outside_of_mem_dropHooks {hooks : List Hook} {start stop address : Int} {hook : Hook}
    (h : hook ∈ (dropHooks hooks start stop).1) (hlo : hook.start ≤ address)
    (hhi : address < hook.stop) : address < start ∨ stop ≤ address := by
  obtain ⟨-, hclear⟩ := List.mem_filter.mp h
  simp only [Hook.clearOf, Bool.or_eq_true, decide_eq_true_eq] at hclear
  omega

/-! ## One directive -/

/-- What is left of a machine's hooks after a run, and the memory under them, is as it was before;
the memory is mapped as it was. -/
structure Spared (before after : Machine Region) : Prop where
  /-- no hook is new, and those that are left keep their order -/
  hooks : after.hooks.Sublist before.hooks
  /-- every address in the range of a hook that is left holds what it held before -/
  bytes : ∀ hook ∈ after.hooks, ∀ address, hook.start ≤ address → address < hook.stop →
    after.image.read? address = before.image.read? address
  /-- the memory starts at the same address -/
  base : after.image.base = before.image.base
  /-- it has as many bytes -/
  size : after.image.data.size = before.image.data.size

namespace Spared

theorem refl (machine : Machine Region) : Spared machine machine :=
  ⟨.refl _, fun _ _ _ _ _ => rfl, rfl, rfl⟩

theorem trans {before mid after : Machine Region} (hfirst : Spared before mid)
    (hnext : Spared mid after) : Spared before after where
  hooks := hnext.hooks.trans hfirst.hooks
  bytes hook hhook address hlo hhi :=
    -- a hook that is left at the end was left halfway
    (hnext.bytes hook hhook address hlo hhi).trans
      (hfirst.bytes hook (hnext.hooks.subset hhook) address hlo hhi)
  base := hnext.base.trans hfirst.base
  size := hnext.size.trans hfirst.size

end Spared

variable {machine after : Machine Region} {answer : Except Error Report}

/-- **One directive** writes under no hook that it leaves. -/
theorem Changing.spared (h : Changing machine answer after) : Spared machine after := by
  cases h with
  | idle => exact .refl machine
  | failed => exact .refl machine
  | written manner address bytes =>
    have hwritten := sameOutside_writeBytes machine.image address bytes
    refine ⟨sublist_dropHooks .., fun hook hhook other hlo hhi => ?_, hwritten.base, hwritten.size⟩
    exact hwritten.read other (outside_of_mem_dropHooks hhook hlo hhi)

/-- It reports how many hooks it drops. -/
theorem Changing.dropped {report : Report} (h : Changing machine answer after)
    (hanswer : answer = .ok report) :
    report.dropped = machine.hooks.length - after.hooks.length := by
  cases h with
  | idle =>
    cases hanswer
    exact (Int.sub_self _).symm
  | failed => cases hanswer
  | written manner address bytes =>
    cases hanswer
    have hle := (sublist_dropHooks machine.hooks address (address + bytes.length)).length_le
    simp only [applied, rewritten, dropHooks_count]
    omega

/-! ## Whole batches -/

/-- How many hooks the reports count in all. -/
def totalDropped : List Report → Int
  | [] => 0
  | report :: rest => report.dropped + totalDropped rest

/-- Every run of the edit, also one that fails, spares the hooks it leaves; one that does not fail
reports in all how many are gone. -/
def Keeps (edit : Edit (Machine Region) (List Report)) : Prop :=
  ∀ machine answer after, edit.outcome machine = (answer, after) →
    Spared machine after ∧ ∀ reports, answer = .ok reports →
      totalDropped reports = machine.hooks.length - after.hooks.length

/-- What single directives do, a run of them does. -/
theorem keeps_mapM {α : Type} {step : α → Edit (Machine Region) Report} {items : List α}
    (h : ∀ item ∈ items, Changes (step item)) : Keeps (items.mapM step) := by
  induction items with
  | nil =>
    intro machine answer after hrun
    rw [List.mapM_nil, outcome_pure] at hrun
    cases hrun
    refine ⟨.refl machine, ?_⟩
    rintro reports ⟨⟩
    exact (Int.sub_self _).symm
  | cons item rest ih =>
    obtain ⟨hitem, hrest⟩ := List.forall_mem_cons.mp h
    intro machine answer after hrun
    have hfirst := hitem machine
    rw [List.mapM_cons, outcome_bind] at hrun
    generalize (step item).outcome machine = result at hfirst hrun
    obtain ⟨error | report, mid⟩ := result
    · cases hrun
      exact ⟨hfirst.spared, by rintro reports ⟨⟩⟩
    · dsimp only at hrun hfirst
      rw [outcome_bind] at hrun
      rcases hothers : (rest.mapM step).outcome mid with ⟨error | reports, last⟩
      · obtain ⟨hspared, -⟩ := ih hrest mid _ _ hothers
        rw [hothers] at hrun
        cases hrun
        exact ⟨hfirst.spared.trans hspared, by rintro reports ⟨⟩⟩
      · obtain ⟨hspared, hcount⟩ := ih hrest mid _ _ hothers
        rw [hothers] at hrun
        cases hrun
        refine ⟨hfirst.spared.trans hspared, ?_⟩
        rintro _ ⟨⟩
        rw [totalDropped, hfirst.dropped rfl, hcount reports rfl]
        omega

/-- **No hook outlives the code it was placed on**: after a batch of memory directives, and also
after one that fails halfway, the hooks that are left are some of the old ones in their old order,
and all memory in their ranges is as it was; the image is mapped as before, and the reports of a
batch that does not fail count the hooks that are gone. -/
theorem keeps_batches (base size start length : Int) (strict : Bool) (patches : List Patch) :
    Keeps (applyGeneral base size patches) ∧
      Keeps (applyLoaded base start length strict patches) := by
  constructor
  · refine keeps_mapM fun item _ => ?_
    obtain ⟨patch, directive⟩ := item
    dsimp only
    split
    · exact changes_applySearch patch directive base size
    · exact changes_applyDirect patch directive base
  · refine keeps_mapM fun item _ => ?_
    obtain ⟨patch, directive⟩ := item
    dsimp only
    split
    · exact changes_applyHook patch directive base start length strict
    · exact changes_applySearch patch directive start length

/-- Two hooks, a directive that writes under the first, and one that stops the batch because there
are no external files. -/
example :
    let machine : Machine Region := ⟨⟨0x80000000, #[1, 2, 3, 4, 5, 6, 7, 8]⟩,
      [⟨0x80000000, 0x80000004, "a"⟩, ⟨0x80000004, 0x80000008, "b"⟩]⟩
    let patch : Patch := ⟨"p", [], [], [⟨1, [9], "", [], false, 1, false⟩,
      ⟨5, [], "f", [], false, 1, false⟩], [], none⟩
    let result := (applyGeneral 0x80000000 8 [patch]).outcome machine
    result.1.isOk = false ∧ result.2.image.data = #[1, 9, 3, 4, 5, 6, 7, 8] ∧
      result.2.hooks.map (·.name) = ["b"] := by
  decide +kernel

end DiscPatch.Machine
