import DiscPatch.Proofs.Content.Clipping

/-!
# Layouts of segments in any order

Segments are put in the order in which they end, and then only neighbours are compared. This is
enough: among segments that are not empty, two that share a position cannot both end before the next
one starts, wherever they stand in that order.

* `Segment.Holds` — a position is one of the segment's;
* `SharePosition` — two entries of a list hold the same position;
* `pairwise_stop_le_offset` — segments that end in order and share nothing stand in line;
* `Layout.segmentAt?_eq_some_iff` — the segment that is found is the one that holds the position;
* `Layout.eq_of_perm` — segments can be laid out in one way only;
* `Layout.ofSegments_exact` — segments are refused exactly if two of them share a position, and
  otherwise laid out whole.
-/

namespace DiscPatch

/-! ## Positions of segments -/

/-- The position is one of the segment's. -/
def Segment.Holds (segment : Segment) (position : Int) : Prop :=
  segment.offset ≤ position ∧ position < segment.stop

instance (segment : Segment) (position : Int) : Decidable (segment.Holds position) :=
  inferInstanceAs (Decidable (_ ∧ _))

/-- Two different entries of the list hold the same position. -/
def SharePosition (segments : List Segment) : Prop :=
  ∃ i j : Nat, i ≠ j ∧ ∃ a b : Segment, segments[i]? = some a ∧ segments[j]? = some b ∧
    ∃ position, a.Holds position ∧ b.Holds position

namespace Segment

variable {a b : Segment} {position : Int}

theorem Holds.positive (h : a.Holds position) : 0 < a.size := by
  simp only [Holds, Placed.stop] at h
  omega

/-- Segments that are not empty share no position exactly if one ends before the other starts. -/
theorem not_holds_both_iff :
    (¬ ∃ position, a.Holds position ∧ b.Holds position) ↔
      (0 < a.size → 0 < b.size → a.stop ≤ b.offset ∨ b.stop ≤ a.offset) := by
  simp only [Holds, Placed.stop]
  constructor
  · intro h ha hb
    refine Decidable.byContradiction fun hoverlap => h ⟨max a.offset b.offset, ?_⟩
    omega
  · rintro h ⟨position, ha, hb⟩
    have := h (by omega) (by omega)
    omega

end Segment

/-- No two entries share a position exactly if those that are not empty lie apart. -/
theorem not_sharePosition_iff {segments : List Segment} :
    ¬ SharePosition segments ↔ (segments.filter (0 < ·.size)).Pairwise
      fun a b => a.stop ≤ b.offset ∨ b.stop ≤ a.offset := by
  have hpairs : ¬ SharePosition segments ↔
      segments.Pairwise fun a b => ¬ ∃ position, a.Holds position ∧ b.Holds position := by
    rw [List.pairwise_iff_getElem]
    constructor
    · intro h i j hi hj hlt hshared
      exact h ⟨i, j, Nat.ne_of_lt hlt, _, _, List.getElem?_eq_getElem hi,
        List.getElem?_eq_getElem hj, hshared⟩
    · rintro h ⟨i, j, hne, a, b, ha, hb, position, hheld⟩
      obtain ⟨hi, rfl⟩ := List.getElem?_eq_some_iff.mp ha
      obtain ⟨hj, rfl⟩ := List.getElem?_eq_some_iff.mp hb
      rcases Nat.lt_or_gt_of_ne hne with hlt | hgt
      · exact h i j hi hj hlt ⟨position, hheld⟩
      · exact h j i hj hi hgt ⟨position, hheld.symm⟩
  rw [hpairs, List.pairwise_filter]
  simp only [Segment.not_holds_both_iff, decide_eq_true_eq]

/-! ## The order of ends -/

theorem pairwise_insertByStop {segment : Segment} {segments : List Segment}
    (h : segments.Pairwise (·.stop ≤ ·.stop)) :
    (insertByStop segment segments).Pairwise (·.stop ≤ ·.stop) := by
  induction segments with
  | nil => exact List.pairwise_singleton ..
  | cons other rest ih =>
    obtain ⟨hother, hrest⟩ := List.pairwise_cons.mp h
    rw [insertByStop]
    split
    · next hle =>
      refine List.pairwise_cons.mpr ⟨List.forall_mem_cons.mpr ⟨hle, fun last hlast => ?_⟩, h⟩
      exact Nat.le_trans hle (hother last hlast)
    · next hgt =>
      refine List.pairwise_cons.mpr ⟨fun last hlast => ?_, ih hrest⟩
      rcases List.mem_cons.mp ((perm_insertByStop segment rest).mem_iff.mp hlast) with rfl | hlast
      · exact Nat.le_of_not_le hgt
      · exact hother last hlast

theorem pairwise_sortByStop (segments : List Segment) :
    (sortByStop segments).Pairwise (·.stop ≤ ·.stop) := by
  induction segments with
  | nil => exact .nil
  | cons segment rest ih => exact pairwise_insertByStop ih

/-- Segments that end in order, are not empty and lie apart stand in line. -/
theorem pairwise_stop_le_offset {segments : List Segment}
    (hsorted : segments.Pairwise (·.stop ≤ ·.stop)) (hpositive : ∀ s ∈ segments, 0 < s.size)
    (hapart : segments.Pairwise fun a b => a.stop ≤ b.offset ∨ b.stop ≤ a.offset) :
    segments.Pairwise fun a b => a.stop ≤ b.offset := by
  refine (hsorted.and hapart).imp_of_mem ?_
  rintro a b ha - ⟨hle, hbefore | hafter⟩
  · exact hbefore
  · -- the second would have to end before the first starts
    have hsome := hpositive a ha
    simp only [Placed.stop] at *
    omega

/-! ## Finding a segment -/

namespace Layout

variable {layout : Layout} {segments : List Segment}

/-- **The segment that is found is the one that holds the position.** -/
theorem segmentAt?_eq_some_iff {position : Int} {segment : Segment} :
    layout.segmentAt? position = some segment ↔
      segment ∈ layout.segments ∧ segment.Holds position := by
  rw [segmentAt?, Option.filter_eq_some_iff]
  constructor
  · rintro ⟨hfind, hstart⟩
    have hstop := List.find?_some hfind
    exact ⟨List.mem_of_find?_eq_some hfind, of_decide_eq_true hstart, of_decide_eq_true hstop⟩
  · rintro ⟨hmem, hstart, hstop⟩
    obtain ⟨front, back, hsegments⟩ := List.append_of_mem hmem
    have hordered := layout.ordered
    rw [hsegments, List.pairwise_append] at hordered
    refine ⟨?_, decide_eq_true hstart⟩
    -- what stands in front has ended by then
    have hfront : front.find? (position < ·.stop) = none := by
      refine List.find?_eq_none.mpr fun other hother hlate => ?_
      have hended := hordered.2.2 other hother segment (List.mem_cons_self ..)
      have hlate := of_decide_eq_true hlate
      omega
    rw [hsegments, List.find?_append, hfront, Option.none_or]
    exact List.find?_cons_of_pos (by simpa using hstop)

/-! ## Laying out -/

/-- A layout has the segments it was made of, without the empty ones. -/
theorem perm_of_ofSegments (h : ofSegments segments = .ok layout) :
    layout.segments.Perm (segments.filter (0 < ·.size)) := by
  simp only [ofSegments] at h
  split at h
  · cases h
  · cases h
    exact perm_sortByStop _

/-- An empty segment holds no position, so nothing is lost without it. -/
theorem mem_and_holds_iff (h : ofSegments segments = .ok layout) {segment : Segment}
    {position : Int} : segment ∈ layout.segments ∧ segment.Holds position ↔
      segment ∈ segments ∧ segment.Holds position := by
  rw [(perm_of_ofSegments h).mem_iff, List.mem_filter, decide_eq_true_eq, and_assoc]
  exact and_congr_right fun _ => and_iff_right_of_imp Segment.Holds.positive

/-- Segments of a layout start one after the other. -/
theorem pairwise_offset_lt (layout : Layout) : layout.segments.Pairwise (·.offset < ·.offset) := by
  refine layout.ordered.imp_of_mem ?_
  intro a b ha _ hle
  have hpositive := layout.positive a ha
  simp only [Placed.stop] at hle
  omega

/-- **Segments can be laid out in one way only.** -/
theorem eq_of_perm {other : Layout} (h : layout.segments.Perm other.segments) : layout = other := by
  have hsegments : layout.segments = other.segments := by
    refine h.eq_of_pairwise ?_ layout.pairwise_offset_lt other.pairwise_offset_lt
    intro a b _ _ hab hba
    omega
  cases layout
  cases other
  cases hsegments
  rfl

/-- Segments that share no position are laid out. -/
theorem exists_ofSegments (h : ¬ SharePosition segments) :
    ∃ layout, ofSegments segments = .ok layout := by
  have hperm := perm_sortByStop (segments.filter (0 < ·.size))
  have hlined : (sortByStop (segments.filter (0 < ·.size))).Pairwise
      fun a b => a.stop ≤ b.offset := by
    refine pairwise_stop_le_offset (pairwise_sortByStop _) (fun s hs => ?_) ?_
    · simpa using (List.mem_filter.mp (hperm.mem_iff.mp hs)).2
    · exact hperm.symm.pairwise (not_sharePosition_iff.mp h) fun hab => hab.symm
  simp only [ofSegments]
  split
  · next hoverlap =>
    rw [overlap?_of_pairwise hlined] at hoverlap
    cases hoverlap
  · exact ⟨_, rfl⟩

/-- In any other order the same segments give the same layout. -/
theorem ofSegments_perm {others : List Segment} (h : ofSegments segments = .ok layout)
    (hothers : others.Perm segments) : ofSegments others = .ok layout := by
  have hkept := hothers.filter (0 < ·.size)
  have hshared : ¬ SharePosition others := by
    refine not_sharePosition_iff.mpr ?_
    exact hkept.symm.pairwise (pairwise_of_ofSegments h) fun hab => hab.symm
  obtain ⟨other, hother⟩ := exists_ofSegments hshared
  have hperm := (perm_of_ofSegments hother).trans (hkept.trans (perm_of_ofSegments h).symm)
  rw [hother, eq_of_perm hperm]

/-- **Layouts detect exactly the overlaps.** Segments in any order are refused exactly if two
different entries share a position. Otherwise the layout has all entries that are not empty, each
once, by where they start; at every position it finds the one entry that holds it, if there is one;
and in any other order the entries give the same layout. -/
theorem ofSegments_exact (segments : List Segment) :
    ((∃ first second : Segment, ofSegments segments =
        .error (.overlap second.offset second.stop first.offset first.stop)) ↔
      SharePosition segments) ∧
    (¬ SharePosition segments → ∃ layout, ofSegments segments = .ok layout ∧
      layout.segments.Perm (segments.filter (0 < ·.size)) ∧
      layout.segments.Pairwise (·.offset < ·.offset) ∧
      (∀ position segment, layout.segmentAt? position = some segment ↔
        segment ∈ segments ∧ segment.Holds position) ∧
      (∀ position, layout.segmentAt? position = none ↔
        ∀ segment ∈ segments, ¬ segment.Holds position) ∧
      ∀ others, others.Perm segments → ofSegments others = .ok layout) := by
  refine ⟨⟨?_, fun hshared => ?_⟩, fun hapart => ?_⟩
  · rintro ⟨first, second, herror⟩
    refine Classical.byContradiction fun hapart => ?_
    obtain ⟨layout, hlayout⟩ := exists_ofSegments hapart
    cases herror.symm.trans hlayout
  · rcases ofSegments_cases segments with ⟨layout, hlayout⟩ | herror
    · exact absurd hshared (not_sharePosition_iff.mpr (pairwise_of_ofSegments hlayout))
    · exact herror
  · obtain ⟨layout, hlayout⟩ := exists_ofSegments hapart
    have hfound : ∀ position segment, layout.segmentAt? position = some segment ↔
        segment ∈ segments ∧ segment.Holds position := fun position segment => by
      rw [segmentAt?_eq_some_iff, mem_and_holds_iff hlayout]
    refine ⟨layout, hlayout, perm_of_ofSegments hlayout, layout.pairwise_offset_lt, hfound,
      fun position => ?_, fun others => ofSegments_perm hlayout⟩
    rw [Option.eq_none_iff_forall_ne_some]
    simp only [ne_eq, hfound, not_and]

end Layout

end DiscPatch
