import DiscPatch.Content.Overwrite
import Mathlib.Data.List.TakeWhile

/-!
# Segments in line

The segments of a file stand in line: each starts where the one before it ends, or later. One
relation between the end of a segment and the start of the next says how much room there may be:

* `LinedUp (· ≤ ·) lo segments hi` — the segments lie in order between `lo` and `hi`, and no two
  share a position;
* `LinedUp (· = ·) lo segments hi` — they fill the positions from `lo` up to `hi` without a gap.

Everything an overwrite does to the line is the same for both, so it is shown once, for every
relation that is a `Spacing`. The main statement is `LinedUp.lay`: laying a range over a line from
`0` to the size of the file gives a line from `0` to its new size.
-/

namespace DiscPatch

/-- What is asked of a relation between the end of one segment and the start of the next. The last
clause lets a line be parted at any point between two neighbours. -/
structure Spacing (R : Nat → Nat → Prop) : Prop where
  /-- a segment may start right where the one before it ends -/
  refl : ∀ a, R a a
  /-- leaving out an empty stretch leaves neighbours -/
  trans : ∀ {a b c}, R a b → R b c → R a c
  /-- nothing starts before the one in front of it ends -/
  le : ∀ {a b}, R a b → a ≤ b
  /-- a point in the room between two neighbours is related to both -/
  between : ∀ {a b c}, R a c → a ≤ b → b ≤ c → R a b ∧ R b c

theorem spacing_le : Spacing (· ≤ ·) where
  refl := Nat.le_refl
  trans := Nat.le_trans
  le := id
  between := fun _ hab hbc => ⟨hab, hbc⟩

theorem spacing_eq : Spacing (· = ·) where
  refl := fun _ => rfl
  trans := Eq.trans
  le := Nat.le_of_eq
  between := by
    rintro a b c rfl hab hba
    have heq : a = b := Nat.le_antisymm hab hba
    exact ⟨heq, heq.symm⟩

/-- The segments stand in line from `lo` to `hi`, with `R` between the end of each and the start of
the next. -/
def LinedUp (R : Nat → Nat → Prop) : Nat → List Segment → Nat → Prop
  | lo, [], hi => R lo hi
  | lo, segment :: rest, hi => R lo segment.offset ∧ LinedUp R segment.stop rest hi

instance LinedUp.decidable {R : Nat → Nat → Prop} [DecidableRel R] :
    (lo : Nat) → (segments : List Segment) → (hi : Nat) → Decidable (LinedUp R lo segments hi)
  | lo, [], hi => inferInstanceAs (Decidable (R lo hi))
  | lo, segment :: rest, hi =>
    have : Decidable (LinedUp R segment.stop rest hi) := LinedUp.decidable segment.stop rest hi
    inferInstanceAs (Decidable (R lo segment.offset ∧ LinedUp R segment.stop rest hi))

theorem Placed.offset_le_stop {σ : Type} (placed : Placed σ) : placed.offset ≤ placed.stop :=
  Nat.le_add_right _ _

namespace LinedUp

variable {R : Nat → Nat → Prop} {lo mid hi : Nat} {xs ys segments : List Segment}

theorem mono {S : Nat → Nat → Prop} (hRS : ∀ {a b}, R a b → S a b)
    (h : LinedUp R lo segments hi) : LinedUp S lo segments hi := by
  induction segments generalizing lo with
  | nil => exact hRS h
  | cons segment rest ih => exact ⟨hRS h.1, ih h.2⟩

/-- A line without gaps is a line. -/
theorem of_eq (h : LinedUp (· = ·) lo segments hi) : LinedUp (· ≤ ·) lo segments hi :=
  h.mono Nat.le_of_eq

theorem le (hR : Spacing R) (h : LinedUp R lo segments hi) : lo ≤ hi := by
  induction segments generalizing lo with
  | nil => exact hR.le h
  | cons segment rest ih =>
    have hlo := hR.le h.1
    have hrest := ih h.2
    have hsegment := segment.offset_le_stop
    omega

/-- Every segment of a line lies between its ends. -/
theorem within (hR : Spacing R) (h : LinedUp R lo segments hi) {segment : Segment}
    (hmem : segment ∈ segments) : lo ≤ segment.offset ∧ segment.stop ≤ hi := by
  induction segments generalizing lo with
  | nil => cases hmem
  | cons first rest ih =>
    have hlo := hR.le h.1
    have hfirst := first.offset_le_stop
    rcases List.mem_cons.mp hmem with rfl | hrest
    · exact ⟨hlo, le hR h.2⟩
    · obtain ⟨hstart, hstop⟩ := ih h.2 hrest
      exact ⟨by omega, hstop⟩

/-- What leads up to the start of a line may lead up to it from further in front. -/
theorem from_left (hR : Spacing R) (hlo : R lo mid) (h : LinedUp R mid segments hi) :
    LinedUp R lo segments hi := by
  cases segments with
  | nil => exact hR.trans hlo h
  | cons segment rest => exact ⟨hR.trans hlo h.1, h.2⟩

theorem append (hR : Spacing R) (hxs : LinedUp R lo xs mid) (hys : LinedUp R mid ys hi) :
    LinedUp R lo (xs ++ ys) hi := by
  induction xs generalizing lo with
  | nil => exact hys.from_left hR hxs
  | cons segment rest ih => exact ⟨hxs.1, ih hxs.2⟩

/-- One segment is a line right between its ends. -/
theorem single (hR : Spacing R) (offset size : Nat) (source : Source) :
    LinedUp R offset [⟨offset, size, source⟩] (offset + size) :=
  ⟨hR.refl _, hR.refl _⟩

/-- Every later segment starts no earlier than an earlier one ends. -/
theorem pairwise (hR : Spacing R) (h : LinedUp R lo segments hi) :
    segments.Pairwise fun a b => a.stop ≤ b.offset := by
  induction segments generalizing lo with
  | nil => exact .nil
  | cons segment rest ih =>
    exact List.pairwise_cons.mpr ⟨fun other hother => (h.2.within hR hother).1, ih h.2⟩

/-! ## Lines without gaps -/

/-- In a line, to have no gap is to have every position served by some segment. -/
theorem eq_of_covers (h : LinedUp (· ≤ ·) lo segments hi)
    (hcover : ∀ i, lo ≤ i → i < hi → ∃ s ∈ segments, s.offset ≤ i ∧ i < s.stop) :
    LinedUp (· = ·) lo segments hi := by
  induction segments generalizing lo with
  | nil =>
    refine Nat.le_antisymm h (Nat.le_of_not_lt fun hlt => ?_)
    obtain ⟨s, hs, -⟩ := hcover lo (Nat.le_refl lo) hlt
    cases hs
  | cons segment rest ih =>
    obtain ⟨hlo, hrest⟩ := h
    have hsegment := segment.offset_le_stop
    have hstop := hrest.le spacing_le
    refine ⟨Nat.le_antisymm hlo (Nat.le_of_not_lt fun hlt => ?_), ih hrest ?_⟩
    · -- `lo` itself would be served by nothing
      obtain ⟨s, hs, hsi, -⟩ := hcover lo (Nat.le_refl lo) (by omega)
      rcases List.mem_cons.mp hs with rfl | hs
      · omega
      · have := (hrest.within spacing_le hs).1
        omega
    · intro i hi hlt
      obtain ⟨s, hs, hsi, his⟩ := hcover i (by omega) hlt
      rcases List.mem_cons.mp hs with rfl | hs
      · omega
      · exact ⟨s, hs, hsi, his⟩

theorem covers (h : LinedUp (· = ·) lo segments hi) {i : Nat} (hlo : lo ≤ i) (hhi : i < hi) :
    ∃ s ∈ segments, s.offset ≤ i ∧ i < s.stop := by
  induction segments generalizing lo with
  | nil =>
    have heq : lo = hi := h
    omega
  | cons segment rest ih =>
    obtain ⟨hstart, hrest⟩ := h
    rcases Nat.lt_or_ge i segment.stop with hlt | hge
    · exact ⟨segment, List.mem_cons_self .., by omega, hlt⟩
    · obtain ⟨s, hs, hserves⟩ := ih hrest hge
      exact ⟨s, List.mem_cons_of_mem _ hs, hserves⟩

end LinedUp

/-! ## Cutting

After a cut no segment reaches across the point: each lies on one side of it. -/

/-- The segment lies on one side of the point. -/
def Parted (point : Nat) (segment : Segment) : Prop :=
  segment.stop ≤ point ∨ point ≤ segment.offset

theorem Parted.stop_le {point : Nat} {segment : Segment} (h : Parted point segment)
    (hlt : segment.offset < point) : segment.stop ≤ point :=
  h.resolve_right (Nat.not_le.mpr hlt)

theorem Parted.le_offset {point : Nat} {segment : Segment} (h : Parted point segment)
    (hlt : point < segment.stop) : point ≤ segment.offset :=
  h.resolve_left (Nat.not_le.mpr hlt)

/-- A cut parts a segment that reaches across the point, and leaves any other as it is. -/
theorem cut_cases (point : Nat) (segment : Segment) :
    (segment.offset < point ∧ point < segment.stop ∧
      cut point segment = [segment.before point, segment.after point]) ∨
    Parted point segment ∧ cut point segment = [segment] := by
  by_cases hinside : segment.offset < point ∧ point < segment.stop
  · exact .inl ⟨hinside.1, hinside.2, if_pos hinside⟩
  · refine .inr ⟨?_, if_neg hinside⟩
    rw [Parted]
    omega

/-- The parts of a cut segment are the segment, or lie within it on either side of the point. -/
theorem mem_cut {point : Nat} {segment part : Segment} (h : part ∈ cut point segment) :
    part = segment ∨ segment.offset < point ∧ point < segment.stop ∧
      (part = segment.before point ∨ part = segment.after point) := by
  rcases cut_cases point segment with ⟨hlo, hhi, hcut⟩ | ⟨-, hcut⟩
  · rw [hcut] at h
    rcases List.mem_cons.mp h with rfl | h
    · exact .inr ⟨hlo, hhi, .inl rfl⟩
    · exact .inr ⟨hlo, hhi, .inr (List.mem_singleton.mp h)⟩
  · rw [hcut] at h
    exact .inl (List.mem_singleton.mp h)

theorem stop_before {segment : Segment} {point : Nat} (h : segment.offset < point) :
    (segment.before point).stop = point := by
  simp only [Segment.before, Placed.stop]
  omega

theorem stop_after {segment : Segment} {point : Nat} (h : point < segment.stop) :
    (segment.after point).stop = segment.stop := by
  simp only [Segment.after, Placed.stop] at *
  omega

theorem parted_of_mem_cut {point : Nat} {segment part : Segment} (h : part ∈ cut point segment) :
    Parted point part := by
  rcases cut_cases point segment with ⟨hlo, hhi, hcut⟩ | ⟨hparted, hcut⟩
  · rw [hcut] at h
    rcases List.mem_cons.mp h with rfl | h
    · exact .inl (Nat.le_of_eq (stop_before hlo))
    · obtain rfl := List.mem_singleton.mp h
      exact .inr (Nat.le_refl point)
  · rw [hcut] at h
    obtain rfl := List.mem_singleton.mp h
    exact hparted

/-- A second cut leaves every part on its side of the first point. -/
theorem Parted.of_mem_cut {point other : Nat} {segment part : Segment}
    (hsegment : Parted point segment) (h : part ∈ cut other segment) : Parted point part := by
  rcases mem_cut h with rfl | ⟨hlo, hhi, rfl | rfl⟩
  · exact hsegment
  · have hstop := stop_before hlo
    rcases hsegment with hle | hge
    · exact .inl (by omega)
    · exact .inr hge
  · have hstop := stop_after hhi
    rcases hsegment with hle | hge
    · exact .inl (by omega)
    · exact .inr (by simp only [Segment.after]; omega)

theorem parted_start_of_mem_cutAtBounds {start stop : Nat} {segments : List Segment}
    {part : Segment} (h : part ∈ cutAtBounds start stop segments) : Parted start part := by
  obtain ⟨piece, hpiece, hpart⟩ := List.mem_flatMap.mp h
  obtain ⟨segment, -, hcut⟩ := List.mem_flatMap.mp hpiece
  exact (parted_of_mem_cut hcut).of_mem_cut hpart

theorem parted_stop_of_mem_cutAtBounds {start stop : Nat} {segments : List Segment}
    {part : Segment} (h : part ∈ cutAtBounds start stop segments) : Parted stop part := by
  obtain ⟨piece, -, hpart⟩ := List.mem_flatMap.mp h
  exact parted_of_mem_cut hpart

/-! ## Around a range -/

/-- The zeros that lead from the end of a file up to a range past it. -/
def leadingZeros (size start : Nat) : List Segment :=
  if size < start then [⟨size, start - size, Source.zeros⟩] else []

theorem around_of_lt {size start : Nat} (h : start < size) (stop : Nat) (segments : List Segment) :
    around size start stop segments = clear start stop (cutAtBounds start stop segments) :=
  if_neg (Nat.not_le.mpr h)

theorem around_of_le {size start : Nat} (h : size ≤ start) (stop : Nat) (segments : List Segment) :
    around size start stop segments = (segments ++ leadingZeros size start, []) :=
  if_pos h

theorem Span.lay_eq (span : Span) (source : Source) (resize : Bool) (size : Nat)
    (segments : List Segment) :
    span.lay source resize size segments = trimTo (span.newSize resize size)
      ((around size span.start span.stop segments).1 ++
        laidOver source span.start span.count span.available ++
        (around size span.start span.stop segments).2) := rfl

namespace LinedUp

variable {R : Nat → Nat → Prop} {lo mid hi : Nat} {segments : List Segment}

theorem flatMap_cut (hR : Spacing R) (point : Nat) (h : LinedUp R lo segments hi) :
    LinedUp R lo (segments.flatMap (cut point)) hi := by
  induction segments generalizing lo with
  | nil => exact h
  | cons segment rest ih =>
    obtain ⟨hlo, hrest⟩ := h
    rw [List.flatMap_cons]
    refine LinedUp.append hR ?_ (ih hrest)
    rcases cut_cases point segment with ⟨hstart, hstop, hcut⟩ | ⟨-, hcut⟩
    · rw [hcut]
      refine ⟨hlo, ?_, ?_⟩
      · rw [stop_before hstart]
        exact hR.refl point
      · rw [stop_after hstop]
        exact hR.refl segment.stop
    · rw [hcut]
      exact ⟨hlo, hR.refl segment.stop⟩

theorem cutAtBounds (hR : Spacing R) (start stop : Nat) (h : LinedUp R lo segments hi) :
    LinedUp R lo (cutAtBounds start stop segments) hi :=
  (h.flatMap_cut hR start).flatMap_cut hR stop

/-! ## Clearing -/

/-- At a point that no segment reaches across, a line falls into a line up to it and one from it. -/
theorem part_front (hR : Spacing R) (h : LinedUp R lo segments hi)
    (hparted : ∀ s ∈ segments, Parted mid s) (hlo : lo ≤ mid) (hhi : mid ≤ hi) :
    LinedUp R lo (segments.takeWhile (·.offset < mid)) mid ∧
      LinedUp R mid (segments.dropWhile (·.offset < mid)) hi := by
  induction segments generalizing lo with
  | nil => exact hR.between h hlo hhi
  | cons segment rest ih =>
    obtain ⟨hstart, hrest⟩ := h
    obtain ⟨hsegment, hothers⟩ := List.forall_mem_cons.mp hparted
    rcases Nat.lt_or_ge segment.offset mid with hlt | hge
    · obtain ⟨hfront, hback⟩ := ih hrest hothers (hsegment.stop_le hlt)
      rw [List.takeWhile_cons_of_pos (by simpa using hlt),
        List.dropWhile_cons_of_pos (by simpa using hlt)]
      exact ⟨⟨hstart, hfront⟩, hback⟩
    · rw [List.takeWhile_cons_of_neg (by simpa using hge),
        List.dropWhile_cons_of_neg (by simpa using hge)]
      obtain ⟨hbefore, hafter⟩ := hR.between hstart hlo hge
      exact ⟨hbefore, hafter, hrest⟩

/-- Once the segments that end in front of a point are gone, the others lead on from it. -/
theorem dropWhile_stop (hR : Spacing R) (h : LinedUp R lo segments hi)
    (hparted : ∀ s ∈ segments, Parted mid s) (hlo : lo ≤ mid) (hhi : mid ≤ hi) :
    LinedUp R mid (segments.dropWhile (·.stop ≤ mid)) hi := by
  induction segments generalizing lo with
  | nil => exact (hR.between h hlo hhi).2
  | cons segment rest ih =>
    obtain ⟨hstart, hrest⟩ := h
    obtain ⟨hsegment, hothers⟩ := List.forall_mem_cons.mp hparted
    rcases Nat.lt_or_ge mid segment.stop with hlt | hge
    · rw [List.dropWhile_cons_of_neg (by simpa using hlt)]
      exact ⟨(hR.between hstart hlo (hsegment.le_offset hlt)).2, hrest⟩
    · rw [List.dropWhile_cons_of_pos (by simpa using hge)]
      exact ih hrest hothers hge

/-- Past the end of a line nothing is left of it. -/
theorem dropWhile_stop_eq_nil (hR : Spacing R) (h : LinedUp R lo segments hi) (hhi : hi ≤ mid) :
    segments.dropWhile (·.stop ≤ mid) = [] := by
  rw [List.dropWhile_eq_nil_iff]
  intro segment hsegment
  have hstop := (h.within hR hsegment).2
  simpa using Nat.le_trans hstop hhi

/-! ## Laying over and trimming -/

theorem laidOver (hR : Spacing R) (source : Source) (start count available : Nat) :
    LinedUp R start (laidOver source start count available) (start + count) := by
  unfold DiscPatch.laidOver
  rcases Nat.lt_or_ge available count with hlt | hge
  · rw [if_pos hlt]
    have hpad : LinedUp R (start + available)
        [⟨start + available, count - available, Source.zeros⟩] (start + count) := by
      have hend : start + count = start + available + (count - available) := by omega
      rw [hend]
      exact single hR ..
    refine LinedUp.append hR ?_ hpad
    split
    · rw [Nat.min_eq_right (Nat.le_of_lt hlt)]
      exact single hR ..
    · next hnone =>
      have hzero : available = 0 := by omega
      rw [hzero]
      exact hR.refl start
  · rw [if_neg (Nat.not_lt.mpr hge), List.append_nil, Nat.min_eq_left hge]
    split
    · exact single hR ..
    · next hnone =>
      have hzero : count = 0 := by omega
      rw [hzero]
      exact hR.refl start

theorem leadingZeros (hR : Spacing R) {size start : Nat} (h : size ≤ start) :
    LinedUp R size (leadingZeros size start) start := by
  rw [DiscPatch.leadingZeros]
  split
  · have hgap := single hR size (start - size) Source.zeros
    rwa [Nat.add_sub_cancel' h] at hgap
  · next hnone =>
    have heq : size = start := Nat.le_antisymm h (Nat.not_lt.mp hnone)
    rw [heq]
    exact hR.refl start

theorem trimTo_eq_nil (h : ∀ s ∈ segments, mid ≤ s.offset) : trimTo mid segments = [] := by
  induction segments with
  | nil => rfl
  | cons segment rest ih =>
    have hrest := ih fun s hs => h s (List.mem_cons_of_mem _ hs)
    simp only [trimTo, hrest, if_pos (h segment (List.mem_cons_self ..))]

/-- A line trimmed inside its first segment: all that follows starts past the point. -/
theorem trimTo_cons_of_lt (hR : Spacing R) {segment : Segment}
    (h : LinedUp R segment.stop segments hi) (hlt : mid < segment.stop) :
    DiscPatch.trimTo mid (segment :: segments) =
      if mid ≤ segment.offset then []
      else [⟨segment.offset, mid - segment.offset, segment.source⟩] := by
  have hnil : DiscPatch.trimTo mid segments = [] :=
    trimTo_eq_nil fun s hs => Nat.le_trans (Nat.le_of_lt hlt) (h.within hR hs).1
  rw [DiscPatch.trimTo, hnil]
  simp only [if_pos hlt]

/-- A line trimmed past its first segment keeps it, unless the segment is empty, the last one and
right at the point. -/
theorem trimTo_cons_of_le {segment : Segment} (hle : segment.stop ≤ mid) :
    DiscPatch.trimTo mid (segment :: segments) = segment :: DiscPatch.trimTo mid segments ∨
      segment.offset = mid ∧ segment.size = 0 ∧ DiscPatch.trimTo mid segments = [] ∧
        DiscPatch.trimTo mid (segment :: segments) = [] := by
  have hsegment : segment.stop = segment.offset + segment.size := rfl
  rw [DiscPatch.trimTo]
  rcases DiscPatch.trimTo mid segments with _ | ⟨next, others⟩
  · rcases Nat.lt_or_ge segment.offset mid with hin | hout
    · exact .inl ((if_neg (Nat.not_le.mpr hin)).trans (if_neg (Nat.not_lt.mpr hle)))
    · exact .inr ⟨by omega, by omega, rfl, if_pos hout⟩
  · exact .inl rfl

/-- A line trimmed at a point between its ends leads up to that point. -/
theorem trimTo (hR : Spacing R) (h : LinedUp R lo segments hi) (hlo : lo ≤ mid) (hhi : mid ≤ hi) :
    LinedUp R lo (trimTo mid segments) mid := by
  induction segments generalizing lo with
  | nil => exact (hR.between h hlo hhi).1
  | cons segment rest ih =>
    obtain ⟨hstart, hrest⟩ := h
    rcases Nat.lt_or_ge mid segment.stop with hlt | hge
    · rw [trimTo_cons_of_lt hR hrest hlt]
      split
      · next hout => exact (hR.between hstart hlo hout).1
      · have hend : segment.offset + (mid - segment.offset) = mid := by omega
        refine ⟨hstart, ?_⟩
        simp only [LinedUp, Placed.stop, hend]
        exact hR.refl mid
    · rcases trimTo_cons_of_le hge with hkept | ⟨rfl, -, -, hnil⟩
      · rw [hkept]
        exact ⟨hstart, ih hrest hge⟩
      · rw [hnil]
        exact hstart

/-- The segments around a range, with a line over the range between them, are a line. -/
theorem around (hR : Spacing R) {size start stop : Nat} {laid : List Segment}
    (h : LinedUp R 0 segments size) (hlaid : LinedUp R start laid stop) :
    LinedUp R 0 ((around size start stop segments).1 ++ laid ++
      (around size start stop segments).2) (max size stop) := by
  have hrange := hlaid.le hR
  rcases Nat.lt_or_ge start size with hinside | hpast
  · rw [around_of_lt hinside]
    have hcut := h.cutAtBounds hR start stop
    obtain ⟨hfront, hrest⟩ := hcut.part_front hR (fun s hs => parted_start_of_mem_cutAtBounds hs)
      (Nat.zero_le start) (Nat.le_of_lt hinside)
    refine LinedUp.append hR (LinedUp.append hR hfront hlaid) ?_
    -- the file ends behind the range, or nothing of it is left there
    rcases Nat.le_total stop size with hle | hge
    · rw [Nat.max_eq_left hle]
      refine hrest.dropWhile_stop hR (fun s hs => ?_) hrange hle
      exact parted_stop_of_mem_cutAtBounds ((List.dropWhile_suffix _).subset hs)
    · rw [Nat.max_eq_right hge]
      simp only [clear, hrest.dropWhile_stop_eq_nil hR hge]
      exact hR.refl stop
  · rw [around_of_le hpast, Nat.max_eq_right (Nat.le_trans hpast hrange), List.append_nil]
    exact LinedUp.append hR (LinedUp.append hR h (leadingZeros hR hpast)) hlaid

/-- **Laying a range over a line** gives a line up to the new size. -/
theorem lay (hR : Spacing R) (span : Span) (source : Source) (resize : Bool) {size : Nat}
    (h : LinedUp R 0 segments size) :
    LinedUp R 0 (span.lay source resize size segments) (span.newSize resize size) := by
  have hlaid := laidOver hR source span.start span.count span.available
  refine (h.around hR hlaid).trimTo hR (Nat.zero_le _) ?_
  unfold Span.newSize Span.stop
  split <;> omega

end LinedUp

end DiscPatch
