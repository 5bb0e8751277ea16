import DiscPatch.Proofs.Content.WellFormed

/-!
# Windows on segments

A window on segments is what is left of them between two positions. An overwrite only ever looks at
segments through windows: what it leaves in front of its range is the window up to the range, and
what it leaves behind it is the window from there on.

* `Segment.window?`, `window` — the part of a segment, and of segments, between two positions;
* `window_window` — a window on a window is the window on what both show;
* `InOrder` — segments in order, where empty ones do not count;
* `window_lay_inside`, `window_lay_past` — what shows of the segments that an overwrite leaves;
* `File.WellFormed.segments_laid` — all that an overwrite leaves of a well-formed file.

Once an overwrite is written in windows, what two overwrites leave is computed from `window_window`
and from what the windows show of zeros and of laid segments.
-/

namespace DiscPatch

/-- The part of a segment between two positions; `none` if nothing of it lies there. -/
def Segment.window? (lo hi : Nat) (segment : Segment) : Option Segment :=
  if max lo segment.offset < min hi segment.stop then
    some ⟨max lo segment.offset, min hi segment.stop - max lo segment.offset,
      segment.source.advance ↑(max lo segment.offset - segment.offset)⟩
  else none

/-- The parts of segments between two positions. -/
def window (lo hi : Nat) (segments : List Segment) : List Segment :=
  segments.filterMap (Segment.window? lo hi)

/-! ## One segment -/

/-- Advancing from a position to a later one, and on from there, is advancing all the way. -/
theorem Source.advance_sub_advance_sub (source : Source) {i j k : Nat} (hij : i ≤ j)
    (hjk : j ≤ k) : (source.advance ↑(j - i)).advance ↑(k - j) = source.advance ↑(k - i) := by
  rw [advance_advance]
  congr 1
  omega

namespace Segment

variable {lo hi : Nat} {segment : Segment}

theorem window?_of_lt (h : max lo segment.offset < min hi segment.stop) :
    segment.window? lo hi = some ⟨max lo segment.offset,
      min hi segment.stop - max lo segment.offset,
      segment.source.advance ↑(max lo segment.offset - segment.offset)⟩ :=
  if_pos h

theorem window?_eq_none (h : min hi segment.stop ≤ max lo segment.offset) :
    segment.window? lo hi = none :=
  if_neg (Nat.not_lt.mpr h)

/-- A segment that is not empty and lies between the positions is seen as a whole. -/
theorem window?_of_within (hpositive : 0 < segment.size) (hlo : lo ≤ segment.offset)
    (hhi : segment.stop ≤ hi) : segment.window? lo hi = some segment := by
  have hstop : segment.stop = segment.offset + segment.size := rfl
  rw [window?_of_lt (by omega), Nat.max_eq_right hlo, Nat.min_eq_right hhi, Nat.sub_self, hstop,
    Nat.add_sub_cancel_left]
  simp

/-- A window on what a window shows of a segment. -/
theorem window?_window? (a b lo hi : Nat) (segment : Segment) :
    (segment.window? lo hi).bind (window? a b) = segment.window? (max a lo) (min b hi) := by
  by_cases hseen : max lo segment.offset < min hi segment.stop
  · -- the part that shows ends where the window or the segment does
    have hstop : max lo segment.offset + (min hi segment.stop - max lo segment.offset) =
        min hi segment.stop := Nat.add_sub_of_le (Nat.le_of_lt hseen)
    have hsource := segment.source.advance_sub_advance_sub
      (Nat.le_max_right lo segment.offset) (Nat.le_max_right a (max lo segment.offset))
    rw [window?_of_lt hseen, Option.bind_some]
    simp only [window?, Placed.stop] at *
    simp only [hstop, hsource, Nat.max_assoc, Nat.min_assoc]
  · rw [window?_eq_none (Nat.not_lt.mp hseen), Option.bind_none, window?_eq_none (by omega)]

/-- Past its end there is nothing to see of a segment. -/
theorem window?_min_stop (lo hi : Nat) (segment : Segment) :
    segment.window? lo (min hi segment.stop) = segment.window? lo hi := by
  simp only [window?, Nat.min_assoc, Nat.min_self]

/-- What a window shows of the part of a segment in front of a point. -/
theorem window?_before {point : Nat} (hlo : segment.offset < point) (hhi : point < segment.stop) :
    (segment.before point).window? lo hi = segment.window? lo (min hi point) := by
  have hpart : segment.window? 0 point = some (segment.before point) := by
    rw [window?_of_lt (by omega), Nat.zero_max, Nat.min_eq_left (Nat.le_of_lt hhi), Nat.sub_self]
    simp [before]
  have hseen := segment.window?_window? lo hi 0 point
  rwa [hpart, Option.bind_some, Nat.max_zero] at hseen

/-- What a window shows of the part of a segment from a point on. -/
theorem window?_after {point : Nat} (hlo : segment.offset < point) (hhi : point < segment.stop) :
    (segment.after point).window? lo hi = segment.window? (max lo point) hi := by
  have hpart : segment.window? point segment.stop = some (segment.after point) := by
    rw [window?_of_lt (by omega), Nat.max_eq_left (Nat.le_of_lt hlo), Nat.min_self]
    rfl
  have hseen := segment.window?_window? lo hi point segment.stop
  rwa [hpart, Option.bind_some, window?_min_stop] at hseen

/-- Clipping shows a segment through a window. -/
theorem clip?_eq_window? (size : Nat) (segment : Segment) :
    segment.clip? size = segment.window? 0 size := by
  have hstop : segment.stop = segment.offset + segment.size := rfl
  by_cases hseen : segment.offset < min size segment.stop
  · rw [window?_of_lt (by omega), clip?, if_neg (by omega)]
    simp only [Nat.zero_max, Nat.sub_self, Option.some.injEq, Placed.mk.injEq, true_and]
    exact ⟨by omega, by simp⟩
  · rw [window?_eq_none (by omega), clip?, if_pos (by omega)]

end Segment

/-! ## Lists of segments -/

section Lists

variable {lo hi : Nat} {segments : List Segment}

@[simp] theorem window_nil : window lo hi [] = [] := rfl

theorem window_cons (segment : Segment) (rest : List Segment) :
    window lo hi (segment :: rest) = (segment.window? lo hi).toList ++ window lo hi rest := by
  rw [window, List.filterMap_cons]
  rcases segment.window? lo hi with _ | part <;> rfl

@[simp] theorem window_append (front back : List Segment) :
    window lo hi (front ++ back) = window lo hi front ++ window lo hi back :=
  List.filterMap_append

/-- **A window on a window** is the window on what both show. -/
@[simp] theorem window_window (a b : Nat) (segments : List Segment) :
    window a b (window lo hi segments) = window (max a lo) (min b hi) segments := by
  rw [window, window, List.filterMap_filterMap]
  exact List.filterMap_congr fun segment _ => segment.window?_window? a b lo hi

/-- Segments that are not empty are seen whole through a window that they lie in. -/
theorem window_of_within (hpositive : ∀ s ∈ segments, 0 < s.size)
    (hwithin : ∀ s ∈ segments, lo ≤ s.offset ∧ s.stop ≤ hi) : window lo hi segments = segments := by
  have hall : window lo hi segments = segments.filterMap some := by
    refine List.filterMap_congr fun s hs => ?_
    obtain ⟨hlo, hhi⟩ := hwithin s hs
    exact Segment.window?_of_within (hpositive s hs) hlo hhi
  rw [hall, List.filterMap_some]

theorem window_eq_nil (h : ∀ s ∈ segments, 0 < s.size → s.stop ≤ lo ∨ hi ≤ s.offset) :
    window lo hi segments = [] := by
  refine List.filterMap_eq_nil_iff.mpr fun s hs => Segment.window?_eq_none ?_
  have hside := h s hs
  simp only [Placed.stop] at *
  omega

/-- Nothing is seen through a window of no width. -/
theorem window_of_le (h : hi ≤ lo) : window lo hi segments = [] := by
  refine List.filterMap_eq_nil_iff.mpr fun s _ => Segment.window?_eq_none ?_
  omega

theorem leadingZeros_of_le {size start : Nat} (h : start ≤ size) : leadingZeros size start = [] :=
  if_neg (Nat.not_lt.mpr h)

/-- What a window shows of zeros that lead up to a range. -/
theorem window_leadingZeros (size start : Nat) :
    window lo hi (leadingZeros size start) = leadingZeros (max lo size) (min hi start) := by
  rcases Nat.lt_or_ge size start with hlt | hge
  · have hstop : size + (start - size) = start := by omega
    rw [leadingZeros, if_pos hlt, window_cons, window_nil, List.append_nil]
    simp only [Segment.window?, Placed.stop, hstop, leadingZeros]
    split <;> rfl
  · rw [leadingZeros_of_le hge, leadingZeros_of_le (by omega), window_nil]

/-- Cutting changes nothing for a window that lies on one side of the point. -/
theorem window_flatMap_cut {point : Nat} (h : hi ≤ point ∨ point ≤ lo) :
    window lo hi (segments.flatMap (cut point)) = window lo hi segments := by
  induction segments with
  | nil => rfl
  | cons segment rest ih =>
    rw [List.flatMap_cons, window_append, ih, window_cons]
    congr 1
    rcases cut_cases point segment with ⟨hstart, hstop, hcut⟩ | ⟨-, hcut⟩
    · rw [hcut, window_cons, window_cons, window_nil, List.append_nil,
        Segment.window?_before hstart hstop, Segment.window?_after hstart hstop]
      -- one of the parts is out of sight, and the other shows all that there is to see
      rcases h with hbefore | hafter
      · have hnone : segment.window? (max lo point) hi = none :=
          Segment.window?_eq_none (by omega)
        rw [Nat.min_eq_left hbefore, hnone]
        exact List.append_nil _
      · have hnone : segment.window? lo (min hi point) = none :=
          Segment.window?_eq_none (by omega)
        rw [Nat.max_eq_left hafter, hnone]
        rfl
    · rw [hcut, window_cons, window_nil, List.append_nil]

/-- Trimming changes nothing for a window up to the point. -/
theorem window_trimTo {size : Nat} (h : hi ≤ size) (segments : List Segment) :
    window lo hi (trimTo size segments) = window lo hi segments := by
  induction segments with
  | nil => rfl
  | cons segment rest ih =>
    rw [trimTo, window_cons, ← ih]
    rcases trimTo size rest with _ | ⟨next, others⟩
    · rw [window_nil, List.append_nil]
      dsimp only
      split
      · next hout =>
        rw [Segment.window?_eq_none (by omega)]
        rfl
      · next hin =>
        split
        · next hlong =>
          have hshown : (segment.before size).window? lo hi = segment.window? lo hi := by
            rw [Segment.window?_before (Nat.not_le.mp hin) hlong, Nat.min_eq_left h]
          rw [← hshown]
          exact (window_cons (segment.before size) []).trans (List.append_nil _)
        · rw [window_cons, window_nil, List.append_nil]
    · rw [window_cons]

end Lists

/-! ## Segments in order -/

/-- Every segment ends before the later ones start. Only where segments start that are not empty
counts: an empty one shares no position with any other. -/
def InOrder (segments : List Segment) : Prop :=
  segments.Pairwise fun a b => 0 < b.size → a.stop ≤ b.offset

theorem LinedUp.inOrder {lo hi : Nat} {segments : List Segment}
    (h : LinedUp (· ≤ ·) lo segments hi) : InOrder segments := by
  refine List.Pairwise.imp ?_ (h.pairwise spacing_le)
  intro a b hle _
  exact hle

namespace InOrder

variable {lo hi : Nat} {segments : List Segment}

theorem flatMap_cut (h : InOrder segments) (point : Nat) :
    InOrder (segments.flatMap (cut point)) := by
  refine List.pairwise_flatMap.mpr ⟨fun segment _ => ?_, h.imp_of_mem ?_⟩
  · rcases cut_cases point segment with ⟨hlo, hhi, hcut⟩ | ⟨-, hcut⟩
    · rw [hcut]
      refine List.pairwise_pair.mpr fun _ => ?_
      rw [stop_before hlo]
      exact Nat.le_refl point
    · rw [hcut]
      exact List.pairwise_singleton ..
  · intro a b _ _ hab x hx y hy hpositive
    have hpartx := Segment.IsPart.of_mem_cut hx
    have hparty := Segment.IsPart.of_mem_cut hy
    have hstop := hpartx.stop
    have hstart := hparty.start
    have hwhole := hparty.stop
    simp only [Placed.stop] at *
    have := hab (by omega)
    omega

theorem inOrder_cutAtBounds (h : InOrder segments) (start stop : Nat) :
    InOrder (cutAtBounds start stop segments) :=
  (h.flatMap_cut start).flatMap_cut stop

/-- Behind a segment that starts past a point, nothing starts in front of it. -/
theorem le_offset {first s : Segment} {rest : List Segment} (h : InOrder (first :: rest))
    {point : Nat} (hfirst : point ≤ first.offset) (hs : s ∈ first :: rest)
    (hpositive : 0 < s.size) : point ≤ s.offset := by
  rcases List.mem_cons.mp hs with rfl | hrest
  · exact hfirst
  · have hstop := (List.pairwise_cons.mp h).1 s hrest hpositive
    have hle := first.offset_le_stop
    omega

/-- What shows of the segments that start in front of a point, if none reaches across it. -/
theorem window_takeWhile (h : InOrder segments) {point : Nat}
    (hparted : ∀ s ∈ segments, Parted point s) :
    window lo hi (segments.takeWhile (·.offset < point)) = window lo (min hi point) segments := by
  induction segments with
  | nil => rfl
  | cons segment rest ih =>
    obtain ⟨hsegment, hothers⟩ := List.forall_mem_cons.mp hparted
    rcases Nat.lt_or_ge segment.offset point with hlt | hge
    · have hstop := hsegment.stop_le hlt
      rw [List.takeWhile_cons_of_pos (by simpa using hlt), window_cons, window_cons,
        ih (List.pairwise_cons.mp h).2 hothers, ← segment.window?_min_stop lo hi,
        ← segment.window?_min_stop lo (min hi point), Nat.min_assoc hi point,
        Nat.min_eq_right hstop]
    · rw [List.takeWhile_cons_of_neg (by simpa using hge)]
      refine (window_eq_nil fun s hs hpositive => .inr ?_).symm
      have hstart := h.le_offset hge hs hpositive
      omega

/-- What shows of the segments once those in front of a point are gone, if none reaches across
it. -/
theorem window_dropWhile (h : InOrder segments) {point : Nat}
    (hparted : ∀ s ∈ segments, Parted point s) :
    window lo hi (segments.dropWhile (·.stop ≤ point)) = window (max lo point) hi segments := by
  induction segments with
  | nil => rfl
  | cons segment rest ih =>
    obtain ⟨hsegment, hothers⟩ := List.forall_mem_cons.mp hparted
    rcases Nat.lt_or_ge point segment.stop with hlt | hge
    · rw [List.dropWhile_cons_of_neg (by simpa using hlt)]
      refine List.filterMap_congr fun s hs => ?_
      have hstart := h.le_offset (hsegment.le_offset hlt) hs
      rcases Nat.eq_zero_or_pos s.size with hzero | hpositive
      · have hempty : s.stop = s.offset := by rw [Placed.stop, hzero, Nat.add_zero]
        rw [Segment.window?_eq_none (by omega), Segment.window?_eq_none (by omega)]
      · rw [Segment.window?, Segment.window?, Nat.max_assoc, Nat.max_eq_right (hstart hpositive)]
    · rw [List.dropWhile_cons_of_pos (by simpa using hge), ih (List.pairwise_cons.mp h).2 hothers,
        window_cons, Segment.window?_eq_none (by omega)]
      rfl

/-- What shows of the segments in front of a range. -/
theorem window_clear_front (h : InOrder segments) {start stop : Nat} (hrange : start ≤ stop) :
    window lo hi (clear start stop (cutAtBounds start stop segments)).1 =
      window lo (min hi start) segments := by
  refine ((h.inOrder_cutAtBounds start stop).window_takeWhile fun s hs =>
    parted_start_of_mem_cutAtBounds hs).trans ?_
  rw [cutAtBounds, window_flatMap_cut (.inl (by omega)),
    window_flatMap_cut (.inl (by omega))]

/-- What shows of the segments behind a range. -/
theorem window_clear_back (h : InOrder segments) {start stop : Nat} (hrange : start ≤ stop) :
    window lo hi (clear start stop (cutAtBounds start stop segments)).2 =
      window (max lo stop) hi segments := by
  have hcut := h.inOrder_cutAtBounds start stop
  -- what starts in front of the range ends there, out of sight
  have hfront : window (max lo stop) hi
      ((cutAtBounds start stop segments).takeWhile (·.offset < start)) = [] :=
    (hcut.window_takeWhile fun s hs => parted_start_of_mem_cutAtBounds hs).trans
      (window_of_le (by omega))
  have hrest : window (max lo stop) hi
        ((cutAtBounds start stop segments).dropWhile (·.offset < start)) =
      window (max lo stop) hi (cutAtBounds start stop segments) := by
    conv_rhs => rw [← List.takeWhile_append_dropWhile (p := fun s => decide (s.offset < start))
      (l := cutAtBounds start stop segments), window_append, hfront, List.nil_append]
  have hsuffix := List.dropWhile_suffix (fun s : Segment => decide (s.offset < start))
    (l := cutAtBounds start stop segments)
  refine (window_dropWhile (hcut.sublist hsuffix.sublist) fun s hs =>
    parted_stop_of_mem_cutAtBounds (hsuffix.subset hs)).trans (hrest.trans ?_)
  rw [cutAtBounds, window_flatMap_cut (.inr (by omega)), window_flatMap_cut (.inr (by omega))]

end InOrder

/-! ## Overwriting -/

section Overwriting

variable {span : Span} {source : Source} {resize : Bool} {size : Nat} {segments : List Segment}

theorem Span.start_le_stop (span : Span) : span.start ≤ span.stop :=
  Nat.le_add_right _ _

theorem Span.stop_le_newSize (span : Span) (resize : Bool) (size : Nat) :
    span.stop ≤ span.newSize resize size := by
  unfold Span.newSize
  split <;> omega

/-- What is laid over a range is a line from its start to its end. -/
theorem Span.linedUp_laidOver {R : Nat → Nat → Prop} (hR : Spacing R) (span : Span)
    (source : Source) :
    LinedUp R span.start (laidOver source span.start span.count span.available) span.stop :=
  LinedUp.laidOver hR source span.start span.count span.available

/-- A window that the range lies in shows all that is laid over it. -/
theorem window_laidOver {lo hi : Nat} (hlo : lo ≤ span.start) (hhi : span.stop ≤ hi) :
    window lo hi (laidOver source span.start span.count span.available) =
      laidOver source span.start span.count span.available := by
  refine window_of_within (fun s hs => positive_of_mem_laidOver hs) fun s hs => ?_
  obtain ⟨hstart, hstop⟩ := (span.linedUp_laidOver spacing_le source).within spacing_le hs
  exact ⟨Nat.le_trans hlo hstart, Nat.le_trans hstop hhi⟩

/-- A window on one side of the range shows nothing of what is laid over it. -/
theorem window_laidOver_eq_nil {lo hi : Nat} (h : hi ≤ span.start ∨ span.stop ≤ lo) :
    window lo hi (laidOver source span.start span.count span.available) = [] := by
  refine window_eq_nil fun s hs _ => ?_
  obtain ⟨hstart, hstop⟩ := (span.linedUp_laidOver spacing_le source).within spacing_le hs
  omega

/-- **What shows after an overwrite inside the file**: what was in front of the range, what is laid
over it, and what was behind it as far as the new size. -/
theorem window_lay_inside (h : InOrder segments) (hinside : span.start < size) :
    window 0 (span.newSize resize size) (span.lay source resize size segments) =
      window 0 span.start segments ++ laidOver source span.start span.count span.available ++
        window span.stop (span.newSize resize size) segments := by
  have hrange := span.start_le_stop
  have hsize := span.stop_le_newSize resize size
  rw [span.lay_eq, window_trimTo (Nat.le_refl _), around_of_lt hinside, window_append,
    window_append, h.window_clear_front hrange, h.window_clear_back hrange,
    window_laidOver (Nat.zero_le _) hsize, Nat.min_eq_right (by omega), Nat.zero_max]

/-- **What shows after an overwrite past the end of the file**: what lies in front of its end, the
zeros that lead up to the range, and what is laid over it. -/
theorem window_lay_past (hpast : size ≤ span.start) :
    window 0 (span.newSize resize size) (span.lay source resize size segments) =
      window 0 span.stop segments ++ leadingZeros size span.start ++
        laidOver source span.start span.count span.available := by
  have hrange := span.start_le_stop
  have hsize : span.newSize resize size = span.stop := by
    unfold Span.newSize
    split <;> omega
  rw [span.lay_eq, window_trimTo (Nat.le_refl _), around_of_le hpast, List.append_nil,
    window_append, window_append, hsize, window_laidOver (Nat.zero_le _) (Nat.le_refl _),
    window_leadingZeros, Nat.zero_max, Nat.min_eq_right hrange]

end Overwriting

/-! ## Well-formed files -/

/-- The size of a file that keeps what lies behind a range. -/
theorem File.toNat_size_laid (file : File) (span : Span) (source : Source) :
    (file.laid span source false).size.toNat = max file.size.toNat span.stop := rfl

namespace File.WellFormed

variable {file : File}

/-- All of a well-formed file shows between its ends. -/
theorem window_all (h : file.WellFormed) : window 0 file.size.toNat file.segments = file.segments :=
  window_of_within h.positive fun _ hs => h.lined.within spacing_le hs

/-- Past the size there is nothing to see. -/
theorem window_min (h : file.WellFormed) (lo hi : Nat) :
    window lo (min hi file.size.toNat) file.segments = window lo hi file.segments := by
  conv_rhs => rw [← h.window_all, window_window, Nat.max_zero]

/-- As far as the file grows, there is nothing more to see of what it was. -/
theorem window_toNat_size_laid (h : file.WellFormed) (span : Span) (source : Source) (lo : Nat) :
    window lo (file.laid span source false).size.toNat file.segments =
      window lo file.size.toNat file.segments := by
  rw [← h.window_min, file.toNat_size_laid, Nat.min_eq_right (Nat.le_max_left ..)]

/-- **What an overwrite leaves** of a well-formed file: what was in front of the range, zeros if the
range starts past the end, what is laid over the range, and what was behind it. -/
theorem segments_laid (h : file.WellFormed) (span : Span) (source : Source) (resize : Bool) :
    (file.laid span source resize).segments =
      window 0 span.start file.segments ++ leadingZeros file.size.toNat span.start ++
        laidOver source span.start span.count span.available ++
        if resize then [] else window span.stop file.size.toNat file.segments := by
  have hrange := span.start_le_stop
  have hall : window 0 (span.newSize resize file.size.toNat)
      (span.lay source resize file.size.toNat file.segments) =
      (file.laid span source resize).segments := (h.laid span source resize).window_all
  rw [← hall]
  rcases Nat.lt_or_ge span.start file.size.toNat with hinside | hpast
  · rw [window_lay_inside h.lined.inOrder hinside, leadingZeros_of_le (Nat.le_of_lt hinside),
      List.append_nil]
    congr 1
    cases resize with
    | true => exact window_of_le (Nat.le_refl span.stop)
    | false =>
      change window span.stop (max file.size.toNat span.stop) file.segments = _
      rw [← h.window_min, Nat.min_eq_right (Nat.le_max_left ..)]
      rfl
  · have hfront : window 0 span.start file.segments = window 0 span.stop file.segments := by
      rw [← h.window_min, ← h.window_min 0 span.stop]
      congr 1
      omega
    have hback : (if resize then [] else window span.stop file.size.toNat file.segments) = [] := by
      cases resize with
      | true => rfl
      | false => exact window_of_le (Nat.le_trans hpast hrange)
    rw [window_lay_past hpast, hfront, hback, List.append_nil]

/-- What a window shows of an overwritten file. -/
theorem window_laid (h : file.WellFormed) (span : Span) (source : Source) (resize : Bool)
    (lo hi : Nat) :
    window lo hi (file.laid span source resize).segments =
      window lo (min hi span.start) file.segments ++
        leadingZeros (max lo file.size.toNat) (min hi span.start) ++
        window lo hi (laidOver source span.start span.count span.available) ++
        if resize then [] else window (max lo span.stop) hi file.segments := by
  rw [h.segments_laid]
  simp only [window_append, window_window, window_leadingZeros, Nat.max_zero]
  congr 1
  cases resize with
  | true => rfl
  | false =>
    simp only [Bool.false_eq_true, if_false, window_window]
    exact h.window_min ..

/-- In front of the range an overwrite adds nothing but zeros. -/
theorem window_laid_front (h : file.WellFormed) {span : Span} {lo hi : Nat}
    (hfront : hi ≤ span.start) (source : Source) (resize : Bool) :
    window lo hi (file.laid span source resize).segments =
      window lo hi file.segments ++ leadingZeros (max lo file.size.toNat) hi := by
  have hrange := span.start_le_stop
  have hnone : window (max lo span.stop) hi file.segments = [] := window_of_le (by omega)
  rw [h.window_laid, window_laidOver_eq_nil (.inl hfront), hnone, ite_self,
    Nat.min_eq_left hfront, List.append_nil, List.append_nil]

/-- Behind the range an overwrite that does not end the file there changes nothing. -/
theorem window_laid_back (h : file.WellFormed) {span : Span} {lo hi : Nat} (hback : span.stop ≤ lo)
    (source : Source) :
    window lo hi (file.laid span source false).segments = window lo hi file.segments := by
  have hrange := span.start_le_stop
  have hnone : window lo (min hi span.start) file.segments = [] := window_of_le (by omega)
  rw [h.window_laid, window_laidOver_eq_nil (.inr hback), hnone, leadingZeros_of_le (by omega),
    Nat.max_eq_left hback]
  rfl

end File.WellFormed

end DiscPatch
