import DiscPatch.Proofs.Content.Windows

/-!
# What lies past the end of a file

The size of a file has the last word: what its segments have past the end is not part of the file.
Clipping takes it away. Freezing a file and freezing its clipped form is the same; here the two are
compared after an overwrite.

* `File.clipped` — a file without what lies past its end;
* `Layout.ofSegments_of_shared` — segments that share a position cannot be frozen;
* `Call.UnearthsHidden` — an overwrite starts at or past the end, and some segment has a position
  between the old end and the new one;
* `freeze_after_clipped` — an overwrite does the same to a file and to its clipped form, as far as
  it shows when they are frozen, unless it unearths something hidden; then the file cannot be frozen
  any more.
-/

namespace DiscPatch

/-! ## Clipping -/

/-- A segment cut at `size`. -/
def Segment.upTo (size : Nat) (segment : Segment) : Segment :=
  ⟨segment.offset, min segment.size (size - segment.offset), segment.source⟩

/-- A file without what lies past its end: segments that start there are dropped, the others are cut
at the end. -/
def File.clipped (file : File) : File :=
  { file with
    segments := (file.segments.filter (·.offset < file.size.toNat)).map
      (Segment.upTo file.size.toNat) }

theorem Segment.window?_upTo {size : Nat} {segment : Segment} (h : segment.offset < size)
    (lo hi : Nat) : (segment.upTo size).window? lo hi = segment.window? lo (min hi size) := by
  have hstop : segment.stop = segment.offset + segment.size := rfl
  have hcut : (segment.upTo size).stop = min size segment.stop := by
    simp only [upTo, Placed.stop]
    omega
  simp only [window?, hcut, Nat.min_assoc]
  rfl

/-- A clipped file shows what the file shows in front of its end. -/
theorem File.window_clipped (file : File) (lo hi : Nat) :
    window lo hi file.clipped.segments = window lo (min hi file.size.toNat) file.segments := by
  rw [File.clipped]
  induction file.segments with
  | nil => rfl
  | cons segment rest ih =>
    rw [window_cons, ← ih]
    rcases Nat.lt_or_ge segment.offset file.size.toNat with hlt | hge
    · rw [List.filter_cons_of_pos (by simpa using hlt), List.map_cons, window_cons,
        Segment.window?_upTo hlt]
    · rw [List.filter_cons_of_neg (by simpa using hge), Segment.window?_eq_none (by omega)]
      rfl

theorem InOrder.clipped {file : File} (h : InOrder file.segments) :
    InOrder file.clipped.segments := by
  refine List.pairwise_map.mpr ((h.filter _).imp ?_)
  intro a b hab hpositive
  simp only [Segment.upTo, Placed.stop] at *
  have hle := hab (by omega)
  omega

/-! ## Freezing -/

/-- A file freezes to what it shows in front of its end. -/
theorem File.freeze_eq_window {file : File} (hsize : 0 ≤ file.size) :
    file.freeze 0 = Layout.ofSegments (window 0 file.size.toNat file.segments) := by
  have hclip : Segment.clip? file.size = Segment.window? 0 file.size.toNat := by
    funext segment
    rw [← Segment.clip?_eq_window?, Int.toNat_of_nonneg hsize]
  rw [file.freeze_zero, hclip]
  rfl

/-- Segments that can be frozen share no position. -/
theorem Layout.pairwise_of_ofSegments {segments : List Segment} {layout : Layout}
    (h : ofSegments segments = .ok layout) :
    (segments.filter (0 < ·.size)).Pairwise fun a b => a.stop ≤ b.offset ∨ b.stop ≤ a.offset := by
  simp only [ofSegments] at h
  split at h
  · cases h
  · next hnone =>
    refine (perm_sortByStop _).pairwise ?_ fun hab => hab.symm
    exact (pairwise_of_overlap?_eq_none hnone).imp .inl

/-- Segments are refused for one reason only. -/
theorem Layout.ofSegments_cases (segments : List Segment) :
    (∃ layout, ofSegments segments = .ok layout) ∨
      ∃ first second : Segment, ofSegments segments =
        .error (.overlap second.offset second.stop first.offset first.stop) := by
  simp only [ofSegments]
  split
  · exact .inr ⟨_, _, rfl⟩
  · exact .inl ⟨_, rfl⟩

/-- Segments that share a position cannot be frozen. -/
theorem Layout.ofSegments_of_shared {front back : List Segment} {a b : Segment} {i : Nat}
    (ha : a ∈ front) (hb : b ∈ back) (hai : a.offset ≤ i ∧ i < a.stop)
    (hbi : b.offset ≤ i ∧ i < b.stop) :
    ∃ first second : Segment, ofSegments (front ++ back) =
      .error (.overlap second.offset second.stop first.offset first.stop) := by
  have hpositive {s : Segment} (hs : s.offset ≤ i ∧ i < s.stop) : 0 < s.size := by
    simp only [Placed.stop] at hs
    omega
  rcases ofSegments_cases (front ++ back) with ⟨layout, hlayout⟩ | hoverlap
  · have hapart := pairwise_of_ofSegments hlayout
    rw [List.filter_append, List.pairwise_append] at hapart
    have hsides := hapart.2.2 a (List.mem_filter.mpr ⟨ha, by simpa using hpositive hai⟩) b
      (List.mem_filter.mpr ⟨hb, by simpa using hpositive hbi⟩)
    omega
  · exact hoverlap

/-- What a window shows of segments in order, and nothing starts in front of `mid`, is a line from
there on. -/
theorem InOrder.linedUp_window_from {segments : List Segment} (h : InOrder segments)
    {lo mid hi : Nat} (hmid : mid ≤ hi)
    (hstart : ∀ s ∈ segments, 0 < s.size → mid ≤ max lo s.offset) :
    LinedUp (· ≤ ·) mid (window lo hi segments) hi := by
  induction segments generalizing mid with
  | nil => exact hmid
  | cons segment rest ih =>
    obtain ⟨hfirst, hrest⟩ := List.pairwise_cons.mp h
    obtain ⟨hsegment, hothers⟩ := List.forall_mem_cons.mp hstart
    rw [window_cons]
    by_cases hseen : max lo segment.offset < min hi segment.stop
    · rw [Segment.window?_of_lt hseen]
      have hpositive : 0 < segment.size := by
        simp only [Placed.stop] at hseen
        omega
      refine ⟨hsegment hpositive, ih hrest ?_ ?_⟩
      · simp only [Placed.stop] at *
        omega
      · intro s hs hs'
        have hafter := hfirst s hs hs'
        simp only [Placed.stop] at *
        omega
    · rw [Segment.window?_eq_none (Nat.not_lt.mp hseen)]
      exact ih hrest hmid hothers

/-- What a window shows of segments in order is a line between its ends. -/
theorem InOrder.linedUp_window {segments : List Segment} (h : InOrder segments) {lo hi : Nat}
    (hle : lo ≤ hi) : LinedUp (· ≤ ·) lo (window lo hi segments) hi :=
  h.linedUp_window_from hle fun _ _ _ => Nat.le_max_left ..

/-! ## Overwriting what has something hidden -/

section Hidden

variable {file : File} {span : Span} {source : Source} {resize : Bool}

/-- Some segment of the file has a position past the end of the file and in front of `stop`. -/
def File.HidesBefore (file : File) (stop : Nat) : Prop :=
  ∃ s ∈ file.segments, ∃ i : Nat, file.size.toNat ≤ i ∧ i < stop ∧ s.offset ≤ i ∧ i < s.stop

/-- Where nothing is hidden, a wider window shows nothing more. -/
theorem File.window_of_not_hidesBefore {stop : Nat} (h : ¬ file.HidesBefore stop)
    (hstop : file.size.toNat ≤ stop) :
    window 0 stop file.segments = window 0 file.size.toNat file.segments := by
  refine List.filterMap_congr fun s hs => ?_
  have hnone : min stop s.stop ≤ max file.size.toNat s.offset := by
    refine Nat.le_of_not_lt fun hlt => h ⟨s, hs, max file.size.toNat s.offset, ?_⟩
    omega
  rcases Nat.lt_or_ge s.offset file.size.toNat with hlt | hge
  · have hsame : min stop s.stop = min file.size.toNat s.stop := by omega
    rw [Segment.window?, Segment.window?, hsame]
  · rw [Segment.window?_eq_none (by omega), Segment.window?_eq_none (by omega)]

/-- Where something is hidden, a wider window shows it. -/
theorem File.HidesBefore.exists_mem_window {stop : Nat} (h : file.HidesBefore stop) :
    ∃ s ∈ window 0 stop file.segments, ∃ i : Nat, file.size.toNat ≤ i ∧ i < stop ∧
      s.offset ≤ i ∧ i < s.stop := by
  obtain ⟨s, hs, i, hend, hstop, hlo, hhi⟩ := h
  refine ⟨_, List.mem_filterMap.mpr ⟨s, hs, Segment.window?_of_lt (by omega)⟩, i, hend, hstop, ?_⟩
  simp only [Placed.stop] at *
  omega

/-- What an overwrite leaves, when it is frozen. -/
theorem File.freeze_laid (file : File) (span : Span) (source : Source) (resize : Bool) :
    (file.laid span source resize).freeze 0 = Layout.ofSegments
      (window 0 (span.newSize resize file.size.toNat)
        (span.lay source resize file.size.toNat file.segments)) :=
  File.freeze_eq_window (Int.natCast_nonneg _)

/-- A file that ends behind the range has not grown. -/
theorem Span.newSize_le {size : Nat} (h : span.stop < span.newSize resize size) :
    span.newSize resize size ≤ size := by
  cases resize with
  | true => exact absurd h (Nat.lt_irrefl _)
  | false =>
    simp only [Span.newSize, Bool.false_eq_true, if_false] at *
    omega

/-- An overwrite inside the file does the same to a file and to its clipped form, as far as it shows
when they are frozen. -/
theorem File.freeze_laid_inside (h : InOrder file.segments)
    (hinside : span.start < file.size.toNat) :
    ∃ layout, (file.clipped.laid span source resize).freeze 0 = .ok layout ∧
      (file.laid span source resize).freeze 0 = .ok layout := by
  have hend := span.stop_le_newSize resize file.size.toNat
  have hfront : window 0 span.start file.clipped.segments = window 0 span.start file.segments := by
    rw [file.window_clipped, Nat.min_eq_left (Nat.le_of_lt hinside)]
  have hback : window span.stop (span.newSize resize file.size.toNat) file.clipped.segments =
      window span.stop (span.newSize resize file.size.toNat) file.segments := by
    rw [file.window_clipped]
    rcases Nat.lt_or_ge span.stop (span.newSize resize file.size.toNat) with hlt | hge
    · rw [Nat.min_eq_left (Span.newSize_le hlt)]
    · rw [window_of_le hge, window_of_le (by omega)]
  -- all three parts are lines, one after the other
  have hline := ((h.linedUp_window (Nat.zero_le span.start)).append spacing_le
    (span.linedUp_laidOver spacing_le source)).append spacing_le (h.linedUp_window hend)
  obtain ⟨layout, hlayout, -⟩ := Layout.ofSegments_of_pairwise (hline.pairwise spacing_le)
  refine ⟨layout, ?_, ?_⟩
  · rw [File.freeze_laid, ← hlayout, ← hfront, ← hback]
    exact congrArg _ (window_lay_inside h.clipped hinside)
  · rw [File.freeze_laid, window_lay_inside h hinside, hlayout]

/-- An overwrite past the end of the file does the same to a file and to its clipped form, unless
something is hidden in front of the new end: then the file cannot be frozen. -/
theorem File.freeze_laid_past (h : InOrder file.segments) (hpast : file.size.toNat ≤ span.start) :
    ∃ layout, (file.clipped.laid span source resize).freeze 0 = .ok layout ∧
      (¬ file.HidesBefore span.stop → (file.laid span source resize).freeze 0 = .ok layout) ∧
      (file.HidesBefore span.stop → ∃ first second : Segment,
        (file.laid span source resize).freeze 0 =
          .error (.overlap second.offset second.stop first.offset first.stop)) := by
  have hrange := span.start_le_stop
  have hfront : window 0 span.stop file.clipped.segments =
      window 0 file.size.toNat file.segments := by
    rw [file.window_clipped, Nat.min_eq_right (Nat.le_trans hpast hrange)]
  have hline := ((h.linedUp_window (Nat.zero_le file.size.toNat)).append spacing_le
    (LinedUp.leadingZeros spacing_le hpast)).append spacing_le
    (span.linedUp_laidOver spacing_le source)
  obtain ⟨layout, hlayout, -⟩ := Layout.ofSegments_of_pairwise (hline.pairwise spacing_le)
  refine ⟨layout, ?_, fun hnone => ?_, fun hhidden => ?_⟩
  · rw [File.freeze_laid, ← hlayout, ← hfront]
    exact congrArg _ (window_lay_past hpast)
  · rw [File.freeze_laid, window_lay_past hpast,
      File.window_of_not_hidesBefore hnone (Nat.le_trans hpast hrange), hlayout]
  · -- the zeros and what is laid take up all positions up to the new end
    obtain ⟨s, hs, i, hlo, hhi, hserves⟩ := hhidden.exists_mem_window
    have hadded := (LinedUp.leadingZeros spacing_eq hpast).append spacing_eq
      (span.linedUp_laidOver spacing_eq source)
    obtain ⟨t, ht, hserves'⟩ := hadded.covers hlo hhi
    obtain ⟨first, second, hoverlap⟩ := Layout.ofSegments_of_shared hs ht hserves hserves'
    refine ⟨first, second, ?_⟩
    rw [File.freeze_laid, window_lay_past hpast, List.append_assoc, hoverlap]

end Hidden

/-! ## Calls -/

/-- A call covers a range at or past the end of the file, and some segment of the file has a
position between the end of the file and that of the range. -/
def Call.UnearthsHidden (call : Call) (file : File) : Prop :=
  ∃ span, call.span? = some span ∧ file.size ≤ span.start ∧ file.HidesBefore span.stop

theorem Call.unearthsHidden_iff {call : Call} {span : Span} (h : call.span? = some span)
    (file : File) : call.UnearthsHidden file ↔
      file.size.toNat ≤ span.start ∧ file.HidesBefore span.stop := by
  simp only [UnearthsHidden, h, Option.some.injEq, exists_eq_left', Int.toNat_le]

/-- **An overwrite does the same to a file and to its clipped form**, as far as it shows when they
are frozen: both get the same answer, the clipped file can be frozen, and the file freezes to the
same layout exactly if the call unearths nothing hidden. Otherwise it cannot be frozen, since two
segments share a position. -/
theorem freeze_after_clipped {file : File} (hsize : 0 ≤ file.size) (h : InOrder file.segments)
    (call : Call) :
    (call.edit.outcome file.clipped).1 = (call.edit.outcome file).1 ∧
    ∃ layout, (call.after file.clipped).freeze 0 = .ok layout ∧
      ((call.after file).freeze 0 = .ok layout ↔ ¬ call.UnearthsHidden file) ∧
      (call.UnearthsHidden file → ∃ first second : Segment, (call.after file).freeze 0 =
        .error (.overlap second.offset second.stop first.offset first.stop)) := by
  have hclipped : 0 ≤ file.clipped.size := hsize
  rcases hspan : call.span? with _ | span
  · -- nothing is changed, and freezing clips anyway
    obtain ⟨answer, hidle⟩ := Call.exists_answer hspan
    have hnone : ¬ call.UnearthsHidden file := by
      rintro ⟨span, hsome, -⟩
      rw [hspan] at hsome
      cases hsome
    obtain ⟨layout, hlayout, -⟩ := Layout.ofSegments_of_pairwise
      ((h.linedUp_window (Nat.zero_le file.size.toNat)).pairwise spacing_le)
    rw [Call.after, Call.after, hidle file hsize, hidle _ hclipped]
    refine ⟨rfl, layout, ?_, ?_, fun hhidden => absurd hhidden hnone⟩
    · rw [File.freeze_eq_window hclipped, file.window_clipped, ← hlayout]
      exact congrArg (fun size => Layout.ofSegments (window 0 size file.segments))
        (Nat.min_self file.size.toNat)
    · rw [File.freeze_eq_window hsize, hlayout]
      exact iff_of_true rfl hnone
  · obtain ⟨source, hlays⟩ := Call.exists_source hspan
    rw [Call.after, Call.after, hlays file hsize, hlays _ hclipped]
    refine ⟨rfl, ?_⟩
    rw [Call.unearthsHidden_iff hspan]
    rcases Nat.lt_or_ge span.start file.size.toNat with hinside | hpast
    · obtain ⟨layout, hclip, hsame⟩ := File.freeze_laid_inside h hinside
      have hnone : ¬ (file.size.toNat ≤ span.start ∧ file.HidesBefore span.stop) :=
        fun hhidden => Nat.not_le.mpr hinside hhidden.1
      exact ⟨layout, hclip, iff_of_true hsame hnone, fun hhidden => absurd hhidden hnone⟩
    · obtain ⟨layout, hclip, hsame, hoverlap⟩ := File.freeze_laid_past h hpast
      refine ⟨layout, hclip, ⟨fun hfrozen hhidden => ?_, fun hnone => ?_⟩,
        fun hhidden => hoverlap hhidden.2⟩
      · obtain ⟨first, second, herror⟩ := hoverlap hhidden.2
        cases herror.symm.trans hfrozen
      · exact hsame fun hhidden => hnone ⟨hpast, hhidden⟩

/-- A range two positions past the end of a file whose only segment reaches further: the clipped
file gets zeros up to the range, and the file cannot be frozen. -/
theorem freeze_after_clipped_reaching :
    let shelf := External.shelf (.folder [("a", .file [1, 2])]) ⟨"", ""⟩
    let file : File := ⟨"f", 4, [⟨0, 10, .fill 7⟩]⟩
    let call : Call := .overwrite shelf "a" 6 0 0 false
    0 ≤ file.size ∧ InOrder file.segments ∧ call.UnearthsHidden file ∧
      (∃ layout, (call.after file.clipped).freeze 0 = .ok layout ∧
        (call.after file).freeze 0 ≠ .ok layout) ∧
      (call.after file.clipped).segments.map (fun s => (s.offset, s.size)) =
        [(0, 4), (4, 2), (6, 2)] ∧
      ∃ first second : Segment, (call.after file).freeze 0 =
        .error (.overlap second.offset second.stop first.offset first.stop) := by
  intro shelf file call
  have hsize : 0 ≤ file.size := by decide
  have horder : InOrder file.segments := List.pairwise_singleton ..
  have hspan : call.span? = some ⟨6, 0, 2, 2⟩ := by decide +kernel
  have hhidden : call.UnearthsHidden file :=
    ⟨_, hspan, by decide, ⟨0, 10, .fill 7⟩, List.mem_singleton.mpr rfl, 4, by decide⟩
  obtain ⟨-, layout, hclipped, hsame, hoverlap⟩ := freeze_after_clipped hsize horder call
  exact ⟨hsize, horder, hhidden, ⟨layout, hclipped, fun hfrozen => hsame.mp hfrozen hhidden⟩,
    by decide +kernel, hoverlap hhidden⟩

end DiscPatch
