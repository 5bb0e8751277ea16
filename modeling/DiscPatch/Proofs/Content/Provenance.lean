import DiscPatch.Proofs.Content.Assembly

/-!
# Where the bytes of an overwritten file come from

Segments are cut and their sources advanced, but what serves a position stays what it was: the same
source, from the same place on. This is said without reading any byte, so it holds for host files
that are not there and for composed files of any depth.

* `Serves` — what serves a position of some segments: a source whose first byte belongs there;
* `serves_window`, `serves_leadingZeros`, `serves_laidOver` — what serves the positions of each part
  that an overwrite leaves;
* `File.WellFormed.serves_laid` — what serves each position of a file once a range is laid over it;
* `provenance_overwrite` — every overwrite that is carried out serves the range from the external
  file and then from zeros, leads up to it with zeros, and leaves all other positions as they were.
-/

namespace DiscPatch

/-- One of the segments holds the position, and the source, whose first byte belongs there, is that
segment's. -/
def Serves (segments : List Segment) (position : Int) (source : Source) : Prop :=
  ∃ s ∈ segments, s.Holds position ∧ source = s.source.advance (position - s.offset)

section Parts

variable {position : Int} {source : Source}

@[simp] theorem serves_nil : ¬ Serves [] position source := by
  rintro ⟨s, hs, -⟩
  cases hs

@[simp] theorem serves_append {front back : List Segment} :
    Serves (front ++ back) position source ↔
      Serves front position source ∨ Serves back position source := by
  simp only [Serves, List.mem_append, or_and_right, exists_or]

theorem serves_cons {segment : Segment} {rest : List Segment} :
    Serves (segment :: rest) position source ↔
      Serves [segment] position source ∨ Serves rest position source := by
  rw [← List.singleton_append, serves_append]

theorem serves_singleton {segment : Segment} :
    Serves [segment] position source ↔
      segment.Holds position ∧ source = segment.source.advance (position - segment.offset) := by
  simp only [Serves, List.mem_singleton, exists_eq_left]

/-- A window shows what a segment has there, from the same place of its source on. -/
theorem Segment.serves_window? {segment : Segment} {lo hi : Nat} :
    Serves (segment.window? lo hi).toList position source ↔
      lo ≤ position ∧ position < hi ∧ Serves [segment] position source := by
  rw [serves_singleton]
  by_cases hseen : max lo segment.offset < min hi segment.stop
  · rw [Segment.window?_of_lt hseen, Option.toList_some, serves_singleton, Source.advance_advance]
    have hadvance : (↑(max lo segment.offset - segment.offset) : Int) +
        (position - ↑(max lo segment.offset)) = position - segment.offset := by omega
    rw [hadvance, ← and_assoc, ← and_assoc]
    refine and_congr_left fun _ => ?_
    simp only [Segment.Holds, Placed.stop] at *
    omega
  · rw [Segment.window?_eq_none (Nat.not_lt.mp hseen)]
    refine iff_of_false serves_nil ?_
    rintro ⟨hlo, hhi, ⟨hstart, hstop⟩, -⟩
    omega

/-- **A window changes nothing for the positions in it.** -/
theorem serves_window {segments : List Segment} {lo hi : Nat} :
    Serves (window lo hi segments) position source ↔
      lo ≤ position ∧ position < hi ∧ Serves segments position source := by
  induction segments with
  | nil => simp
  | cons segment rest ih =>
    rw [window_cons, serves_append, ih, Segment.serves_window?, ← and_or_left, ← and_or_left,
      ← serves_cons]

/-- The zeros that lead up to a range serve all positions up to it. -/
theorem serves_leadingZeros {size start : Nat} :
    Serves (leadingZeros size start) position source ↔
      size ≤ position ∧ position < start ∧ source = .zeros := by
  rw [leadingZeros]
  split
  · rw [serves_singleton, ← and_assoc]
    refine and_congr ?_ Iff.rfl
    simp only [Segment.Holds, Placed.stop]
    omega
  · refine iff_of_false serves_nil ?_
    rintro ⟨hlo, hhi, -⟩
    omega

/-- What is laid over a range serves its positions from the external file as far as that goes, and
then from zeros. -/
theorem serves_laidOver {external : Source} {start count available : Nat} :
    Serves (laidOver external start count available) position source ↔
      start ≤ position ∧ position < start + count ∧
        source = if position - start < available then external.advance (position - start)
          else .zeros := by
  have hfront : Serves (if 0 < count ∧ 0 < available then
        [⟨start, min count available, external⟩] else []) position source ↔
      (start ≤ position ∧ position < start + min count available) ∧
        source = external.advance (position - start) := by
    split
    · rw [serves_singleton]
      rfl
    · refine iff_of_false serves_nil ?_
      rintro ⟨⟨hlo, hhi⟩, -⟩
      omega
  have hback : Serves (if available < count then
        [⟨start + available, count - available, .zeros⟩] else []) position source ↔
      (start + available ≤ position ∧ position < start + count) ∧ source = .zeros := by
    split
    · rw [serves_singleton]
      refine and_congr ?_ Iff.rfl
      simp only [Segment.Holds, Placed.stop]
      omega
    · refine iff_of_false serves_nil ?_
      rintro ⟨⟨hlo, hhi⟩, -⟩
      omega
  rw [laidOver, serves_append, hfront, hback, ← and_assoc]
  -- the position lies in one of the two parts
  by_cases hin : position - start < available
  · have hnone : ¬ (start + available ≤ position ∧ position < start + count) := by omega
    rw [if_pos hin, or_iff_left fun h => hnone h.1]
    refine and_congr_left fun _ => ?_
    omega
  · have hnone : ¬ (start ≤ position ∧ position < start + min count available) := by omega
    rw [if_neg hin, or_iff_right fun h => hnone h.1]
    refine and_congr_left fun _ => ?_
    omega

end Parts

/-! ## Overwriting -/

namespace File.WellFormed

variable {file : File}

/-- Past the end of a file nothing is served. -/
theorem not_serves (h : file.WellFormed) {position : Int} (hposition : file.size ≤ position)
    (source : Source) : ¬ Serves file.segments position source := by
  rintro ⟨s, hs, ⟨-, hstop⟩, -⟩
  have hwithin := (h.lined.within spacing_le hs).2
  have hsize := h.natural
  omega

/-- **What serves each position once a range is laid over a file**: in front of the range what did
before, or zeros where the file had ended; then what is laid; and behind the range what did before,
unless the file ends there. -/
theorem serves_laid (h : file.WellFormed) (span : Span) (external : Source) (resize : Bool)
    {position : Int} {source : Source} :
    Serves (file.laid span external resize).segments position source ↔
      (position < span.start ∧ Serves file.segments position source) ∨
      (file.size ≤ position ∧ position < span.start ∧ source = .zeros) ∨
      (span.start ≤ position ∧ position < span.stop ∧
        source = if position - span.start < span.available then
          external.advance (position - span.start) else .zeros) ∨
      (resize = false ∧ span.stop ≤ position ∧ Serves file.segments position source) := by
  -- where something is served, there is a position of the file
  have hinside : Serves file.segments position source → 0 ≤ position ∧ position < file.size := by
    intro hserves
    refine ⟨?_, Int.not_le.mp fun hpast => h.not_serves hpast source hserves⟩
    obtain ⟨s, -, ⟨hstart, -⟩, -⟩ := hserves
    omega
  have hback : Serves (if resize then [] else window span.stop file.size.toNat file.segments)
      position source ↔
      resize = false ∧ span.stop ≤ position ∧ Serves file.segments position source := by
    cases resize with
    | true => simp
    | false =>
      simp only [Bool.false_eq_true, if_false, serves_window, true_and]
      refine and_congr_right fun _ => and_iff_right_of_imp fun hserves => ?_
      have := hinside hserves
      omega
  rw [h.segments_laid, serves_append, serves_append, serves_append, serves_window,
    serves_leadingZeros, serves_laidOver, hback, Int.toNat_of_nonneg h.natural, or_assoc, or_assoc]
  refine or_congr (and_iff_right_of_imp fun hserves => ?_) Iff.rfl
  have := hinside hserves.2
  omega

section Laid

variable {span : Span} {external : Source} {resize : Bool} {position : Int} {source : Source}

/-- Outside the range, a position that is in the file before and after is served as it was. -/
theorem serves_laid_kept (h : file.WellFormed)
    (hkept : position < min (span.start : Int) file.size ∨
      span.stop ≤ position ∧ position < (file.laid span external resize).size) :
    Serves (file.laid span external resize).segments position source ↔
      Serves file.segments position source := by
  have hrange := span.start_le_stop
  rw [h.serves_laid]
  constructor
  · rintro (⟨-, hold⟩ | ⟨hlo, hhi, -⟩ | ⟨hlo, hhi, -⟩ | ⟨-, -, hold⟩)
    · exact hold
    · omega
    · omega
    · exact hold
  · intro hold
    rcases hkept with hfront | ⟨hback, hend⟩
    · exact .inl ⟨by omega, hold⟩
    · -- a file that ends with the range has nothing behind it
      have hresize : resize = false := by
        cases resize with
        | true => exact absurd hend (Int.not_lt.mpr hback)
        | false => rfl
      exact .inr (.inr (.inr ⟨hresize, hback, hold⟩))

/-- Between the old end and the range there are zeros. -/
theorem serves_laid_gap (h : file.WellFormed) (hend : file.size ≤ position)
    (hstart : position < span.start) :
    Serves (file.laid span external resize).segments position source ↔ source = .zeros := by
  have hrange := span.start_le_stop
  have hold := h.not_serves hend source
  rw [h.serves_laid]
  constructor
  · rintro (⟨-, hserves⟩ | ⟨-, -, hzeros⟩ | ⟨hlo, -⟩ | ⟨-, -, hserves⟩)
    · exact absurd hserves hold
    · exact hzeros
    · omega
    · exact absurd hserves hold
  · exact fun hzeros => .inr (.inl ⟨hend, hstart, hzeros⟩)

/-- In the range there is what was laid over it. -/
theorem serves_laid_range (h : file.WellFormed) (hstart : span.start ≤ position)
    (hstop : position < span.stop) :
    Serves (file.laid span external resize).segments position source ↔
      source = if position - span.start < span.available then
        external.advance (position - span.start) else .zeros := by
  rw [h.serves_laid]
  constructor
  · rintro (⟨hlo, -⟩ | ⟨-, hlo, -⟩ | ⟨-, -, hsource⟩ | ⟨-, hhi, -⟩)
    · omega
    · omega
    · exact hsource
    · omega
  · exact fun hsource => .inr (.inr (.inl ⟨hstart, hstop, hsource⟩))

end Laid

end File.WellFormed

/-- An overwrite that is carried out has natural numbers and finds its external file, and lays a
range over the file. -/
theorem laid_of_overwrite {external : External} {path : String}
    {offset externalOffset length : Int} {resize : Bool} {file after : File}
    (hsize : 0 ≤ file.size)
    (h : (File.overwrite external path offset externalOffset length resize).outcome file =
      (.ok true, after)) :
    ∃ o e l externalSize : Nat, offset = o ∧ externalOffset = e ∧ length = l ∧
      (external.size? path).value = some externalSize ∧
      let span := Span.ofDirective o e l externalSize
      after = file.laid span (span.source external path).value resize := by
  by_cases hbounds : min (min offset externalOffset) length < 0
  · rw [outcome_overwrite_negative hbounds] at h
    cases h
  · obtain ⟨o, rfl⟩ := Int.eq_ofNat_of_zero_le (show 0 ≤ offset by omega)
    obtain ⟨e, rfl⟩ := Int.eq_ofNat_of_zero_le (show 0 ≤ externalOffset by omega)
    obtain ⟨l, rfl⟩ := Int.eq_ofNat_of_zero_le (show 0 ≤ length by omega)
    rw [outcome_overwrite hsize] at h
    rcases hexternal : (external.size? path).value with _ | externalSize
    · rw [hexternal] at h
      cases h
    · rw [hexternal] at h
      exact ⟨o, e, l, externalSize, rfl, rfl, rfl, rfl, (Prod.mk.inj h).2.symm⟩

/-- **Every position keeps its source or gets the one it is due.** For an overwrite of
`[offset, stop)` that is carried out on a well-formed file: in front of the range and behind it every
position of the file is served as before, by the same source from the same place on, or not at all;
between the old end and the range there are zeros; in the range there is the source that was handed
out for the external file, as far as the file goes, and then zeros; and past the new end nothing is
served. -/
theorem provenance_overwrite {external : External} {path : String}
    {offset externalOffset length : Int} {resize : Bool} {file after : File}
    (hfile : file.WellFormed)
    (h : (File.overwrite external path offset externalOffset length resize).outcome file =
      (.ok true, after)) :
    ∃ externalSize : Nat, (external.size? path).value = some externalSize ∧
      let first : Int := min externalOffset externalSize
      let stop : Int := offset + if length = 0 then externalSize - first else length
      let taken : Int := min (stop - offset) (externalSize - first)
      after.size = (if resize then stop else max file.size stop) ∧
      ∀ position source,
        (position < min offset file.size ∨ stop ≤ position ∧ position < after.size →
          (Serves after.segments position source ↔ Serves file.segments position source)) ∧
        (file.size ≤ position ∧ position < offset →
          (Serves after.segments position source ↔ source = .zeros)) ∧
        (offset ≤ position ∧ position < stop →
          (Serves after.segments position source ↔
            source = if first + (position - offset) < externalSize then
              (external.source path first taken offset).value.advance (position - offset)
              else .zeros)) ∧
        (after.size ≤ position → ¬ Serves after.segments position source) := by
  obtain ⟨o, e, l, externalSize, rfl, rfl, rfl, hexternal, hafter⟩ :=
    laid_of_overwrite hfile.natural h
  refine ⟨externalSize, hexternal, ?_⟩
  intro first stop taken
  generalize hspan : Span.ofDirective o e l externalSize = span at hafter
  obtain ⟨hstart, hfirst, havailable, hstop⟩ : span.start = o ∧ (span.externalStart : Int) = first ∧
      (span.available : Int) = externalSize - first ∧ (span.stop : Int) = stop := by
    subst hspan
    simp only [Span.ofDirective, Span.stop, first, stop, Int.natCast_eq_zero, true_and]
    refine ⟨by omega, by omega, ?_⟩
    split <;> omega
  have hsize : after.size = if resize then stop else max file.size stop := by
    have hnatural := hfile.natural
    rw [hafter, File.laid, Span.newSize]
    cases resize <;> simp only [Bool.false_eq_true, if_false, if_true] <;> omega
  subst hafter
  refine ⟨hsize, fun position source => ⟨fun hkept => ?_, fun hgap => ?_, fun hlaid => ?_, ?_⟩⟩
  · rw [← hstart, ← hstop] at hkept
    exact hfile.serves_laid_kept hkept
  · exact hfile.serves_laid_gap hgap.1 (by omega)
  · rw [hfile.serves_laid_range (by omega) (by omega), hstart]
    by_cases hin : first + (position - o) < externalSize
    · -- a range that has a byte of the external file takes something from it
      have htakes : span.takes = true := by
        simp only [Span.takes, Bool.and_eq_true, decide_eq_true_eq]
        simp only [Span.stop] at hstop
        omega
      have htaken : (↑(min span.count span.available) : Int) = taken := by
        simp only [Span.stop] at hstop
        omega
      rw [if_pos (by omega), if_pos hin, Span.source, if_pos htakes, hfirst, htaken, hstart]
    · rw [if_neg (by omega), if_neg hin]
  · exact fun hpast => (hfile.laid ..).not_serves hpast source

/-- A range in the middle of a segment from a host file that is not there, with one byte less than
it covers: what is behind it still comes from the place it came from, and the gap behind that stays
one. -/
theorem provenance_overwrite_middle :
    let shelf := External.shelf (.folder [("a", .file [7, 8, 9])]) ⟨"", ""⟩
    let file : File := ⟨"f", 12, [⟨0, 8, .file "/missing" 5⟩]⟩
    let after : File := ⟨"f", 12, [⟨0, 2, .file "/missing" 5⟩, ⟨2, 2, .buffer [7, 8, 9] 1⟩,
      ⟨4, 1, .zeros⟩, ⟨5, 3, .file "/missing" 10⟩]⟩
    file.WellFormed ∧ (File.overwrite shelf "a" 2 1 3 false).outcome file = (.ok true, after) ∧
      Serves after.segments 6 (.file "/missing" 11) ∧
      Serves after.segments 3 (.buffer [7, 8, 9] 2) ∧ Serves after.segments 4 .zeros ∧
      ∀ source, ¬ Serves after.segments 9 source := by
  intro shelf file after
  have hfile : file.WellFormed := ⟨by decide, by decide, by simp [file]⟩
  have hafter : (File.overwrite shelf "a" 2 1 3 false).outcome file = (.ok true, after) := by rfl
  have hserves : Serves file.segments 6 (.file "/missing" 11) :=
    ⟨_, List.mem_singleton.mpr rfl, by decide, by rfl⟩
  have hgap (source : Source) : ¬ Serves file.segments 9 source := by
    rintro ⟨s, hs, ⟨-, hstop⟩, -⟩
    obtain rfl := List.mem_singleton.mp hs
    exact absurd hstop (by decide)
  obtain ⟨externalSize, hsize, -, hpositions⟩ := provenance_overwrite hfile hafter
  obtain rfl : 3 = externalSize := Option.some.inj hsize
  refine ⟨hfile, hafter, ((hpositions 6 _).1 (by decide)).mpr hserves,
    ((hpositions 3 _).2.2.1 (by decide)).mpr (by rfl),
    ((hpositions 4 _).2.2.1 (by decide)).mpr (by rfl), fun source => ?_⟩
  exact mt ((hpositions 9 source).1 (by decide)).mp (hgap source)

end DiscPatch
