import DiscPatch.External.Shelf
import DiscPatch.Patch.Compose
import DiscPatch.Proofs.Content.Spacing
import DiscPatch.Proofs.Edit
import Mathlib.Data.List.Basic

/-!
# Files stay well formed

* `File.WellFormed` — the segments stand in line within the size, and none is empty;
* `File.Covered` — every position below the size is served;
* `Segment.IsPart`, `isPart_of_mem_lay` — where the segments of an overwritten file come from: each
  is a part of an old segment, of a laid one, or of the zeros that lead up to the range;
* `Call`, `afterCalls` — any run of overwrites, whether they succeed, find nothing or are refused;
* `Call.span?` — the range that a call covers, if it is carried out at all.

An overwrite changes a file in one way only (`File.overwrite_leaves`): it lays a range over it. All
that is kept by laying a range is kept by every run (`afterCalls_keeps`).
-/

namespace DiscPatch

open Edit

/-! ## What an overwrite leaves -/

/-- The file with a range laid over it. -/
def File.laid (file : File) (span : Span) (source : Source) (resize : Bool) : File :=
  { file with
    size := (span.newSize resize file.size.toNat : Int)
    segments := span.lay source resize file.size.toNat file.segments }

/-- What an overwrite with natural bounds answers and leaves. -/
theorem outcome_overwrite {external : External} {path : String} {offset externalOffset length : Nat}
    {resize : Bool} {file : File} (hsize : 0 ≤ file.size) :
    (File.overwrite external path offset externalOffset length resize).outcome file =
      match (external.size? path).value with
      | none => (.ok false, file)
      | some externalSize =>
        let span := Span.ofDirective offset externalOffset length externalSize
        (.ok true, file.laid span (span.source external path).value resize) := by
  have hbounds : ¬ min (min (offset : Int) externalOffset) length < 0 := by omega
  have hnatural : ¬ file.size < 0 := by omega
  rw [File.overwrite, if_neg hbounds, outcome_bind_ok (outcome_fromLogged _ file)]
  rcases (external.size? path).value with _ | externalSize
  · rfl
  · rw [outcome_bind_ok (outcome_get file), if_neg hnatural]
    simp only [Int.toNat_natCast]
    rfl

theorem outcome_overwrite_negative {external : External} {path : String}
    {offset externalOffset length : Int} {resize : Bool} {file : File}
    (h : min (min offset externalOffset) length < 0) :
    (File.overwrite external path offset externalOffset length resize).outcome file =
      (.error (.negativeBounds offset externalOffset length), file) := by
  rw [File.overwrite, if_pos h]
  rfl

theorem outcome_overwrite_negative_size {external : External} {path : String}
    {offset externalOffset length : Int} {resize : Bool} {file : File} (hsize : file.size < 0) :
    ((File.overwrite external path offset externalOffset length resize).outcome file).2 = file := by
  rw [File.overwrite]
  split
  · rfl
  · rw [outcome_bind_ok (outcome_fromLogged _ file)]
    rcases (external.size? path).value with _ | externalSize
    · rfl
    · rw [outcome_bind_ok (outcome_get file), if_pos hsize]
      rfl

/-- Whatever its bounds, an overwrite leaves a file as it is or lays a range over it. -/
theorem File.overwrite_leaves (external : External) (path : String)
    (offset externalOffset length : Int) (resize : Bool) (file : File) :
    ((File.overwrite external path offset externalOffset length resize).outcome file).2 = file ∨
      ∃ span source kept,
        ((File.overwrite external path offset externalOffset length resize).outcome file).2 =
          file.laid span source kept := by
  by_cases hbounds : min (min offset externalOffset) length < 0
  · rw [outcome_overwrite_negative hbounds]
    exact .inl rfl
  by_cases hsize : file.size < 0
  · exact .inl (outcome_overwrite_negative_size hsize)
  · obtain ⟨o, rfl⟩ := Int.eq_ofNat_of_zero_le (show 0 ≤ offset by omega)
    obtain ⟨e, rfl⟩ := Int.eq_ofNat_of_zero_le (show 0 ≤ externalOffset by omega)
    obtain ⟨l, rfl⟩ := Int.eq_ofNat_of_zero_le (show 0 ≤ length by omega)
    rw [outcome_overwrite (Int.not_lt.mp hsize)]
    rcases (external.size? path).value with _ | externalSize
    · exact .inl rfl
    · exact .inr ⟨_, _, resize, rfl⟩

theorem File.name_applyDirective (external : External) (directive : FileDirective) (file : File) :
    ((File.applyDirective external directive).outcome file).2.name = file.name := by
  rcases File.overwrite_leaves external directive.external (wordStart directive.offset)
    directive.fileOffset directive.length directive.resize file with hsame | ⟨_, _, _, hlaid⟩
  · rw [File.applyDirective, hsame]
  · rw [File.applyDirective, hlaid]
    rfl

/-! ## Runs of overwrites -/

/-- A request to lay an external file over a file, with all its numbers or as a directive says. -/
inductive Call where
  /-- with all its numbers -/
  | overwrite (external : External) (path : String) (offset externalOffset length : Int)
    (resize : Bool)
  /-- as a directive says -/
  | directive (external : External) (order : FileDirective)

/-- The edit that a call asks for. -/
def Call.edit : Call → Edit File Bool
  | .overwrite external path offset externalOffset length resize =>
    File.overwrite external path offset externalOffset length resize
  | .directive external order => File.applyDirective external order

/-- The file after a call, whether it succeeds or not. -/
def Call.after (call : Call) (file : File) : File :=
  (call.edit.outcome file).2

/-- The file after a run of calls; a call that fails does not stop the others. -/
def afterCalls : File → List Call → File :=
  List.foldl fun file call => call.after file

/-- A call leaves a file as it is or lays a range over it. -/
theorem Call.leaves (call : Call) (file : File) :
    call.after file = file ∨
      ∃ span source resize, call.after file = file.laid span source resize := by
  cases call with
  | overwrite => exact File.overwrite_leaves ..
  | directive => exact File.overwrite_leaves ..

/-- **What laying a range keeps, every run keeps.** -/
theorem afterCalls_keeps {P : File → Prop}
    (hlaid : ∀ {file} (span : Span) (source : Source) (resize : Bool),
      P file → P (file.laid span source resize))
    {file : File} (h : P file) (calls : List Call) : P (afterCalls file calls) := by
  induction calls generalizing file with
  | nil => exact h
  | cons call rest ih =>
    change P (afterCalls (call.after file) rest)
    refine ih ?_
    rcases call.leaves file with hsame | ⟨span, source, resize, hlay⟩
    · rw [hsame]
      exact h
    · rw [hlay]
      exact hlaid span source resize h

/-! ## What an overwrite covers -/

/-- The range that an overwrite covers; `none` if a number is negative or the external file is
missing. -/
def coveredSpan? (external : External) (path : String) (offset externalOffset length : Int) :
    Option Span :=
  if min (min offset externalOffset) length < 0 then none
  else (external.size? path).value.map
    (Span.ofDirective offset.toNat externalOffset.toNat length.toNat)

section Covering

variable {external : External} {path : String} {offset externalOffset length : Int} {resize : Bool}

/-- An overwrite that covers a range lays one source over it, whatever the file. -/
theorem exists_source_of_coveredSpan? {span : Span}
    (h : coveredSpan? external path offset externalOffset length = some span) :
    ∃ source, ∀ file : File, 0 ≤ file.size →
      (File.overwrite external path offset externalOffset length resize).outcome file =
        (.ok true, file.laid span source resize) := by
  unfold coveredSpan? at h
  split at h
  · cases h
  · obtain ⟨externalSize, hexternal, rfl⟩ := Option.map_eq_some_iff.mp h
    obtain ⟨o, rfl⟩ := Int.eq_ofNat_of_zero_le (show 0 ≤ offset by omega)
    obtain ⟨e, rfl⟩ := Int.eq_ofNat_of_zero_le (show 0 ≤ externalOffset by omega)
    obtain ⟨l, rfl⟩ := Int.eq_ofNat_of_zero_le (show 0 ≤ length by omega)
    refine ⟨((Span.ofDirective o e l externalSize).source external path).value,
      fun file hsize => ?_⟩
    rw [outcome_overwrite hsize, hexternal]
    rfl

/-- An overwrite that covers no range gives one answer, whatever the file, and leaves the file as it
is. -/
theorem exists_answer_of_coveredSpan?
    (h : coveredSpan? external path offset externalOffset length = none) :
    ∃ answer, ∀ file : File, 0 ≤ file.size →
      (File.overwrite external path offset externalOffset length resize).outcome file =
        (answer, file) := by
  unfold coveredSpan? at h
  split at h
  · next hbounds => exact ⟨_, fun file _ => outcome_overwrite_negative hbounds⟩
  · obtain ⟨o, rfl⟩ := Int.eq_ofNat_of_zero_le (show 0 ≤ offset by omega)
    obtain ⟨e, rfl⟩ := Int.eq_ofNat_of_zero_le (show 0 ≤ externalOffset by omega)
    obtain ⟨l, rfl⟩ := Int.eq_ofNat_of_zero_le (show 0 ≤ length by omega)
    refine ⟨.ok false, fun file hsize => ?_⟩
    rw [outcome_overwrite hsize, Option.map_eq_none_iff.mp h]

end Covering

namespace Call

/-- The range that a call covers; `none` if a number is negative or the external file is missing. -/
def span? : Call → Option Span
  | .overwrite external path offset externalOffset length _ =>
    coveredSpan? external path offset externalOffset length
  | .directive external order =>
    coveredSpan? external order.external (wordStart order.offset) order.fileOffset order.length

/-- Whether a call ends the file where its range ends. -/
def resizes : Call → Bool
  | .overwrite _ _ _ _ _ resize => resize
  | .directive _ order => order.resize

/-- A call that covers a range lays one source over it, whatever the file. -/
theorem exists_source {call : Call} {span : Span} (h : call.span? = some span) :
    ∃ source, ∀ file : File, 0 ≤ file.size →
      call.edit.outcome file = (.ok true, file.laid span source call.resizes) := by
  cases call with
  | overwrite => exact exists_source_of_coveredSpan? h
  | directive => exact exists_source_of_coveredSpan? h

/-- A call that covers no range gives one answer, whatever the file, and leaves the file as it
is. -/
theorem exists_answer {call : Call} (h : call.span? = none) :
    ∃ answer, ∀ file : File, 0 ≤ file.size → call.edit.outcome file = (answer, file) := by
  cases call with
  | overwrite => exact exists_answer_of_coveredSpan? h
  | directive => exact exists_answer_of_coveredSpan? h

end Call

/-! ## Where segments come from -/

/-- The first segment serves some of the positions of the second one, with the same bytes. -/
structure Segment.IsPart (part whole : Segment) : Prop where
  /-- it starts within the other -/
  start : whole.offset ≤ part.offset
  /-- it ends within the other -/
  stop : part.stop ≤ whole.stop
  /-- it takes the bytes that the other has there -/
  source : part.source = whole.source.advance ↑(part.offset - whole.offset)
  /-- only an empty segment has an empty part -/
  positive : 0 < whole.size → 0 < part.size

namespace Segment.IsPart

theorem refl (segment : Segment) : segment.IsPart segment where
  start := Nat.le_refl _
  stop := Nat.le_refl _
  source := by simp
  positive := id

theorem trans {a b c : Segment} (hab : a.IsPart b) (hbc : b.IsPart c) : a.IsPart c where
  start := Nat.le_trans hbc.start hab.start
  stop := Nat.le_trans hab.stop hbc.stop
  source := by
    have hstart := hab.start
    have hstart' := hbc.start
    rw [hab.source, hbc.source, Source.advance_advance]
    congr 1
    omega
  positive := fun h => hab.positive (hbc.positive h)

theorem of_mem_cut {point : Nat} {segment part : Segment} (h : part ∈ cut point segment) :
    part.IsPart segment := by
  rcases mem_cut h with rfl | ⟨hlo, hhi, rfl | rfl⟩
  · exact refl part
  · have hstop := stop_before hlo
    exact ⟨Nat.le_refl _, by omega, by simp [before], fun _ => by simp only [before]; omega⟩
  · have hstop := stop_after hhi
    exact ⟨Nat.le_of_lt hlo, by omega, rfl, fun _ => by simp only [after]; omega⟩

theorem of_mem_cutAtBounds {start stop : Nat} {segments : List Segment} {part : Segment}
    (h : part ∈ cutAtBounds start stop segments) : ∃ s ∈ segments, part.IsPart s := by
  obtain ⟨piece, hpiece, hpart⟩ := List.mem_flatMap.mp h
  obtain ⟨segment, hsegment, hcut⟩ := List.mem_flatMap.mp hpiece
  exact ⟨segment, hsegment, (of_mem_cut hpart).trans (of_mem_cut hcut)⟩

theorem of_mem_trimTo {size : Nat} {segments : List Segment} {part : Segment}
    (h : part ∈ trimTo size segments) : ∃ s ∈ segments, part.IsPart s := by
  induction segments with
  | nil => cases h
  | cons segment rest ih =>
    have hself : segment ∈ segment :: rest := List.mem_cons_self ..
    unfold trimTo at h
    split at h
    · split at h
      · cases h
      · next hin =>
        split at h
        · next hlong =>
          obtain rfl := List.mem_singleton.mp h
          refine ⟨segment, hself, Nat.le_refl _, ?_, by simp, fun _ => ?_⟩
          · simp only [Placed.stop] at *
            omega
          · show 0 < size - segment.offset
            omega
        · obtain rfl := List.mem_singleton.mp h
          exact ⟨part, hself, refl part⟩
    · rcases List.mem_cons.mp h with rfl | h
      · exact ⟨part, hself, refl part⟩
      · obtain ⟨s, hs, hpart⟩ := ih h
        exact ⟨s, List.mem_cons_of_mem _ hs, hpart⟩

end Segment.IsPart

theorem isPart_of_mem_around {size start stop : Nat} {segments : List Segment} {part : Segment}
    (h : part ∈ (around size start stop segments).1 ∨ part ∈ (around size start stop segments).2) :
    ∃ s ∈ segments ++ leadingZeros size start, part.IsPart s := by
  have hold : part ∈ cutAtBounds start stop segments →
      ∃ s ∈ segments ++ leadingZeros size start, part.IsPart s := by
    intro hcut
    obtain ⟨s, hs, hpart⟩ := Segment.IsPart.of_mem_cutAtBounds hcut
    exact ⟨s, List.mem_append_left _ hs, hpart⟩
  rcases Nat.lt_or_ge start size with hinside | hpast
  · rw [around_of_lt hinside] at h
    rcases h with h | h
    · exact hold ((List.takeWhile_prefix _).subset h)
    · exact hold ((List.dropWhile_suffix _).subset ((List.dropWhile_suffix _).subset h))
  · rw [around_of_le hpast] at h
    rcases h with h | h
    · exact ⟨part, h, .refl part⟩
    · cases h

/-- **Where segments come from**: every segment of an overwritten file is a part of a segment it had
before, of the zeros that lead up to the range, or of what was laid over the range. -/
theorem isPart_of_mem_lay {span : Span} {source : Source} {resize : Bool} {size : Nat}
    {segments : List Segment} {part : Segment}
    (h : part ∈ span.lay source resize size segments) :
    ∃ s ∈ segments ++ leadingZeros size span.start ++
      laidOver source span.start span.count span.available, part.IsPart s := by
  obtain ⟨piece, hpiece, hpart⟩ := Segment.IsPart.of_mem_trimTo h
  have hplace : (piece ∈ (around size span.start span.stop segments).1 ∨
      piece ∈ (around size span.start span.stop segments).2) ∨
      piece ∈ laidOver source span.start span.count span.available := by
    simp only [List.mem_append] at hpiece
    rcases hpiece with (hfront | hlaid) | hback
    · exact .inl (.inl hfront)
    · exact .inr hlaid
    · exact .inl (.inr hback)
  rcases hplace with haround | hlaid
  · obtain ⟨s, hs, hpiece⟩ := isPart_of_mem_around haround
    exact ⟨s, List.mem_append_left _ hs, hpart.trans hpiece⟩
  · exact ⟨piece, List.mem_append_right _ hlaid, hpart⟩

theorem positive_of_mem_leadingZeros {size start : Nat} {s : Segment}
    (h : s ∈ leadingZeros size start) : 0 < s.size := by
  unfold leadingZeros at h
  split at h
  · obtain rfl := List.mem_singleton.mp h
    show 0 < start - size
    omega
  · cases h

theorem positive_of_mem_laidOver {source : Source} {start count available : Nat} {s : Segment}
    (h : s ∈ laidOver source start count available) : 0 < s.size := by
  rcases List.mem_append.mp h with h | h
  · split at h
    · obtain rfl := List.mem_singleton.mp h
      show 0 < min count available
      omega
    · cases h
  · split at h
    · obtain rfl := List.mem_singleton.mp h
      show 0 < count - available
      omega
    · cases h

/-! ## Freezing -/

theorem sortByStop_of_pairwise {segments : List Segment}
    (h : segments.Pairwise fun a b => a.stop ≤ b.offset) : sortByStop segments = segments := by
  induction segments with
  | nil => rfl
  | cons segment rest ih =>
    obtain ⟨hfirst, hrest⟩ := List.pairwise_cons.mp h
    rw [sortByStop, ih hrest]
    cases rest with
    | nil => rfl
    | cons next others =>
      have hle := hfirst next (List.mem_cons_self ..)
      have hnext := next.offset_le_stop
      rw [insertByStop, if_pos (by omega)]

theorem overlap?_of_pairwise {segments : List Segment}
    (h : segments.Pairwise fun a b => a.stop ≤ b.offset) : overlap? segments = none := by
  fun_induction overlap? segments with
  | case1 => rfl
  | case2 segment => rfl
  | case3 first second rest hlt =>
    have := (List.pairwise_cons.mp h).1 second (List.mem_cons_self ..)
    omega
  | case4 first second rest hge ih => exact ih (List.pairwise_cons.mp h).2

/-- Segments in line make a layout of those among them that are not empty. -/
theorem Layout.ofSegments_of_pairwise {segments : List Segment}
    (h : segments.Pairwise fun a b => a.stop ≤ b.offset) :
    ∃ layout, Layout.ofSegments segments = .ok layout ∧
      layout.segments = segments.filter (0 < ·.size) := by
  have hkept := h.filter (0 < ·.size)
  have hsorted := sortByStop_of_pairwise hkept
  have hnone : overlap? (sortByStop (segments.filter (0 < ·.size))) = none := by
    rw [hsorted]
    exact overlap?_of_pairwise hkept
  simp only [Layout.ofSegments]
  split
  · next first second hsome =>
    rw [hnone] at hsome
    cases hsome
  · exact ⟨_, rfl, hsorted⟩

/-- A segment that ends within the size is not clipped, and dropped only if it is empty. -/
theorem Segment.clip?_of_le {segment : Segment} {size : Nat} (h : segment.stop ≤ size) :
    Segment.clip? size segment = if 0 < segment.size then some segment else none := by
  have hmin : min (segment.stop : Int) size = segment.offset + segment.size := by
    simp only [Placed.stop] at *
    omega
  unfold Segment.clip?
  rw [hmin]
  split
  · rw [if_neg (by omega)]
  · rw [if_pos (by omega)]
    congr 2
    omega

/-- Segments with natural numbers are not refused. -/
theorem Segment.checked_natCast (offset size : Nat) (source : Source) :
    Segment.checked offset size source = .ok ⟨offset, size, source⟩ := by
  have hnatural (field : String) (n : Nat) : Segment.negativeFlaw field n = [] :=
    if_neg (by omega)
  rw [Segment.checked, hnatural, hnatural]
  rfl

theorem Segment.moved_zero (segment : Segment) : segment.moved 0 = .ok segment := by
  rw [Segment.moved, Int.add_zero, Segment.checked_natCast]

/-- Freezing clips the segments and puts them in order. -/
theorem File.freeze_zero (file : File) :
    file.freeze 0 = Layout.ofSegments (file.segments.filterMap (Segment.clip? file.size)) := by
  have hmoved : Segment.moved 0 = (pure : Segment → Except Error Segment) :=
    funext Segment.moved_zero
  unfold File.freeze
  rw [hmoved, List.mapM_pure, List.map_id', pure_bind]

/-- A file whose segments stand in line within its size freezes to those that are not empty. -/
theorem File.freeze_of_linedUp {file : File} (hsize : 0 ≤ file.size)
    (h : LinedUp (· ≤ ·) 0 file.segments file.size.toNat) :
    ∃ layout, file.freeze 0 = .ok layout ∧
      layout.segments = file.segments.filter (0 < ·.size) := by
  have hclip : file.segments.filterMap (Segment.clip? file.size) =
      file.segments.filter (0 < ·.size) := by
    rw [← List.filterMap_eq_filter]
    refine List.filterMap_congr fun segment hsegment => ?_
    have hstop := (h.within spacing_le hsegment).2
    rw [← Int.toNat_of_nonneg hsize, Segment.clip?_of_le hstop]
    simp [Option.guard]
  obtain ⟨layout, hlayout, hsegments⟩ := Layout.ofSegments_of_pairwise
    ((h.pairwise spacing_le).filter (0 < ·.size))
  refine ⟨layout, ?_, by rw [hsegments, List.filter_filter]; simp⟩
  rw [file.freeze_zero, hclip, hlayout]

/-! ## The invariant -/

/-- The segments of a file stand in line within its size, and none is empty. -/
structure File.WellFormed (file : File) : Prop where
  /-- the size is natural -/
  natural : 0 ≤ file.size
  /-- each segment starts where the one before it ends or later, and the last ends within the
  size -/
  lined : LinedUp (· ≤ ·) 0 file.segments file.size.toNat
  /-- no segment is empty -/
  positive : ∀ segment ∈ file.segments, 0 < segment.size

/-- Every position below the size is served by some segment. -/
def File.Covered (file : File) : Prop :=
  ∀ i : Nat, i < file.size → ∃ s ∈ file.segments, s.offset ≤ i ∧ i < s.stop

theorem File.WellFormed.laid {file : File} (h : file.WellFormed) (span : Span) (source : Source)
    (resize : Bool) : (file.laid span source resize).WellFormed where
  natural := Int.natCast_nonneg _
  lined := h.lined.lay spacing_le span source resize
  positive := by
    intro segment hsegment
    obtain ⟨s, hs, hpart⟩ := isPart_of_mem_lay hsegment
    refine hpart.positive ?_
    simp only [List.mem_append] at hs
    rcases hs with (hold | hzeros) | hlaid
    · exact h.positive s hold
    · exact positive_of_mem_leadingZeros hzeros
    · exact positive_of_mem_laidOver hlaid

/-- A file is covered if and only if its segments follow one another without a gap. -/
theorem File.WellFormed.covered_iff {file : File} (h : file.WellFormed) :
    file.Covered ↔ LinedUp (· = ·) 0 file.segments file.size.toNat := by
  constructor
  · intro hcovered
    refine h.lined.eq_of_covers fun i _ hi => hcovered i ?_
    exact Int.lt_toNat.mp hi
  · intro hlined i hi
    exact hlined.covers (Nat.zero_le i) (Int.lt_toNat.mpr hi)

/-- **Files stay well formed**: after any run of overwrites, whatever their numbers and whatever
external files they find, a well-formed file is well formed and can be frozen as it is; if it was
covered before the run, it still is. -/
theorem wellFormed_afterCalls {file : File} (h : file.WellFormed) (calls : List Call) :
    (afterCalls file calls).WellFormed ∧
      (file.Covered → (afterCalls file calls).Covered) ∧
      ∃ layout, (afterCalls file calls).freeze 0 = .ok layout ∧
        layout.segments = (afterCalls file calls).segments := by
  have hafter : (afterCalls file calls).WellFormed :=
    afterCalls_keeps (fun span source resize h => h.laid span source resize) h calls
  refine ⟨hafter, fun hcovered => ?_, ?_⟩
  · -- being covered is kept as a line without gaps, which laying a range gives back
    have hkept : (afterCalls file calls).WellFormed ∧
        LinedUp (· = ·) 0 (afterCalls file calls).segments (afterCalls file calls).size.toNat := by
      refine afterCalls_keeps (P := fun file => file.WellFormed ∧
        LinedUp (· = ·) 0 file.segments file.size.toNat) ?_
        ⟨h, h.covered_iff.mp hcovered⟩ calls
      intro file span source resize h
      exact ⟨h.1.laid span source resize, h.2.lay spacing_eq span source resize⟩
    exact hafter.covered_iff.mpr hkept.2
  · obtain ⟨layout, hlayout, hsegments⟩ := File.freeze_of_linedUp hafter.natural hafter.lined
    refine ⟨layout, hlayout, ?_⟩
    rw [hsegments, List.filter_eq_self]
    intro segment hsegment
    simpa using hafter.positive segment hsegment

/-- A file with a gap, after an overwrite across the gap, one past the end, one with a negative
length and one that shortens the file. -/
theorem wellFormed_afterCalls_gap :
    let shelf := External.shelf (.folder [("a", .file [1, 2, 3])]) ⟨"", ""⟩
    let file : File := ⟨"f", 10, [⟨0, 4, .fill 7⟩, ⟨6, 4, .buffer [4, 5, 6, 7] 0⟩]⟩
    let calls : List Call := [.overwrite shelf "a" 3 1 5 false, .overwrite shelf "a" 12 0 0 false,
      .overwrite shelf "a" 0 0 (-1) true, .overwrite shelf "a" 5 0 0 true]
    file.WellFormed ∧ (afterCalls file calls).WellFormed :=
  have h : File.WellFormed ⟨"f", 10, [⟨0, 4, .fill 7⟩, ⟨6, 4, .buffer [4, 5, 6, 7] 0⟩]⟩ :=
    ⟨by decide, by decide, by simp⟩
  ⟨h, (wellFormed_afterCalls h _).1⟩

end DiscPatch
