import DiscPatch.Proofs.Content.Assembly
import DiscPatch.Proofs.Content.Pointwise

/-!
# Freezing a file

A file is frozen in two moves: its segments are cut at its size, and all of them are moved on by a
base. Each move can be made on the layout of the whole segments as well, and neither changes what a
read asks the sources for: it goes through the same segments, at the same places in them.

* `Layout.upTo` — a layout cut at a position. `readRun_window` says that a run in front of the cut
  does not notice it, errors included;
* `Layout.movedBy` — a layout whose segments all start later;
* `Layout.ofSegments_segments` — the segments of a layout are laid out as they stand;
* `File.freeze_of_ofSegments` — freezing a file cuts and moves the layout of its segments;
* `File.read_freeze` — so a frozen file can be read exactly where its segments can, as far as its
  size goes, and gives the same bytes.
-/

namespace DiscPatch

open DiscPatch.Host (FileSystem)

variable {fs : FileSystem} {length offset : Int} {segments : List Segment}

/-! ## Cutting -/

namespace Segment

variable {size : Nat} {segment : Segment}

theorem stop_upTo (h : segment.offset < size) :
    (segment.upTo size).stop = min size segment.stop := by
  simp only [upTo, Placed.stop]
  omega

/-- In front of a position that it starts before, a segment shows what is left of it. -/
theorem window?_zero_of_lt (hpositive : 0 < segment.size) (h : segment.offset < size) :
    segment.window? 0 size = some (segment.upTo size) := by
  have hstop : segment.stop = segment.offset + segment.size := rfl
  rw [window?_of_lt (by omega)]
  simp only [Nat.zero_max, Nat.sub_self, Int.natCast_zero, Source.advance_zero, upTo,
    Option.some.injEq, Placed.mk.injEq, true_and, and_true]
  omega

theorem positive_of_window? {lo hi : Nat} {part : Segment}
    (h : segment.window? lo hi = some part) : 0 < part.size := by
  rw [window?] at h
  split at h
  · next hseen =>
    cases h
    exact Nat.sub_pos_of_lt hseen
  · cases h

/-- A size may be negative: then nothing is left, as with size 0. -/
theorem clip?_eq_window?_toNat (size : Int) (segment : Segment) :
    segment.clip? size = segment.window? 0 size.toNat := by
  rcases Int.lt_or_le size 0 with hnegative | hnatural
  · rw [window?_eq_none (by omega), clip?, if_pos (by omega)]
  · rw [← clip?_eq_window?, Int.toNat_of_nonneg hnatural]

end Segment

theorem window_filter_positive (lo hi : Nat) (segments : List Segment) :
    window lo hi (segments.filter (0 < ·.size)) = window lo hi segments := by
  rw [window, List.filterMap_filter]
  refine List.filterMap_congr fun segment _ => ?_
  split
  · rfl
  · next hempty =>
    have hzero : segment.size = 0 := by simpa using hempty
    refine (Segment.window?_eq_none ?_).symm
    simp only [Placed.stop]
    omega

/-- **A run in front of a cut does not notice it.** -/
theorem readRun_window {size : Nat} (hpositive : ∀ s ∈ segments, 0 < s.size)
    (hordered : segments.Pairwise fun a b => a.stop ≤ b.offset) {position count : Nat}
    (h : position + count ≤ size) :
    readRun fs length offset (window 0 size segments) position count =
      readRun fs length offset segments position count := by
  induction segments generalizing position count with
  | nil => rfl
  | cons segment others ih =>
    obtain ⟨hsegment, hothers⟩ := List.forall_mem_cons.mp hpositive
    obtain ⟨hafter, hrest⟩ := List.pairwise_cons.mp hordered
    rcases Nat.eq_zero_or_pos count with rfl | hcount
    · rw [readRun_zero, readRun_zero]
    rcases Nat.lt_or_ge segment.offset size with hstart | hstart
    · have hstop := Segment.stop_upTo hstart
      have hchunk : min count (min size segment.stop - position) =
          min count (segment.stop - position) := by omega
      rw [window_cons, Segment.window?_zero_of_lt hsegment hstart, Option.toList_some,
        List.singleton_append, readRun_cons hcount, readRun_cons hcount, hstop, hchunk,
        ih hothers hrest h, ih hothers hrest (by omega)]
      exact if_congr (by omega) rfl rfl
    · -- nothing is left of the segments, and the run would have stopped at the first of them
      have hnone : window 0 size (segment :: others) = [] := by
        refine window_eq_nil fun s hs _ => .inr ?_
        rcases List.mem_cons.mp hs with rfl | hs
        · exact hstart
        · have := hafter s hs
          have := segment.offset_le_stop
          omega
      have hbefore := segment.offset_le_stop
      rw [hnone, readRun, if_neg (by omega), readRun_cons hcount, if_neg (by omega),
        if_pos (by omega)]

namespace Layout

variable {layout : Layout}

theorem inOrder (layout : Layout) : InOrder layout.segments := by
  refine List.Pairwise.imp ?_ layout.ordered
  intro a b hle _
  exact hle

/-- The part of a layout in front of a position. -/
def upTo (layout : Layout) (size : Nat) : Layout where
  segments := window 0 size layout.segments
  positive := fun segment hsegment => by
    obtain ⟨whole, -, hpart⟩ := List.mem_filterMap.mp hsegment
    exact Segment.positive_of_window? hpart
  ordered := (layout.inOrder.linedUp_window (Nat.zero_le size)).pairwise spacing_le

theorem stop_le_of_mem_upTo {size : Nat} {segment : Segment}
    (h : segment ∈ (layout.upTo size).segments) : segment.stop ≤ size := by
  obtain ⟨whole, hwhole, hpart⟩ := List.mem_filterMap.mp h
  have hpositive := layout.positive whole hwhole
  rcases Nat.lt_or_ge whole.offset size with hstart | hstart
  · rw [Segment.window?_zero_of_lt hpositive hstart] at hpart
    cases hpart
    rw [Segment.stop_upTo hstart]
    exact Nat.min_le_left ..
  · rw [Segment.window?_eq_none (by omega)] at hpart
    cases hpart

/-- **What is left of a layout can be read up to the cut**, and gives the same. -/
theorem read_upTo_eq_ok_iff {size start count : Nat} {bytes : Bytes} :
    (layout.upTo size).read fs start count = .ok bytes ↔
      (count = 0 ∨ start + count ≤ size) ∧ layout.read fs start count = .ok bytes := by
  simp only [read_eq_ok_iff, Int.natCast_nonneg, true_and, Int.toNat_natCast]
  rcases Nat.eq_zero_or_pos count with rfl | hcount
  · simp only [readRun_zero, true_or, true_and]
  have hsame (h : start + count ≤ size) :
      readRun fs count start (layout.upTo size).segments start count =
        readRun fs count start layout.segments start count :=
    readRun_window layout.positive layout.ordered h
  constructor
  · intro hrun
    have hend := stop_le_of_readRun hcount hrun fun _ => stop_le_of_mem_upTo
    exact ⟨.inr hend, by rwa [hsame hend] at hrun⟩
  · rintro ⟨hzero | hend, hrun⟩
    · omega
    · rwa [hsame hend]

end Layout

/-! ## Moving -/

/-- A segment moved on by `base`. -/
def Segment.movedBy (base : Nat) (segment : Segment) : Segment :=
  ⟨base + segment.offset, segment.size, segment.source⟩

theorem Segment.stop_movedBy (base : Nat) (segment : Segment) :
    (segment.movedBy base).stop = base + segment.stop :=
  Nat.add_assoc ..

theorem Segment.moved_natCast (base : Nat) (segment : Segment) :
    segment.moved base = .ok (segment.movedBy base) := by
  rw [Segment.moved, ← Int.natCast_add, Segment.checked_natCast, Nat.add_comm]
  rfl

/-- A run through moved segments gives what the run gives where they were, wherever the reads begin
that the two are part of. -/
theorem readRun_movedBy_eq_ok_iff {base position count : Nat} {offset' : Int} {bytes : Bytes} :
    readRun fs length offset (segments.map (Segment.movedBy base)) (base + position) count =
        .ok bytes ↔
      readRun fs length offset' segments position count = .ok bytes := by
  induction segments generalizing position count bytes with
  | nil =>
    rw [List.map_nil, readRun, readRun]
    split <;> simp
  | cons segment others ih =>
    rcases Nat.eq_zero_or_pos count with rfl | hcount
    · rw [readRun_zero, readRun_zero]
    have hdelta : ((base + position : Nat) : Int) - (segment.movedBy base).offset =
        position - segment.offset := by
      simp only [Segment.movedBy]
      omega
    rw [List.map_cons, readRun_cons_eq_ok_iff hcount, readRun_cons_eq_ok_iff hcount,
      Segment.stop_movedBy, hdelta, Nat.add_sub_add_left, Nat.add_assoc]
    simp only [Nat.add_le_add_iff_left, Nat.add_lt_add_iff_left, Segment.movedBy, ih]

namespace Layout

variable {layout : Layout}

/-- A layout with all its segments moved on by `base`. -/
def movedBy (layout : Layout) (base : Nat) : Layout where
  segments := layout.segments.map (Segment.movedBy base)
  positive := List.forall_mem_map.mpr layout.positive
  ordered := by
    refine List.pairwise_map.mpr (layout.ordered.imp fun hle => ?_)
    rw [Segment.stop_movedBy]
    exact Nat.add_le_add_left hle base

/-- **A moved layout is read where it stands now**, and gives the same. -/
theorem read_movedBy_eq_ok_iff {base start count : Nat} {bytes : Bytes} :
    (layout.movedBy base).read fs (base + start) count = .ok bytes ↔
      layout.read fs start count = .ok bytes := by
  rw [← Int.natCast_add]
  simp only [read_eq_ok_iff, Int.natCast_nonneg, true_and, Int.toNat_natCast]
  exact readRun_movedBy_eq_ok_iff

/-! ## Freezing -/

/-- The segments of a layout are laid out as they stand. -/
theorem ofSegments_segments (layout : Layout) : ofSegments layout.segments = .ok layout := by
  obtain ⟨other, hother, hsegments⟩ := ofSegments_of_pairwise layout.ordered
  have hkept : layout.segments.filter (0 < ·.size) = layout.segments :=
    List.filter_eq_self.mpr fun s hs => decide_eq_true (layout.positive s hs)
  rw [hother, eq_of_perm (.of_eq (hsegments.trans hkept))]

end Layout

theorem File.freeze_natCast (file : File) (base : Nat) :
    file.freeze base = Layout.ofSegments
      ((window 0 file.size.toNat file.segments).map (Segment.movedBy base)) := by
  have hclip : Segment.clip? file.size = Segment.window? 0 file.size.toNat :=
    funext (Segment.clip?_eq_window?_toNat file.size)
  have hmoved : Segment.moved base = fun segment => pure (segment.movedBy base) :=
    funext (Segment.moved_natCast base)
  rw [File.freeze, hclip, hmoved, List.mapM_pure, pure_bind]
  rfl

/-- **Freezing cuts and moves** the layout of the segments. -/
theorem File.freeze_of_ofSegments {file : File} {whole : Layout}
    (h : Layout.ofSegments file.segments = .ok whole) (base : Nat) :
    file.freeze base = .ok ((whole.upTo file.size.toNat).movedBy base) := by
  rw [file.freeze_natCast]
  refine Layout.ofSegments_perm (Layout.ofSegments_segments _) (List.Perm.map _ ?_)
  rw [← window_filter_positive]
  exact ((Layout.perm_of_ofSegments h).filterMap _).symm

/-- **Freezing changes where content stands and where it ends, not what it is.** A file whose
segments share no position can be frozen at any base, and its segments can be laid out. A read of
the frozen file gives some bytes exactly if it does not go past the size of the file and the same
read of the segments gives these bytes. -/
theorem File.read_freeze (file : File) (h : ¬ SharePosition file.segments) (base : Nat) :
    ∃ frozen whole, file.freeze base = .ok frozen ∧
      Layout.ofSegments file.segments = .ok whole ∧
      ∀ (fs : FileSystem) (start count : Nat) (bytes : Bytes),
        frozen.read fs (base + start) count = .ok bytes ↔
          (count = 0 ∨ (start + count : Int) ≤ file.size) ∧
            whole.read fs start count = .ok bytes := by
  obtain ⟨whole, hwhole⟩ := Layout.exists_ofSegments h
  refine ⟨_, whole, File.freeze_of_ofSegments hwhole base, hwhole, fun fs start count bytes => ?_⟩
  rw [Layout.read_movedBy_eq_ok_iff, Layout.read_upTo_eq_ok_iff]
  exact and_congr_left fun _ => by omega

/-- Two segments in the wrong order, the later one reaching past the end of the file: frozen at 16,
the file can be read up to its end, and not further. -/
theorem File.read_freeze_reaching :
    let fs : FileSystem := ⟨[], []⟩
    let inner : Source := .nested [⟨0, 8, .buffer [1, 2, 3, 4] 0⟩] 1 0
    let file : File := ⟨"f", 5, [⟨4, 4, .fill 7⟩, ⟨0, 3, inner⟩]⟩
    ¬ SharePosition file.segments ∧
      ∃ frozen, file.freeze 16 = .ok frozen ∧ frozen.read fs 16 3 = .ok [2, 3, 4] ∧
        frozen.read fs 20 1 = .ok [7] ∧ ∀ bytes, frozen.read fs 20 2 ≠ .ok bytes := by
  intro fs inner file
  have hapart : ¬ SharePosition file.segments := not_sharePosition_iff.mpr (by decide)
  obtain ⟨frozen, whole, hfrozen, hwhole, hread⟩ := File.read_freeze file hapart 16
  have hsegments : whole.segments = [⟨0, 3, inner⟩, ⟨4, 4, .fill 7⟩] := by
    cases hwhole
    rfl
  refine ⟨hapart, frozen, hfrozen, (hread fs 0 3 _).mpr ⟨.inr (by decide), ?_⟩,
    (hread fs 4 1 _).mpr ⟨.inr (by decide), ?_⟩, fun bytes hbytes => ?_⟩
  · rw [Layout.read, hsegments]
    decide +kernel
  · rw [Layout.read, hsegments]
    decide +kernel
  · have hend := ((hread fs 4 2 bytes).mp hbytes).1
    simp [file] at hend

end DiscPatch
