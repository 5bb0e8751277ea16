import DiscPatch.Proofs.Content.ByteModel
import DiscPatch.Proofs.Content.Freezing

/-!
# Splitting a segment

A segment may be split anywhere: its two parts give what the segment gives, though a read across
the point is then two reads of the source.

* `Source.read_add_eq_ok_iff` — one read gives what two reads give that follow each other, if the
  number of its bytes has a 64-bit form;
* `readRun_single_eq_ok_iff`, `readRun_halves_eq_ok_iff` — what a run through a segment, or through
  its two parts, asks the source for;
* `Segment.readRun_halves` — a run through the parts gives what a run through the segment gives;
* `Segment.splitTwice` — the three pieces that two points make;
* `Segment.split_unseen` — a moved source is the source read elsewhere, a split segment is read as
  the segment was, and two points make the same pieces in either order.
-/

namespace DiscPatch

open DiscPatch.Host (FileSystem)

variable {fs : FileSystem}

/-! ## Reads in two parts -/

theorem Source.Yields.take {source : Source} {position : Int} {bytes : Bytes}
    (h : source.Yields fs position bytes) (count : Nat) :
    source.Yields fs position (bytes.take count) := by
  intro i byte hbyte
  rw [List.getElem?_take] at hbyte
  split at hbyte
  · exact h i byte hbyte
  · cases hbyte

theorem Source.Yields.drop {source : Source} {position : Int} {bytes : Bytes}
    (h : source.Yields fs position bytes) (count : Nat) :
    source.Yields fs (position + count) (bytes.drop count) := by
  intro i byte hbyte
  rw [List.getElem?_drop] at hbyte
  rw [← h (count + i) byte hbyte]
  congr 1
  omega

theorem Source.Yields.append {source : Source} {position : Int} {front back : Bytes}
    (hfront : source.Yields fs position front)
    (hback : source.Yields fs (position + front.length) back) :
    source.Yields fs position (front ++ back) := by
  intro i byte hbyte
  rcases Nat.lt_or_ge i front.length with hi | hi
  · rw [List.getElem?_append_left hi] at hbyte
    exact hfront i byte hbyte
  · rw [List.getElem?_append_right hi] at hbyte
    rw [← hback _ byte hbyte]
    congr 1
    omega

/-- **One read gives what two reads give** that follow each other. -/
theorem Source.read_add_eq_ok_iff (hfs : fs.Addressable) {source : Source} {position : Int}
    {first second : Nat} {bytes : Bytes} (hfirst : 0 < first) (hsecond : 0 < second)
    (hnear : isFar ↑(first + second) = false) :
    source.read fs position ↑(first + second) = .ok bytes ↔
      ∃ front back, source.read fs position first = .ok front ∧
        source.read fs (position + first) second = .ok back ∧ front ++ back = bytes := by
  constructor
  · intro h
    have hlength := source.length_of_read fs _ _ _ h
    have hyields := source.yields_of_read hfs _ _ _ h
    have htake : (bytes.take first).length = first := by
      rw [List.length_take]
      omega
    have hdrop : (bytes.drop first).length = second := by
      rw [List.length_drop]
      omega
    have hfront := source.read_of_yields fs position (bytes.take first)
      (List.ne_nil_of_length_pos (by omega)) (isFar_of_le (by omega) hnear) (hyields.take first)
    have hback := source.read_of_yields fs (position + first) (bytes.drop first)
      (List.ne_nil_of_length_pos (by omega)) (isFar_of_le (by omega) hnear) (hyields.drop first)
    rw [htake] at hfront
    rw [hdrop] at hback
    exact ⟨_, _, hfront, hback, List.take_append_drop ..⟩
  · rintro ⟨front, back, hfront, hback, rfl⟩
    have hfrontLength := source.length_of_read fs _ _ _ hfront
    have hbackLength := source.length_of_read fs _ _ _ hback
    have hlength : (front ++ back).length = first + second := by
      rw [List.length_append, hfrontLength, hbackLength]
    have hyields : source.Yields fs position (front ++ back) := by
      refine (source.yields_of_read hfs _ _ _ hfront).append ?_
      rw [hfrontLength]
      exact source.yields_of_read hfs _ _ _ hback
    rw [← hlength] at hnear ⊢
    exact source.read_of_yields fs position _ (List.ne_nil_of_length_pos (by omega)) hnear hyields

/-! ## The parts of a segment -/

/-- A run through one segment stays in it. -/
theorem readRun_single_eq_ok_iff {segment : Segment} {length offset : Int} {position count : Nat}
    {bytes : Bytes} (hcount : 0 < count) :
    readRun fs length offset [segment] position count = .ok bytes ↔
      segment.offset ≤ position ∧ position + count ≤ segment.stop ∧ isFar length = false ∧
        segment.source.read fs (position - segment.offset) count = .ok bytes := by
  have hnil : ∀ (place left : Nat) (rest : Bytes),
      readRun fs length offset [] place left = .ok rest ↔ left = 0 ∧ rest = [] := by
    intro place left rest
    rw [readRun]
    split
    · next hzero => simp [hzero, eq_comm]
    · next hmore => simp [hmore]
  rw [readRun_cons_eq_ok_iff hcount]
  simp only [hnil]
  constructor
  · rintro (⟨-, hzero, -⟩ | ⟨hin, hbefore, front, back, hfront, hnear, ⟨hleft, rfl⟩, rfl⟩)
    · omega
    · have hchunk : min count (segment.stop - position) = count := by omega
      rw [hchunk] at hfront
      rw [hchunk, Int.sub_add_cancel] at hnear
      rw [List.append_nil]
      exact ⟨hin, by omega, hnear, hfront⟩
  · rintro ⟨hin, hend, hnear, hread⟩
    have hchunk : min count (segment.stop - position) = count := by omega
    rw [hchunk, Int.sub_add_cancel]
    exact .inr ⟨hin, by omega, bytes, [], hread, hnear, ⟨by omega, rfl⟩, List.append_nil bytes⟩

/-- A run through the two parts of a segment reads the source of the segment: once if it stays on
one side of the point, and twice if it goes across. -/
theorem readRun_halves_eq_ok_iff {segment : Segment} {length offset : Int}
    {point position count : Nat} {bytes : Bytes} (hlo : segment.offset < point)
    (hhi : point < segment.stop) (hcount : 0 < count) (hle : count ≤ length) :
    readRun fs length offset [segment.before point, segment.after point] position count =
        .ok bytes ↔
      segment.offset ≤ position ∧ position + count ≤ segment.stop ∧ isFar length = false ∧
        if position < point ∧ point < position + count then
          ∃ front back,
            segment.source.read fs (position - segment.offset) ↑(point - position) = .ok front ∧
            segment.source.read fs (point - segment.offset) ↑(position + count - point) =
              .ok back ∧ front ++ back = bytes
        else segment.source.read fs (position - segment.offset) count = .ok bytes := by
  have hafter : ∀ (place : Nat) (length : Int),
      (segment.after point).source.read fs (place - (segment.after point).offset) length =
        segment.source.read fs (place - segment.offset) length := by
    intro place length
    simp only [Segment.after, Source.read_advance]
    congr 1
    omega
  rw [readRun_cons_eq_ok_iff hcount, stop_before hlo]
  rcases Nat.lt_or_ge position point with hfront | hback
  · rcases Nat.lt_or_ge point (position + count) with hacross | hwithin
    · rw [if_pos ⟨hfront, hacross⟩, show min count (point - position) = point - position by omega,
        show position + (point - position) = point by omega,
        show count - (point - position) = position + count - point by omega]
      simp only [readRun_single_eq_ok_iff (show 0 < position + count - point by omega), hafter,
        stop_after hhi]
      constructor
      · rintro (⟨hpast, -⟩ | ⟨hin, -, front, back, hone, -, ⟨-, hend, hnear, htwo⟩, hbytes⟩)
        · omega
        · exact ⟨hin, by omega, hnear, front, back, hone, htwo, hbytes⟩
      · rintro ⟨hin, hend, hnear, front, back, hone, htwo, hbytes⟩
        have hpart := Joinable.isFar_part ⟨hle, hnear⟩ (show point - position ≤ count by omega)
        exact .inr ⟨hin, hfront, front, back, hone, hpart, ⟨Nat.le_refl _, by omega, hnear, htwo⟩,
          hbytes⟩
    · rw [if_neg (by omega), show min count (point - position) = count by omega, Nat.sub_self,
        Int.sub_add_cancel]
      simp only [readRun_zero]
      constructor
      · rintro (⟨hpast, -⟩ | ⟨hin, -, front, back, hone, hnear, hnone, rfl⟩)
        · omega
        · cases hnone
          rw [List.append_nil]
          exact ⟨hin, by omega, hnear, hone⟩
      · rintro ⟨hin, -, hnear, hone⟩
        exact .inr ⟨hin, hfront, bytes, [], hone, hnear, rfl, List.append_nil bytes⟩
  · rw [if_neg (by omega)]
    simp only [readRun_single_eq_ok_iff hcount, hafter, stop_after hhi]
    constructor
    · rintro (⟨-, -, hend, htwo⟩ | ⟨-, hbefore, -⟩)
      · exact ⟨by omega, hend, htwo⟩
      · omega
    · rintro ⟨-, hend, htwo⟩
      exact .inl ⟨hback, hback, hend, htwo⟩

namespace Segment

section Halves

variable {segment : Segment} {point position count : Nat} {length offset : Int} {bytes : Bytes}

theorem split_of_lt (hlo : segment.offset < point) (hhi : point < segment.stop) :
    segment.split point = .ok (segment.before point, segment.after point) := by
  rw [split, if_pos ⟨Int.ofNat_lt.mpr hlo, Int.ofNat_lt.mpr hhi⟩, Int.toNat_natCast]

/-- A segment and its two parts can both be laid out. -/
theorem exists_layouts (hlo : segment.offset < point) (hhi : point < segment.stop) :
    ∃ whole halves, Layout.ofSegments [segment] = .ok whole ∧
      Layout.ofSegments [segment.before point, segment.after point] = .ok halves ∧
      whole.segments = [segment] ∧
      halves.segments = [segment.before point, segment.after point] := by
  have hsize : 0 < segment.size := by
    simp only [Placed.stop] at hhi
    omega
  have hbefore : 0 < (segment.before point).size := Nat.sub_pos_of_lt hlo
  have hafter : 0 < (segment.after point).size := Nat.sub_pos_of_lt hhi
  have hordered : (segment.before point).stop ≤ (segment.after point).offset :=
    Nat.le_of_eq (stop_before hlo)
  let whole : Layout := ⟨[segment], by simpa using hsize, List.pairwise_singleton ..⟩
  let halves : Layout := ⟨[segment.before point, segment.after point],
    by simpa using ⟨hbefore, hafter⟩, List.pairwise_pair.mpr hordered⟩
  exact ⟨whole, halves, whole.ofSegments_segments, halves.ofSegments_segments, rfl, rfl⟩

/-- **A segment and its parts give the same.** A run across the point asks the source twice where the
segment is asked once. -/
theorem readRun_halves (hfs : fs.Addressable) (hlo : segment.offset < point)
    (hhi : point < segment.stop) (hle : count ≤ length) :
    readRun fs length offset [segment.before point, segment.after point] position count =
        .ok bytes ↔
      readRun fs length offset [segment] position count = .ok bytes := by
  rcases Nat.eq_zero_or_pos count with rfl | hcount
  · rw [readRun_zero, readRun_zero]
  rw [readRun_halves_eq_ok_iff hlo hhi hcount hle, readRun_single_eq_ok_iff hcount]
  refine and_congr_right fun hin => and_congr_right fun hend => and_congr_right fun hnear => ?_
  split
  · next hacross =>
    have hcounts : count = (point - position) + (position + count - point) := by omega
    have hplace : (point : Int) - segment.offset =
        position - segment.offset + (point - position : Nat) := by omega
    have hwhole := (Joinable.near ⟨hle, hnear⟩ : isFar count = false)
    rw [hcounts] at hwhole
    rw [hplace, ← Source.read_add_eq_ok_iff hfs (by omega) (by omega) hwhole, ← hcounts]
  · rfl

end Halves

/-! ## Two points -/

/-- The three pieces of a segment that is split at one point, and then at another in the part that
has it. -/
def splitTwice (segment : Segment) (first second : Int) :
    Except Error (Segment × Segment × Segment) := do
  let parts ← segment.split first
  if second < first then
    let pieces ← parts.1.split second
    return (pieces.1, pieces.2, parts.2)
  else
    let pieces ← parts.2.split second
    return (parts.1, pieces.1, pieces.2)

section Pieces

variable {segment : Segment} {a b : Nat}

/-- Both ways to make the three pieces of two points. -/
theorem splitTwice_of_lt (hlo : segment.offset < a) (hab : a < b) (hhi : b < segment.stop) :
    segment.splitTwice a b =
        .ok (segment.before a, (segment.after a).before b, segment.after b) ∧
      segment.splitTwice b a =
        .ok (segment.before a, (segment.after a).before b, segment.after b) := by
  -- what is left of the segment behind the second point does not depend on the first
  have hlast : (segment.after a).after b = segment.after b := by
    have hstop := stop_after (show a < segment.stop by omega)
    simp only [after] at hstop
    simp only [after, hstop, Source.advance_advance]
    congr 2
    omega
  have hmiddle : (segment.before b).after a = (segment.after a).before b := by
    have hstop := stop_before (show segment.offset < b by omega)
    simp only [before] at hstop
    simp only [before, after, hstop]
  have hfirst : segment.split a = .ok (segment.before a, segment.after a) :=
    split_of_lt hlo (by omega)
  have hsecond : segment.split b = .ok (segment.before b, segment.after b) :=
    split_of_lt (by omega) hhi
  have hafter : (segment.after a).split b =
      .ok ((segment.after a).before b, (segment.after a).after b) :=
    split_of_lt hab (by rwa [stop_after (by omega)])
  have hbefore : (segment.before b).split a =
      .ok ((segment.before b).before a, (segment.before b).after a) :=
    split_of_lt hlo (by rwa [stop_before (by omega)])
  constructor
  · rw [splitTwice, hfirst, ← hlast]
    simp only [bind, Except.bind, hafter]
    rw [if_neg (by omega)]
    rfl
  · rw [splitTwice, hsecond, ← hmiddle]
    simp only [bind, Except.bind, hbefore]
    rw [if_pos (by omega)]
    rfl

/-- **Two points make the same three pieces in either order.** -/
theorem splitTwice_comm (hloA : segment.offset < a) (hhiA : a < segment.stop)
    (hloB : segment.offset < b) (hhiB : b < segment.stop) (hne : a ≠ b) :
    ∃ pieces, segment.splitTwice a b = .ok pieces ∧ segment.splitTwice b a = .ok pieces := by
  rcases Nat.lt_or_gt_of_ne hne with hlt | hgt
  · exact ⟨_, splitTwice_of_lt hloA hlt hhiB⟩
  · exact ⟨_, (splitTwice_of_lt hloB hgt hhiA).symm⟩

end Pieces

/-! ## Splitting is not seen -/

/-- **Splitting cannot be seen by reading.** A source that was moved is read like the source so much
further on, and moves add up. A segment can be split at every point strictly inside it, it and its
parts can be laid out, and a read of the parts gives what the same read of the segment gives. Two
points make the same three pieces in either order. -/
theorem split_unseen (fs : FileSystem) :
    (∀ (source : Source) (d e length : Int),
      (source.advance d).read fs e length = source.read fs (d + e) length ∧
        (source.advance d).advance e = source.advance (d + e)) ∧
    (fs.Addressable → ∀ (segment : Segment) (point : Int),
      segment.offset < point → point < segment.stop →
      ∃ front back whole halves, segment.split point = .ok (front, back) ∧
        Layout.ofSegments [segment] = .ok whole ∧
        Layout.ofSegments [front, back] = .ok halves ∧
        ∀ (offset length : Int) (bytes : Bytes), halves.read fs offset length = .ok bytes ↔
          whole.read fs offset length = .ok bytes) ∧
    ∀ (segment : Segment) (a b : Int), segment.offset < a → a < segment.stop →
      segment.offset < b → b < segment.stop → a ≠ b →
      ∃ pieces, segment.splitTwice a b = .ok pieces ∧ segment.splitTwice b a = .ok pieces := by
  refine ⟨fun source d e length => ⟨source.read_advance d e length, source.advance_advance d e⟩,
    fun hfs segment point hlo hhi => ?_, fun segment a b hloA hhiA hloB hhiB hne => ?_⟩
  · lift point to Nat using by omega
    rw [Int.ofNat_lt] at hlo hhi
    obtain ⟨whole, halves, hwhole, hhalves, hone, htwo⟩ := exists_layouts hlo hhi
    refine ⟨_, _, whole, halves, split_of_lt hlo hhi, hwhole, hhalves,
      fun offset length bytes => ?_⟩
    rw [Layout.read_eq_ok_iff, Layout.read_eq_ok_iff, hone, htwo]
    exact and_congr_right fun _ => and_congr_right fun hlength =>
      readRun_halves hfs hlo hhi (Int.le_of_eq (Int.toNat_of_nonneg hlength))
  · lift a to Nat using by omega
    lift b to Nat using by omega
    exact splitTwice_comm (by omega) (by omega) (by omega) (by omega) (by omega)

/-- A segment of another layout, made of a buffer counted from its end and a host file, that is read
across a point and cut at two. -/
theorem split_unseen_nested :
    let fs : FileSystem := ⟨[("f", .file [1, 2, 3])], []⟩
    let segment : Segment :=
      ⟨4, 3, .nested [⟨0, 1, .buffer [7, 8] (-2)⟩, ⟨1, 3, .file "/f" 0⟩] 0 0⟩
    fs.Addressable ∧
      (∃ front back whole halves, segment.split 6 = .ok (front, back) ∧
        Layout.ofSegments [segment] = .ok whole ∧
        Layout.ofSegments [front, back] = .ok halves ∧
        whole.read fs 4 3 = .ok [7, 1, 2] ∧ halves.read fs 4 3 = .ok [7, 1, 2]) ∧
      ∃ pieces, segment.splitTwice 5 6 = .ok pieces ∧ segment.splitTwice 6 5 = .ok pieces := by
  intro fs segment
  have hfs : fs.Addressable := by decide +kernel
  obtain ⟨-, hsplit, htwice⟩ := split_unseen fs
  refine ⟨hfs, ?_, htwice segment 5 6 (by decide) (by decide) (by decide) (by decide) (by decide)⟩
  obtain ⟨front, back, whole, halves, hparts, hwhole, hhalves, hreads⟩ :=
    hsplit hfs segment 6 (by decide) (by decide)
  have hsame : whole = ⟨[segment], by decide, by decide⟩ :=
    Except.ok.inj (hwhole.symm.trans (Layout.ofSegments_segments ⟨[segment], by decide, by decide⟩))
  have hread : whole.read fs 4 3 = .ok [7, 1, 2] := by
    rw [hsame]
    decide +kernel
  exact ⟨front, back, whole, halves, hparts, hwhole, hhalves, hread, (hreads _ _ _).mpr hread⟩

end Segment

end DiscPatch
