import DiscPatch.Content.Source
import DiscPatch.Host.Access

/-!
# Layouts

A layout is the finished form of a file's content: segments in order, none empty, no two sharing a
position. It answers which segment serves a position, and reads bytes.

* `Layout.ofSegments` — drops empty segments, puts the others in order, and refuses two that
  overlap;
* `Source.read`, `readRun` — reading a source, and reading a run of bytes that may go through
  several segments. A read either gives exactly the bytes asked for or fails;
* `Layout.read` — a read at any position of a layout.
-/

namespace DiscPatch

open DiscPatch.Host (FileSystem)

/-! ## Order -/

/-- A segment put in front of the first one that ends no earlier. -/
def insertByStop (segment : Segment) : List Segment → List Segment
  | [] => [segment]
  | other :: rest =>
    if segment.stop ≤ other.stop then segment :: other :: rest
    else other :: insertByStop segment rest

/-- Segments by where they end; those that end together keep their order. -/
def sortByStop : List Segment → List Segment
  | [] => []
  | segment :: rest => insertByStop segment (sortByStop rest)

/-- The first neighbours of which the second starts before the first ends. -/
def overlap? : List Segment → Option (Segment × Segment)
  | [] | [_] => none
  | first :: second :: rest =>
    if second.offset < first.stop then some (first, second) else overlap? (second :: rest)

theorem perm_insertByStop (segment : Segment) (segments : List Segment) :
    (insertByStop segment segments).Perm (segment :: segments) := by
  induction segments with
  | nil => exact .refl _
  | cons other rest ih =>
    rw [insertByStop]
    split
    · exact .refl _
    · exact (ih.cons other).trans (.swap ..)

theorem perm_sortByStop (segments : List Segment) : (sortByStop segments).Perm segments := by
  induction segments with
  | nil => exact .refl _
  | cons segment rest ih => exact (perm_insertByStop segment _).trans (ih.cons segment)

theorem mem_sortByStop {segment : Segment} {segments : List Segment} :
    segment ∈ sortByStop segments ↔ segment ∈ segments :=
  (perm_sortByStop segments).mem_iff

/-- Where no neighbours overlap, every segment ends before every later one starts. -/
theorem pairwise_of_overlap?_eq_none {segments : List Segment}
    (h : overlap? segments = none) :
    segments.Pairwise fun a b => a.stop ≤ b.offset := by
  fun_induction overlap? segments with
  | case1 => exact .nil
  | case2 s => exact List.pairwise_singleton _ _
  | case3 first second rest hlt => simp at h
  | case4 first second rest hge ih =>
    have tail := ih h
    refine List.pairwise_cons.2 ⟨fun other hother => ?_, tail⟩
    rcases List.mem_cons.1 hother with rfl | hrest
    · omega
    · have := (List.pairwise_cons.1 tail).1 other hrest
      simp only [Placed.stop] at *
      omega

/-! ## The type -/

/-- Segments in order, none empty, no two sharing a position. -/
structure Layout where
  /-- the segments -/
  segments : List Segment
  /-- none is empty -/
  positive : ∀ segment ∈ segments, 0 < segment.size
  /-- each ends before the later ones start -/
  ordered : segments.Pairwise fun a b => a.stop ≤ b.offset

namespace Layout

/-- The layout of segments in any order. Empty ones are dropped; two that share a position are
refused. -/
def ofSegments (segments : List Segment) : Except Error Layout :=
  let sorted := sortByStop (segments.filter (0 < ·.size))
  match h : overlap? sorted with
  | some (first, second) =>
    .error (.overlap second.offset second.stop first.offset first.stop)
  | none => .ok {
      segments := sorted
      positive := fun segment hsegment => by
        have := List.mem_filter.1 (mem_sortByStop.1 hsegment)
        simpa using this.2
      ordered := pairwise_of_overlap?_eq_none h }

/-- The layout of no segments. -/
def empty : Layout := ⟨[], by simp, .nil⟩

/-- The first position after the last segment. -/
def size (layout : Layout) : Nat :=
  (layout.segments.getLast?.map (·.stop)).getD 0

/-- The segment that serves a position. -/
def segmentAt? (layout : Layout) (position : Int) : Option Segment :=
  (layout.segments.find? (position < ·.stop)).filter (·.offset ≤ position)

end Layout

/-! ## Reading -/

/-- Whether a number has no 64-bit form. -/
def isFar (n : Int) : Bool :=
  n < -0x8000000000000000 || 0x8000000000000000 ≤ n

/-- Read `length` bytes of a host file at `position`; a length of `-1` stands for all that is left.
The file is opened first, so a missing file fails even if nothing is to be read. -/
def readHostFile (fs : FileSystem) (path : String) (position length : Int) :
    Except ReadFault Bytes :=
  match fs.readFile path with
  | .error .nulInPath => .error .nulInPath
  | .error (.refused fault) => .error (.unreadable path fault)
  | .ok data =>
    if isFar position then .error .farPosition
    else if position < 0 then .error (.unreadable path ⟨.badPosition, none⟩)
    else if isFar length then .error .farCount
    else if length < -1 then .error .badCount
    else
      let left := data.drop position.toNat
      let got := if length = -1 then left else left.take length.toNat
      if (got.length : Int) = length then .ok got
      else .error (.shortFile path length got.length)

/-- Read `length` bytes of a buffer from `start` on. -/
def readBuffer (data : Bytes) (start length : Int) : Except ReadFault Bytes :=
  let got := data.window start (start + length)
  if (got.length : Int) = length then .ok got
  else .error (.shortBuffer length start got.length)

mutual
/-- Read `length` bytes of a source, starting `delta` positions into it. -/
def Source.read (fs : FileSystem) : Source → Int → Int → Except ReadFault Bytes
  | .file path offset, delta, length => readHostFile fs path (offset + delta) length
  | .buffer data start, delta, length => readBuffer data (start + delta) length
  | .nested layout offset _, delta, length =>
    if offset + delta < 0 ∨ length < 0 then .error (.badRange length (offset + delta))
    else readRun fs length (offset + delta) layout (offset + delta).toNat length.toNat
  | .fill byte, _, length =>
    if isFar length then .error .farCount else .ok (List.replicate length.toNat byte)

/-- Read `remaining` bytes from `position` on, as part of a read of `length` bytes at `offset`.
Segments that end before the position are passed over. What has been read so far is kept in one
piece, the number of whose bytes must have a 64-bit form. -/
def readRun (fs : FileSystem) (length offset : Int) :
    List (Placed Source) → Nat → Nat → Except ReadFault Bytes
  | [], position, remaining =>
    if remaining = 0 then .ok [] else .error (.noContent position length offset)
  | ⟨start, size, source⟩ :: rest, position, remaining =>
    if remaining = 0 then .ok []
    else if start + size ≤ position then readRun fs length offset rest position remaining
    else if position < start then .error (.noContent position length offset)
    else do
      let chunk := min remaining (start + size - position)
      let bytes ← source.read fs (position - start) chunk
      if isFar (length - remaining + chunk) then .error .tooLong
      else do
        let others ← readRun fs length offset rest (position + chunk) (remaining - chunk)
        return bytes ++ others
end

/-- Like `Source.read`, where there may be no source of a known kind. -/
def Source.readGiven (fs : FileSystem) (delta length : Int) :
    Option Source → Except Error Bytes
  | some source => (source.read fs delta length).mapError .read
  | none => .error .unknownSource

/-- Read `length` bytes of a layout at `offset`. -/
def Layout.read (layout : Layout) (fs : FileSystem) (offset length : Int) :
    Except ReadFault Bytes :=
  if offset < 0 ∨ length < 0 then .error (.badRange length offset)
  else readRun fs length offset layout.segments offset.toNat length.toNat

end DiscPatch
