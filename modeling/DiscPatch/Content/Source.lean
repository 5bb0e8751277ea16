import DiscPatch.Bytes
import DiscPatch.Error

/-!
# Sources and segments

The bytes of a composed file are described, not copied: a segment says that a run of positions of
the file is served by a source.

* `Source` — where bytes come from: a host file, a buffer, another composed file, or one byte over
  and over;
* `Segment` — a run of positions and its source;
* `Source.advance`, `Segment.split` — the same bytes, seen from a later start.
-/

namespace DiscPatch

/-- A run of `size` positions from `offset` on, served by `source`. -/
structure Placed (σ : Type) where
  /-- the first position -/
  offset : Nat
  /-- how many positions there are -/
  size : Nat
  /-- what serves them -/
  source : σ

/-- The first position after the run. -/
def Placed.stop {σ : Type} (placed : Placed σ) : Nat :=
  placed.offset + placed.size

/-- Where bytes come from. -/
inductive Source where
  /-- a host file, from `offset` on -/
  | file (path : String) (offset : Int)
  /-- bytes kept in memory, from `start` on -/
  | buffer (data : Bytes) (start : Int)
  /-- another composed file, from `offset` on; `tag` is carried along and means nothing here -/
  | nested (layout : List (Placed Source)) (offset tag : Int)
  /-- the same byte over and over -/
  | fill (byte : UInt8)

/-- A run of positions of a composed file and the source that serves it. -/
abbrev Segment := Placed Source

/-- Zeros, which fill every position that nothing else serves. -/
def Source.zeros : Source := .fill 0

/-- The same source with its first byte `delta` positions later. -/
def Source.advance (delta : Int) : Source → Source
  | .file path offset => .file path (offset + delta)
  | .buffer data start => .buffer data (start + delta)
  | .nested layout offset tag => .nested layout (offset + delta) tag
  | .fill byte => .fill byte

/-- Like `Source.advance`, where there may be no source of a known kind. Such a source cannot be
moved; to leave it where it is moves nothing. -/
def Source.advanceGiven (delta : Int) : Option Source → Except Error (Option Source)
  | some source => .ok (some (source.advance delta))
  | none => if delta = 0 then .ok none else .error .unknownSource

namespace Segment

/-- The flaw of a number that has to be natural and is not. -/
def negativeFlaw (field : String) (value : Int) : List Flaw :=
  if value < 0 then [⟨[.field field], .tooSmall⟩] else []

/-- A segment at a place that may turn out to be negative. -/
def checked (offset size : Int) (source : Source) : Except Error Segment :=
  match negativeFlaw "offset" offset ++ negativeFlaw "size" size with
  | [] => .ok ⟨offset.toNat, size.toNat, source⟩
  | flaws => .error (.invalid flaws)

/-- The part of a segment in front of `point`. -/
def before (segment : Segment) (point : Nat) : Segment :=
  ⟨segment.offset, point - segment.offset, segment.source⟩

/-- The part of a segment from `point` on. -/
def after (segment : Segment) (point : Nat) : Segment :=
  ⟨point, segment.stop - point, segment.source.advance ↑(point - segment.offset)⟩

/-- The two parts of a segment at a point strictly inside it. -/
def split (segment : Segment) (point : Int) : Except Error (Segment × Segment) :=
  if (segment.offset : Int) < point ∧ point < segment.stop then
    .ok (segment.before point.toNat, segment.after point.toNat)
  else
    .error (.splitOutside point segment.offset segment.stop)

end Segment

/-! ## Moving a source -/

@[simp] theorem Source.advance_zero (source : Source) : source.advance 0 = source := by
  cases source <;> simp [Source.advance]

@[simp] theorem Source.advance_advance (source : Source) (d e : Int) :
    (source.advance d).advance e = source.advance (d + e) := by
  cases source <;> simp [Source.advance, Int.add_assoc]

end DiscPatch
