import DiscPatch.Content.File
import DiscPatch.External.Basic

/-!
# Overwriting part of a file

A directive lays external bytes over a range of a file. Segments are cut at both ends of the range,
those inside it go, and the new ones take their place.

* `cut`, `cutAtBounds` — no segment reaches across the ends of the range any more;
* `clear` — the segments in front of the range and those after it;
* `laidOver` — the segments for the range itself: external bytes, then zeros if they do not suffice;
* `trimTo` — nothing is left past the end of the file;
* `File.overwrite` — the whole edit.
-/

namespace DiscPatch

/-- A segment in two parts if the point lies strictly inside it, else as it is. -/
def cut (point : Nat) (segment : Segment) : List Segment :=
  if segment.offset < point ∧ point < segment.stop then
    [segment.before point, segment.after point]
  else [segment]

/-- Segments cut at both ends of a range. -/
def cutAtBounds (start stop : Nat) (segments : List Segment) : List Segment :=
  (segments.flatMap (cut start)).flatMap (cut stop)

/-- The segments that start in front of a range, and those after it once the ones that end inside it
are gone. -/
def clear (start stop : Nat) (segments : List Segment) : List Segment × List Segment :=
  (segments.takeWhile (·.offset < start),
    (segments.dropWhile (·.offset < start)).dropWhile (·.stop ≤ stop))

/-- The segments around the range `[start, stop)` of a file of `size` bytes. If the range starts at
or past the end, zeros lead up to it and nothing else changes. -/
def around (size start stop : Nat) (segments : List Segment) : List Segment × List Segment :=
  if size ≤ start then
    (segments ++ if size < start then [⟨size, start - size, Source.zeros⟩] else [], [])
  else clear start stop (cutAtBounds start stop segments)

/-- The segments for `count` positions from `start` on, of which the first `available` have external
bytes. -/
def laidOver (source : Source) (start count available : Nat) : List Segment :=
  (if 0 < count ∧ 0 < available then [⟨start, min count available, source⟩] else []) ++
    if available < count then [⟨start + available, count - available, Source.zeros⟩] else []

/-- Segments without those that start at or past `size`, as far as they come last, and with the last
of the others cut at `size`. -/
def trimTo (size : Nat) : List Segment → List Segment
  | [] => []
  | segment :: rest =>
    match trimTo size rest with
    | [] =>
      if size ≤ segment.offset then []
      else if size < segment.stop then [⟨segment.offset, size - segment.offset, segment.source⟩]
      else [segment]
    | kept => segment :: kept

/-- The range that a directive covers, and what it takes from the external file. -/
structure Span where
  /-- the first position in the file -/
  start : Nat
  /-- the first position in the external file -/
  externalStart : Nat
  /-- how many external bytes there are from there on -/
  available : Nat
  /-- how many positions are covered -/
  count : Nat
  deriving DecidableEq, Repr

namespace Span

/-- The range covered by a directive: `length` positions, or all that the external file has left if
that is zero. -/
def ofDirective (start externalOffset length externalSize : Nat) : Span :=
  let externalStart := min externalOffset externalSize
  let available := externalSize - externalStart
  ⟨start, externalStart, available, if length = 0 then available else length⟩

/-- The first position after the range. -/
def stop (span : Span) : Nat :=
  span.start + span.count

/-- Whether any external byte is taken. -/
def takes (span : Span) : Bool :=
  0 < span.count && 0 < span.available

/-- The size of a file once the range is laid over it: it ends with the range, or only
ever grows. -/
def newSize (span : Span) (resize : Bool) (size : Nat) : Nat :=
  if resize then span.stop else max size span.stop

/-- The segments of a file of `size` bytes once the range is served by `source`. -/
def lay (span : Span) (source : Source) (resize : Bool) (size : Nat) (segments : List Segment) :
    List Segment :=
  let (front, back) := around size span.start span.stop segments
  trimTo (span.newSize resize size)
    (front ++ laidOver source span.start span.count span.available ++ back)

/-- The source of what is taken from an external file. -/
def source (span : Span) (external : External) (path : String) : Logged Source :=
  if span.takes then
    external.source path span.externalStart ↑(min span.count span.available) span.start
  else return Source.zeros

end Span

/-- Lay part of an external file over a file, from position `offset` on. Answers whether the
external file was there; if it was not, nothing changes. -/
def File.overwrite (external : External) (path : String) (offset externalOffset length : Int)
    (resize : Bool) : Edit File Bool := do
  if min (min offset externalOffset) length < 0 then
    throw (.negativeBounds offset externalOffset length)
  match ← Edit.fromLogged (external.size? path) with
  | none =>
    Edit.note (.externalMissing path)
    return false
  | some externalSize =>
    let file ← get
    if file.size < 0 then throw (.invalid (Segment.negativeFlaw "offset" file.size))
    let span := Span.ofDirective offset.toNat externalOffset.toNat length.toNat externalSize
    let source ← Edit.fromLogged (span.source external path)
    set { file with
      size := (span.newSize resize file.size.toNat : Int)
      segments := span.lay source resize file.size.toNat file.segments }
    return true

/-- A position rounded down to a multiple of four. Directives address whole words. -/
def wordStart (offset : Int) : Int :=
  offset / 4 * 4

end DiscPatch
