import DiscPatch.Content.Layout
import DiscPatch.Host.WrittenPath
import DiscPatch.Log

/-!
# Files of the disc

A file has a name, a size and segments. The size has the last word: no byte at or past it belongs to
the file, whatever the segments say.

* `File.freeze` — the layout of a file, every segment cut at the size, all of them moved by a base;
* `File.contents` — the bytes of a whole file;
* `hostSegment`, `File.ofHost` — a host file as a segment and as a file of the disc.
-/

namespace DiscPatch

open DiscPatch.Host (FileSystem WrittenPath)

/-- A file of the disc. -/
structure File where
  /-- its name -/
  name : String
  /-- how many bytes it has -/
  size : Int
  /-- what serves them -/
  segments : List Segment

/-- A new file without content. -/
def File.empty (name : String) : File := ⟨name, 0, []⟩

/-- A segment cut at `size`; `none` if nothing of it is left. -/
def Segment.clip? (size : Int) (segment : Segment) : Option Segment :=
  if min (segment.stop : Int) size ≤ segment.offset then none
  else some ⟨segment.offset, (min (segment.stop : Int) size - segment.offset).toNat, segment.source⟩

/-- A segment moved by `base`. -/
def Segment.moved (base : Int) (segment : Segment) : Except Error Segment :=
  Segment.checked (segment.offset + base) segment.size segment.source

/-- The layout of a file whose first byte stands at `base`. -/
def File.freeze (file : File) (base : Int) : Except Error Layout := do
  let moved ← (file.segments.filterMap (Segment.clip? file.size)).mapM (Segment.moved base)
  Layout.ofSegments moved

/-- The bytes of a whole file. -/
def File.contents (file : File) (fs : FileSystem) : Except Error Bytes := do
  let layout ← file.freeze 0
  (layout.read fs 0 file.size).mapError .read

/-! ## Host files -/

/-- A segment at `offset` that covers a host file, or its first `limit` bytes. A file that cannot be
measured counts as empty. -/
def hostSegment (fs : FileSystem) (offset : Int) (path : String) (limit : Option Int) :
    Logged (Except Error Segment) := do
  match fs.size path with
  | .error .nulInPath => return .error (.host .nulInPath)
  | .error (.refused _) =>
    Logged.note (.hostFileMissing path)
    return place 0
  | .ok size => return place size
where
  /-- The segment for a file of that size. -/
  place (size : Nat) : Except Error Segment :=
    let size : Int := match limit with
      | some limit => min size limit
      | none => size
    Segment.checked offset size (.file path 0)

/-- A host file as a file of the disc, by default under its own name. -/
def File.ofHost (fs : FileSystem) (path : String) (name : Option String) :
    Logged (Except Error File) := do
  match ← hostSegment fs 0 path none with
  | .error error => return .error error
  | .ok segment =>
    let name := name.getD ((WrittenPath.ofText path).parts.getLast?.getD "")
    return .ok ⟨name, segment.size, if segment.size = 0 then [] else [segment]⟩

/-- The layout of a host file. -/
def Layout.ofHost (fs : FileSystem) (path : String) : Logged (Except Error Layout) := do
  match ← hostSegment fs 0 path none with
  | .error error => return .error error
  | .ok segment => return Layout.ofSegments [segment]

end DiscPatch
