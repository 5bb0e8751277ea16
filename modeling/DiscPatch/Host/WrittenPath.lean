import DiscPatch.Text.Split

/-!
# Paths as texts

A path to write to is built from texts alone: empty names and `.` are dropped, `..` is kept, and a
part that starts at the top replaces everything in front of it.

* `WrittenPath.ofText`, `WrittenPath.text` — reading and writing;
* `WrittenPath.append` — a path below another one;
* `WrittenPath.parent` — the folder a path lies in.
-/

namespace DiscPatch.Host

open DiscPatch.Text (split join)

/-- A path as it is written. -/
structure WrittenPath where
  /-- what stands in front of the names: nothing, one separator or two -/
  anchor : String
  /-- the names -/
  parts : List String
  deriving DecidableEq

namespace WrittenPath

/-- Two separators at the start are kept, any other number of them counts as one. -/
def anchorOf (path : String) : String :=
  match (path.toList.takeWhile (· = '/')).length with
  | 0 => ""
  | 2 => "//"
  | _ => "/"

/-- Read a path. -/
def ofText (path : String) : WrittenPath :=
  ⟨anchorOf path, (split '/' path).filter fun part => part ≠ "" ∧ part ≠ "."⟩

/-- Write a path; the empty path is the working folder. -/
def text (path : WrittenPath) : String :=
  if path.anchor = "" ∧ path.parts = [] then "." else path.anchor ++ join '/' path.parts

/-- The path `below`, taken from `path`. -/
def append (path : WrittenPath) (below : String) : WrittenPath :=
  let right := ofText below
  if right.anchor = "" then ⟨path.anchor, path.parts ++ right.parts⟩ else right

/-- The folder a path lies in. -/
def parent (path : WrittenPath) : WrittenPath :=
  ⟨path.anchor, path.parts.dropLast⟩

end WrittenPath

end DiscPatch.Host
