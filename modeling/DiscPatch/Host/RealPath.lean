import DiscPatch.Host.Access

/-!
# Absolute paths without links

`FileSystem.realPath` turns a path into the names that lead to the same place from the top, with
links replaced by their targets and `.` and `..` worked out. Names that lead nowhere are kept as
they stand. Links that lead in a circle are refused.
-/

namespace DiscPatch.Host

open DiscPatch.Text (join)

/-- The text of an absolute path. -/
def absolute (trail : List String) : String :=
  "/" ++ join '/' trail

/-- How far a path could be worked out. -/
inductive Unlinked where
  /-- all the way -/
  | done (trail : List String)
  /-- a link came up again while it was being followed -/
  | circle (trail : List String)

/-- Names put after a trail, with `.` and `..` worked out on the names alone. -/
def settleNames : List String → List String → List String
  | trail, [] => trail
  | trail, part :: rest =>
    if part = "." then settleNames trail rest
    else if part = ".." then settleNames trail.dropLast rest
    else settleNames (trail ++ [part]) rest

namespace FileSystem

/-- Work out the names after `trail`; at a link, hand its trail, its target and the names after it
to `onLink`. -/
def unlinkStride (fs : FileSystem)
    (onLink : List String → String → List String → Unlinked) :
    List String → List String → Unlinked
  | trail, [] => .done trail
  | trail, part :: rest =>
    if part = "." then fs.unlinkStride onLink trail rest
    else if part = ".." then fs.unlinkStride onLink trail.dropLast rest
    else match fs.at? (trail ++ [part]) with
      | some (.link target) => onLink (trail ++ [part]) target rest
      | _ => fs.unlinkStride onLink (trail ++ [part]) rest

/-- Work out the names after `trail`. The links in `followed` are being followed, and `budget` more
may be. -/
def unlinkFrom (fs : FileSystem) :
    (budget : Nat) → List (List String) → List String → List String → Unlinked
  | 0, _, trail, parts => .circle (settleNames trail parts)
  | budget + 1, followed, trail, parts =>
    fs.unlinkStride (fun link target rest =>
      if link ∈ followed then .circle (settleNames link rest)
      else
        let start := if isAbsolute target then [] else link.dropLast
        match fs.unlinkFrom budget (link :: followed) start (pathParts target) with
        | .circle stuck => .circle (settleNames stuck rest)
        | .done reached => fs.unlinkFrom budget followed reached rest) trail parts

/-- The names that lead from the top to the same place as `path`. -/
def realPath (fs : FileSystem) (path : String) : Except Error (List String) :=
  if hasNul path then .error (.host .nulInPath)
  else match fs.unlinkFrom maxPath [] (if isAbsolute path then [] else fs.current)
      (pathParts path) with
    | .done trail => .ok trail
    | .circle trail =>
      match fs.walk true (absolute trail) with
      | .error .linkLoop => .error (.linkCircle (absolute trail))
      | _ => .ok trail

end FileSystem

end DiscPatch.Host
