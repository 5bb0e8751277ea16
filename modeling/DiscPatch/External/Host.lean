import DiscPatch.External.Basic
import DiscPatch.External.Roots
import DiscPatch.Host.Access

/-!
# External files kept on the host

* `Mount.resolve` — where an external path lies on the host: below its root, and not through a link,
  since a link may lead anywhere;
* `External.host` — external files taken from the host file system.
-/

namespace DiscPatch

open DiscPatch.Host (FileSystem)
open DiscPatch.Text (split)

namespace Mount

/-- The first place on the way down from `root` that is a link. -/
def linkBelow (fs : FileSystem) (root : String) : List String → Option String
  | [] => none
  | part :: rest =>
    if part = "" then linkBelow fs root rest
    else
      let next := root ++ "/" ++ part
      if fs.isLink next then some next else linkBelow fs next rest

/-- Where an external path lies on the host; `none` if it leaves its root or goes through a link. -/
def resolve (fs : FileSystem) (roots : Roots) (path : String) : Logged (Option String) :=
  match roots.locate path with
  | .error cause => do
    Logged.note (.rejectedPath .host cause)
    return none
  | .ok located =>
    let root := roots.start path
    let way := split '/' (String.ofList (located.toList.drop root.length))
    match linkBelow fs root way with
    | some link => do
      Logged.note (.rejectedLink link)
      return none
    | none => return some located

/-- The size of a file. -/
def size? (fs : FileSystem) (roots : Roots) (path : String) : Logged (Option Nat) := do
  match ← resolve fs roots path with
  | none => return none
  | some path =>
    match fs.stat? path with
    | some (.file data) => return some data.length
    | _ => return none

/-- The bytes of a file; none if the host refuses it. -/
def contents (fs : FileSystem) (roots : Roots) (path : String) :
    Logged (Except Error Bytes) := do
  match ← resolve fs roots path with
  | none => return .ok []
  | some path =>
    match fs.readFile path with
    | .ok data => return .ok data
    | .error .nulInPath => return .error (.host .nulInPath)
    | .error (.refused fault) =>
      Logged.note (.cannotRead path fault)
      return .ok []

/-- The entries of a folder by name, without links; none if the host refuses it. -/
def entries (fs : FileSystem) (roots : Roots) (path : String) :
    Logged (Except Error (List Listed)) := do
  match ← resolve fs roots path with
  | none => return .ok []
  | some path =>
    match fs.list path with
    | .ok entries =>
      let plain := entries.filter fun (_, entry) => !entry.isLink
      return .ok (sortListed (plain.map fun (name, entry) => ⟨name, entry.isFolder⟩))
    | .error .nulInPath => return .error (.host .nulInPath)
    | .error (.refused fault) =>
      Logged.note (.cannotList path fault)
      return .ok []

end Mount

/-- External files taken from the host file system. -/
def External.host (fs : FileSystem) (given : Roots) : External :=
  let roots := given.trimmed
  { size? := Mount.size? fs roots
    contents := Mount.contents fs roots
    entries := Mount.entries fs roots
    source := fun path offset _ _ => do
      match ← Mount.resolve fs roots path with
      | none => return Source.zeros
      | some path => return .file path offset
    savegame? := Mount.resolve fs roots
    depth := fs.top.depth }

end DiscPatch
