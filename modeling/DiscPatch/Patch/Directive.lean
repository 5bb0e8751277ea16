import DiscPatch.External.Basic

/-!
# Patches

A patch is a group of directives that share their external files.

* `FileDirective`, `FolderDirective` — lay external files over files of the disc;
* `MemoryDirective` — change bytes of a memory image;
* `SavegameDirective` — keep the savegame folder elsewhere;
* `Patch` — the group;
* `Outcome`, `FileReport`, `Redirect` — what came of a directive.

Numbers in directives are plain integers. Documents only ever give natural ones, and whoever uses a
directive says what a negative one means.
-/

namespace DiscPatch

/-- Lay part of an external file over a file of the disc. -/
structure FileDirective where
  /-- the file of the disc: a path that starts with `/`, the executable's name, or a bare name -/
  disc : String
  /-- the external file -/
  external : String
  /-- where in the file to start; rounded down to a whole word -/
  offset : Int
  /-- where in the external file to start -/
  fileOffset : Int
  /-- how many positions to cover, zero for all that the external file has -/
  length : Int
  /-- whether the file ends where the covered positions end -/
  resize : Bool
  /-- whether to create the file if it is missing -/
  create : Bool
  deriving DecidableEq, Repr

/-- Lay every file of an external folder over the file of the same place on the disc. -/
structure FolderDirective where
  /-- the folder of the disc -/
  disc : String
  /-- the external folder -/
  external : String
  /-- whether to go into folders of the external folder -/
  recursive : Bool
  /-- whether files end where the covered positions end -/
  resize : Bool
  /-- whether to create missing files -/
  create : Bool
  /-- how many positions to cover in each file, zero for all that the external file has -/
  length : Int
  deriving DecidableEq, Repr

/-- Change bytes of a memory image. -/
structure MemoryDirective where
  /-- where to write, or where a hook branches to -/
  offset : Int
  /-- what to write, or the pattern that a hook looks for -/
  value : Bytes
  /-- an external file to take instead of the value, unless empty -/
  valueFile : String
  /-- what has to be there before -/
  expected : Bytes
  /-- whether to search for the place -/
  search : Bool
  /-- the distance between places that are searched -/
  align : Int
  /-- whether to place a hook -/
  hook : Bool
  deriving DecidableEq, Repr

/-- Keep the savegame folder elsewhere. -/
structure SavegameDirective where
  /-- the external folder -/
  external : String
  /-- whether to start with a copy of the old folder -/
  clone : Bool
  deriving DecidableEq, Repr

/-- Directives that share their external files. -/
structure Patch where
  /-- the name of the patch -/
  name : String
  /-- what to do to single files -/
  files : List FileDirective
  /-- what to do to folders -/
  folders : List FolderDirective
  /-- what to do to memory -/
  memory : List MemoryDirective
  /-- where to keep savegames -/
  savegames : List SavegameDirective
  /-- the external files, if there are any -/
  external : Option External

/-- How a directive ended. -/
inductive Outcome where
  /-- it was carried out -/
  | applied
  /-- there was nothing to do -/
  | skipped
  /-- its external file is missing -/
  | resourceUnavailable
  /-- a folder stands where a file is needed, or a file where a folder is -/
  | typeMismatch
  /-- memory does not hold what it should -/
  | expectedMismatch
  /-- the pattern does not occur -/
  | patternNotFound
  deriving DecidableEq, Repr

/-- The word for an outcome. -/
def Outcome.label : Outcome → String
  | .applied => "applied"
  | .skipped => "skipped"
  | .resourceUnavailable => "resource_unavailable"
  | .typeMismatch => "type_mismatch"
  | .expectedMismatch => "original_mismatch"
  | .patternNotFound => "pattern_not_found"

/-- All outcomes. -/
def Outcome.all : List Outcome :=
  [.applied, .skipped, .resourceUnavailable, .typeMismatch, .expectedMismatch, .patternNotFound]

/-- What came of a file directive. -/
structure FileReport where
  /-- the file of the disc, as the directive names it -/
  disc : String
  /-- the external file, as the directive names it -/
  external : String
  /-- how it ended -/
  outcome : Outcome
  deriving DecidableEq, Repr

/-- Where the savegame folder is kept. -/
structure Redirect where
  /-- the folder on the host -/
  path : String
  /-- whether to start with a copy of the old folder -/
  clone : Bool
  deriving DecidableEq, Repr

/-- The external files of a patch that needs some. -/
def Patch.required (patch : Patch) : Except Error External :=
  match patch.external with
  | some external => .ok external
  | none => .error (.noExternal patch.name)

end DiscPatch
