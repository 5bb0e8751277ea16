import DiscPatch.Document.Reader
import DiscPatch.External.Host
import DiscPatch.Patch.Schema

/-!
# Patch lists

A patch list is a document: a list of patches, each with the folder its relative external paths
start from. What makes a patch of the other fields of an entry is up to `check`.

* `patchOf` — one entry of the list;
* `patchesOf` — the whole list;
* `loadPatches` — a patch list in a host file.
-/

namespace DiscPatch.Command

open DiscPatch.Host (FileSystem)

/-- The folder that an entry gives for its relative paths; a blank value counts as none. -/
def rootOf (fields : Fields) : Except Error String :=
  match fields.get? "root" with
  | none => .ok ""
  | some (.text root) => .ok root
  | some value => if value.isBlank then .ok "" else .error .rootNotText

/-- The patch of an entry, with its external files on the host. -/
def patchOf (check : Check Patch) (fs : FileSystem) (card path : String) (fields : Fields) :
    Logged (Except Error Patch) :=
  match rootOf fields with
  | .error error => return .error error
  | .ok root => do
    let start ← patchRoot card path root
    match check (.object ((fields.erase "root").erase "loader")) with
    | .error flaws => return .error (.invalid flaws)
    | .ok patch => return .ok { patch with external := some (External.host fs ⟨card, start⟩) }

/-- The patches of the entries, up to the first that is not in order. -/
def patchesFrom (check : Check Patch) (fs : FileSystem) (card path : String) :
    List Document → Logged (Except Error (List Patch))
  | [] => return .ok []
  | .object fields :: rest => do
    match ← patchOf check fs card path fields with
    | .error error => return .error error
    | .ok patch => return (← patchesFrom check fs card path rest).map (patch :: ·)
  | _ :: _ => return .error (.notPatchEntry path)

/-- The patches of a document that stands at `path`. -/
def patchesOf (check : Check Patch) (fs : FileSystem) (card path : String) :
    Document → Logged (Except Error (List Patch))
  | .list entries => patchesFrom check fs card path entries
  | _ => return .error (.notPatchList path)

/-- The document in a host file. -/
def readDocument (fs : FileSystem) (path : String) : Except Error Document := do
  let data ← (fs.readFile path).mapError .host
  match data.toText? with
  | none => throw .undecodable
  | some text => Document.parse text

/-- The patches in a host file. -/
def loadPatches (check : Check Patch) (fs : FileSystem) (card path : String) :
    Logged (Except Error (List Patch)) :=
  match readDocument fs path with
  | .error error => return .error error
  | .ok document => patchesOf check fs card path document

end DiscPatch.Command
