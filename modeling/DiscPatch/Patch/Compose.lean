import DiscPatch.Content.Overwrite
import DiscPatch.Disc.Lookup
import DiscPatch.Patch.Directive

/-!
# Composing a patched disc

* `Disc` — the tree, and the main executable, which stands apart from it;
* `applyFile` — one file directive: find its target, then lay the external file over it;
* `applyFolder` — a folder directive: one file directive for each external file;
* `applyPatches` — the file directives and then the folder directives of each patch;
* `savegameRedirect` — the redirect that counts.

A directive that misses its target or its external file is reported and does not stop the others.
-/

namespace DiscPatch

/-- A disc under construction. -/
structure Disc where
  /-- the tree -/
  root : Folder
  /-- the main executable, if there is one -/
  main : Option File

/-- The default name of the main executable. -/
def defaultExecutable : String := "main.dol"

/-- Two paths with one separator between them. -/
def joinPaths (a b : String) : String :=
  if a = "" then b
  else if b = "" then a
  else
    let front := if a.toList.getLast? = some '/' then String.ofList a.toList.dropLast else a
    let back := if b.toList.head? = some '/' then String.ofList b.toList.tail else b
    front ++ "/" ++ back

/-- A file that a directive may change. -/
inductive Target where
  /-- the main executable -/
  | main
  /-- the file at a place in the tree -/
  | place (place : Location)
  deriving DecidableEq, Repr

/-- The target of a file directive, or the outcome if it has none. A path that starts with `/` is
followed, and created on demand; the executable's name stands for the executable; any other name
stands for the first file that has it. -/
def findTarget (executable : String) (directive : FileDirective) :
    Edit Disc (Except Outcome Target) := do
  let disc ← get
  if directive.disc.toList.head? = some '/' then
    let path := String.ofList directive.disc.toList.tail
    let (children, answer) := reach directive.create path disc.root.children
    set { disc with root := { disc.root with children := children } }
    match answer with
    | .ok place => return .ok (.place place)
    | .error fault =>
      Edit.note (.targetMissed directive.disc fault)
      return .error (if fault.isMismatch then .typeMismatch else .skipped)
  else if sameName directive.disc executable then
    match disc.main with
    | some _ => return .ok .main
    | none =>
      Edit.note (.noExecutable directive.disc)
      return .error .skipped
  else
    match findFile? directive.disc 0 disc.root.children with
    | some place => return .ok (.place place)
    | none =>
      Edit.note (.noSuchName directive.disc)
      return .error .skipped

/-- The file a target stands for. -/
def Disc.file? (disc : Disc) : Target → Option File
  | .main => disc.main
  | .place place => fileAt? place disc.root.children

/-- The disc with another file in place of a target. -/
def Disc.setFile (disc : Disc) (file : File) : Target → Disc
  | .main => { disc with main := some file }
  | .place place =>
    { disc with root := { disc.root with children := modifyAt file place disc.root.children } }

/-- Lay the external file of a directive over a file. -/
def File.applyDirective (external : External) (directive : FileDirective) : Edit File Bool :=
  File.overwrite external directive.external (wordStart directive.offset) directive.fileOffset
    directive.length directive.resize

/-- Edit the file a target stands for. -/
def editTarget {α : Type} (target : Target) (edit : Edit File α) (absent : α) : Edit Disc α := do
  let disc ← get
  match disc.file? target with
  | none => return absent
  | some file =>
    let (answer, file) ← Edit.fromLogged (edit.result file)
    set (disc.setFile file target)
    ExceptT.mk (pure answer)

/-- Carry out a file directive. -/
def applyFile (external : External) (executable : String) (directive : FileDirective) :
    Edit Disc FileReport := do
  let report := FileReport.mk directive.disc directive.external
  if min (min directive.offset directive.fileOffset) directive.length < 0 then
    Edit.note (.negativeDirective directive.disc)
    return report .skipped
  match ← findTarget executable directive with
  | .error outcome => return report outcome
  | .ok target =>
    let laid ← editTarget target (File.applyDirective external directive) false
    return report (if laid then .applied else .resourceUnavailable)

/-- The file directive that a folder directive stands for at one external file. -/
def FolderDirective.forFile (directive : FolderDirective) (disc external : String) :
    Except Error FileDirective :=
  if directive.length < 0 then .error (.invalid (Segment.negativeFlaw "length" directive.length))
  else .ok {
    disc := disc
    external := external
    offset := 0
    fileOffset := 0
    length := directive.length
    resize := directive.resize
    create := directive.create }

/-- Carry out a folder directive for one folder: its files in turn, and its folders where they stand
among them. `fuel` bounds how deep folders may be nested. -/
def applyFolderAt (external : External) (executable : String) (directive : FolderDirective) :
    (fuel : Nat) → (disc path : String) → Edit Disc (List FileReport)
  | 0, _, _ => throw .nestedTooDeep
  | fuel + 1, disc, path => do
    let entries ← Edit.fromFallible (external.entries path)
    let reports ← entries.mapM fun entry => do
      let childDisc := joinPaths disc entry.name
      let childPath := joinPaths path entry.name
      if entry.isFolder then
        if directive.recursive then
          applyFolderAt external executable directive fuel childDisc childPath
        else return []
      else
        let single ← ExceptT.mk (pure (directive.forFile childDisc childPath))
        return [← applyFile external executable single]
    return reports.flatten

/-- Carry out a folder directive. -/
def applyFolder (external : External) (executable : String) (directive : FolderDirective)
    (disc path : String) : Edit Disc (List FileReport) :=
  applyFolderAt external executable directive (external.depth + 1) disc path

/-- Carry out the file directives and then the folder directives of a patch. -/
def applyPatch (executable : String) (patch : Patch) : Edit Disc (List FileReport) := do
  let external ← ExceptT.mk (pure patch.required)
  let files ← patch.files.mapM (applyFile external executable)
  let folders ← patch.folders.mapM fun directive =>
    applyFolder external executable directive directive.disc directive.external
  return files ++ folders.flatten

/-- Carry out the file and folder directives of all patches in turn. There is one report for each
file directive, those that folder directives stand for included. -/
def applyPatches (executable : String) (patches : List Patch) : Edit Disc (List FileReport) := do
  let reports := (← patches.mapM (applyPatch executable)).flatten
  Edit.note (.batchDone (reports.countP (·.outcome == .applied)) reports.length)
  return reports

/-- The first savegame directive of the first patch that has any decides. -/
def savegameRedirect : List Patch → Logged (Except Error (Option Redirect))
  | [] => return .ok none
  | patch :: rest =>
    match patch.savegames with
    | [] => savegameRedirect rest
    | directive :: _ =>
      match patch.required with
      | .error error => return .error error
      | .ok external => do
        let path ← external.savegame? directive.external
        return .ok (path.map (Redirect.mk · directive.clone))

end DiscPatch
