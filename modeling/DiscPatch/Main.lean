import DiscPatch.Command.Run

/-!
# The program

The outer layer of the command line. A run is a function of arguments, variables and files, so all
that happens here is to gather those, and to put back what the run has changed.

* `gather` — the part of the host file system that a task can look at;
* `putBack` — the files that a run has written;
* `main` — a whole run.
-/

namespace DiscPatch.Program

open DiscPatch.Command (Task parseArguments)
open DiscPatch.Host (Entry FileSystem absolute isAbsolute pathParts)

/-- A tree with an entry put at the end of the names; folders are added where names are missing. -/
def graft (new : Entry) : List String → Entry → Entry
  | [], _ => new
  | name :: names, tree =>
    let entries := match tree with
      | .folder entries => entries
      | _ => []
    let old := (entries.lookup name).getD (.folder [])
    .folder (Host.insert name (graft new names old) entries)

/-- A file system with an entry put at the end of the names from the top. -/
def add (files : FileSystem) (trail : List String) (entry : Entry) : FileSystem :=
  match graft entry trail files.top with
  | .folder root => { files with root := root }
  | _ => files

/-- What an entry of a host folder is, with all that lies below it. -/
partial def entryOf (found : IO.FS.DirEntry) : IO (String × Entry) := do
  let entry ← match (← found.path.symlinkMetadata).type with
    | .dir => pure (Entry.folder (← (← found.path.readDir).toList.mapM entryOf))
    | .file => pure (Entry.file (← IO.FS.readBinFile found.path).toList)
    | .symlink => pure (Entry.link (← IO.FS.realPath found.path).toString)
    | .other => pure Entry.pipe
  return (found.fileName, entry)

/-- A file system that also holds what stands at a path of the host: the links on the way, and the
place they lead to with all that lies below it. -/
def addPlace (files : FileSystem) (path : String) : IO FileSystem := do
  let start := if isAbsolute path then [] else files.current
  let mut trail := start
  let mut files := files
  for name in pathParts path do
    let way : IO.FS.DirEntry := ⟨absolute trail, name⟩
    trail := if name = "." then trail else if name = ".." then trail.dropLast else trail ++ [name]
    match ← way.path.symlinkMetadata.toBaseIO with
    | .ok status =>
      if status.type == .symlink then
        let target := (← IO.FS.realPath way.path).toString
        files := add files trail (.link target)
        trail := pathParts target
    | .error _ => return files
  let place : IO.FS.DirEntry := ⟨absolute trail.dropLast, trail.getLast?.getD "."⟩
  if ← place.path.pathExists then return add files trail (← entryOf place).2
  return files

/-- The folder that a path lies in, as far as it can be told from its names. -/
def folderAbove (path : String) : String :=
  let folder := folderOf path
  if folder = "" then "." else folder

/-- The part of the host file system that a task can look at. -/
def gather (current : List String) (task : Task) : IO FileSystem := do
  let files : FileSystem := ⟨[], current⟩
  match task with
  | .resolve _ _ _ => return files
  | .apply base patches card output _ =>
    let places := [base, folderAbove patches, card, output].filter (· ≠ "")
    places.foldlM addPlace (add files current (.folder []))

/-- Write the files that are new or changed after a run. -/
def putBack (before after : FileSystem) : IO Unit := do
  let old := before.top.filesFrom []
  for (trail, data) in after.top.filesFrom [] do
    unless old.any fun (place, content) => place == trail && content == data do
      IO.FS.createDirAll (absolute trail.dropLast)
      IO.FS.writeBinFile (absolute trail) ⟨data.toArray⟩

/-- The names of the variables that a run looks at. -/
def variableNames : List String :=
  ["DISC_OVERLAY_MAIN_EXECUTABLE", "DISC_OVERLAY_RAM_BASE", "DISC_OVERLAY_STRICT_HOOKS",
    "DISC_OVERLAY_LOG_LEVEL"]

/-- The variables of the environment, completed by the file `.env` of the working folder. -/
def environment : IO (List (String × String)) := do
  let given ← variableNames.filterMapM fun name => do
    return (← IO.getEnv name).map (name, ·)
  let file ← (IO.FS.readFile ".env").toBaseIO
  return EnvFile.merge given file.toOption

/-- A run with the arguments of the command line; the result is the exit code. -/
def start (arguments : List String) : IO UInt32 := do
  let current := pathParts (← IO.currentDir).toString
  let files ← match parseArguments arguments with
    | .ok request => gather current request.task
    | .error _ => pure ⟨[], current⟩
  let ending := Command.run (← environment) files arguments
  putBack files ending.files
  IO.print ending.shown
  IO.eprint ending.noted
  if let some line := ending.usage then IO.eprintln line
  return ending.code.toUInt32

end DiscPatch.Program

/-- The program. -/
def main (arguments : List String) : IO UInt32 :=
  DiscPatch.Program.start arguments
