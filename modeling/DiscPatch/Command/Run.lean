import DiscPatch.Command.Arguments
import DiscPatch.Command.PatchList
import DiscPatch.Command.Summary
import DiscPatch.Disc.Export
import DiscPatch.Disc.HostFolder
import DiscPatch.Host.RealPath
import DiscPatch.Settings

/-!
# Running a command

A run takes arguments, variables and a file system, and gives an exit code, what is shown on the two
channels, and the file system afterwards.

* `Ending`, `Failure` — how a run ends;
* `resolveTask`, `applyTask` — the two commands;
* `run` — a whole run.
-/

namespace DiscPatch.Command

open DiscPatch.Host (FileSystem WrittenPath absolute)

/-- How a run went. -/
structure Ending where
  /-- the exit code -/
  code : Nat
  /-- what is shown on the main channel -/
  shown : String
  /-- what is shown on the channel for events and failures -/
  noted : String
  /-- the mistake in the arguments, if there is one -/
  usage : Option String
  /-- the failure that was met, if there is one -/
  failure : Option Error
  /-- the file system afterwards -/
  files : FileSystem

/-- Why a run stops early. -/
structure Failure where
  /-- the exit code -/
  code : Nat
  /-- the line that says why -/
  line : String
  /-- the failure behind it, if there is one -/
  cause : Option Error

/-- The code for input that is not in order. -/
def exitInvalid : Nat := 1

/-- The code for a path that leaves its root. -/
def exitEscape : Nat := 2

/-- The code for arguments that do not fit. -/
def exitUsage : Nat := 2

/-- The code for content that cannot be composed. -/
def exitContent : Nat := 3

/-- The code for any other failure. -/
def exitUnexpected : Nat := 5

/-- The failure that an error amounts to. -/
def Failure.ofError (code : Nat) (label : String) (error : Error) : Failure :=
  ⟨code, label ++ ": " ++ error.message?.getD "...", some error⟩

/-- The failure that no command expects. -/
def Failure.unexpected (error : Error) : Failure :=
  .ofError exitUnexpected "Unexpected error" error

/-- Whether an error is about content: segments that overlap, or bytes that cannot be had. -/
def isContentError : Error → Bool
  | .overlap _ _ _ _ => true
  | .read .nulInPath | .read .farPosition | .read .badCount | .read .farCount
  | .read .tooLong => false
  | .read _ => true
  | _ => false

/-- A part of a run: it notes events, changes files, and may stop the run. -/
abbrev Work := ExceptT Failure (StateT FileSystem Logged)

namespace Work

/-- Take an answer or stop as `failure` says. -/
def orStop {α : Type} (failure : Error → Failure) : Except Error α → Work α
  | .ok value => pure value
  | .error error => throw (failure error)

/-- Note what a computation notes. -/
def noting {α : Type} (answer : Logged α) : Work α :=
  ExceptT.lift (StateT.lift answer)

/-- Do an edit of some other state, and return that state with the answer. -/
def editing {σ α : Type} (failure : Error → Failure) (edit : Edit σ α) (state : σ) :
    Work (α × σ) := do
  let (answer, state) ← noting (edit.result state)
  return (← orStop failure answer, state)

/-- Do an edit of the file system. -/
def editingFiles {α : Type} (failure : Error → Failure) (edit : Edit FileSystem α) : Work α := do
  let (answer, files) ← noting (edit.result (← get))
  set files
  orStop failure answer

end Work

open Work

/-- Show where an external path leads. -/
def resolveTask (path card patch : String) : Work String :=
  match Roots.locate ⟨card, if patch = "" then card else patch⟩ path with
  | .ok located => return located ++ "\n"
  | .error cause => throw (.ofError exitEscape "Rejected path" (.escape cause))

/-- The place a path given by the user stands for, free of links. -/
def placeOf (path : String) : Work (List String) := do
  orStop .unexpected ((← get).realPath (WrittenPath.ofText path).text)

/-- Apply a patch list to a folder, and show what came of it. -/
def applyTask (check : Check Patch) (settings : Settings) (base patches card output : String)
    (asDocument verbose : Bool) : Work String := do
  let basePath := absolute (← placeOf base)
  if (← get).isFolder basePath = false then
    throw ⟨exitInvalid, "Error: '" ++ base ++ "' is not a valid directory.", none⟩
  let patchTrail ← placeOf patches
  if (← get).isFile (absolute patchTrail) = false then
    throw ⟨exitInvalid, "Error: '" ++ patches ++ "' is not a file.", none⟩
  let cardTrail ← if card = "" then pure patchTrail.dropLast else placeOf card
  let patchList ← orStop (fun error => match error with
      | .rootNotText | .host _ => .unexpected error
      | _ => .ofError exitInvalid "Invalid patch list" error)
    (← noting (loadPatches check (← get) (absolute cardTrail) (absolute patchTrail)))
  let found ← orStop .unexpected (← noting (Folder.describe (← get) basePath ""))
  let (main, root) := found.detach settings.executable
  let (reports, disc) ← editing .unexpected (applyPatches settings.executable patchList)
    ⟨root, main⟩
  let composed := disc.root.attach disc.main
  let exported ←
    if output = "" then pure ""
    else do
      let count ← editingFiles (fun error =>
          if isContentError error then .ofError exitContent "Failed to compose files" error
          else .unexpected error)
        (composed.exportTo output)
      pure (if verbose then "Wrote " ++ toString count ++ " files to " ++ output ++ "\n" else "")
  let files := fileLines composed
  return exported ++ if asDocument then summaryDocument reports files ++ "\n"
    else textOf (summaryLines reports files)

/-- Do what the user asks for. -/
def perform (settings : Settings) (request : Request) : Work String :=
  match request.task with
  | .resolve path card patch => resolveTask path card patch
  | .apply base patches card output asDocument =>
    applyTask Patch.check settings base patches card output asDocument request.verbose

/-- The line for an event. -/
def eventLine (event : Event) : String :=
  event.level.label ++ " " ++ event.topic ++ ": " ++ event.message

/-- How a run ends that stopped early, after some events were shown. -/
def Ending.ofFailure (files : FileSystem) (events : List String) (failure : Failure) : Ending :=
  ⟨failure.code, "", textOf (events ++ [failure.line]), none, failure.cause, files⟩

/-- Run the program. -/
def run (environment : List (String × String)) (files : FileSystem) (arguments : List String) :
    Ending :=
  match parseArguments arguments with
  | .error (.mistake program text) =>
    ⟨exitUsage, "", "", some (program ++ ": error: " ++ text), none, files⟩
  | .error (.help program) =>
    ⟨0, "usage: " ++ program ++ " [-h] ...\n", "", none, none, files⟩
  | .ok request =>
    match Settings.load environment with
    | .error error =>
      .ofFailure files [] (.ofError exitInvalid "Invalid settings" error)
    | .ok settings =>
      let ⟨(answer, after), events⟩ := ((perform settings request).run.run files : Logged _)
      let threshold := settings.threshold request.verbose
      let noted := (events.filter (threshold ≤ ·.level.weight)).map eventLine
      match answer with
      | .ok shown => ⟨0, shown, textOf noted, none, none, after⟩
      | .error failure => .ofFailure after noted failure

end DiscPatch.Command
