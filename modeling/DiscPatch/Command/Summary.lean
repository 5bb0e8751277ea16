import DiscPatch.Disc.Node
import DiscPatch.Document.Printer
import DiscPatch.Patch.Directive

/-!
# The summary of a run

What came of each directive, and the files of the composed disc, either for people or as a document.
-/

namespace DiscPatch.Command

/-- A file of the composed disc. -/
structure FileLine where
  /-- its path -/
  path : String
  /-- its size -/
  size : Int
  /-- how many segments serve it -/
  segments : Nat
  deriving DecidableEq, Repr

/-- The files of a folder in order. -/
def fileLines (folder : Folder) : List FileLine :=
  (listing "" folder.children).map fun (path, file) => ⟨path, file.size, file.segments.length⟩

/-- A summary as a document. -/
def summaryDocument (reports : List FileReport) (files : List FileLine) : String :=
  let reportOutput (report : FileReport) : Output := .object [
    ("disc", .text report.disc), ("external", .text report.external),
    ("outcome", .text report.outcome.label)]
  let fileOutput (file : FileLine) : Output := .object [
    ("path", .text file.path), ("size", .int file.size), ("segments", .int file.segments)]
  Output.render (.object [
    ("results", .list (reports.map reportOutput)), ("files", .list (files.map fileOutput))])

/-- The outcomes in the order of their words. -/
def outcomesByWord : List Outcome :=
  [.applied, .expectedMismatch, .patternNotFound, .resourceUnavailable, .skipped, .typeMismatch]

/-- A line across the page. -/
def rule : String :=
  String.ofList (List.replicate 60 '=')

/-- A summary for people, line by line. -/
def summaryLines (reports : List FileReport) (files : List FileLine) : List String :=
  let count outcome := reports.countP (·.outcome == outcome)
  ["\n" ++ rule, "Disc Overlay Results", rule,
    "\nFile patches (" ++ toString reports.length ++ " total):"] ++
  ((outcomesByWord.filter (count · ≠ 0)).map fun outcome =>
    "  " ++ outcome.label ++ ": " ++ toString (count outcome)) ++
  ["\nFiles (" ++ toString files.length ++ "):"] ++
  (files.map fun file =>
    "  " ++ file.path ++ "  " ++ toString file.size ++ " bytes  " ++ toString file.segments ++
      " segment(s)") ++
  ["\n" ++ rule]

/-- Lines as text. -/
def textOf (lines : List String) : String :=
  String.join (lines.map (· ++ "\n"))

end DiscPatch.Command
