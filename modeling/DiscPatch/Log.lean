import DiscPatch.Error

/-!
# The log

Operations note what they skip or refuse. Notes are values: an operation returns them together with
its answer, in the order in which they arose.

* `Event` — what was noted, by cause; `Event.level`, `Event.topic` and `Event.message` give its
  weight, the part of the program it belongs to, and its wording;
* `Logged` — an answer with the events noted on the way to it.
-/

namespace DiscPatch

open DiscPatch.Text (quoted paddedHex)

/-- How much an event matters. -/
inductive Level where
  /-- of interest when looking for a mistake -/
  | debug
  /-- the ordinary course of work -/
  | info
  /-- something was refused or dropped -/
  | warning
  deriving DecidableEq, Repr

/-- A number that orders levels: the heavier, the larger. -/
def Level.weight : Level → Nat
  | .debug => 10
  | .info => 20
  | .warning => 30

/-- The name of a level. -/
def Level.label : Level → String
  | .debug => "DEBUG"
  | .info => "INFO"
  | .warning => "WARNING"

/-- Where external files are kept. -/
inductive Keeper where
  /-- in the host file system -/
  | host
  /-- in memory -/
  | shelf
  deriving DecidableEq, Repr

/-- Something worth noting. -/
inductive Event where
  /-- a host file could not be measured -/
  | hostFileMissing (path : String)
  /-- an external file is not there -/
  | externalMissing (path : String)
  /-- a path leads to no file of the disc -/
  | notResolved (path : String) (fault : LookupFault)
  /-- the target of a directive was not reached -/
  | targetMissed (disc : String) (fault : LookupFault)
  /-- there is no main executable to patch -/
  | noExecutable (disc : String)
  /-- no file has the name a directive gives -/
  | noSuchName (disc : String)
  /-- a directive has a negative number -/
  | negativeDirective (disc : String)
  /-- a batch of file directives is done -/
  | batchDone (applied total : Nat)
  /-- an external path leaves its root -/
  | rejectedPath (keeper : Keeper) (cause : Escape)
  /-- an external path goes through a link -/
  | rejectedLink (path : String)
  /-- a savegame path leaves its root -/
  | rejectedSavegame (cause : Escape)
  /-- a patch root leaves its own root -/
  | ignoredRoot (root : String) (cause : Escape)
  /-- an external file cannot be read -/
  | cannotRead (path : String) (fault : OsFault)
  /-- an external folder cannot be listed -/
  | cannotList (path : String) (fault : OsFault)
  /-- files were written out -/
  | exported (count : Nat) (folder : String)
  /-- a memory write dropped hooks -/
  | writeDroppedHooks (count : Nat) (address : Int) (size : Nat)
  /-- a branch dropped hooks -/
  | branchDroppedHooks (count : Nat) (address : Int)
  /-- memory does not hold the bytes a directive expects -/
  | expectedDiffers (address : Int)
  /-- a searched pattern does not occur -/
  | patternMissing (start length : Int)
  /-- no return instruction follows a pattern -/
  | returnMissing (address : Int)
  deriving DecidableEq, Repr

/-- How much an event matters. -/
def Event.level : Event → Level
  | .negativeDirective _ | .rejectedPath _ _ | .rejectedLink _ | .rejectedSavegame _
  | .ignoredRoot _ _ | .writeDroppedHooks _ _ _ | .branchDroppedHooks _ _ => .warning
  | .batchDone _ _ | .exported _ _ => .info
  | _ => .debug

/-- The part of the program an event belongs to. -/
def Event.topic : Event → String
  | .hostFileMissing _ => "disc_overlay.content.range_index"
  | .externalMissing _ => "disc_overlay.content.splice"
  | .notResolved _ _ => "disc_overlay.tree.resolver"
  | .targetMissed _ _ | .noExecutable _ | .noSuchName _ | .negativeDirective _
  | .batchDone _ _ => "disc_overlay.tree.applier"
  | .rejectedPath .host _ | .rejectedLink _ | .cannotRead _ _
  | .cannotList _ _ => "disc_overlay.loaders.host_fs"
  | .rejectedPath .shelf _ | .rejectedSavegame _ => "disc_overlay.loaders.in_memory"
  | .ignoredRoot _ _ => "disc_overlay.loaders.sandbox"
  | .exported _ _ => "disc_overlay.tree.host_tree"
  | .writeDroppedHooks _ _ _ | .branchDroppedHooks _ _ | .expectedDiffers _ | .patternMissing _ _
  | .returnMissing _ => "disc_overlay.memory.engine"

/-- The wording of an event. -/
def Event.message : Event → String
  | .hostFileMissing path => "Host file " ++ path ++ " is not readable, adding empty segment"
  | .externalMissing path => "External file " ++ path ++ " unavailable, skipping patch"
  | .notResolved path fault => "Cannot resolve " ++ quoted path ++ ": " ++ fault.message
  | .targetMissed disc fault => "Skipping patch for " ++ disc ++ ": " ++ fault.message
  | .noExecutable disc => "Skipping patch for " ++ disc ++ ": no executable node"
  | .noSuchName disc => "Skipping patch for " ++ disc ++ ": no file with that name"
  | .negativeDirective disc => "Skipping patch for " ++ disc ++ ": negative offset or length"
  | .batchDone applied total =>
    "Applied " ++ toString applied ++ " of " ++ toString total ++ " file patches"
  | .rejectedPath _ cause => "Rejected external path: " ++ cause.message
  | .rejectedLink path => "Rejected external path through symlink: " ++ path
  | .rejectedSavegame cause => "Rejected savegame path: " ++ cause.message
  | .ignoredRoot root cause => "Ignoring patch root " ++ quoted root ++ ": " ++ cause.message
  | .cannotRead path fault => "Cannot read " ++ path ++ ": " ++ fault.message
  | .cannotList path fault => "Cannot list " ++ path ++ ": " ++ fault.message
  | .exported count folder => "Exported " ++ toString count ++ " files to " ++ folder
  | .writeDroppedHooks count address size =>
    "Memory patch overlaps " ++ toString count ++ " hook(s) at " ++ paddedHex 8 "" address ++
      " (size: " ++ toString size ++ ")"
  | .branchDroppedHooks count address =>
    "Hook patch overlaps " ++ toString count ++ " hook(s) at " ++ paddedHex 8 "" address
  | .expectedDiffers address =>
    "Original bytes differ at " ++ paddedHex 8 "" address ++ ", skipping"
  | .patternMissing start length =>
    "Search pattern not found in " ++ paddedHex 8 "" start ++ "+" ++ paddedHex 0 "" length
  | .returnMissing address =>
    "No return instruction after hook pattern at " ++ paddedHex 8 "" address

/-! ## Answers with events -/

/-- An answer and the events noted on the way to it, oldest first. -/
structure Logged (α : Type) where
  /-- the answer -/
  value : α
  /-- what was noted -/
  events : List Event

namespace Logged

/-- Carry on with an answer; the events of the second part follow those of the first. -/
def andThen {α β : Type} (first : Logged α) (next : α → Logged β) : Logged β :=
  ⟨(next first.value).value, first.events ++ (next first.value).events⟩

instance : Monad Logged where
  pure a := ⟨a, []⟩
  bind := andThen

/-- Note one event. -/
def note (event : Event) : Logged Unit :=
  ⟨(), [event]⟩

@[simp] theorem value_pure {α : Type} (a : α) : (pure a : Logged α).value = a := rfl

@[simp] theorem events_pure {α : Type} (a : α) : (pure a : Logged α).events = [] := rfl

@[simp] theorem value_bind {α β : Type} (x : Logged α) (f : α → Logged β) :
    (x >>= f).value = (f x.value).value := rfl

@[simp] theorem events_bind {α β : Type} (x : Logged α) (f : α → Logged β) :
    (x >>= f).events = x.events ++ (f x.value).events := rfl

instance : LawfulMonad Logged := LawfulMonad.mk' Logged
  (fun x => by cases x; simp [Functor.map, andThen])
  (fun _ _ => by simp [bind, pure, andThen])
  (fun _ _ _ => by simp [bind, andThen, List.append_assoc])

end Logged

/-! ## Edits of a state

An edit changes a state, notes events, and either answers or fails. What it changed before a
failure stays changed. -/

/-- A computation that edits a state of type `σ`. -/
abbrev Edit (σ : Type) := ExceptT Error (StateT σ Logged)

namespace Edit

/-- Run an edit: its answer or its failure, the state it leaves, and what it noted. -/
def result {σ α : Type} (edit : Edit σ α) (state : σ) : Logged (Except Error α × σ) :=
  edit.run.run state

/-- Note what a computation without state notes, and take its answer. -/
def fromLogged {σ α : Type} (answer : Logged α) : Edit σ α :=
  ExceptT.lift (StateT.lift answer)

/-- Note what a fallible computation without state notes, and take its answer or its failure. -/
def fromFallible {σ α : Type} (answer : Logged (Except Error α)) : Edit σ α :=
  ExceptT.mk (StateT.lift answer)

/-- Note one event. -/
def note {σ : Type} (event : Event) : Edit σ Unit :=
  fromLogged (Logged.note event)

end Edit

end DiscPatch
