import DiscPatch.Document.Check
import DiscPatch.Machine.Batch
import DiscPatch.Patch.Compose
import DiscPatch.Settings.EnvFile

/-!
# Settings

Settings come from variables of the environment, and from a file of variables for those that the
environment does not set.

* `Settings` — what can be set;
* `Settings.load` — settings from variables;
* `Settings.threshold` — how much an event has to matter to be shown.
-/

namespace DiscPatch

open DiscPatch.Text (dropEnds isBlank lower upper integerLiteral)

/-- What can be set. -/
structure Settings where
  /-- the name of the main executable -/
  executable : String
  /-- where memory starts -/
  memoryBase : Int
  /-- whether a hook without a return instruction is a failure -/
  strictHooks : Bool
  /-- which events are shown -/
  logLevel : String
  deriving DecidableEq, Repr

namespace Settings

/-- The settings if nothing is set. -/
def default : Settings :=
  ⟨defaultExecutable, Machine.defaultBase, false, "WARNING"⟩

/-- Settings in a document. -/
def check : Check Settings :=
  Check.object fun fields =>
    (Checked.build Settings.mk).also
        (Check.optional fields "main_executable" Check.text default.executable)
      |>.also (Check.optional fields "ram_base" Check.natural default.memoryBase)
      |>.also (Check.optional fields "strict_hooks" Check.truth default.strictHooks)
      |>.also (Check.optional fields "log_level" Check.text default.logLevel)

/-- The words that switch something on. -/
def onWords : List String := ["1", "true", "yes", "on"]

/-- The value of a variable without blanks around it, if there is anything else. -/
def stripped? (value : Option String) : Option String :=
  (value.map (dropEnds isBlank)).filter (· ≠ "")

/-- The integer in a variable. -/
def integerIn (value : Option String) (default : Int) : Except Error Int :=
  match stripped? value with
  | none => .ok default
  | some literal => integerLiteral literal

/-- The switch in a variable. -/
def switchIn (value : Option String) (default : Bool) : Bool :=
  match stripped? value with
  | none => default
  | some word => onWords.contains (lower word)

/-- The text in a variable; an empty one counts as not set. -/
def textIn (value : Option String) (default : String) : String :=
  (value.filter (· ≠ "")).getD default

/-- Settings from variables. -/
def load (given : List (String × String)) : Except Error Settings := do
  let value name := (given.find? (·.1 == name)).map (·.2)
  let memoryBase ← integerIn (value "DISC_OVERLAY_RAM_BASE") default.memoryBase
  if memoryBase < 0 then throw (.invalid [⟨[.field "ram_base"], .tooSmall⟩])
  return {
    executable := textIn (value "DISC_OVERLAY_MAIN_EXECUTABLE") default.executable
    memoryBase := memoryBase
    strictHooks := switchIn (value "DISC_OVERLAY_STRICT_HOOKS") default.strictHooks
    logLevel := upper (textIn (value "DISC_OVERLAY_LOG_LEVEL") default.logLevel) }

/-- The names of levels and their weights. -/
def levels : List (String × Nat) :=
  [("CRITICAL", 50), ("FATAL", 50), ("ERROR", 40), ("WARNING", 30), ("WARN", 30), ("INFO", 20),
    ("DEBUG", 10), ("NOTSET", 0)]

/-- The weight an event needs to be shown; a level of no known name stands for warnings. -/
def threshold (settings : Settings) (verbose : Bool) : Nat :=
  if verbose then Level.debug.weight
  else ((levels.find? (·.1 == settings.logLevel)).map (·.2)).getD Level.warning.weight

end Settings

end DiscPatch
