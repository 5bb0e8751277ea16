import DiscPatch.Text.Digit
import DiscPatch.Text.Quoted

/-!
# Command-line arguments

Arguments are values and options in any order. An option may be given by any start of its name that
fits no other option, and its value after `=` or as the next argument. After `--` everything is a
value.

* `Grammar`, `Flag` — what a command takes;
* `classify` — arguments as tokens;
* `readTokens` — values and options matched to what the command takes;
* `Request`, `parseArguments` — what the user asks for.
-/

namespace DiscPatch.Command

open DiscPatch.Text (digitValue? quoted)

/-! ## Grammars -/

/-- An option of a command. -/
structure Flag where
  /-- the ways to write it -/
  names : List String
  /-- whether a value comes with it -/
  takesValue : Bool
  /-- whether it has to be given -/
  needed : Bool
  deriving DecidableEq, Repr

/-- The name of an option in messages. -/
def Flag.label (flag : Flag) : String :=
  "/".intercalate flag.names

/-- What a command takes. -/
structure Grammar where
  /-- the name of the command in messages -/
  program : String
  /-- its options -/
  flags : List Flag
  /-- the names of its values -/
  values : List String
  deriving DecidableEq, Repr

/-- Every option name with its option. -/
def Grammar.flagNames (grammar : Grammar) : List (String × Flag) :=
  grammar.flags.flatMap fun flag => flag.names.map (·, flag)

/-- Why arguments are not accepted. -/
inductive UsageError where
  /-- they do not fit the command -/
  | mistake (program text : String)
  /-- the user asks how to use the command -/
  | help (program : String)
  deriving DecidableEq, Repr

/-! ## Tokens -/

/-- What an argument is. -/
inductive Token where
  /-- a value -/
  | value (text : String)
  /-- an option as it was written, possibly with a value after `=` -/
  | option (flag : Flag) (name : String) (given : Option String)
  /-- something that looks like an option and is none -/
  | unknown (text : String)
  /-- the mark after which everything is a value -/
  | separator
  deriving DecidableEq, Repr

/-- The argument a token was made of; for options only its name. -/
def Token.text : Token → String
  | .value text | .unknown text => text
  | .option _ name _ => name
  | .separator => "--"

/-- Whether a text is a negative number. -/
def isNegativeNumber (text : List Char) : Bool :=
  match text with
  | '-' :: rest =>
    let isDigit c := (digitValue? c).isSome
    match rest.span isDigit with
    | ([], '.' :: places) => places ≠ [] && places.all isDigit
    | ([], _) => false
    | (_, []) => true
    | (_, '.' :: places) => places ≠ [] && places.all isDigit
    | _ => false
  | _ => false

/-- An argument in two at its first `=`. -/
def splitGiven (text : String) : String × Option String :=
  match text.toList.span (· ≠ '=') with
  | (name, _ :: given) => (String.ofList name, some (String.ofList given))
  | (_, []) => (text, none)

/-- The options that an argument may stand for, each with its full name and the value given. -/
def candidates (grammar : Grammar) (text : String) : List Token :=
  match text.toList with
  | '-' :: '-' :: _ =>
    let (start, given) := splitGiven text
    grammar.flagNames.filterMap fun (name, flag) =>
      if start.toList.isPrefixOf name.toList then some (.option flag name given) else none
  | '-' :: letter :: given =>
    grammar.flagNames.filterMap fun (name, flag) =>
      if name.toList = ['-', letter] then some (.option flag name (some (String.ofList given)))
      else if text.toList.isPrefixOf name.toList then some (.option flag name none)
      else none
  | _ => []

/-- What an argument in front of `--` is. -/
def classifyOne (grammar : Grammar) (text : String) : Except UsageError Token :=
  let exact name := (grammar.flagNames.find? (·.1 == name)).map (·.2)
  let (name, given) := splitGiven text
  if text.toList.head? ≠ some '-' then .ok (.value text)
  else match exact text with
    | some flag => .ok (.option flag text none)
    | none =>
      if text = "-" then .ok (.value text)
      else match exact name, given with
        | some flag, some given => .ok (.option flag name (some given))
        | _, _ =>
          match candidates grammar text with
          | [] =>
            if isNegativeNumber text.toList ∨ ' ' ∈ text.toList then .ok (.value text)
            else .ok (.unknown text)
          | [token] => .ok token
          | several => .error <| .mistake grammar.program <|
            "ambiguous option: " ++ text ++ " could match " ++
              ", ".intercalate (several.map Token.text)

/-- Arguments as tokens, each with the argument it was made of. -/
def classify (grammar : Grammar) : List String → Except UsageError (List (Token × String))
  | [] => .ok []
  | text :: rest =>
    if text = "--" then .ok ((.separator, text) :: rest.map fun text => (.value text, text))
    else do
      let token ← classifyOne grammar text
      let tokens ← classify grammar rest
      return (token, text) :: tokens

/-! ## Matching -/

/-- What was found so far. -/
structure Found where
  /-- the values by name -/
  values : List (String × String)
  /-- the options by their first name; one without value stands for itself -/
  options : List (String × String)
  /-- the names of values still missing -/
  pending : List String
  /-- arguments that fit nothing -/
  extras : List String
  deriving DecidableEq, Repr

/-- The value of an option; the last one given counts. -/
def Found.option? (found : Found) (name : String) : Option String :=
  (found.options.find? (·.1 == name)).map (·.2)

/-- The next value, with the separators around it, and the tokens after it. -/
def nextValue? (tokens : List (Token × String)) : Option (String × List (Token × String)) :=
  let isSeparator := fun (entry : Token × String) => entry.1 == .separator
  match tokens.dropWhile isSeparator with
  | (.value text, _) :: rest => some (text, rest.dropWhile isSeparator)
  | _ => none

/-- Match values at the front of the tokens to the names still pending. -/
def takeValues : List String → List (Token × String) → List (String × String) →
    List (String × String) × List String × List (Token × String)
  | [], tokens, taken => (taken, [], tokens)
  | name :: names, tokens, taken =>
    match nextValue? tokens with
    | some (text, rest) => takeValues names rest (taken ++ [(name, text)])
    | none => (taken, name :: names, tokens)

/-- Whether a token is an option or looks like one. -/
def Token.isOption : Token → Bool
  | .option _ _ _ | .unknown _ => true
  | .value _ | .separator => false

/-- A failure that names an option. -/
def flagMistake (grammar : Grammar) (flag : Flag) (text : String) : UsageError :=
  .mistake grammar.program ("argument " ++ flag.label ++ ": " ++ text)

/-- Options written together after one dash, of which the first takes no value: each has to be an
option that takes none. -/
def readCluster (grammar : Grammar) (flag : Flag) : List Char → Except UsageError Unit
  | [] => .error (.help grammar.program)
  | letter :: rest =>
    match grammar.flagNames.find? (·.1 == String.ofList ['-', letter]) with
    | some (_, next) => readCluster grammar next rest
    | none => .error (flagMistake grammar flag
        ("ignored explicit argument " ++ quoted (String.ofList (letter :: rest))))

/-- Take in an option, and return the tokens after it. -/
def readOption (grammar : Grammar) (found : Found) (flag : Flag) (name : String)
    (given : Option String) (rest : List (Token × String)) :
    Except UsageError (Found × List (Token × String)) :=
  let key := flag.names.getLast?.getD name
  let store value := { found with options := (key, value) :: found.options }
  match flag.takesValue, given with
  | true, some value => .ok (store value, rest)
  | true, none =>
    match rest with
    | (.value value, _) :: after => .ok (store value, after)
    | _ => .error (flagMistake grammar flag "expected one argument")
  | false, some value =>
    if name.length = 2 ∧ value ≠ "" then
      (readCluster grammar flag value.toList).map fun _ => (found, rest)
    else .error (flagMistake grammar flag ("ignored explicit argument " ++ quoted value))
  | false, none =>
    if flag.names.contains "--help" then .error (.help grammar.program)
    else .ok (store "", rest)

/-- Match tokens from left to right. -/
def readTokens (grammar : Grammar) :
    (fuel : Nat) → Found → List (Token × String) → Except UsageError Found
  | 0, found, tokens => .ok { found with extras := found.extras ++ tokens.map (·.2) }
  | fuel + 1, found, tokens =>
    let (values, left, rest) := takeValues found.pending tokens found.values
    let taken := { found with values := values, pending := left }
    if tokens.any (·.1.isOption) = false then
      .ok { taken with extras := taken.extras ++ rest.map (·.2) }
    else match tokens with
      | (.option flag name given, _) :: after => do
        let (found, after) ← readOption grammar found flag name given after
        readTokens grammar fuel found after
      | (.unknown _, text) :: after =>
        readTokens grammar fuel { found with extras := found.extras ++ [text] } after
      | _ =>
        if rest.length < tokens.length then readTokens grammar fuel taken rest
        else
          let skipped := tokens.takeWhile (!·.1.isOption)
          readTokens grammar fuel
            { found with extras := found.extras ++ skipped.map (·.2) }
            (tokens.drop skipped.length)

/-- What has to be given and is not. -/
def missingNames (grammar : Grammar) (found : Found) : List String :=
  found.pending ++ (grammar.flags.filter fun flag =>
    flag.needed && (found.option? (flag.names.getLast?.getD "")).isNone).map Flag.label

/-- Match arguments to a grammar. -/
def readArguments (grammar : Grammar) (arguments : List String) : Except UsageError Found := do
  let tokens ← classify grammar arguments
  let found ← readTokens grammar (2 * tokens.length + 1) ⟨[], [], grammar.values, []⟩ tokens
  match missingNames grammar found with
  | [] => return found
  | names => throw <| .mistake grammar.program <|
    "the following arguments are required: " ++ ", ".intercalate names

/-! ## The commands -/

/-- The option that asks how to use a command. -/
def helpFlag : Flag := ⟨["-h", "--help"], false, false⟩

/-- The name of the program. -/
def program : String := "disc-overlay"

/-- What stands in front of the command. -/
def outerGrammar : Grammar :=
  ⟨program, [helpFlag, ⟨["--verbose"], false, false⟩], []⟩

/-- Show where an external path leads. -/
def resolveGrammar : Grammar :=
  ⟨program ++ " resolve",
    [helpFlag, ⟨["--sd-root"], true, true⟩, ⟨["--patch-root"], true, false⟩], ["path"]⟩

/-- Apply patches to a folder. -/
def applyGrammar : Grammar :=
  ⟨program ++ " apply",
    [helpFlag, ⟨["--sd-root"], true, false⟩, ⟨["--output"], true, false⟩,
      ⟨["--output-json"], false, false⟩], ["base_dir", "patches"]⟩

/-- What the user asks for. -/
inductive Task where
  /-- show where an external path leads -/
  | resolve (path card patch : String)
  /-- apply a patch list to a folder -/
  | apply (base patches card output : String) (asDocument : Bool)
  deriving DecidableEq, Repr

/-- A task, and whether to tell more about it. -/
structure Request where
  /-- what to do -/
  task : Task
  /-- whether to show all events -/
  verbose : Bool
  deriving DecidableEq, Repr

/-- The task of a command, and the arguments that fit nothing. -/
def readTask (command : String) (arguments : List String) :
    Except UsageError (Task × List String) := do
  let value (found : Found) (name : String) :=
    ((found.values.find? (·.1 == name)).map (·.2)).getD ""
  let option (found : Found) (name : String) := (found.option? name).getD ""
  if command = "resolve" then
    let found ← readArguments resolveGrammar arguments
    return (.resolve (value found "path") (option found "--sd-root") (option found "--patch-root"),
      found.extras)
  else if command = "apply" then
    let found ← readArguments applyGrammar arguments
    return (.apply (value found "base_dir") (value found "patches") (option found "--sd-root")
      (option found "--output") (found.option? "--output-json").isSome, found.extras)
  else throw <| .mistake program <|
    "argument command: invalid choice: " ++ quoted command ++ " (choose from 'resolve', 'apply')"

/-- Read what stands in front of the command, then the command with all that follows it. -/
def readOuter : (fuel : Nat) → Found → List (Token × String) →
    Except UsageError (Option (Task × List String) × Found)
  | 0, found, _ => .ok (none, found)
  | fuel + 1, found, tokens =>
    match tokens with
    | [] => .ok (none, found)
    | (.option flag name given, _) :: after => do
      let (found, after) ← readOption outerGrammar found flag name given after
      readOuter fuel found after
    | (.unknown _, text) :: after =>
      readOuter fuel { found with extras := found.extras ++ [text] } after
    | (_, command) :: after =>
      if tokens.any fun entry => entry.1 != .separator && !entry.1.isOption then do
        let task ← readTask command (after.map (·.2))
        return (some task, found)
      else readOuter fuel { found with extras := found.extras ++ [command] } after

/-- What the user asks for with some arguments. -/
def parseArguments (arguments : List String) : Except UsageError Request := do
  let tokens ← classify outerGrammar arguments
  match ← readOuter (tokens.length + 1) ⟨[], [], [], []⟩ tokens with
  | (none, _) => throw <| .mistake program "the following arguments are required: command"
  | (some (task, extras), found) =>
    match found.extras ++ extras with
    | [] => return ⟨task, (found.option? "--verbose").isSome⟩
    | extras => throw <| .mistake program <|
      "unrecognized arguments: " ++ " ".intercalate extras

end DiscPatch.Command
