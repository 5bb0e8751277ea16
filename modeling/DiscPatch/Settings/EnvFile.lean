import DiscPatch.Text.Quoted
import DiscPatch.Text.Split

/-!
# Files of variables

A file of variables has a binding `name = value` on each line, possibly after `export`. Comments
start with `#`. A value may stand in quotes of either kind, which keep blanks and line ends and
allow some characters to be spelled with a backslash; without quotes it ends at the end of the line
or at a blank in front of a `#`. A name in braces after a `$` stands for the value of another
variable, and a text after the name and `:-` is taken if there is none. A line that does not fit is
passed over.

* `EnvFile.bindings` — the bindings of a file in order; a name without `=` has no value;
* `EnvFile.merge` — variables of the environment, completed by those of a file.
-/

namespace DiscPatch.EnvFile

open DiscPatch.Text (isBlank dropEnd singleQuote doubleQuote)

/-! ## Lines -/

/-- Whether a character ends a line. -/
def isLineEnd (c : Char) : Bool :=
  c = '\n' || c = '\r'

/-- Whether a character is a blank inside a line. -/
def isInlineBlank (c : Char) : Bool :=
  isBlank c && !isLineEnd c

/-- A text in which every line ends with a line feed. -/
def unifyLines : List Char → List Char
  | '\r' :: '\n' :: rest => '\n' :: unifyLines rest
  | '\r' :: rest => '\n' :: unifyLines rest
  | c :: rest => c :: unifyLines rest
  | [] => []

/-- What follows the current line. -/
def afterLine (input : List Char) : List Char :=
  (input.dropWhile (!isLineEnd ·)).drop 1

/-- What follows the end of the line, if nothing but blanks and a comment comes first. -/
def endOfLine? (input : List Char) : Option (List Char) :=
  let rest := input.dropWhile isInlineBlank
  let rest := if rest.head? = some '#' then rest.dropWhile (!isLineEnd ·) else rest
  match rest with
  | [] => some []
  | c :: after => if isLineEnd c then some after else none

/-! ## Values -/

/-- The characters that a backslash may stand in front of, and what they mean then, between double
quotes. -/
def doubleEscapes : List (Char × Char) :=
  [('\\', '\\'), (singleQuote, singleQuote), (doubleQuote, doubleQuote), ('a', Char.ofNat 7),
    ('b', Char.ofNat 8), ('f', Char.ofNat 12), ('n', '\n'), ('r', '\r'), ('t', '\t'),
    ('v', Char.ofNat 11)]

/-- The same between single quotes. -/
def singleEscapes : List (Char × Char) :=
  [('\\', '\\'), (singleQuote, singleQuote)]

/-- A text with the spellings that start with a backslash replaced. -/
def unescape (escapes : List (Char × Char)) : List Char → List Char
  | '\\' :: c :: rest =>
    match escapes.find? (·.1 == c) with
    | some (_, meant) => meant :: unescape escapes rest
    | none => '\\' :: unescape escapes (c :: rest)
  | c :: rest => c :: unescape escapes rest
  | [] => []

/-- What stands in front of the closing quote, and what follows it. A quote after a backslash closes
only if no other one does. -/
def untilQuote? (quote : Char) : List Char → Option (List Char × List Char)
  | [] => none
  | '\\' :: c :: rest =>
    if c = quote then
      match untilQuote? quote rest with
      | some (inside, after) => some ('\\' :: c :: inside, after)
      | none => some (['\\'], rest)
    else (untilQuote? quote (c :: rest)).map fun (inside, after) => ('\\' :: inside, after)
  | c :: rest =>
    if c = quote then some ([], rest)
    else (untilQuote? quote rest).map fun (inside, after) => (c :: inside, after)

/-- A line without the comment that starts at a blank. -/
def withoutComment : List Char → List Char
  | [] => []
  | c :: rest =>
    if isBlank c ∧ (rest.dropWhile isBlank).head? = some '#' then []
    else c :: withoutComment rest

/-- A value, and what follows it. -/
def value? (input : List Char) : Option (String × List Char) :=
  match input with
  | [] => some ("", [])
  | c :: rest =>
    if c = singleQuote then
      (untilQuote? singleQuote rest).map fun (inside, after) =>
        (String.ofList (unescape singleEscapes inside), after)
    else if c = doubleQuote then
      (untilQuote? doubleQuote rest).map fun (inside, after) =>
        (String.ofList (unescape doubleEscapes inside), after)
    else
      let line := input.takeWhile (!isLineEnd ·)
      some (dropEnd isBlank (String.ofList (withoutComment line)), input.dropWhile (!isLineEnd ·))

/-! ## Bindings -/

/-- Whether a character may stand in a name without quotes. -/
def isNameChar (c : Char) : Bool :=
  c ≠ '=' && c ≠ '#' && !isBlank c

/-- What follows the word `export` and the blanks after it, if they come first. -/
def afterExport (input : List Char) : List Char :=
  let rest := input.drop 6
  if "export".toList.isPrefixOf input ∧ rest.head?.any isInlineBlank then
    rest.dropWhile isInlineBlank
  else input

/-- The name of a binding, and what follows it; a comment has no name. -/
def name? (input : List Char) : Option (Option String × List Char) :=
  match input with
  | [] => none
  | c :: rest =>
    if c = '#' then some (none, input)
    else if c = singleQuote then
      match rest.span (· ≠ singleQuote) with
      | ([], _) | (_, []) => none
      | (name, _ :: after) => some (some (String.ofList name), after)
    else
      match input.takeWhile isNameChar with
      | [] => none
      | name => some (some (String.ofList name), input.dropWhile isNameChar)

/-- A name with its value, if it has one. -/
abbrev Binding := String × Option String

/-- A binding whose line has to end here, and what follows the line. -/
def close (name value : Option String) (input : List Char) : Option Binding × List Char :=
  match endOfLine? input with
  | some after => (name.map (·, value), after)
  | none => (none, afterLine input)

/-- The binding that comes next, if there is one, and what follows its line. Where a line does not
fit, the rest of it is passed over. -/
def binding (input : List Char) : Option Binding × List Char :=
  let start := afterExport input
  match name? start with
  | none => (none, afterLine start)
  | some (name, rest) =>
    match rest.dropWhile isInlineBlank with
    | '=' :: more =>
      let given := more.dropWhile isInlineBlank
      match value? given with
      | none => (none, afterLine given)
      | some (value, after) => close name (some value) after
    | rest => close name none rest

/-- The bindings from here on. -/
def bindingsFrom : (fuel : Nat) → List Char → List Binding
  | 0, _ => []
  | fuel + 1, input =>
    match input.dropWhile isBlank with
    | [] => []
    | start =>
      match binding start with
      | (some found, after) => found :: bindingsFrom fuel after
      | (none, after) => bindingsFrom fuel after

/-- The bindings of a file in order. -/
def bindings (file : String) : List Binding :=
  bindingsFrom (file.length + 1) (unifyLines file.toList)

/-! ## Variables -/

/-- What a reference stands for: its name, and the text to take if there is no such variable. -/
def reference? (input : List Char) : Option (String × String × List Char) :=
  match input with
  | '$' :: '\x7b' :: rest =>
    let (name, after) := rest.span fun c => c ≠ '\x7d' ∧ c ≠ ':'
    match after with
    | '\x7d' :: more => some (String.ofList name, "", more)
    | ':' :: '-' :: more =>
      match more.span (· ≠ '\x7d') with
      | (text, _ :: more) => some (String.ofList name, String.ofList text, more)
      | (_, []) => none
    | _ => none
  | _ => none

/-- The text that takes the place of a reference: the value of the first binding of that name, or
`text` if there is no binding. A binding without value counts as empty. -/
def referred (known : List Binding) (name text : String) : String :=
  match known.find? (·.1 == name) with
  | some (_, value) => value.getD ""
  | none => text

/-- A value with its references replaced. -/
def expand (known : List Binding) : (fuel : Nat) → List Char → String
  | 0, input => String.ofList input
  | fuel + 1, input =>
    match reference? input with
    | some (name, text, after) => referred known name text ++ expand known fuel after
    | none =>
      match input with
      | [] => ""
      | c :: rest => String.ofList [c] ++ expand known fuel rest

/-- Bindings of a file with their references replaced, added to those in `done` one after the other.
A reference sees the environment first and then the file. -/
def collect (environment done : List Binding) : List Binding → List Binding
  | [] => done
  | (name, value) :: rest =>
    let meant := value.map fun text =>
      expand (environment ++ done) (text.length + 1) text.toList
    collect environment ((name, meant) :: done.filter (·.1 ≠ name)) rest

/-- The variables of the environment, completed by those of a file that it does not set. -/
def merge (environment : List (String × String)) (file : Option String) :
    List (String × String) :=
  match file with
  | none => environment
  | some file =>
    let given := environment.map fun (name, value) => (name, some value)
    environment ++ (collect given [] (bindings file)).filterMap fun (name, value) =>
      value.map (name, ·)

end DiscPatch.EnvFile
