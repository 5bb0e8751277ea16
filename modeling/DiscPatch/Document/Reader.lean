import DiscPatch.Document.Basic
import DiscPatch.Error
import DiscPatch.Text.Hex
import DiscPatch.Text.IntegerLiteral

/-!
# Reading documents

The grammar is the usual one of braces, brackets and quoted texts, with three more numbers: `NaN`,
`Infinity` and `-Infinity`. A control character may not stand in a text as it is. A text that spells
half of a surrogate pair alone follows the grammar, but there is no text for it.

* `readValue` — a value and the characters after it. Every call uses up a character, so the number
  of characters bounds how many calls there are;
* `Document.parse` — a whole text.
-/

namespace DiscPatch

open DiscPatch.Text (hexDigit? doubleQuote mostDigits)

namespace Reader

/-- A value read, and the characters after it. -/
abbrev Read (α : Type) := Except Error (α × List Char)

/-- Whether a character may stand between values. -/
def isSpace (c : Char) : Bool :=
  c = ' ' || c = '\t' || c = '\n' || c = '\r'

/-- The characters after any space. -/
def skipSpace (input : List Char) : List Char :=
  input.dropWhile isSpace

/-! ## Numbers -/

/-- Whether a character is one of the ten digits. -/
def isDigit (c : Char) : Bool :=
  0x30 ≤ c.toNat && c.toNat ≤ 0x39

/-- The number that digits spell. -/
def natOf (digits : List Char) : Nat :=
  digits.foldl (fun value c => value * 10 + (c.toNat - 0x30)) 0

/-- The digits in front of a fraction, and the characters after them: a zero alone, or any number of
digits that do not start with a zero. -/
def wholeDigits? : List Char → Option (List Char × List Char)
  | '0' :: rest => some (['0'], rest)
  | c :: rest =>
    if isDigit c then some (c :: rest.takeWhile isDigit, rest.dropWhile isDigit) else none
  | [] => none

/-- The digits of a fraction, and the characters after them. -/
def fraction? : List Char → Option (List Char × List Char)
  | '.' :: c :: rest =>
    if isDigit c then some (c :: rest.takeWhile isDigit, rest.dropWhile isDigit) else none
  | _ => none

/-- The exponent after its mark. -/
def signedExponent? : List Char → Option (Int × List Char)
  | '-' :: c :: rest =>
    if isDigit c then some (-(natOf (c :: rest.takeWhile isDigit)), rest.dropWhile isDigit)
    else none
  | '+' :: c :: rest =>
    if isDigit c then some (natOf (c :: rest.takeWhile isDigit), rest.dropWhile isDigit) else none
  | c :: rest =>
    if isDigit c then some (natOf (c :: rest.takeWhile isDigit), rest.dropWhile isDigit) else none
  | [] => none

/-- An exponent, and the characters after it. -/
def exponent? : List Char → Option (Int × List Char)
  | c :: rest => if c = 'e' ∨ c = 'E' then signedExponent? rest else none
  | [] => none

/-- A number whose sign has been read. -/
def readNumber (negative : Bool) (input : List Char) : Read Document :=
  match wholeDigits? input with
  | none => .error .malformedDocument
  | some (whole, rest) =>
    let (places, afterFraction) := (fraction? rest).getD ([], rest)
    match exponent? afterFraction with
    | some (exponent, after) =>
      .ok (.real (.ofDecimal negative (natOf (whole ++ places)) (exponent - places.length)), after)
    | none =>
      if places = [] then
        if mostDigits < whole.length then .error (.tooManyDigits whole.length)
        else .ok (.int (if negative then -(natOf whole : Int) else natOf whole), afterFraction)
      else
        .ok (.real (.ofDecimal negative (natOf (whole ++ places)) (-(places.length : Int))),
          afterFraction)

/-! ## Texts -/

/-- The number that four hexadecimal digits spell, and the characters after them. -/
def hexQuad? : List Char → Option (Nat × List Char)
  | a :: b :: c :: d :: rest => do
    let a ← hexDigit? a
    let b ← hexDigit? b
    let c ← hexDigit? c
    let d ← hexDigit? d
    return (((a * 16 + b) * 16 + c) * 16 + d, rest)
  | _ => none

/-- Whether a number is the first half of a surrogate pair. -/
def isHigh (unit : Nat) : Bool :=
  0xd800 ≤ unit && unit < 0xdc00

/-- Whether a number is the second half of a surrogate pair. -/
def isLow (unit : Nat) : Bool :=
  0xdc00 ≤ unit && unit < 0xe000

/-- The character whose first half has been read, and the characters after its second half. -/
def secondHalf (high : Nat) : List Char → Read Char
  | '\\' :: 'u' :: input =>
    match hexQuad? input with
    | some (low, rest) =>
      if isLow low then
        .ok (Char.ofNat (0x10000 + (high - 0xd800) * 0x400 + (low - 0xdc00)), rest)
      else .error .halfPair
    | none => .error .malformedDocument
  | _ => .error .halfPair

/-- The character spelled out by number after its mark, and the characters after it. -/
def numbered (input : List Char) : Read Char :=
  match hexQuad? input with
  | some (unit, rest) =>
    if isHigh unit then secondHalf unit rest
    else if isLow unit then .error .halfPair
    else .ok (Char.ofNat unit, rest)
  | none => .error .malformedDocument

/-- The character a letter stands for after a backslash. -/
def escape? (c : Char) : Option Char :=
  if c = doubleQuote ∨ c = '\\' ∨ c = '/' then some c
  else if c = 'b' then some (Char.ofNat 0x08)
  else if c = 'f' then some (Char.ofNat 0x0c)
  else if c = 'n' then some '\n'
  else if c = 'r' then some '\r'
  else if c = 't' then some '\t'
  else none

/-- A text whose opening quote has been read; `read` holds its characters so far, the latest
first. -/
def readText : (fuel : Nat) → (read input : List Char) → Read String
  | 0, _, _ => .error .malformedDocument
  | fuel + 1, read, input =>
    match input with
    | [] => .error .malformedDocument
    | '\\' :: 'u' :: rest =>
      match numbered rest with
      | .ok (c, after) => readText fuel (c :: read) after
      | .error error => .error error
    | '\\' :: c :: rest =>
      match escape? c with
      | some meant => readText fuel (meant :: read) rest
      | none => .error .malformedDocument
    | c :: rest =>
      if c = doubleQuote then .ok (String.ofList read.reverse, rest)
      else if c = '\\' ∨ c.toNat < 0x20 then .error .malformedDocument
      else readText fuel (c :: read) rest

/-! ## Values -/

/-- The characters after a word that has to come next. -/
def word? (word : String) (input : List Char) : Option (List Char) :=
  if word.toList.isPrefixOf input then some (input.drop word.length) else none

/-- The values that are written as words. -/
def words : List (String × Document) :=
  [("null", .null), ("true", .bool true), ("false", .bool false), ("NaN", .real .nan),
    ("Infinity", .real (.infinite false)), ("-Infinity", .real (.infinite true))]

/-- A value that is written as a word. -/
def readWord? (input : List Char) : Option (Document × List Char) :=
  words.findSome? fun (word, value) => (word? word input).map (value, ·)

mutual
/-- A value, which has to come next. -/
def readValue : (fuel : Nat) → List Char → Read Document
  | 0, _ => .error .malformedDocument
  | fuel + 1, input =>
    match readWord? input with
    | some found => .ok found
    | none =>
      match input with
      | '[' :: rest =>
        match skipSpace rest with
        | ']' :: after => .ok (.list [], after)
        | items => readItems fuel [] items
      | '\x7b' :: rest =>
        match skipSpace rest with
        | '\x7d' :: after => .ok (.object [], after)
        | fields => readFields fuel [] fields
      | '-' :: rest => readNumber true rest
      | c :: rest =>
        if c = doubleQuote then
          match readText (rest.length + 1) [] rest with
          | .ok (text, after) => .ok (.text text, after)
          | .error error => .error error
        else readNumber false input
      | [] => .error .malformedDocument

/-- The items of a list from here on; `read` holds those before, the latest first. -/
def readItems : (fuel : Nat) → (read : List Document) → List Char → Read Document
  | 0, _, _ => .error .malformedDocument
  | fuel + 1, read, input =>
    match readValue fuel input with
    | .error error => .error error
    | .ok (item, rest) =>
      match skipSpace rest with
      | ',' :: more => readItems fuel (item :: read) (skipSpace more)
      | ']' :: after => .ok (.list (item :: read).reverse, after)
      | _ => .error .malformedDocument

/-- The fields of an object from here on, added to those in `fields`. -/
def readFields : (fuel : Nat) → (fields : Fields) → List Char → Read Document
  | 0, _, _ => .error .malformedDocument
  | fuel + 1, fields, input =>
    match input with
    | c :: rest =>
      if c = doubleQuote then
        match readText (rest.length + 1) [] rest with
        | .error error => .error error
        | .ok (name, afterName) =>
          match skipSpace afterName with
          | ':' :: beforeValue =>
            match readValue fuel (skipSpace beforeValue) with
            | .error error => .error error
            | .ok (value, afterValue) =>
              match skipSpace afterValue with
              | ',' :: more => readFields fuel (fields.set name value) (skipSpace more)
              | '\x7d' :: after => .ok (.object (fields.set name value), after)
              | _ => .error .malformedDocument
          | _ => .error .malformedDocument
      else .error .malformedDocument
    | [] => .error .malformedDocument
end

end Reader

/-- The document that a whole text spells. -/
def Document.parse (text : String) : Except Error Document := do
  let input := Reader.skipSpace text.toList
  let (document, rest) ← Reader.readValue (text.length + 1) input
  if Reader.skipSpace rest = [] then return document else throw .malformedDocument

end DiscPatch
