import DiscPatch.Text.Quoted

/-!
# Writing documents

`Output.render` writes a report as text: one item or field to a line, two spaces further in at each
level, an empty list or object on the line it starts on. Characters outside ASCII are spelled out by
number, in pairs of surrogates if they need two.
-/

namespace DiscPatch

open DiscPatch.Text (paddedHex doubleQuote)

/-- A value that is written out. -/
inductive Output where
  /-- a number -/
  | int (value : Int)
  /-- a text -/
  | text (value : String)
  /-- a list -/
  | list (items : List Output)
  /-- an object -/
  | object (fields : List (String × Output))

namespace Output

/-- A 16-bit unit spelled out by number. -/
def numbered (unit : Nat) : String :=
  "\\u" ++ paddedHex 4 "" unit

/-- A character as it stands in a written text. -/
def escapedChar (c : Char) : String :=
  let point := c.toNat
  if c = doubleQuote ∨ c = '\\' then String.ofList ['\\', c]
  else if c = '\n' then "\\n"
  else if c = '\r' then "\\r"
  else if c = '\t' then "\\t"
  else if point = 0x08 then "\\b"
  else if point = 0x0c then "\\f"
  else if 0x20 ≤ point ∧ point < 0x7f then String.ofList [c]
  else if point < 0x10000 then numbered point
  else numbered (0xd800 + (point - 0x10000) / 0x400) ++
    numbered (0xdc00 + (point - 0x10000) % 0x400)

/-- A text in quotes. -/
def quotedText (text : String) : String :=
  String.ofList [doubleQuote] ++ String.join (text.toList.map escapedChar) ++
    String.ofList [doubleQuote]

/-- The start of a new line at some level. -/
def newLine (level : Nat) : String :=
  "\n" ++ String.ofList (List.replicate (2 * level) ' ')

mutual
/-- A value as it stands at some level. -/
def renderAt (level : Nat) : Output → String
  | .int value => toString value
  | .text value => quotedText value
  | .list [] => "[]"
  | .list (item :: rest) =>
    "[" ++ newLine (level + 1) ++ renderAt (level + 1) item ++ renderItems (level + 1) rest ++
      newLine level ++ "]"
  | .object [] => "\x7b\x7d"
  | .object ((name, value) :: rest) =>
    "\x7b" ++ newLine (level + 1) ++ quotedText name ++ ": " ++ renderAt (level + 1) value ++
      renderFields (level + 1) rest ++ newLine level ++ "\x7d"

/-- The items after the first. -/
def renderItems (level : Nat) : List Output → String
  | [] => ""
  | item :: rest => "," ++ newLine level ++ renderAt level item ++ renderItems level rest

/-- The fields after the first. -/
def renderFields (level : Nat) : List (String × Output) → String
  | [] => ""
  | (name, value) :: rest =>
    "," ++ newLine level ++ quotedText name ++ ": " ++ renderAt level value ++
      renderFields level rest
end

/-- A value as text. -/
def render (output : Output) : String :=
  output.renderAt 0

end Output

end DiscPatch
