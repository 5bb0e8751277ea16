import DiscPatch.Text.Printable
import DiscPatch.Text.Hex

/-!
# Quoted text

Names inside messages are quoted. A text stands between single quotes, unless it holds a single
quote and no double one. The quote in use and the backslash get a backslash in front; line feed,
carriage return and tab have a letter of their own; any other character that cannot be shown is
spelled out by number with the fewest of two, four or eight digits.
-/

namespace DiscPatch.Text

/-- The single quote. -/
def singleQuote : Char := Char.ofNat 0x27

/-- The double quote. -/
def doubleQuote : Char := Char.ofNat 0x22

/-- A character spelled out by number. -/
def numbered (c : Char) : String :=
  let point := c.toNat
  if point < 0x100 then "\\x" ++ paddedHex 2 "" point
  else if point < 0x10000 then "\\u" ++ paddedHex 4 "" point
  else "\\U" ++ paddedHex 8 "" point

/-- A character inside a text quoted by `mark`. -/
def quotedChar (mark c : Char) : String :=
  if c = mark ∨ c = '\\' then String.ofList ['\\', c]
  else if c = '\n' then "\\n"
  else if c = '\r' then "\\r"
  else if c = '\t' then "\\t"
  else if isHidden c then numbered c
  else String.ofList [c]

/-- The quote that suits a text. -/
def quoteFor (text : List Char) : Char :=
  if singleQuote ∈ text ∧ doubleQuote ∉ text then doubleQuote else singleQuote

/-- A text in quotes. -/
def quoted (text : String) : String :=
  let chars := text.toList
  let mark := quoteFor chars
  String.ofList [mark] ++ String.join (chars.map (quotedChar mark)) ++ String.ofList [mark]

end DiscPatch.Text
