import DiscPatch.Text.Case.Lower
import DiscPatch.Text.Case.Upper

/-!
# Upper and lower case

* `lower`, `upper` — the small and the capital form of a text in any script. A letter may turn into
  several, and the small form of a capital sigma depends on whether it ends a word;
* `foldAscii` — only the letters `A` to `Z` become small; this is how names on a disc compare.
-/

namespace DiscPatch.Text

/-- Whether the first character that is not looked past is a letter with case. -/
def metCased (text : List Char) : Bool :=
  match text.dropWhile (inBounds ignorableBounds) with
  | [] => false
  | c :: _ => inBounds casedBounds c

/-- The small form of `c`, standing after `before` (read backwards) and in front of `after`. -/
def lowerChar (before : List Char) (c : Char) (after : List Char) : List Char :=
  if c = Char.ofNat 0x3a3 then
    [if metCased before && !metCased after then Char.ofNat 0x3c2 else Char.ofNat 0x3c3]
  else if c = Char.ofNat 0x130 then
    [Char.ofNat 0x69, Char.ofNat 0x307]
  else
    [(shifted? lowerShifts c).getD c]

/-- The small form of the text that follows `before`, which is read backwards. -/
def lowerAfter (before : List Char) : List Char → List Char
  | [] => []
  | c :: rest => lowerChar before c rest ++ lowerAfter (c :: before) rest

/-- A text in lower case. -/
def lower (text : String) : String :=
  String.ofList (lowerAfter [] text.toList)

/-- The capital form of a character. -/
def upperChar (c : Char) : List Char :=
  match upperExpansions.find? (·.1 == c.toNat) with
  | some (_, points) => points.map Char.ofNat
  | none => [(shifted? upperShifts c).getD c]

/-- A text in upper case. -/
def upper (text : String) : String :=
  String.ofList (text.toList.flatMap upperChar)

/-- A letter `A` to `Z` as a small letter; any other character as it is. -/
def foldAsciiChar (c : Char) : Char :=
  if 0x41 ≤ c.toNat ∧ c.toNat ≤ 0x5a then Char.ofNat (c.toNat + 0x20) else c

/-- A text with the letters `A` to `Z` made small. -/
def foldAscii (text : String) : List Char :=
  text.toList.map foldAsciiChar

end DiscPatch.Text
