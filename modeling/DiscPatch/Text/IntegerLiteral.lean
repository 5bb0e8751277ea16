import DiscPatch.Error
import DiscPatch.Text.Blank
import DiscPatch.Text.Digit

/-!
# Integers in texts

Two grammars for integers are in use.

* `integerLiteral` — an optional sign, then a number to base ten, or one to base sixteen, eight or
  two after `0x`, `0o` or `0b`. A decimal may start with a zero only if it is zero. Digits may be of
  any script, and a single underscore may stand between digits and right after the mark of the base;
* `integerText` — an optional sign and decimal digits of ASCII, with single underscores between
  them, then possibly a point and zeros.

Both read decimals up to a number of digits only.
-/

namespace DiscPatch.Text

/-- How many digits a decimal may have. -/
def mostDigits : Nat := 4300

/-- Digits without the single underscores between them; `none` if an underscore stands anywhere
else or there is no digit. -/
def withoutUnderscores? : List Char → Option (List Char)
  | [] => none
  | [c] => if c = '_' then none else some [c]
  | c :: '_' :: rest => if c = '_' then none else (withoutUnderscores? rest).map (c :: ·)
  | c :: rest => if c = '_' then none else (withoutUnderscores? rest).map (c :: ·)

/-! ## Literals of any base -/

/-- A decimal digit of any script as the ASCII digit of the same value. -/
def asciiDigit (c : Char) : Char :=
  match digitValue? c with
  | some value => Char.ofNat (0x30 + value)
  | none => c

/-- The value of an ASCII digit or letter as a digit below `base`. -/
def digitBelow? (base : Nat) (c : Char) : Option Nat :=
  let point := c.toNat
  let value? :=
    if 0x30 ≤ point ∧ point ≤ 0x39 then some (point - 0x30)
    else if 0x41 ≤ point ∧ point ≤ 0x5a then some (point - 0x41 + 10)
    else if 0x61 ≤ point ∧ point ≤ 0x7a then some (point - 0x61 + 10)
    else none
  value?.filter (· < base)

/-- The number that digits spell to a base. -/
def numeral? (base : Nat) (digits : List Char) : Option Nat :=
  digits.foldlM (fun value c => (digitBelow? base c).map (value * base + ·)) 0

/-- The base that a mark stands for. -/
def baseOf? (mark : Char) : Option Nat :=
  if mark = 'x' ∨ mark = 'X' then some 16
  else if mark = 'o' ∨ mark = 'O' then some 8
  else if mark = 'b' ∨ mark = 'B' then some 2
  else none

/-- What stands for a number without sign: its base and its digits. -/
def baseAndDigits (text : List Char) : Nat × List Char :=
  match text with
  | '0' :: mark :: rest =>
    match baseOf? mark with
    | some base =>
      match rest with
      | '_' :: digits => (base, digits)
      | digits => (base, digits)
    | none => (10, text)
  | _ => (10, text)

/-- The sign of a number and what follows it. -/
def signAndRest : List Char → Bool × List Char
  | '-' :: rest => (true, rest)
  | '+' :: rest => (false, rest)
  | rest => (false, rest)

/-- The integer that a literal spells. -/
def integerLiteral (text : String) : Except Error Int :=
  let (negative, rest) := signAndRest (text.toList.map asciiDigit)
  let (base, spelled) := baseAndDigits rest
  match withoutUnderscores? spelled with
  | none => .error (.notIntegerLiteral text)
  | some digits =>
    match numeral? base digits with
    | none => .error (.notIntegerLiteral text)
    | some value =>
      if base = 10 ∧ mostDigits < digits.length then .error (.tooManyDigits digits.length)
      else if base = 10 ∧ digits.head? = some '0' ∧ value ≠ 0 then
        .error (.notIntegerLiteral text)
      else .ok (if negative then -(value : Int) else value)

/-! ## Decimals -/

/-- The part in front of a point that only zeros follow; `none` if something else follows it. -/
def beforeZeros? (text : List Char) : Option (List Char) :=
  match text.span (· ≠ '.') with
  | (front, []) => some front
  | (front, _ :: zeros) => if zeros ≠ [] ∧ zeros.all (· = '0') then some front else none

/-- The integer that a decimal text spells; white space around it does not count. Zeros in front are
no digits of it, but a minus counts as one. -/
def integerText (text : String) : Except FlawKind Int :=
  let (negative, rest) := signAndRest (trim isWhiteSpace text.toList)
  match (beforeZeros? rest).bind withoutUnderscores? with
  | none => .error .notIntegerText
  | some digits =>
    match numeral? 10 digits with
    | none => .error .notIntegerText
    | some value =>
      let count := (digits.dropWhile (· = '0')).length
      if mostDigits < (if negative then count + 1 else count) then .error .integerTooLarge
      else .ok (if negative then -(value : Int) else value)

end DiscPatch.Text
