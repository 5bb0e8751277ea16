import DiscPatch.Bytes
import DiscPatch.Document.Basic
import DiscPatch.Error
import DiscPatch.Text.Case
import DiscPatch.Text.Hex
import DiscPatch.Text.IntegerLiteral

/-!
# Values of fields

A field takes a value of one kind, and it is generous: an integer may be given as a text, a truth
value as a number. All flaws of a document are found, not only the first, in the order of the
fields.

* `Checked` — a value, or the flaws of the document it should have come from;
* `Checked.build`, `Checked.also` — a value put together from parts, with the flaws of them all;
* `integer`, `natural`, `truth`, `text`, `bytes`, `hexBytes`, `listOf`, `member` — the kinds of
  values;
* `required`, `optional` — a field of an object.
-/

namespace DiscPatch

open DiscPatch.Text (trim isBlank isAsciiBlank foldAscii hexPairs? integerText)

/-- A value taken from a document, or the flaws found in the document. -/
abbrev Checked (α : Type) := Except (List Flaw) α

namespace Checked

/-- The flaw of a value, at the value itself. -/
def flaw {α : Type} (kind : FlawKind) : Checked α :=
  .error [⟨[], kind⟩]

/-- The start of a value that is put together from parts. -/
def build {α : Type} (f : α) : Checked α :=
  .ok f

/-- Apply a function to a value; the flaws of both sides are kept. -/
def also {α β : Type} : Checked (α → β) → Checked α → Checked β
  | .ok f, .ok a => .ok (f a)
  | .ok _, .error flaws => .error flaws
  | .error flaws, .ok _ => .error flaws
  | .error flaws, .error more => .error (flaws ++ more)

/-- Flaws seen from one step further up. -/
def under {α : Type} (step : Step) (checked : Checked α) : Checked α :=
  checked.mapError (List.map fun flaw => { flaw with path := step :: flaw.path })

end Checked

open Checked (flaw)

/-- The way to take a value from a document. -/
abbrev Check (α : Type) := Document → Checked α

namespace Check

/-! ## Numbers -/

/-- A double of this size or larger is not taken for an integer. -/
def tooFar : Int := 0x8000000000000000

/-- An integer: a number without fraction, a truth value, or a text that spells one. -/
def integer : Check Int
  | .int value => .ok value
  | .bool value => .ok (if value then 1 else 0)
  | .real (.infinite _) | .real .nan => flaw .notFinite
  | .real value =>
    match value.whole? with
    | none => flaw .fractional
    | some whole =>
      if whole ≤ -tooFar ∨ tooFar ≤ whole then flaw .integerTooLarge else .ok whole
  | .text value =>
    match integerText value with
    | .ok value => .ok value
    | .error kind => flaw kind
  | _ => flaw .notInteger

/-- An integer that is not negative. -/
def natural : Check Int := fun document => do
  let value ← integer document
  if value < 0 then flaw .tooSmall else return value

/-- A number that fits into a byte. -/
def byte : Check UInt8 := fun document => do
  let value ← integer document
  if value < 0 then flaw .tooSmall
  else if 255 < value then flaw .tooLarge
  else return UInt8.ofNat value.toNat

/-- Nothing, or a value. -/
def orNull {α : Type} (check : Check α) : Check (Option α)
  | .null => .ok none
  | document => (check document).map some

/-! ## Truth values -/

/-- Words for true. -/
def trueWords : List String := ["1", "on", "t", "true", "y", "yes"]

/-- Words for false. -/
def falseWords : List String := ["0", "off", "f", "false", "n", "no"]

/-- The truth value of a number. -/
def truthOf (value : Int) : Checked Bool :=
  if value = 0 then .ok false else if value = 1 then .ok true else flaw .notTruthWord

/-- A truth value, or a number or a word that stands for one. -/
def truth : Check Bool
  | .bool value => .ok value
  | .int value => truthOf value
  | .real value =>
    match integer (.real value) with
    | .ok whole => truthOf whole
    | .error _ => flaw .notTruth
  | .text value =>
    let word := foldAscii value
    if trueWords.any (·.toList == word) then .ok true
    else if falseWords.any (·.toList == word) then .ok false
    else flaw .notTruthWord
  | _ => flaw .notTruth

/-! ## Texts and bytes -/

/-- A text. -/
def text : Check String
  | .text value => .ok value
  | _ => flaw .notText

/-- A byte string, given as the text it spells. -/
def bytes : Check Bytes
  | .text value => .ok (Bytes.ofText value)
  | _ => flaw .notBytes

/-- A text without the mark `0x` at its start. -/
def withoutMark : List Char → List Char
  | '0' :: 'x' :: rest => rest
  | '0' :: 'X' :: rest => rest
  | chars => chars

/-- The bytes that a text spells in hexadecimal: blanks around it and one mark `0x` in front do not
count, nor do blanks of ASCII around each pair of digits. -/
def hexText? (value : String) : Option Bytes :=
  hexPairs? isAsciiBlank (withoutMark (trim isBlank value.toList))

/-- A byte string, given in hexadecimal. -/
def hexBytes : Check Bytes
  | .text value =>
    match hexText? value with
    | some bytes => .ok bytes
    | none => flaw .badValue
  | _ => flaw .notBytes

/-! ## Choices -/

/-- One of several values, given by its label. -/
def member {α : Type} (label : α → String) (all : List α) : Check α
  | .text value =>
    match all.find? (label · == value) with
    | some found => .ok found
    | none => flaw .notMember
  | _ => flaw .notMember

/-- A field that has only one value. -/
def literal (value : String) : Check Unit
  | .text given => if given = value then .ok () else flaw .notLiteral
  | _ => flaw .notLiteral

/-! ## Lists and objects -/

/-- The items of a list from an index on. -/
def itemsFrom {α : Type} (check : Check α) (index : Nat) : List Document → Checked (List α)
  | [] => .ok []
  | item :: rest =>
    (Checked.build List.cons).also (Checked.under (.index index) (check item))
      |>.also (itemsFrom check (index + 1) rest)

/-- A list of values of one kind. -/
def listOf {α : Type} (check : Check α) : Check (List α)
  | .list items => itemsFrom check 0 items
  | _ => flaw .notList

/-- A field that has to be there. -/
def required {α : Type} (fields : Fields) (name : String) (check : Check α) : Checked α :=
  match fields.get? name with
  | some value => Checked.under (.field name) (check value)
  | none => .error [⟨[.field name], .missing⟩]

/-- A field that has a value of its own if it is not there. -/
def optional {α : Type} (fields : Fields) (name : String) (check : Check α) (default : α) :
    Checked α :=
  match fields.get? name with
  | some value => Checked.under (.field name) (check value)
  | none => .ok default

/-- An object, by its fields. -/
def object {α : Type} (check : Fields → Checked α) : Check α
  | .object fields => check fields
  | _ => flaw .notObject

end Check

end DiscPatch
