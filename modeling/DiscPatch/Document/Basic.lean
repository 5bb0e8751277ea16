import DiscPatch.Document.Double

/-!
# Documents

A document is a value written as text: nothing, truth values, numbers, texts, lists, and objects
with named fields.

* `Document` — the value;
* `Fields` — the fields of an object. Every name occurs once: giving a name again replaces its
  value.
-/

namespace DiscPatch

/-- A value written as text. -/
inductive Document where
  /-- nothing -/
  | null
  /-- a truth value -/
  | bool (value : Bool)
  /-- an integer -/
  | int (value : Int)
  /-- a number with a fraction or an exponent -/
  | real (value : Double)
  /-- a text -/
  | text (value : String)
  /-- a list -/
  | list (items : List Document)
  /-- an object with named fields -/
  | object (fields : List (String × Document))

/-- The fields of an object. -/
abbrev Fields := List (String × Document)

namespace Fields

/-- The value of a field. -/
def get? (name : String) : Fields → Option Document
  | [] => none
  | (other, value) :: rest => if other = name then some value else get? name rest

/-- Fields with a value given to a name, in the place the name already has or else at the end. -/
def set (name : String) (value : Document) : Fields → Fields
  | [] => [(name, value)]
  | (other, old) :: rest =>
    if other = name then (name, value) :: rest else (other, old) :: set name value rest

/-- Fields without those of a name. -/
def erase (name : String) (fields : Fields) : Fields :=
  fields.filter (·.1 ≠ name)

end Fields

/-- Whether a value counts as absent: nothing, false, zero, or something without content. -/
def Document.isBlank : Document → Bool
  | .null | .bool false | .text "" | .list [] | .object [] => true
  | .int value => value == 0
  | .real (.finite numerator _) => numerator == 0
  | _ => false

end DiscPatch
