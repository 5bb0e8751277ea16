/-!
# Properties of code points

Tables of character properties are kept short in two ways.

* `inBounds` — a set of characters is the list of code points at which membership changes;
* `Shift`, `shifted?` — a map on letters is a list of evenly spaced runs, each moving its letters by
  one distance.
-/

namespace DiscPatch.Text

/-- Whether a character lies in the set that starts at the first bound, stops before the second,
starts again at the third, and so on. The bounds ascend. -/
def inBounds (bounds : List Nat) (c : Char) : Bool :=
  (bounds.takeWhile (· ≤ c.toNat)).length % 2 == 1

/-- Every `step`-th code point from `first` to `last` moves by `distance`. -/
structure Shift where
  /-- the first code point that moves -/
  first : Nat
  /-- the last code point that moves -/
  last : Nat
  /-- how far apart the moving code points are -/
  step : Nat
  /-- how far each of them moves -/
  distance : Int

/-- Whether a run moves a code point. -/
def Shift.moves (shift : Shift) (point : Nat) : Bool :=
  shift.first ≤ point && point ≤ shift.last && (point - shift.first) % shift.step == 0

/-- Where the first run that moves a character takes it. -/
def shifted? (shifts : List Shift) (c : Char) : Option Char :=
  (shifts.find? (·.moves c.toNat)).map fun shift =>
    Char.ofNat ((c.toNat : Int) + shift.distance).toNat

end DiscPatch.Text
