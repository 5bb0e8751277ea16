/-!
# Numbers with a fraction or an exponent

A number that is written with a fraction or an exponent stands for the nearest binary number of 53
digits, and of two equally near ones for the even one. What is too large is infinite.

* `Double` — such a number, exactly;
* `Double.ofDecimal` — the nearest one to a decimal;
* `Double.whole?` — the integer it is equal to.
-/

namespace DiscPatch

/-- A binary number of limited precision. -/
inductive Double where
  /-- `numerator / 2 ^ shift` -/
  | finite (numerator : Int) (shift : Nat)
  /-- too large for any finite one -/
  | infinite (negative : Bool)
  /-- no number -/
  | nan
  deriving DecidableEq, Repr

namespace Double

/-- The quotient rounded to the nearest integer, and to the even one of two. -/
def roundDiv (numerator denominator : Nat) : Nat :=
  let quotient := numerator / denominator
  let rest := numerator % denominator
  if 2 * rest > denominator ∨ (2 * rest = denominator ∧ quotient % 2 = 1) then quotient + 1
  else quotient

/-- The quotient `numerator / (denominator * 2 ^ power)` rounded to the nearest integer. -/
def scaled (numerator denominator : Nat) (power : Int) : Nat :=
  if 0 ≤ power then roundDiv numerator (denominator <<< power.toNat)
  else roundDiv (numerator <<< (-power).toNat) denominator

/-- How many binary digits are kept. -/
def precision : Nat := 53

/-- The least power of two that the last digit can stand for. -/
def leastPower : Int := -1074

/-- The greatest power of two that the first digit can stand for. -/
def greatestPower : Nat := 1023

/-- The power of two that the last digit stands for in a positive quotient. -/
def lastPower (numerator denominator : Nat) : Int :=
  let guess : Int := (Nat.log2 numerator : Int) - Nat.log2 denominator - (precision - 1)
  let reaches := if 0 ≤ guess then
      denominator <<< (guess.toNat + (precision - 1)) ≤ numerator
    else denominator <<< (precision - 1) ≤ numerator <<< (-guess).toNat
  max leastPower (if reaches then guess else guess - 1)

/-- The double nearest to a positive quotient. -/
def ofQuotient (negative : Bool) (numerator denominator : Nat) : Double :=
  let power := lastPower numerator denominator
  let digits := scaled numerator denominator power
  let sign : Int := if negative then -1 else 1
  if 0 ≤ power then
    let value := digits <<< power.toNat
    if 1 <<< (greatestPower + 1) ≤ value then .infinite negative else .finite (sign * value) 0
  else .finite (sign * digits) (-power).toNat

/-- No decimal with more places than this in front of the point is finite. -/
def mostPlaces : Int := 400

/-- The double nearest to `digits * 10 ^ exponent`. -/
def ofDecimal (negative : Bool) (digits : Nat) (exponent : Int) : Double :=
  let places : Int := (Nat.toDigits 10 digits).length + exponent
  if digits = 0 ∨ places < -mostPlaces then .finite 0 0
  else if mostPlaces < places then .infinite negative
  else if 0 ≤ exponent then ofQuotient negative (digits * Nat.pow 10 exponent.toNat) 1
  else ofQuotient negative digits (Nat.pow 10 (-exponent).toNat)

/-- The integer that a double is equal to. -/
def whole? : Double → Option Int
  | .finite numerator shift =>
    let unit : Int := (1 <<< shift : Nat)
    if numerator % unit = 0 then some (numerator / unit) else none
  | .infinite _ | .nan => none

end Double

end DiscPatch
