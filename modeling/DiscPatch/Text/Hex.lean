/-!
# Hexadecimal

* `paddedHex` — a number in lower-case digits, zeros filling it up to a width that counts the sign
  and the mark as well;
* `hexDigit?`, `hexPairs?` — reading bytes, two digits each.
-/

namespace DiscPatch.Text

/-- The digits of a number to base sixteen, in lower case. -/
def hexDigits (n : Nat) : List Char :=
  Nat.toDigits 16 n

/-- A number to base sixteen: its sign, then `mark`, then zeros up to `width` characters in all,
then its digits. -/
def paddedHex (width : Nat) (mark : String) (x : Int) : String :=
  let sign := if x < 0 then "-" else ""
  let digits := hexDigits x.natAbs
  let zeros := width - (sign.length + mark.length + digits.length)
  sign ++ mark ++ String.ofList (List.replicate zeros '0' ++ digits)

/-- The value of a hexadecimal digit of either case. -/
def hexDigit? (c : Char) : Option Nat :=
  let point := c.toNat
  if 0x30 ≤ point ∧ point ≤ 0x39 then some (point - 0x30)
  else if 0x41 ≤ point ∧ point ≤ 0x46 then some (point - 0x41 + 10)
  else if 0x61 ≤ point ∧ point ≤ 0x66 then some (point - 0x61 + 10)
  else none

/-- The byte that two hexadecimal digits spell. -/
def hexPair? (high low : Char) : Option UInt8 := do
  let high ← hexDigit? high
  let low ← hexDigit? low
  return UInt8.ofNat (16 * high + low)

/-- The bytes spelled by pairs of digits, where characters that satisfy `skip` may stand before,
between and after pairs, but not inside one. -/
def hexPairs? (skip : Char → Bool) : List Char → Option (List UInt8)
  | [] => some []
  | [c] => if skip c then some [] else none
  | c :: d :: rest =>
    if skip c then hexPairs? skip (d :: rest)
    else do
      let byte ← hexPair? c d
      let bytes ← hexPairs? skip rest
      return byte :: bytes

/-- A hexadecimal digit stands for a number below sixteen. -/
theorem hexDigit?_lt {c : Char} {n : Nat} (h : hexDigit? c = some n) : n < 16 := by
  simp only [hexDigit?] at h
  split at h
  · simp only [Option.some.injEq] at h; omega
  · split at h
    · simp only [Option.some.injEq] at h; omega
    · split at h
      · simp only [Option.some.injEq] at h; omega
      · exact absurd h (by simp)

end DiscPatch.Text
