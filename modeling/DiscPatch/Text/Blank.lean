import DiscPatch.Text.CodePoint

/-!
# Blanks

Three notions of a blank character are in use, each a little wider than the one before.

* `isAsciiBlank` — the space and the five layout controls;
* `isWhiteSpace` — these, the next-line control and the spaces of every script;
* `isBlank` — these and the four information separators.

`trim` takes the characters of a class off both ends of a text.
-/

namespace DiscPatch.Text

/-- The space, tab, line feed, vertical tab, form feed and carriage return. -/
def isAsciiBlank (c : Char) : Bool :=
  c.toNat == 0x20 || (0x09 ≤ c.toNat && c.toNat ≤ 0x0d)

/-- Where white space starts and stops. -/
def whiteSpaceBounds : List Nat := [
  0x9, 0xe, 0x20, 0x21, 0x85, 0x86, 0xa0, 0xa1, 0x1680, 0x1681, 0x2000, 0x200b, 0x2028, 0x202a,
  0x202f, 0x2030, 0x205f, 0x2060, 0x3000, 0x3001]

/-- White space of any script. -/
def isWhiteSpace (c : Char) : Bool :=
  inBounds whiteSpaceBounds c

/-- White space or one of the information separators, U+001C to U+001F. -/
def isBlank (c : Char) : Bool :=
  isWhiteSpace c || (0x1c ≤ c.toNat && c.toNat ≤ 0x1f)

/-- A list without the elements at either end that satisfy `drop`. -/
def trim {α : Type} (drop : α → Bool) (items : List α) : List α :=
  ((items.dropWhile drop).reverse.dropWhile drop).reverse

/-- Every layout blank is white space. -/
theorem isWhiteSpace_of_isAsciiBlank {c : Char} (h : isAsciiBlank c = true) :
    isWhiteSpace c = true := by
  have hc : c.toNat = 0x20 ∨ c.toNat = 0x09 ∨ c.toNat = 0x0a ∨ c.toNat = 0x0b ∨ c.toNat = 0x0c ∨
      c.toNat = 0x0d := by
    simp only [isAsciiBlank, Bool.or_eq_true, beq_iff_eq, Bool.and_eq_true, decide_eq_true_eq] at h
    omega
  rcases hc with h | h | h | h | h | h <;>
    simp [isWhiteSpace, inBounds, whiteSpaceBounds, h]

end DiscPatch.Text
