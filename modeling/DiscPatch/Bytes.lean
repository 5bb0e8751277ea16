/-!
# Byte strings

Content is held as plain lists of bytes.

* `Bytes.window` — the part of a byte string between two positions, where a negative position
  counts from the end;
* `Bytes.ofText` — the bytes of a text.
-/

namespace DiscPatch

/-- A byte string. -/
abbrev Bytes := List UInt8

namespace Bytes

/-- Where a position falls in a string of `n` bytes: a negative one counts from the end, and one
beyond either end stops there. -/
def clamp (n : Nat) (i : Int) : Nat :=
  if i < 0 then (i + n).toNat else min i.toNat n

/-- The bytes from position `start` up to position `stop`, both as `clamp` reads them. -/
def window (data : Bytes) (start stop : Int) : Bytes :=
  (data.take (clamp data.length stop)).drop (clamp data.length start)

/-- The UTF-8 bytes of a text. -/
def ofText (text : String) : Bytes :=
  text.toUTF8.toList

/-- The text that bytes spell in UTF-8, `none` if they spell none. -/
def toText? (data : Bytes) : Option String :=
  String.fromUTF8? ⟨data.toArray⟩

@[simp] theorem clamp_le (n : Nat) (i : Int) : clamp n i ≤ n := by
  unfold clamp
  split <;> omega

end Bytes

end DiscPatch
