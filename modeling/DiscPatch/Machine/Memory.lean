import DiscPatch.Bytes
import DiscPatch.Error

/-!
# Memory images

A memory image answers for some addresses and not for others.

* `Image` — what can be asked of an image: the byte at an address, and the image with another byte
  there; both may be refused;
* `Region` — one run of mapped addresses; a list of regions is an image as well, where the first
  region that maps an address answers for it;
* `writeBytes`, `readWord?`, `writeWord` — bytes in a row, and words of four bytes with the highest
  first.
-/

namespace DiscPatch.Machine

/-- Memory that can be read and written byte by byte, as far as it is mapped. -/
class Image (μ : Type) where
  /-- the byte at an address -/
  read? : μ → Int → Option UInt8
  /-- the image with another byte at an address -/
  write? : μ → Int → UInt8 → Option μ

/-- A run of mapped addresses. -/
structure Region where
  /-- the first address -/
  base : Int
  /-- the bytes, one for each address -/
  data : Array UInt8
  deriving DecidableEq

namespace Region

/-- Where in the region an address lies. -/
def index? (region : Region) (address : Int) : Option Nat :=
  let index := address - region.base
  if 0 ≤ index ∧ index < region.data.size then some index.toNat else none

/-- The byte at an address. -/
def read? (region : Region) (address : Int) : Option UInt8 :=
  (region.index? address).bind (region.data[·]?)

/-- The region with another byte at an address. -/
def write? (region : Region) (address : Int) (byte : UInt8) : Option Region :=
  (region.index? address).map fun index =>
    { region with data := region.data.setIfInBounds index byte }

/-- A region of zeros. -/
def blank (base size : Int) : Except Error Region :=
  if size < 0 then .error .negativeCount else .ok ⟨base, Array.replicate size.toNat 0⟩

/-- The region with a payload copied in at an address; the payload has to fit. -/
def load (region : Region) (address : Int) (payload : Bytes) : Except Error Region :=
  match region.index? address with
  | none => .error (.loadOutside payload.length address)
  | some index =>
    if region.data.size < index + payload.length then
      .error (.loadOutside payload.length address)
    else
      let bytes := region.data.toList
      .ok { region with
        data := (bytes.take index ++ payload ++ bytes.drop (index + payload.length)).toArray }

/-- Bytes from an address on; fewer than asked for at the end of the region, and a negative number
of them stops that far in front of where the region ends. -/
def dump (region : Region) (address length : Int) : Except Error Bytes :=
  match region.index? address with
  | none => .error (.outsideImage address)
  | some index => .ok (Bytes.window region.data.toList index (index + length))

end Region

instance : Image Region where
  read? := Region.read?
  write? := Region.write?

/-- The byte at an address in the first region that maps it. -/
def readFirst? : List Region → Int → Option UInt8
  | [], _ => none
  | region :: rest, address =>
    match region.read? address with
    | some byte => some byte
    | none => readFirst? rest address

/-- The regions with another byte at an address, in the first of them that maps it. -/
def writeFirst? : List Region → Int → UInt8 → Option (List Region)
  | [], _, _ => none
  | region :: rest, address, byte =>
    match region.write? address byte with
    | some changed => some (changed :: rest)
    | none => (writeFirst? rest address byte).map (region :: ·)

instance : Image (List Region) where
  read? := readFirst?
  write? := writeFirst?

variable {μ : Type} [Image μ]

/-- The byte that a number has at its low end. -/
def lowByte (value : Int) : UInt8 :=
  UInt8.ofNat (value % 256).toNat

/-- Write bytes from an address on. Unmapped addresses are passed over; the count says how many
bytes were written. -/
def writeBytes : μ → Int → Bytes → μ × Nat
  | image, _, [] => (image, 0)
  | image, address, byte :: rest =>
    match Image.write? image address byte with
    | none => writeBytes image (address + 1) rest
    | some changed =>
      let (final, count) := writeBytes changed (address + 1) rest
      (final, count + 1)

/-- Whether all bytes of a pattern stand at an address. -/
def matchesAt (image : μ) (address : Int) : Bytes → Bool
  | [] => true
  | byte :: rest => Image.read? image address == some byte && matchesAt image (address + 1) rest

/-- How many bytes a word has. -/
def wordSize : Nat := 4

/-- The number that bytes spell, the highest first. -/
def wordOf (bytes : Bytes) : Nat :=
  bytes.foldl (fun value byte => value * 256 + byte.toNat) 0

/-- The four bytes of a word, the highest first. -/
def wordBytes (word : Nat) : Bytes :=
  [UInt8.ofNat (word >>> 24), UInt8.ofNat (word >>> 16), UInt8.ofNat (word >>> 8),
    UInt8.ofNat word]

/-- The word at an address, if all of it is mapped. -/
def readWord? (image : μ) (address : Int) : Option Nat := do
  let a ← Image.read? image address
  let b ← Image.read? image (address + 1)
  let c ← Image.read? image (address + 2)
  let d ← Image.read? image (address + 3)
  return wordOf [a, b, c, d]

/-- Write a word at an address, as far as it is mapped; the count says how many bytes were
written. -/
def writeWord (image : μ) (address : Int) (word : Nat) : μ × Nat :=
  writeBytes image address (wordBytes word)

/-- Write a number as a word; it has to fit into one. -/
def writeNumber (image : μ) (address value : Int) : Except Error (μ × Nat) :=
  if value < 0 ∨ 0x100000000 ≤ value then .error .wordOverflow
  else .ok (writeWord image address value.toNat)

end DiscPatch.Machine
