import DiscPatch.Log
import DiscPatch.Machine.Hook
import DiscPatch.Machine.Memory
import DiscPatch.Patch.Directive

/-!
# Changing memory

Bytes of a memory image are changed in three ways. Each change drops the hooks whose range it
touches, so that no hook outlives the code it was placed on.

* `writeDirect` — at a given address, if the bytes there are as expected;
* `writeFound` — over the first place where a pattern stands;
* `placeBranch` — a branch in place of the first return instruction after a pattern;
* `branchWord` — the word for a branch.
-/

namespace DiscPatch

/-- A memory image and the hooks placed on it. -/
structure Machine (μ : Type) where
  /-- the memory -/
  image : μ
  /-- the hooks, oldest first -/
  hooks : List Machine.Hook

namespace Machine

/-- The ways to change memory. -/
inductive Manner where
  /-- at a given address -/
  | direct
  /-- over a pattern -/
  | search
  /-- by a branch after a pattern -/
  | hook
  deriving DecidableEq, Repr

/-- The word for a manner. -/
def Manner.label : Manner → String
  | .direct => "direct"
  | .search => "search"
  | .hook => "hook"

/-- All manners. -/
def Manner.all : List Manner :=
  [.direct, .search, .hook]

/-- What came of a memory directive. -/
structure Report where
  /-- how it goes about it -/
  manner : Manner
  /-- how it ended -/
  outcome : Outcome
  /-- where bytes were written, or would have been -/
  address : Option Int
  /-- how many bytes were written -/
  written : Int
  /-- how many hooks were dropped -/
  dropped : Int
  deriving DecidableEq, Repr

/-- The report of a directive that changed nothing. -/
def Report.idle (manner : Manner) (outcome : Outcome) (address : Option Int) : Report :=
  ⟨manner, outcome, address, 0, 0⟩

/-! ## Branches -/

/-- The instruction that returns from a routine. -/
def returnWord : Nat := 0x4E800020

/-- The operation code of a branch, in its place at the high end of a word. -/
def branchCode : Int := 0x48000000

/-- How many displacements a branch can tell apart: it has a field of 26 bits. -/
def branchField : Int := 0x4000000

/-- The word for a branch at `site` to `target`: the displacement, rounded down to a whole word and
taken as a field of 26 bits, below the operation code. -/
def branchWord (target site : Int) : Int :=
  branchCode + (target - site) % branchField / 4 * 4

/-! ## Search -/

/-- The least number below `count`, counted from `from`, that satisfies a test. -/
def firstFrom (test : Nat → Bool) : (count start : Nat) → Option Nat
  | 0, _ => none
  | count + 1, start => if test start then some start else firstFrom test count (start + 1)

/-- How many multiples of `step` there are in `[0, length)`. -/
def countSteps (length : Int) (step : Nat) : Nat :=
  (length.toNat + (step - 1)) / step

variable {μ : Type} [Image μ]

/-! ## Changes -/

/-- Write bytes at an address, unless there are none, or `expected` is given and does not stand
there. -/
def writeDirect (address : Int) (value expected : Bytes) : Edit (Machine μ) Report := do
  let machine ← get
  if value = [] then return .idle .direct .skipped (some address)
  if expected ≠ [] ∧ matchesAt machine.image address expected = false then
    Edit.note (.expectedDiffers address)
    return .idle .direct .expectedMismatch (some address)
  let (image, written) := writeBytes machine.image address value
  let (hooks, dropped) := dropHooks machine.hooks address (address + value.length)
  set (Machine.mk image hooks)
  if dropped ≠ 0 then Edit.note (.writeDroppedHooks dropped address value.length)
  return ⟨.direct, .applied, some address, written, dropped⟩

/-- Write bytes over the first place in a range where a pattern stands. The places tried are
`stride` apart, and each stride has to lie in the range. -/
def writeFound (value expected : Bytes) (stride start length : Int) :
    Edit (Machine μ) Report := do
  if expected = [] ∨ stride ≤ 0 then return .idle .search .skipped none
  let machine ← get
  let place (k : Nat) : Int := start + k * stride
  match firstFrom (fun k => matchesAt machine.image (place k) expected)
      (length / stride).toNat 0 with
  | some k =>
    let report ← writeDirect (place k) value []
    return { report with manner := .search }
  | none =>
    Edit.note (.patternMissing start length)
    return .idle .search .patternNotFound none

/-- Put a branch to `target` in place of the first return instruction at or after the first place in
a range where a pattern stands. Both are looked for at whole words from the start of the range. If
there is no return instruction, that is a failure if `strict` says so. -/
def placeBranch (pattern : Bytes) (target start length : Int) (strict : Bool) :
    Edit (Machine μ) Report := do
  if pattern = [] then return .idle .hook .skipped none
  let machine ← get
  let place (k : Nat) : Int := start + k * wordSize
  let count := countSteps length wordSize
  match firstFrom (fun k => matchesAt machine.image (place k) pattern) count 0 with
  | none => return .idle .hook .patternNotFound none
  | some first =>
    match firstFrom (fun k => readWord? machine.image (place k) == some returnWord)
        (count - first) first with
    | some k =>
      let site := place k
      let (image, written) ←
        ExceptT.mk (pure (writeNumber machine.image site (branchWord target site)))
      let (hooks, dropped) := dropHooks machine.hooks site (site + wordSize)
      set (Machine.mk image hooks)
      if dropped ≠ 0 then Edit.note (.branchDroppedHooks dropped site)
      return ⟨.hook, .applied, some site, written, dropped⟩
    | none =>
      if strict then throw (.noReturn (place first))
      Edit.note (.returnMissing (place first))
      return .idle .hook .patternNotFound (some (place first))

/-- Register a hook over `size` addresses. -/
def register (address size : Int) (name : String) : Edit (Machine μ) Hook := do
  let hook := ⟨address, address + size, name⟩
  modify fun machine => { machine with hooks := machine.hooks ++ [hook] }
  return hook

end Machine

end DiscPatch
