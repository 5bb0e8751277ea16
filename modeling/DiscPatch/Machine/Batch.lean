import DiscPatch.Machine.Change

/-!
# Memory directives

* `valueOf` — the bytes a directive gives: an external file, or the value itself;
* `applyDirect`, `applySearch`, `applyHook` — one directive, by the manner it asks for;
* `applyGeneral` — the direct and the search directives of all patches;
* `applyLoaded` — the search and the hook directives of all patches, on a range just loaded.
-/

namespace DiscPatch.Machine

/-- Where memory starts unless told otherwise. -/
def defaultBase : Int := 0x80000000

/-- Bitwise or of two numbers in two's complement with no limit on width. -/
def bitOr : Int → Int → Int
  | .ofNat a, .ofNat b => .ofNat (a ||| b)
  | .ofNat a, .negSucc b => .negSucc (b ^^^ (a &&& b))
  | .negSucc a, .ofNat b => .negSucc (a ^^^ (a &&& b))
  | .negSucc a, .negSucc b => .negSucc (a &&& b)

/-- The bytes of a directive: those of its external file if it names one, else its value. -/
def valueOf (patch : Patch) (directive : MemoryDirective) : Logged (Except Error Bytes) :=
  if directive.valueFile = "" then return .ok directive.value
  else match patch.required with
    | .error error => return .error error
    | .ok external => external.contents directive.valueFile

variable {μ : Type} [Image μ]

/-- Write at the directive's offset from `base`. The offset zero stands for no address. -/
def applyDirect (base : Int) (patch : Patch) (directive : MemoryDirective) :
    Edit (Machine μ) Report := do
  if directive.offset = 0 then return .idle .direct .skipped none
  let value ← Edit.fromFallible (valueOf patch directive)
  writeDirect (bitOr directive.offset base) value directive.expected

/-- Write over the directive's expected bytes in a range. -/
def applySearch (start length : Int) (patch : Patch) (directive : MemoryDirective) :
    Edit (Machine μ) Report := do
  if directive.expected = [] ∨ directive.align ≤ 0 then return .idle .search .skipped none
  let value ← Edit.fromFallible (valueOf patch directive)
  writeFound value directive.expected directive.align start length

/-- Branch to the directive's offset from `base` after its pattern in a range. -/
def applyHook (base start length : Int) (strict : Bool) (patch : Patch)
    (directive : MemoryDirective) : Edit (Machine μ) Report := do
  if directive.offset = 0 then return .idle .hook .skipped none
  let pattern ← Edit.fromFallible (valueOf patch directive)
  placeBranch pattern (bitOr directive.offset base) start length strict

/-- The memory directives of all patches in order, each with its patch. -/
def memoryDirectives (patches : List Patch) : List (Patch × MemoryDirective) :=
  patches.flatMap fun patch => patch.memory.map (patch, ·)

/-- Carry out the direct and the search directives of all patches. -/
def applyGeneral (base size : Int) (patches : List Patch) : Edit (Machine μ) (List Report) :=
  ((memoryDirectives patches).filter (!·.2.hook)).mapM fun (patch, directive) =>
    if directive.search then applySearch base size patch directive
    else applyDirect base patch directive

/-- Carry out the search and the hook directives of all patches on a range. -/
def applyLoaded (base start length : Int) (strict : Bool) (patches : List Patch) :
    Edit (Machine μ) (List Report) :=
  ((memoryDirectives patches).filter fun (_, directive) => directive.hook || directive.search).mapM
    fun (patch, directive) =>
      if directive.hook then applyHook base start length strict patch directive
      else applySearch start length patch directive

end DiscPatch.Machine
