import DiscPatch.Content.Source
import DiscPatch.Log

/-!
# External files

Patches take their bytes from files outside the disc. `External` is all that a patch may ask about
them; who keeps the files decides how it is answered. Whatever cannot be reached counts as missing.
-/

namespace DiscPatch

/-- An entry of an external folder. -/
structure Listed where
  /-- its name -/
  name : String
  /-- whether it is a folder -/
  isFolder : Bool
  deriving DecidableEq, Repr

/-- What a patch may ask about the files outside the disc. -/
structure External where
  /-- the size of a file, `none` if it is missing -/
  size? : String → Logged (Option Nat)
  /-- the bytes of a file, none if it is missing -/
  contents : String → Logged (Except Error Bytes)
  /-- the entries of a folder, none if it is missing -/
  entries : String → Logged (Except Error (List Listed))
  /-- a source for `size` bytes of a file from position `offset` on, to be placed at `target`; zeros
  if the path is refused -/
  source : (path : String) → (offset size target : Int) → Logged Source
  /-- where a savegame folder is kept, `none` if the path is refused -/
  savegame? : String → Logged (Option String)
  /-- how many levels of folders there are at most -/
  depth : Nat

namespace External

/-- A segment that puts `size` bytes of a file, from position `offset` on, at `target`. -/
def segment (external : External) (path : String) (offset size target : Int) :
    Logged (Except Error Segment) := do
  let source ← external.source path offset size target
  return Segment.checked target size source

end External

/-- Entries by name. -/
def insertListed (entry : Listed) : List Listed → List Listed
  | [] => [entry]
  | other :: rest =>
    if entry.name ≤ other.name then entry :: other :: rest else other :: insertListed entry rest

/-- Entries put in the order of their names. -/
def sortListed : List Listed → List Listed
  | [] => []
  | entry :: rest => insertListed entry (sortListed rest)

end DiscPatch
