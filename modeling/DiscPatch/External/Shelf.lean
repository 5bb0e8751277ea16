import DiscPatch.External.Basic
import DiscPatch.External.Roots

/-!
# External files kept in memory

* `FileTree` — files and folders held in memory;
* `External.shelf` — external files taken from such a tree. Paths are confined to their roots, then
  looked up from the top of the tree.
-/

namespace DiscPatch

open DiscPatch.Text (split)

/-- A file, or a folder with its entries by name. -/
inductive FileTree where
  /-- a file -/
  | file (data : Bytes)
  /-- a folder -/
  | folder (entries : List (String × FileTree))
  deriving Inhabited

namespace FileTree

/-- The entry of that name in a folder; a file has none. -/
def child? (name : String) : FileTree → Option FileTree
  | .folder entries => entries.lookup name
  | .file _ => none

/-- What the names lead to; empty names are passed over. -/
def at? (tree : FileTree) : List String → Option FileTree
  | [] => some tree
  | name :: names =>
    if name = "" then tree.at? names
    else match tree.child? name with
      | some next => next.at? names
      | none => none

/-- Whether it is a folder. -/
def isFolder : FileTree → Bool
  | .folder _ => true
  | .file _ => false

mutual
/-- How many levels of folders there are. -/
def depth : FileTree → Nat
  | .file _ => 0
  | .folder entries => entriesDepth entries + 1

/-- The most levels of folders that any of the entries has. -/
def entriesDepth : List (String × FileTree) → Nat
  | [] => 0
  | (_, tree) :: rest => max tree.depth (entriesDepth rest)
end

end FileTree

namespace Shelf

/-- What an external path leads to; `none` if it leads nowhere. -/
def find (tree : FileTree) (roots : Roots) (path : String) : Except Escape (Option FileTree) :=
  (roots.locate path).map fun path => tree.at? (split '/' path)

/-- The bytes of a file; `none` if the path is refused or leads to no file. -/
def file? (tree : FileTree) (roots : Roots) (path : String) : Logged (Option Bytes) :=
  match find tree roots path with
  | .error cause => do
    Logged.note (.rejectedPath .shelf cause)
    return none
  | .ok (some (.file data)) => return some data
  | .ok _ => return none

/-- The entries of a folder by name; none if the path is refused or leads to no folder. -/
def entries (tree : FileTree) (roots : Roots) (path : String) : List Listed :=
  match find tree roots path with
  | .ok (some (.folder entries)) =>
    sortListed (entries.map fun (name, entry) => ⟨name, entry.isFolder⟩)
  | _ => []

end Shelf

/-- External files taken from a tree in memory. -/
def External.shelf (tree : FileTree) (given : Roots) : External :=
  let roots := given.trimmed
  { size? := fun path => return (← Shelf.file? tree roots path).map List.length
    contents := fun path => return .ok ((← Shelf.file? tree roots path).getD [])
    entries := fun path => return .ok (Shelf.entries tree roots path)
    source := fun path offset _ _ => do
      match ← Shelf.file? tree roots path with
      | none => return Source.zeros
      | some data => return .buffer data offset
    savegame? := fun path => do
      match roots.locate path with
      | .ok path => return some path
      | .error cause =>
        Logged.note (.rejectedSavegame cause)
        return none
    depth := tree.depth }

end DiscPatch
