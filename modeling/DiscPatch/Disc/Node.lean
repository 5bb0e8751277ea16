import DiscPatch.Content.File
import DiscPatch.Text.Case

/-!
# The tree of a disc

* `Node`, `Folder` — files and folders in the order in which they were put there;
* `sameName` — how names compare: the letters `A` to `Z` match their small forms, all other
  characters only themselves;
* `Location`, `fileAt?`, `modifyAt` — a place in the tree, by the index of each child on the way;
* `listing` — every file with its path;
* `findFile?` — the first file of a name, each folder being searched before its later neighbours;
* `Folder.detach` — a file taken out of the top folder.
-/

namespace DiscPatch

open DiscPatch.Text (foldAscii)

/-- A file, or a folder with its children. -/
inductive Node where
  /-- a file -/
  | file (leaf : File)
  /-- a folder -/
  | folder (name : String) (children : List Node)

/-- The name of a node. -/
def Node.name : Node → String
  | .file leaf => leaf.name
  | .folder name _ => name

/-- The top folder of a disc. -/
structure Folder where
  /-- its name -/
  name : String
  /-- what it holds -/
  children : List Node

/-- Whether two names are the same on a disc. -/
def sameName (a b : String) : Bool :=
  foldAscii a == foldAscii b

/-! ## Places -/

/-- A place in a tree: the index of the child to take at each level. -/
abbrev Location := List Nat

/-- The file at a place. -/
def fileAt? : Location → List Node → Option File
  | [], _ => none
  | index :: rest, children =>
    match children[index]?, rest with
    | some (.file file), [] => some file
    | some (.folder _ below), _ :: _ => fileAt? rest below
    | _, _ => none

/-- The tree with the file at a place replaced. -/
def modifyAt (file : File) : Location → List Node → List Node
  | [], children => children
  | index :: rest, children =>
    match children[index]?, rest with
    | some (.file _), [] => children.set index (.file file)
    | some (.folder name below), _ :: _ =>
      children.set index (.folder name (modifyAt file rest below))
    | _, _ => children

/-! ## Going through all files -/

/-- The path of a child of the folder at `above`; the top folder has the empty path. -/
def childPath (above name : String) : String :=
  if above = "" then name else above ++ "/" ++ name

mutual
/-- Every file in a node that stands in the folder at `above`, with its path. -/
def Node.listing (above : String) : Node → List (String × File)
  | .file leaf => [(childPath above leaf.name, leaf)]
  | .folder name children => listing (childPath above name) children

/-- Every file below the children of the folder at `above`, with its path. -/
def listing (above : String) : List Node → List (String × File)
  | [] => []
  | node :: rest => node.listing above ++ listing above rest
end

mutual
/-- The first file of that name in a node. -/
def Node.findFile? (name : String) : Node → Option Location
  | .file leaf => if sameName leaf.name name then some [] else none
  | .folder _ children => findFile? name 0 children

/-- The first file of that name below the children from index `index` on. -/
def findFile? (name : String) (index : Nat) : List Node → Option Location
  | [] => none
  | node :: rest =>
    match node.findFile? name with
    | some place => some (index :: place)
    | none => findFile? name (index + 1) rest
end

/-! ## The top folder -/

/-- The first file of that name among the children, and the children without it. -/
def detachFrom (name : String) : List Node → Option (File × List Node)
  | [] => none
  | .file file :: rest =>
    if sameName file.name name then some (file, rest)
    else (detachFrom name rest).map fun (found, others) => (found, .file file :: others)
  | node :: rest => (detachFrom name rest).map fun (found, others) => (found, node :: others)

/-- Take the file of that name out of a folder. -/
def Folder.detach (folder : Folder) (name : String) : Option File × Folder :=
  match detachFrom name folder.children with
  | some (file, others) => (some file, { folder with children := others })
  | none => (none, folder)

/-- A folder with a file put in front of its children. -/
def Folder.attach (folder : Folder) : Option File → Folder
  | some file => { folder with children := .file file :: folder.children }
  | none => folder

/-! ## Frozen trees -/

/-- Layouts by path. -/
abbrev Frozen := List (String × Layout)

/-- Layouts with one more; a later layout takes the place of an earlier one of the same path. -/
def Frozen.insert (path : String) (layout : Layout) : Frozen → Frozen
  | [] => [(path, layout)]
  | (other, old) :: rest =>
    if other = path then (path, layout) :: rest else (other, old) :: Frozen.insert path layout rest

/-- The layout of every file, added to those in `frozen`. -/
def freezeAll (frozen : Frozen) : List (String × File) → Except Error Frozen
  | [] => .ok frozen
  | (path, file) :: rest => do
    let layout ← file.freeze 0
    freezeAll (frozen.insert path layout) rest

/-- The layout of every file of a folder by its path. -/
def Folder.freeze (folder : Folder) : Except Error Frozen :=
  freezeAll [] (listing "" folder.children)

end DiscPatch
