import DiscPatch.Disc.Node
import DiscPatch.Text.Split

/-!
# Reaching a file by its path

`reach` goes down a path one component at a time, always to the first child of that name. It can
create what is missing: folders for the components on the way and an empty file for the last one.
What it has created stays, even if a later component then fails.
-/

namespace DiscPatch

open DiscPatch.Text (split join)

/-- The first child of a name, and its index counted from `index` on. -/
def childNamed? (name : String) (index : Nat) : List Node → Option (Nat × Node)
  | [] => none
  | node :: rest =>
    if sameName node.name name then some (index, node) else childNamed? name (index + 1) rest

/-- Go down the components from a list of children to a file. Returns the children as they are
afterwards, and the place of the file. -/
def reachParts (create : Bool) :
    List String → List Node → List Node × Except LookupFault Location
  | [], children => (children, .error (.emptyComponent ""))
  | name :: rest, children =>
    if name = "" then (children, .error (.emptyComponent (join '/' (name :: rest))))
    else match childNamed? name 0 children with
      | some (index, .file _) =>
        (children, if rest = [] then .ok [index] else .error (.notFolder name))
      | some (index, .folder found below) =>
        if rest = [] then (children, .error (.notFile name))
        else
          let (below, answer) := reachParts create rest below
          (children.set index (.folder found below), answer.map (index :: ·))
      | none =>
        if create = false then (children, .error (.missing name))
        else if rest = [] then
          (children ++ [.file (File.empty name)], .ok [children.length])
        else
          let (below, answer) := reachParts create rest []
          (children ++ [.folder name below], answer.map (children.length :: ·))

/-- Go down a path from a list of children to a file. -/
def reach (create : Bool) (path : String) (children : List Node) :
    List Node × Except LookupFault Location :=
  reachParts create (split '/' path) children

/-- Reach a file below a folder. -/
def Folder.reach (create : Bool) (path : String) : Edit Folder Location := do
  let folder ← get
  let (children, answer) := DiscPatch.reach create path folder.children
  set { folder with children := children }
  match answer with
  | .ok place => return place
  | .error fault => throw (.lookup fault)

/-- Reach a file below a folder; a failure is noted and not passed on. -/
def Folder.reach? (create : Bool) (path : String) : Edit Folder (Option Location) := do
  let folder ← get
  let (children, answer) := DiscPatch.reach create path folder.children
  set { folder with children := children }
  match answer with
  | .ok place => return some place
  | .error fault =>
    Edit.note (.notResolved path fault)
    return none

end DiscPatch
