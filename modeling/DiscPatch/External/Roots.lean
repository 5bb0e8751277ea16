import DiscPatch.Host.FileSystem
import DiscPatch.Log

/-!
# Roots of external paths

External paths come from patch documents that anyone may have written, so a path is worked out on
its components alone, and it is refused as soon as it climbs above the root it starts from.

* `Roots` — the two folders that paths start from: a path that begins with `/` starts from the card,
  any other from the patch;
* `settle` — the components that remain of a path: `.` and empty ones are dropped, `..` takes back
  the one before it, and a component of three or more dots is refused;
* `Roots.locate` — the path below its root;
* `patchRoot` — where the relative paths of a patch document start.
-/

namespace DiscPatch

open DiscPatch.Host (isAbsolute)
open DiscPatch.Text (split dropEnd)

/-- The folders that external paths start from. -/
structure Roots where
  /-- where paths that begin with `/` start -/
  card : String
  /-- where all other paths start -/
  patch : String
  deriving DecidableEq, Repr

/-- Whether a component is nothing but dots. -/
def isDots (component : String) : Bool :=
  component.toList ≠ [] && component.toList.all (· = '.')

/-- The components that remain after `stack`, whose top is the latest one, when the others of `path`
follow. -/
def settle (path : String) : List String → List String → Except Escape (List String)
  | stack, [] => .ok stack.reverse
  | stack, component :: rest =>
    if component = "" ∨ component = "." then settle path stack rest
    else if component = ".." then
      match stack with
      | [] => .error (.climbs path)
      | _ :: below => settle path below rest
    else if isDots component then .error (.dots component path)
    else settle path (component :: stack) rest

/-- Whether `part` occurs in a text. -/
def occursIn (part : List Char) : List Char → Bool
  | [] => part.isEmpty
  | c :: rest => part.isPrefixOf (c :: rest) || occursIn part rest

/-- A root with components below it. -/
def below (root : String) (components : List String) : String :=
  components.foldl (fun path component => path ++ "/" ++ component) root

namespace Roots

/-- The root a path starts from. -/
def start (roots : Roots) (path : String) : String :=
  if isAbsolute path then roots.card else roots.patch

/-- The path below its root, if it stays there and holds none of the separators in `foreign`. -/
def locateWithout (roots : Roots) (foreign : List String) (path : String) :
    Except Escape String :=
  match foreign.find? fun separator => occursIn separator.toList path.toList with
  | some separator => .error (.foreignSeparator separator path)
  | none => (settle path [] (split '/' path)).map (below (roots.start path))

/-- The path below its root, if it stays there. -/
def locate (roots : Roots) (path : String) : Except Escape String :=
  roots.locateWithout [] path

/-- The roots without separators at their ends. -/
def trimmed (roots : Roots) : Roots :=
  ⟨dropEnd (· = '/') roots.card, dropEnd (· = '/') roots.patch⟩

end Roots

/-- The folder a path lies in: all in front of its last separator, without further separators at the
end unless there is nothing else. -/
def folderOf (path : String) : String :=
  let head := dropEnd (· ≠ '/') path
  if head.toList.all (· = '/') then head else dropEnd (· = '/') head

/-- Where relative paths of a patch document start: at `root`, which is an external path itself and
is ignored if it leaves its own root, or else in the folder of the document. -/
def patchRoot (card document root : String) : Logged String := do
  let folder := folderOf document
  if root = "" then return folder
  match Roots.locate ⟨card, folder⟩ root with
  | .ok path => return path
  | .error cause =>
    Logged.note (.ignoredRoot root cause)
    return folder

end DiscPatch
