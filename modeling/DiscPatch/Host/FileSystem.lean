import DiscPatch.Bytes
import DiscPatch.Error
import DiscPatch.Text.Split

/-!
# The host file system

The host file system is a value: a tree of folders, files, links and pipes, and a working folder in
it. Following a path is a walk from name to name.

* `Entry`, `FileSystem` — what is stored;
* `Entry.at?`, `Entry.put` — the entry at a list of names, and the tree with another entry there;
* `FileSystem.walk` — where a path leads. Links are followed at most forty times; a path that ends
  in a separator has to lead to a folder; only the last name may be missing.

The walk takes one stride along plain names at a time and comes back to the caller at a link, so
that it ends for two separate reasons: a stride uses up the names, and links use up the budget.
-/

namespace DiscPatch.Host

open DiscPatch.Text (split)

/-- Something that has a name in a folder. -/
inductive Entry where
  /-- a regular file -/
  | file (data : Bytes)
  /-- a folder, with its entries by name -/
  | folder (entries : List (String × Entry))
  /-- a symbolic link -/
  | link (target : String)
  /-- a named pipe -/
  | pipe
  deriving Inhabited

/-- Entries with one of them replaced, or added at the end if the name is new. -/
def insert (name : String) (entry : Entry) : List (String × Entry) → List (String × Entry)
  | [] => [(name, entry)]
  | (other, old) :: rest =>
    if other = name then (name, entry) :: rest else (other, old) :: insert name entry rest

namespace Entry

/-- The entry of that name in a folder; nothing else has entries. -/
def child? (name : String) : Entry → Option Entry
  | .folder entries => entries.lookup name
  | _ => none

/-- The entry reached by going down through the names, without following links. -/
def at? (entry : Entry) : List String → Option Entry
  | [] => some entry
  | name :: names =>
    match entry.child? name with
    | some next => next.at? names
    | none => none

/-- The tree with `new` at the end of the names. Nothing changes unless the names before the last
lead through folders. -/
def put (new : Entry) : List String → Entry → Entry
  | [], _ => new
  | name :: names, .folder entries =>
    match entries.lookup name, names with
    | some old, _ => .folder (insert name (put new names old) entries)
    | none, [] => .folder (insert name new entries)
    | none, _ :: _ => .folder entries
  | _ :: _, entry => entry

/-- Whether the entry is a folder. -/
def isFolder : Entry → Bool
  | .folder _ => true
  | _ => false

/-- Whether the entry is a regular file. -/
def isFile : Entry → Bool
  | .file _ => true
  | _ => false

/-- Whether the entry is a link. -/
def isLink : Entry → Bool
  | .link _ => true
  | _ => false

end Entry

/-- A file system and the folder that relative paths start from. -/
structure FileSystem where
  /-- the entries of the topmost folder -/
  root : List (String × Entry)
  /-- the names that lead to the working folder -/
  current : List String

namespace FileSystem

/-- The topmost folder. -/
def top (fs : FileSystem) : Entry :=
  .folder fs.root

/-- The entry at the end of the names, going down from the top. -/
def at? (fs : FileSystem) (trail : List String) : Option Entry :=
  fs.top.at? trail

/-- The file system with an entry put at the end of the names. -/
def put (fs : FileSystem) (trail : List String) (entry : Entry) : FileSystem :=
  match Entry.put entry trail fs.top with
  | .folder root => { fs with root := root }
  | _ => fs

end FileSystem

/-- Whether a path starts at the top. -/
def isAbsolute (path : String) : Bool :=
  path.toList.head? == some '/'

/-- The names of a path in order. A separator at the end asks for a folder, which a last name `.`
says as well. -/
def pathParts (path : String) : List String :=
  let names := (split '/' path).filter (· ≠ "")
  if path.toList.getLast? = some '/' then names ++ ["."] else names

/-- Where a path leads. -/
structure Place where
  /-- the names from the top, free of links -/
  trail : List String
  /-- what is there; `none` if only the last name is missing -/
  entry : Option Entry

/-- The longest name, in bytes. -/
def maxName : Nat := 255

/-- A path has to be shorter than this, in bytes. -/
def maxPath : Nat := 4096

/-- How many links one walk follows. -/
def maxLinks : Nat := 40

/-- Go along the names from the folder at `trail`. At a link that is to be followed, hand the folder
it stands in, its target and the names after it to `onLink`. -/
def FileSystem.stride (fs : FileSystem) (follow : Bool)
    (onLink : List String → String → List String → Except OsCode Place) :
    List String → List String → Except OsCode Place
  | trail, [] => .ok ⟨trail, fs.at? trail⟩
  | trail, part :: rest =>
    if part = "." then fs.stride follow onLink trail rest
    else if part = ".." then fs.stride follow onLink trail.dropLast rest
    else if maxName < part.utf8ByteSize then .error .nameTooLong
    else match fs.at? (trail ++ [part]) with
      | none => if rest = [] then .ok ⟨trail ++ [part], none⟩ else .error .noEntry
      | some (.folder _) => fs.stride follow onLink (trail ++ [part]) rest
      | some (.link target) =>
        if rest = [] ∧ follow = false then .ok ⟨trail ++ [part], some (.link target)⟩
        else onLink trail target rest
      | some entry => if rest = [] then .ok ⟨trail ++ [part], some entry⟩ else .error .notFolder

/-- Go along the names from the folder at `trail`, following no more links than `budget`. -/
def FileSystem.walkFrom (fs : FileSystem) (follow : Bool) :
    (budget : Nat) → List String → List String → Except OsCode Place
  | 0 => fs.stride follow fun _ _ _ => .error .linkLoop
  | budget + 1 => fs.stride follow fun trail target rest =>
    if target = "" then .error .noEntry
    else fs.walkFrom follow budget (if isAbsolute target then [] else trail)
      (pathParts target ++ rest)

/-- Where a path leads; a link at its end is followed if `follow` says so. -/
def FileSystem.walk (fs : FileSystem) (follow : Bool) (path : String) : Except OsCode Place :=
  if path = "" then .error .noEntry
  else if maxPath ≤ path.utf8ByteSize then .error .nameTooLong
  else fs.walkFrom follow maxLinks (if isAbsolute path then [] else fs.current) (pathParts path)

end DiscPatch.Host
