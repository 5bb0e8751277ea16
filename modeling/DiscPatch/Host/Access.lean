import DiscPatch.Host.FileSystem

/-!
# Using the host file system

* `stat?`, `isFile`, `isFolder`, `isLink` — questions that never fail: of a path that leads nowhere
  the answer is no;
* `readFile`, `list`, `size` — fail with the host's reason;
* `makeFolder`, `create`, `extend` — return the changed file system;
* `files` — every regular file with its path, for comparing two states.
-/

namespace DiscPatch.Host

/-- Whether a path holds a NUL, which no host path can. -/
def hasNul (path : String) : Bool :=
  path.toList.contains (Char.ofNat 0)

namespace FileSystem

/-- The entry a path leads to. -/
def find (fs : FileSystem) (follow : Bool) (path : String) : Except HostFault Entry :=
  if hasNul path then .error .nulInPath
  else match fs.walk follow path with
    | .error code => .error (.refused ⟨code, some path⟩)
    | .ok ⟨_, none⟩ => .error (.refused ⟨.noEntry, some path⟩)
    | .ok ⟨_, some entry⟩ => .ok entry

/-- The entry a path leads to, if any. -/
def stat? (fs : FileSystem) (path : String) : Option Entry :=
  (fs.find true path).toOption

/-- Whether a path leads to a regular file. -/
def isFile (fs : FileSystem) (path : String) : Bool :=
  (fs.stat? path).any Entry.isFile

/-- Whether a path leads to a folder. -/
def isFolder (fs : FileSystem) (path : String) : Bool :=
  (fs.stat? path).any Entry.isFolder

/-- Whether a path names a link. -/
def isLink (fs : FileSystem) (path : String) : Bool :=
  (fs.find false path).toOption.any Entry.isLink

/-- The size a folder takes in its own right. -/
def folderSize : Nat := 4096

/-- The size of what a path leads to. -/
def size (fs : FileSystem) (path : String) : Except HostFault Nat :=
  (fs.find true path).map fun
    | .file data => data.length
    | .folder _ => folderSize
    | _ => 0

/-- The bytes of the file a path leads to. -/
def readFile (fs : FileSystem) (path : String) : Except HostFault Bytes :=
  match fs.find true path with
  | .error fault => .error fault
  | .ok (.file data) => .ok data
  | .ok (.folder _) => .error (.refused ⟨.isFolder, some path⟩)
  | .ok _ => .ok []

/-- The entries of the folder a path leads to. -/
def list (fs : FileSystem) (path : String) : Except HostFault (List (String × Entry)) :=
  match fs.find true path with
  | .error fault => .error fault
  | .ok (.folder entries) => .ok entries
  | .ok _ => .error (.refused ⟨.notFolder, some path⟩)

/-- The file system with a new, empty folder. Its parent has to be there, and its name has to be
free. -/
def makeFolder (fs : FileSystem) (path : String) : Except HostFault FileSystem :=
  if hasNul path then .error .nulInPath
  else match fs.walk false path with
    | .error code => .error (.refused ⟨code, some path⟩)
    | .ok ⟨_, some _⟩ => .error (.refused ⟨.nameTaken, some path⟩)
    | .ok ⟨trail, none⟩ => .ok (fs.put trail (.folder []))

/-- The file system with an empty file at a path, and where it is: an existing file loses its
content, a missing one is created. -/
def create (fs : FileSystem) (path : String) : Except HostFault (FileSystem × List String) :=
  if hasNul path then .error .nulInPath
  else match fs.walk true path with
    | .error code => .error (.refused ⟨code, some path⟩)
    | .ok ⟨_, some (.folder _)⟩ => .error (.refused ⟨.isFolder, some path⟩)
    | .ok ⟨trail, some .pipe⟩ => .ok (fs, trail)
    | .ok ⟨trail, _⟩ => .ok (fs.put trail (.file []), trail)

/-- The file system with bytes added to the end of the file at `trail`. -/
def extend (fs : FileSystem) (trail : List String) (more : Bytes) : FileSystem :=
  match fs.at? trail with
  | some (.file data) => fs.put trail (.file (data ++ more))
  | _ => fs

end FileSystem

/-! ## All files -/

mutual
/-- Every regular file in an entry, with the names that lead to it after `trail`. -/
def Entry.filesFrom (trail : List String) : Entry → List (List String × Bytes)
  | .file data => [(trail, data)]
  | .folder entries => entriesFilesFrom trail entries
  | .link _ | .pipe => []

/-- Every regular file among entries of the folder at `trail`. -/
def entriesFilesFrom (trail : List String) : List (String × Entry) → List (List String × Bytes)
  | [] => []
  | (name, entry) :: rest => entry.filesFrom (trail ++ [name]) ++ entriesFilesFrom trail rest
end

/-- The regular files below the working folder that are new or changed since `before`, by the names
that lead to them from there. -/
def FileSystem.changedSince (after before : FileSystem) : List (List String × Bytes) :=
  let files (fs : FileSystem) := match fs.at? fs.current with
    | some entry => entry.filesFrom []
    | none => []
  let old := files before
  (files after).filter fun (trail, data) => !old.any fun (t, d) => t == trail && d == data

mutual
/-- How many levels of folders an entry has. -/
def Entry.depth : Entry → Nat
  | .folder entries => entriesDepth entries + 1
  | .file _ | .link _ | .pipe => 0

/-- The most levels of folders that any of the entries has. -/
def entriesDepth : List (String × Entry) → Nat
  | [] => 0
  | (_, entry) :: rest => max entry.depth (entriesDepth rest)
end

end DiscPatch.Host
