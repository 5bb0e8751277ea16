import DiscPatch.Disc.Node

/-!
# Writing a tree out

Every file of a tree is written below a host folder. The target is emptied before its content is
read, and content is copied in chunks, so a failure leaves what was written so far. A writer may hold
bytes back before the host gets them; it lets go of them when copying ends, or fails.

* `ensureFolder` — a folder with all the folders it lies in;
* `heldBack` — how much a writer holds back;
* `copyChunks` — the bytes of a layout, chunk by chunk;
* `exportFile`, `Folder.exportTo` — one file, and all of them.
-/

namespace DiscPatch

open DiscPatch.Host (FileSystem WrittenPath)

/-- How many bytes are copied at a time. -/
def exportChunk : Nat := 4 * 1024 * 1024

/-- How many bytes a writer can hold back. -/
def writerRoom : Nat := 8192

/-- How many bytes are held back once `more` bytes have come to the `held` ones: all of them as long
as there is room, or only the new ones, or none if the new ones do not fit. -/
def heldBack (room held more : Nat) : Nat :=
  if held + more ≤ room ∧ more < room then held + more
  else if more ≤ room then more
  else 0

/-- Create a folder. A folder that is there already will do, anything else of that name will not. -/
def makeFolder (path : String) : Edit FileSystem Unit := do
  let fs ← get
  match fs.makeFolder path with
  | .ok changed => set changed
  | .error .nulInPath => throw (.host .nulInPath)
  | .error (.refused fault) =>
    if fault.code = .noEntry ∨ fs.isFolder path = false then throw (.host (.refused fault))

/-- Create a folder and the folders it lies in, as far as they are missing. The names are given from
the last to the first. -/
def ensureFolder (anchor : String) : List String → Edit FileSystem Unit
  | [] => makeFolder (WrittenPath.text ⟨anchor, []⟩)
  | name :: above => do
    let path := WrittenPath.text ⟨anchor, (name :: above).reverse⟩
    match (← get).makeFolder path with
    | .error (.refused ⟨.noEntry, _⟩) =>
      ensureFolder anchor above
      makeFolder path
    | _ => makeFolder path

/-- Copy bytes `[position, size)` of a layout to the end of the file at `trail`, `chunk` at a time.
The writer holds bytes back that come before these, and `keep` says how many it holds back after each
chunk. -/
def copyChunks (layout : Layout) (chunk : Nat) (keep : Nat → Nat → Nat) (trail : List String)
    (size : Nat) : (fuel : Nat) → (position : Nat) → (held : Bytes) → Edit FileSystem Unit
  | 0, _, held => do set ((← get).extend trail held)
  | fuel + 1, position, held => do
    let fs ← get
    if size ≤ position then set (fs.extend trail held)
    else
      let count := min chunk (size - position)
      match layout.read fs position count with
      | .error fault =>
        set (fs.extend trail held)
        throw (.read fault)
      | .ok bytes =>
        let all := held ++ bytes
        let passed := all.length - keep held.length bytes.length
        set (fs.extend trail (all.take passed))
        copyChunks layout chunk keep trail size fuel (position + count) (all.drop passed)

/-- Write the first `size` bytes of a layout to a host file. -/
def exportFile (layout : Layout) (size : Int) (target : WrittenPath) : Edit FileSystem Unit := do
  ensureFolder target.anchor target.parts.dropLast.reverse
  match (← get).create target.text with
  | .error fault => throw (.host fault)
  | .ok (changed, trail) =>
    set changed
    copyChunks layout exportChunk (heldBack writerRoom) trail size.toNat size.toNat 0 []

/-- Write files below a host folder. -/
def exportFiles (folder : WrittenPath) : List (String × File) → Edit FileSystem Unit
  | [] => pure ()
  | (path, file) :: rest => do
    let layout ← ExceptT.mk (pure (file.freeze 0))
    exportFile layout file.size (folder.append path)
    exportFiles folder rest

/-- Write every file of a tree below a host folder. Answers how many there are. -/
def Folder.exportTo (folder : Folder) (output : String) : Edit FileSystem Nat := do
  let files := listing "" folder.children
  let target := WrittenPath.ofText output
  exportFiles target files
  Edit.note (.exported files.length target.text)
  return files.length

end DiscPatch
