import DiscPatch.Document.Check
import DiscPatch.Disc.Node
import DiscPatch.Machine.Change

/-!
# Records in documents

For each record that may stand in a document: the fields it has, the kind of value each takes, and
what a field that is not there stands for. Fields of other names are passed over.

* directives and patches — `FileDirective.check`, `FolderDirective.check`, `MemoryDirective.check`,
  `SavegameDirective.check`, `Patch.check`;
* content — `Source.check`, `Segment.check`, `File.check`, `Folder.check`;
* reports — `FileReport.check`, `Machine.Report.check`, `Redirect.check`, `Listed.check`,
  `Machine.Hook.check`.
-/

namespace DiscPatch

open Check

/-! ## Directives -/

/-- A file directive. -/
def FileDirective.check : Check FileDirective :=
  object fun fields =>
    (Checked.build FileDirective.mk).also (required fields "disc" text)
      |>.also (required fields "external" text)
      |>.also (optional fields "offset" natural 0)
      |>.also (optional fields "fileoffset" natural 0)
      |>.also (optional fields "length" natural 0)
      |>.also (optional fields "resize" truth true)
      |>.also (optional fields "create" truth false)

/-- A folder directive. -/
def FolderDirective.check : Check FolderDirective :=
  object fun fields =>
    (Checked.build FolderDirective.mk).also (optional fields "disc" text "")
      |>.also (required fields "external" text)
      |>.also (optional fields "recursive" truth true)
      |>.also (optional fields "resize" truth true)
      |>.also (optional fields "create" truth false)
      |>.also (optional fields "length" natural 0)

/-- A memory directive. -/
def MemoryDirective.check : Check MemoryDirective :=
  object fun fields =>
    (Checked.build MemoryDirective.mk).also (optional fields "offset" natural 0)
      |>.also (optional fields "value" hexBytes [])
      |>.also (optional fields "valuefile" text "")
      |>.also (optional fields "original" hexBytes [])
      |>.also (optional fields "search" truth false)
      |>.also (optional fields "align" natural 1)
      |>.also (optional fields "ocarina" truth false)

/-- A savegame directive. -/
def SavegameDirective.check : Check SavegameDirective :=
  object fun fields =>
    (Checked.build SavegameDirective.mk).also (required fields "external" text)
      |>.also (optional fields "clone" truth true)

/-- External files cannot be written into a document: only their absence can. -/
def noExternal : Check (Option External)
  | .null => .ok none
  | _ => Checked.flaw .notSpellable

/-- A patch. -/
def Patch.check : Check Patch :=
  object fun fields =>
    (Checked.build Patch.mk).also (optional fields "name" text "")
      |>.also (optional fields "file_patches" (listOf FileDirective.check) [])
      |>.also (optional fields "folder_patches" (listOf FolderDirective.check) [])
      |>.also (optional fields "memory_patches" (listOf MemoryDirective.check) [])
      |>.also (optional fields "savegame_patches" (listOf SavegameDirective.check) [])
      |>.also (optional fields "loader" noExternal none)

/-! ## Content -/

/-- The object of a value that may be of several kinds, told apart by a tag. -/
def tagged {α : Type} (kinds : List (String × (Fields → Checked α))) : Check α
  | .object fields =>
    match Fields.get? "kind" fields with
    | none => Checked.flaw .noTag
    | some (.text tag) =>
      match kinds.find? (·.1 == tag) with
      | some (_, check) => Checked.under (.field tag) (check fields)
      | none => Checked.flaw .badTag
    | some _ => Checked.flaw .badTag
  | _ => Checked.flaw .notTagged

/-- A finished layout cannot be written into a document. -/
def noLayout : Check (List Segment) :=
  fun _ => Checked.flaw .notSpellable

/-- A source. -/
def Source.check : Check Source :=
  tagged [
    ("file", fun fields => (Checked.build Source.file).also (required fields "path" text)
      |>.also (optional fields "file_offset" integer 0)),
    ("buffer", fun fields => (Checked.build Source.buffer).also (required fields "data" bytes)
      |>.also (optional fields "start" integer 0)),
    ("container", fun fields =>
      (Checked.build Source.nested).also (required fields "container" noLayout)
        |>.also (optional fields "offset" integer 0)
        |>.also (optional fields "extra" integer 0)),
    ("fill", fun fields =>
      (Checked.build Source.fill).also (optional fields "byte_value" byte 0))]

/-- A segment. -/
def Segment.check : Check Segment :=
  object fun fields =>
    (Checked.build fun (offset size : Int) source => Placed.mk offset.toNat size.toNat source).also
        (required fields "offset" natural)
      |>.also (required fields "size" natural)
      |>.also (required fields "source" Source.check)

/-- A file, given by its fields. -/
def File.checkFields (fields : Fields) : Checked File :=
  (Checked.build fun (_ : Unit) name size segments => File.mk name size segments).also
      (optional fields "kind" (literal "file") ())
    |>.also (required fields "name" text)
    |>.also (optional fields "size" integer 0)
    |>.also (optional fields "segments" (listOf Segment.check) [])

/-- A file. -/
def File.check : Check File :=
  object File.checkFields

/-- A folder, given by its fields, with its children checked already if it has any. -/
def Folder.checkFields (fields : Fields) (children : Option (Checked (List Node))) :
    Checked Folder :=
  (Checked.build fun (_ : Unit) name children => Folder.mk name children).also
      (optional fields "kind" (literal "folder") ())
    |>.also (required fields "name" text)
    |>.also ((children.map (Checked.under (.field "children"))).getD (.ok []))

mutual
/-- A node, which says by its tag whether it is a file or a folder. -/
def Node.check : Document → Checked Node
  | .object fields =>
    match Fields.get? "kind" fields with
    | none => Checked.flaw .noTag
    | some (.text "file") => Checked.under (.field "file") ((File.checkFields fields).map Node.file)
    | some (.text "folder") =>
      let folder := Folder.checkFields fields (childrenOf fields)
      Checked.under (.field "folder") (folder.map fun folder => .folder folder.name folder.children)
    | some _ => Checked.flaw .badTag
  | _ => Checked.flaw .notTagged

/-- The children of a folder, given by its fields; `none` if they are not there. -/
def childrenOf : List (String × Document) → Option (Checked (List Node))
  | [] => none
  | (name, value) :: rest => if name = "children" then some (nodeList value) else childrenOf rest

/-- A list of nodes. -/
def nodeList : Document → Checked (List Node)
  | .list items => nodesFrom 0 items
  | _ => Checked.flaw .notList

/-- The nodes of a list from an index on. -/
def nodesFrom (index : Nat) : List Document → Checked (List Node)
  | [] => .ok []
  | item :: rest =>
    (Checked.build List.cons).also (Checked.under (.index index) (Node.check item))
      |>.also (nodesFrom (index + 1) rest)
end

/-- A folder. -/
def Folder.check : Check Folder :=
  object fun fields => Folder.checkFields fields (childrenOf fields)

/-! ## Reports -/

/-- An entry of an external folder. -/
def Listed.check : Check Listed :=
  object fun fields =>
    (Checked.build Listed.mk).also (required fields "name" text)
      |>.also (required fields "is_directory" truth)

/-- What came of a file directive. -/
def FileReport.check : Check FileReport :=
  object fun fields =>
    (Checked.build FileReport.mk).also (required fields "disc" text)
      |>.also (required fields "external" text)
      |>.also (required fields "outcome" (member Outcome.label Outcome.all))

/-- What came of a memory directive. -/
def Machine.Report.check : Check Machine.Report :=
  object fun fields =>
    (Checked.build Machine.Report.mk).also
        (required fields "kind" (member Machine.Manner.label Machine.Manner.all))
      |>.also (required fields "outcome" (member Outcome.label Outcome.all))
      |>.also (optional fields "address" (orNull integer) none)
      |>.also (optional fields "bytes_written" integer 0)
      |>.also (optional fields "hooks_removed" integer 0)

/-- Where the savegame folder is kept. -/
def Redirect.check : Check Redirect :=
  object fun fields =>
    (Checked.build Redirect.mk).also (required fields "path" text)
      |>.also (optional fields "clone" truth true)

/-- A hook. -/
def Machine.Hook.check : Check Machine.Hook :=
  object fun fields =>
    (Checked.build Machine.Hook.mk).also (required fields "start" integer)
      |>.also (required fields "end" integer)
      |>.also (optional fields "name" text "")

end DiscPatch
