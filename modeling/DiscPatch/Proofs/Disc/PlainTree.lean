import DiscPatch.Proofs.Content.ByteModel
import DiscPatch.Proofs.Disc.Places
import DiscPatch.Proofs.Patch.Application

/-!
# Trees of byte strings

A tree whose files are plain byte strings, and the two ways to change a file in it. There are no
places here: the tree is gone through once, and rebuilt around the file that changes.

* `Plain` — files with their bytes, and folders;
* `overPath` — change the file at the end of a path, creating on demand what is missing;
* `overName` — change the first file of a name;
* `plainOf`, `composedOf` — the tree of byte strings that nodes stand for, by single bytes and by
  reading whole files;
* `Reaching.overPath`, `Holding.overName` — looking up a place and then replacing the file there
  comes to the same.
-/

namespace DiscPatch

open DiscPatch.Host (FileSystem)

/-- A file with its bytes, or a folder with its children. -/
inductive Plain where
  /-- a file -/
  | file (name : String) (bytes : Bytes)
  /-- a folder -/
  | folder (name : String) (children : List Plain)

/-- The name of a node. -/
def Plain.name : Plain → String
  | .file name _ => name
  | .folder name _ => name

/-! ## Changing a file -/

/-- Change the first child of a name, or else put `absent` at the end. The outcome is that of a
directive that cannot be carried out, `none` if it can. -/
def overChild (name : String) (change : Plain → Plain × Option Outcome)
    (absent : List Plain × Option Outcome) : List Plain → List Plain × Option Outcome
  | [] => absent
  | node :: rest =>
    if sameName node.name name then ((change node).1 :: rest, (change node).2)
    else (node :: (overChild name change absent rest).1, (overChild name change absent rest).2)

/-- Change the file at the end of a path. -/
def overPath (create : Bool) (edit : Bytes → Bytes) :
    List String → List Plain → List Plain × Option Outcome
  | [], nodes => (nodes, some .skipped)
  | [name], nodes =>
    if name = "" then (nodes, some .skipped)
    else overChild name
      (fun
        | .file found bytes => (.file found (edit bytes), none)
        | .folder found below => (.folder found below, some .typeMismatch))
      (if create then ([.file name (edit [])], none) else ([], some .skipped)) nodes
  | name :: next :: rest, nodes =>
    if name = "" then (nodes, some .skipped)
    else overChild name
      (fun
        | .file found bytes => (.file found bytes, some .typeMismatch)
        | .folder found below =>
          (.folder found (overPath create edit (next :: rest) below).1,
            (overPath create edit (next :: rest) below).2))
      (if create then
        ([.folder name (overPath create edit (next :: rest) []).1],
          (overPath create edit (next :: rest) []).2)
      else ([], some .skipped)) nodes

mutual
/-- Change the first file of a name in a node; `none` if there is none. -/
def Plain.overName (name : String) (edit : Bytes → Bytes) : Plain → Option Plain
  | .file found bytes => if sameName found name then some (.file found (edit bytes)) else none
  | .folder found children => (overName name edit children).map (.folder found)

/-- Change the first file of a name below a list of nodes. -/
def overName (name : String) (edit : Bytes → Bytes) : List Plain → Option (List Plain)
  | [] => none
  | node :: rest =>
    match node.overName name edit with
    | some changed => some (changed :: rest)
    | none => (overName name edit rest).map (node :: ·)
end

/-! ## What nodes stand for -/

mutual
/-- A node with each file replaced by its bytes. -/
def Node.plain (fs : FileSystem) : Node → Plain
  | .file file => .file file.name (file.bytes fs)
  | .folder name children => .folder name (plainOf fs children)

/-- Nodes with each file replaced by its bytes. -/
def plainOf (fs : FileSystem) : List Node → List Plain
  | [] => []
  | node :: rest => node.plain fs :: plainOf fs rest
end

mutual
/-- A node with each file replaced by what reading it gives. -/
def Node.composed (fs : FileSystem) : Node → Except Error Plain
  | .file file => (file.contents fs).map (Plain.file file.name)
  | .folder name children => (composedOf fs children).map (Plain.folder name)

/-- Nodes with each file replaced by what reading it gives. -/
def composedOf (fs : FileSystem) : List Node → Except Error (List Plain)
  | [] => .ok []
  | node :: rest => do return (← node.composed fs) :: (← composedOf fs rest)
end

variable {fs : FileSystem}

@[simp] theorem name_plain (node : Node) : (node.plain fs).name = node.name := by
  cases node <;> rfl

@[simp] theorem plainOf_append (front back : List Node) :
    plainOf fs (front ++ back) = plainOf fs front ++ plainOf fs back := by
  induction front with
  | nil => rfl
  | cons node rest ih => rw [List.cons_append, plainOf, ih, plainOf, List.cons_append]

mutual
/-- Where every file reads as its bytes, the two are the same. -/
theorem Node.composed_eq :
    ∀ node : Node, (∀ file ∈ filesOf [node], file.contents fs = .ok (file.bytes fs)) →
      node.composed fs = .ok (node.plain fs)
  | .file file => by
    intro h
    rw [Node.composed, h file (by simp)]
    rfl
  | .folder name children => by
    intro h
    rw [Node.composed, composedOf_eq children fun file hfile => h file (by simpa using hfile)]
    rfl

theorem composedOf_eq :
    ∀ nodes : List Node, (∀ file ∈ filesOf nodes, file.contents fs = .ok (file.bytes fs)) →
      composedOf fs nodes = .ok (plainOf fs nodes)
  | [] => fun _ => rfl
  | node :: rest => by
    intro h
    have hfiles : filesOf (node :: rest) = filesOf [node] ++ filesOf rest :=
      filesOf_append [node] rest
    rw [hfiles] at h
    rw [composedOf, node.composed_eq fun file hfile => h file (List.mem_append_left _ hfile),
      composedOf_eq rest fun file hfile => h file (List.mem_append_right _ hfile)]
    rfl
end

/-! ## Looking up a place and changing the file there -/

theorem overChild_of_split {name : String} {change : Plain → Plain × Option Outcome}
    {absent : List Plain × Option Outcome} {front : List Node} {back : List Plain} (node : Plain)
    (hfront : ∀ other ∈ front, ¬ sameName other.name name) (hnode : sameName node.name name) :
    overChild name change absent (plainOf fs front ++ node :: back) =
      (plainOf fs front ++ (change node).1 :: back, (change node).2) := by
  induction front with
  | nil => exact if_pos hnode
  | cons first rest ih =>
    obtain ⟨hfirst, hrest⟩ := List.forall_mem_cons.mp hfront
    rw [plainOf, List.cons_append, overChild, name_plain, if_neg hfirst, ih hrest]
    rfl

theorem overChild_of_absent {name : String} {change : Plain → Plain × Option Outcome}
    {absent : List Plain × Option Outcome} {nodes : List Node}
    (h : ∀ other ∈ nodes, ¬ sameName other.name name) :
    overChild name change absent (plainOf fs nodes) = (plainOf fs nodes ++ absent.1, absent.2) := by
  induction nodes with
  | nil => rfl
  | cons first rest ih =>
    obtain ⟨hfirst, hrest⟩ := List.forall_mem_cons.mp h
    rw [plainOf, overChild, name_plain, if_neg hfirst, ih hrest]
    rfl

/-- The nodes `after` a lookup and its answer agree with a change of byte strings: at the place that
was found, any file with the changed bytes may be put; where nothing was found, the outcome is that
of the fault. -/
def Agrees (fs : FileSystem) (edit : Bytes → Bytes) (changed : List Plain × Option Outcome)
    (after : List Node) : Except LookupFault Location → Prop
  | .ok place => ∃ file, fileAt? place after = some file ∧
      ∀ new : File, new.name = file.name → new.bytes fs = edit (file.bytes fs) →
        changed = (plainOf fs (modifyAt new place after), none)
  | .error fault => changed = (plainOf fs after, some fault.outcome)

/-- **Following a path and changing the file there.** -/
theorem Reaching.overPath {create : Bool} {parts : List String} {nodes after : List Node}
    {answer : Except LookupFault Location} (h : Reaching create parts nodes after answer)
    (edit : Bytes → Bytes) :
    Agrees fs edit (DiscPatch.overPath create edit parts (plainOf fs nodes)) after answer := by
  induction h with
  | done nodes => rfl
  | empty rest nodes => cases rest <;> rfl
  | @file name front back file hname hfront hfile =>
    refine ⟨file, fileAt?_here front back file, fun new hnew hbytes => ?_⟩
    rw [plainOf_append, plainOf, Node.plain, DiscPatch.overPath, if_neg hname,
      overChild_of_split (.file _ _) hfront hfile, modifyAt_here, plainOf_append, plainOf, Node.plain,
      hnew, hbytes]
  | notFolder hname hfront hfile =>
    rw [plainOf_append, plainOf, Node.plain, DiscPatch.overPath, if_neg hname,
      overChild_of_split (.file _ _) hfront hfile, Agrees, plainOf_append, plainOf, Node.plain]
    rfl
  | notFile hname hfront hfound =>
    rw [plainOf_append, plainOf, Node.plain, DiscPatch.overPath, if_neg hname,
      overChild_of_split (.folder _ _) hfront hfound, Agrees, plainOf_append, plainOf, Node.plain]
    rfl
  | @folder name next found rest front back below after answer hname hfront hfound hbelow ih =>
    rw [plainOf_append, plainOf, Node.plain, DiscPatch.overPath, if_neg hname,
      overChild_of_split (.folder _ _) hfront hfound]
    cases answer with
    | error fault =>
      simp only [Agrees] at ih
      simp only [ih, Agrees, fromChild, Except.map, plainOf_append, plainOf, Node.plain]
    | ok place =>
      obtain ⟨file, hfile, hnew⟩ := ih
      refine ⟨file, ?_, fun new hname hbytes => ?_⟩
      · rw [fileAt?_below]
        exact hfile
      · simp only [hnew new hname hbytes, modifyAt_below, plainOf_append, plainOf, Node.plain]
  | @missing name rest nodes hname hcreate hnodes =>
    subst hcreate
    cases rest <;>
      simp [DiscPatch.overPath, hname, overChild_of_absent hnodes, Agrees, LookupFault.outcome,
        LookupFault.isMismatch]
  | @newFile name nodes hname hcreate hnodes =>
    subst hcreate
    refine ⟨File.empty name, fileAt?_here nodes [] _, fun new hnew hbytes => ?_⟩
    rw [DiscPatch.overPath, if_neg hname, overChild_of_absent hnodes, modifyAt_here, plainOf_append,
      plainOf, Node.plain, hnew, hbytes]
    rfl
  | @newFolder name next rest nodes after answer hname hcreate hnodes hbelow ih =>
    subst hcreate
    rw [DiscPatch.overPath, if_neg hname, overChild_of_absent hnodes]
    cases answer with
    | error fault =>
      -- folders that were created on the way stay
      simp only [Agrees, plainOf] at ih
      simp only [ih, Agrees, fromChild, Except.map, plainOf_append, plainOf, Node.plain, if_true]
    | ok place =>
      obtain ⟨file, hfile, hnew⟩ := ih
      refine ⟨file, ?_, fun new hname hbytes => ?_⟩
      · rw [fileAt?_below]
        exact hfile
      · have hafter := hnew new hname hbytes
        rw [plainOf] at hafter
        simp only [hafter, modifyAt_below, plainOf_append, plainOf, Node.plain, if_true]

mutual
/-- A name that no file of a node has changes nothing. -/
theorem Node.overName_eq_none {name : String} (edit : Bytes → Bytes) :
    ∀ node : Node, node.findFile? name = none → (node.plain fs).overName name edit = none
  | .file file => by
    intro h
    rw [Node.findFile?] at h
    rw [Node.plain, Plain.overName]
    split at h
    · cases h
    · next hname => exact if_neg hname
  | .folder found children => by
    intro h
    rw [Node.plain, Plain.overName, overName_eq_none edit children 0 h]
    rfl

theorem overName_eq_none {name : String} (edit : Bytes → Bytes) :
    ∀ (nodes : List Node) (index : Nat), findFile? name index nodes = none →
      overName name edit (plainOf fs nodes) = none
  | [], _ => fun _ => rfl
  | node :: rest, index => by
    intro h
    rw [findFile?] at h
    rcases hnode : node.findFile? name with _ | place
    · rw [hnode] at h
      rw [plainOf, overName, node.overName_eq_none edit hnode, overName_eq_none edit rest _ h]
      rfl
    · rw [hnode] at h
      cases h
end

theorem overName_of_split {name : String} {edit : Bytes → Bytes} {front : List Node}
    {node changed : Plain} {back : List Plain}
    (hfront : ∀ other ∈ front, other.findFile? name = none)
    (hnode : node.overName name edit = some changed) :
    overName name edit (plainOf fs front ++ node :: back) =
      some (plainOf fs front ++ changed :: back) := by
  induction front with
  | nil =>
    rw [plainOf, List.nil_append, overName, hnode]
    rfl
  | cons first rest ih =>
    obtain ⟨hfirst, hrest⟩ := List.forall_mem_cons.mp hfront
    rw [plainOf, List.cons_append, overName, first.overName_eq_none edit hfirst, ih hrest]
    rfl

/-- **Finding a file by its name and changing it.** -/
theorem Holding.overName {name : String} {nodes : List Node} {place : Location} {file new : File}
    (h : Holding name nodes place file) {edit : Bytes → Bytes} (hname : new.name = file.name)
    (hbytes : new.bytes fs = edit (file.bytes fs)) :
    DiscPatch.overName name edit (plainOf fs nodes) =
      some (plainOf fs (modifyAt new place nodes)) := by
  induction h with
  | @here front back file hfront hfile =>
    rw [plainOf_append, plainOf, Node.plain,
      overName_of_split hfront (by rw [Plain.overName, if_pos hfile]), modifyAt_here,
      plainOf_append, plainOf, Node.plain, hname, hbytes]
  | @deeper front back below found place file hfront hbelow ih =>
    rw [plainOf_append, plainOf, Node.plain,
      overName_of_split hfront (by rw [Plain.overName, ih hname hbytes, Option.map_some]),
      modifyAt_below, plainOf_append, plainOf, Node.plain]

end DiscPatch
