import DiscPatch.Disc.Node

/-!
# The tree of a host folder

`Folder.describe` describes a host folder as a tree: every regular file below it becomes a file
served by that host file. Links and pipes are left out, so the tree never reaches outside its folder.
Children stand in the order of their names in lower case.

The host may list an entry and still refuse its path, which is longer than that of the folder. Then
a file counts as empty, and a folder cannot be described.
-/

namespace DiscPatch

open DiscPatch.Host (Entry FileSystem)
open DiscPatch.Text (lower)

/-- An item put in front of the first one whose key is not smaller. -/
def insertByKey {α : Type} (key : String) (item : α) : List (String × α) → List (String × α)
  | [] => [(key, item)]
  | (otherKey, other) :: rest =>
    if key ≤ otherKey then (key, item) :: (otherKey, other) :: rest
    else (otherKey, other) :: insertByKey key item rest

/-- Items by their keys; those with the same key keep their order. -/
def sortByKey {α : Type} : List (String × α) → List (String × α)
  | [] => []
  | (key, item) :: rest => insertByKey key item (sortByKey rest)

theorem perm_insertByKey {α : Type} (key : String) (item : α) (items : List (String × α)) :
    (insertByKey key item items).Perm ((key, item) :: items) := by
  induction items with
  | nil => exact .refl _
  | cons other rest ih =>
    rw [insertByKey]
    split
    · exact .refl _
    · exact (ih.cons other).trans (.swap ..)

theorem perm_sortByKey {α : Type} (items : List (String × α)) : (sortByKey items).Perm items := by
  induction items with
  | nil => exact .refl _
  | cons item rest ih => exact (perm_insertByKey item.1 item.2 _).trans (ih.cons item)

/-- The nodes of all parts in turn, up to the first part that fails. -/
def inTurn : List (Logged (Except Error (List Node))) → Logged (Except Error (List Node))
  | [] => return .ok []
  | part :: rest => do
    match ← part with
    | .error error => return .error error
    | .ok nodes =>
      let others ← inTurn rest
      return others.map (nodes ++ ·)

/-- The nodes of all parts in the order of their keys. -/
def inOrder (parts : List (String × Logged (Except Error (List Node)))) :
    Logged (Except Error (List Node)) :=
  inTurn ((sortByKey parts).map (·.2))

theorem inTurn_cons_eq_ok_iff {part : Logged (Except Error (List Node))}
    {rest : List (Logged (Except Error (List Node)))} {nodes : List Node} :
    (inTurn (part :: rest)).value = .ok nodes ↔
      ∃ first others, part.value = .ok first ∧ (inTurn rest).value = .ok others ∧
        nodes = first ++ others := by
  rw [inTurn, Logged.value_bind]
  rcases part.value with error | first
  · simp
  · rw [Logged.value_bind, Logged.value_pure]
    rcases (inTurn rest).value with error | others
    · simp [Except.map]
    · simp [Except.map, eq_comm]

/-- In another order the parts have the same nodes in another order. -/
theorem exists_inTurn_of_perm {parts others : List (Logged (Except Error (List Node)))}
    (h : parts.Perm others) {nodes : List Node} (hnodes : (inTurn parts).value = .ok nodes) :
    ∃ moved, (inTurn others).value = .ok moved ∧ nodes.Perm moved := by
  induction h generalizing nodes with
  | nil => exact ⟨nodes, hnodes, .refl _⟩
  | cons part _ ih =>
    obtain ⟨first, rest, hfirst, hrest, rfl⟩ := inTurn_cons_eq_ok_iff.mp hnodes
    obtain ⟨moved, hmoved, hperm⟩ := ih hrest
    exact ⟨first ++ moved, inTurn_cons_eq_ok_iff.mpr ⟨first, moved, hfirst, hmoved, rfl⟩,
      hperm.append_left first⟩
  | swap part other _ =>
    obtain ⟨first, _, hfirst, hothers, rfl⟩ := inTurn_cons_eq_ok_iff.mp hnodes
    obtain ⟨second, rest, hsecond, hrest, rfl⟩ := inTurn_cons_eq_ok_iff.mp hothers
    refine ⟨second ++ (first ++ rest), ?_, ?_⟩
    · exact inTurn_cons_eq_ok_iff.mpr ⟨second, _, hsecond,
        inTurn_cons_eq_ok_iff.mpr ⟨first, rest, hfirst, hrest, rfl⟩, rfl⟩
    · rw [← List.append_assoc, ← List.append_assoc]
      exact List.perm_append_comm.append_right rest
  | trans _ _ ih₁ ih₂ =>
    obtain ⟨between, hbetween, hperm₁⟩ := ih₁ hnodes
    obtain ⟨moved, hmoved, hperm₂⟩ := ih₂ hbetween
    exact ⟨moved, hmoved, hperm₁.trans hperm₂⟩

theorem exists_inTurn_of_inOrder {parts : List (String × Logged (Except Error (List Node)))}
    {nodes : List Node} (h : (inOrder parts).value = .ok nodes) :
    ∃ plain, (inTurn (parts.map (·.2))).value = .ok plain ∧ nodes.Perm plain := by
  have hperm : ((sortByKey parts).map (·.2)).Perm (parts.map (·.2)) := (perm_sortByKey parts).map _
  exact exists_inTurn_of_perm hperm h

theorem exists_inOrder_of_inTurn {parts : List (String × Logged (Except Error (List Node)))}
    {plain : List Node} (h : (inTurn (parts.map (·.2))).value = .ok plain) :
    ∃ nodes, (inOrder parts).value = .ok nodes ∧ nodes.Perm plain := by
  have hperm : ((sortByKey parts).map (·.2)).Perm (parts.map (·.2)) := (perm_sortByKey parts).map _
  obtain ⟨nodes, hnodes, hmoved⟩ := exists_inTurn_of_perm hperm.symm h
  exact ⟨nodes, hnodes, hmoved.symm⟩

/-- The path of an entry of the host folder at `folder`. -/
def entryPath (folder name : String) : String :=
  if folder.toList.getLast? = some '/' then folder ++ name else folder ++ "/" ++ name

mutual
/-- The node for a host entry at `path`, if it gets one. -/
def nodesOfEntry (fs : FileSystem) (path name : String) :
    Entry → Logged (Except Error (List Node))
  | .file _ => do
    let file ← File.ofHost fs path (some name)
    return file.map ([.file ·])
  | .folder entries =>
    match fs.list path with
    | .error fault => return .error (.host fault)
    | .ok _ => do
      let children ← inOrder (nodesOfEntries fs path entries)
      return children.map ([.folder name ·])
  | .link _ | .pipe => return .ok []

/-- The nodes for each entry of the host folder at `folder`, under its name in lower case. -/
def nodesOfEntries (fs : FileSystem) (folder : String) :
    List (String × Entry) → List (String × Logged (Except Error (List Node)))
  | [] => []
  | (name, entry) :: rest =>
    (lower name, nodesOfEntry fs (entryPath folder name) name entry) ::
      nodesOfEntries fs folder rest
end

theorem map_eq_ok_iff {α β : Type} {answer : Except Error α} {f : α → β} {b : β} :
    answer.map f = .ok b ↔ ∃ a, answer = .ok a ∧ b = f a := by
  rcases answer with error | a
  · simp [Except.map]
  · simp [Except.map, eq_comm]

section Nodes

variable {fs : FileSystem} {path name : String} {nodes : List Node}

theorem nodesOfEntry_file_eq_ok_iff {data : Bytes} :
    (nodesOfEntry fs path name (.file data)).value = .ok nodes ↔
      ∃ file, (File.ofHost fs path (some name)).value = .ok file ∧ nodes = [.file file] := by
  rw [nodesOfEntry, Logged.value_bind, Logged.value_pure, map_eq_ok_iff]

theorem nodesOfEntry_folder_eq_ok_iff {entries : List (String × Entry)} :
    (nodesOfEntry fs path name (.folder entries)).value = .ok nodes ↔
      (∃ listed, fs.list path = .ok listed) ∧
        ∃ children, (inOrder (nodesOfEntries fs path entries)).value = .ok children ∧
          nodes = [.folder name children] := by
  rw [nodesOfEntry]
  rcases fs.list path with fault | listed
  · simp
  · rw [Logged.value_bind, Logged.value_pure, map_eq_ok_iff]
    simp

end Nodes

/-- The tree of a host folder, under a name, with what was noted about it. -/
def Folder.describe (fs : FileSystem) (path name : String) : Logged (Except Error Folder) :=
  match fs.list path with
  | .error fault => return .error (.host fault)
  | .ok entries => do
    let children ← inOrder (nodesOfEntries fs path entries)
    return children.map (⟨name, ·⟩)

/-- The tree of a host folder, under a name. -/
def Folder.ofHost (fs : FileSystem) (path name : String) : Except Error Folder :=
  (Folder.describe fs path name).value

theorem Folder.ofHost_eq_ok_iff {fs : FileSystem} {path name : String} {folder : Folder} :
    Folder.ofHost fs path name = .ok folder ↔
      ∃ entries, fs.list path = .ok entries ∧
        ∃ children, (inOrder (nodesOfEntries fs path entries)).value = .ok children ∧
          folder = ⟨name, children⟩ := by
  rw [Folder.ofHost, Folder.describe]
  rcases fs.list path with fault | entries
  · simp
  · rw [Logged.value_bind, Logged.value_pure, map_eq_ok_iff]
    simp

end DiscPatch
