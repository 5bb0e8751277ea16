import DiscPatch.Disc.Lookup

/-!
# Places in a tree

Lookups answer with a place, and files are read and replaced there. To reason about them without
indices, a list of nodes is split where the lookup goes.

* `filesOf` — the files below a list of nodes;
* `Reaching`, `reaching` — all that can happen when a path is followed, one rule for each way;
* `Reaching.files` — it creates at most one file, and changes none;
* `Holding`, `holding_of_findFile?` — where the first file of a name stands;
* `fileAt?_below`, `modifyAt_below` — reading and replacing at a place, one level at a time;
* `filesOf_modifyAt` — replacing a file leaves all others as they are.
-/

namespace DiscPatch

open DiscPatch.Text (split join)

/-! ## The files of a tree -/

mutual
/-- A listing has the same files whatever folder it starts from. -/
theorem Node.map_snd_listing (above other : String) :
    ∀ node : Node, (node.listing above).map (·.2) = (node.listing other).map (·.2)
  | .file _ => rfl
  | .folder name children => by
    rw [Node.listing, Node.listing]
    exact map_snd_listing _ _ children

theorem map_snd_listing (above other : String) :
    ∀ nodes : List Node, (listing above nodes).map (·.2) = (listing other nodes).map (·.2)
  | [] => rfl
  | node :: rest => by
    rw [listing, listing, List.map_append, List.map_append, node.map_snd_listing above other,
      map_snd_listing above other rest]
end

/-- The files below a list of nodes. -/
def filesOf (nodes : List Node) : List File :=
  (listing "" nodes).map (·.2)

@[simp] theorem filesOf_nil : filesOf [] = [] := rfl

@[simp] theorem filesOf_file (file : File) (rest : List Node) :
    filesOf (.file file :: rest) = file :: filesOf rest := rfl

@[simp] theorem filesOf_folder (name : String) (below rest : List Node) :
    filesOf (.folder name below :: rest) = filesOf below ++ filesOf rest := by
  rw [filesOf, listing, List.map_append, Node.listing, map_snd_listing _ ""]
  rfl

@[simp] theorem filesOf_append (front back : List Node) :
    filesOf (front ++ back) = filesOf front ++ filesOf back := by
  induction front with
  | nil => rfl
  | cons node rest ih => cases node <;> simp [ih]

/-! ## One level -/

theorem childNamed?_eq_some {name : String} {index place : Nat} {nodes : List Node} {node : Node}
    (h : childNamed? name index nodes = some (place, node)) :
    ∃ front back, nodes = front ++ node :: back ∧ place = index + front.length ∧
      sameName node.name name ∧ ∀ other ∈ front, ¬ sameName other.name name := by
  induction nodes generalizing index with
  | nil => cases h
  | cons first rest ih =>
    rw [childNamed?] at h
    split at h
    · next hname =>
      cases h
      exact ⟨[], rest, rfl, rfl, hname, by simp⟩
    · next hname =>
      obtain ⟨front, back, rfl, rfl, hnode, hfront⟩ := ih h
      refine ⟨first :: front, back, rfl, ?_, hnode, List.forall_mem_cons.mpr ⟨hname, hfront⟩⟩
      rw [List.length_cons]
      omega

theorem childNamed?_eq_none {name : String} {index : Nat} {nodes : List Node}
    (h : childNamed? name index nodes = none) : ∀ other ∈ nodes, ¬ sameName other.name name := by
  induction nodes generalizing index with
  | nil => simp
  | cons first rest ih =>
    rw [childNamed?] at h
    split at h
    · cases h
    · next hname => exact List.forall_mem_cons.mpr ⟨hname, ih h⟩

@[simp] theorem fileAt?_here (front back : List Node) (file : File) :
    fileAt? [front.length] (front ++ .file file :: back) = some file := by
  simp [fileAt?]

@[simp] theorem modifyAt_here (new : File) (front back : List Node) (file : File) :
    modifyAt new [front.length] (front ++ .file file :: back) = front ++ .file new :: back := by
  simp [modifyAt]

@[simp] theorem fileAt?_below (front back below : List Node) (name : String) (place : Location) :
    fileAt? (front.length :: place) (front ++ .folder name below :: back) =
      fileAt? place below := by
  cases place <;> simp [fileAt?]

@[simp] theorem modifyAt_below (new : File) (front back below : List Node) (name : String)
    (place : Location) :
    modifyAt new (front.length :: place) (front ++ .folder name below :: back) =
      front ++ .folder name (modifyAt new place below) :: back := by
  cases place <;> simp [modifyAt]

theorem exists_split_of_getElem? {nodes : List Node} {index : Nat} {node : Node}
    (h : nodes[index]? = some node) : ∃ front back, nodes = front ++ node :: back ∧
      index = front.length := by
  obtain ⟨hlt, rfl⟩ := List.getElem?_eq_some_iff.mp h
  refine ⟨nodes.take index, nodes.drop (index + 1), ?_, ?_⟩
  · rw [← List.drop_eq_getElem_cons hlt, List.take_append_drop]
  · rw [List.length_take]
    omega

/-- A file stands at a place either among the nodes or in one of their folders. -/
theorem fileAt?_cases {place : Location} {nodes : List Node} {file : File}
    (h : fileAt? place nodes = some file) :
    (∃ front back, place = [front.length] ∧ nodes = front ++ .file file :: back) ∨
      ∃ front back name below rest, place = front.length :: rest ∧
        nodes = front ++ .folder name below :: back ∧ fileAt? rest below = some file := by
  cases place with
  | nil => cases h
  | cons index rest =>
    simp only [fileAt?] at h
    split at h
    · next hnode =>
      obtain ⟨front, back, rfl, rfl⟩ := exists_split_of_getElem? hnode
      cases h
      exact .inl ⟨front, back, rfl, rfl⟩
    · next name below next rest hnode =>
      obtain ⟨front, back, rfl, rfl⟩ := exists_split_of_getElem? hnode
      exact .inr ⟨front, back, name, below, _, rfl, rfl, h⟩
    · cases h

/-- **Replacing a file leaves all others as they are.** -/
theorem filesOf_modifyAt {place : Location} {nodes : List Node} {file : File}
    (h : fileAt? place nodes = some file) :
    ∃ front back, filesOf nodes = front ++ file :: back ∧
      ∀ new, filesOf (modifyAt new place nodes) = front ++ new :: back := by
  induction place generalizing nodes with
  | nil => cases h
  | cons index place ih =>
    rcases fileAt?_cases h with ⟨front, back, hplace, rfl⟩ |
      ⟨front, back, name, below, rest, hplace, rfl, hbelow⟩
    · rw [hplace]
      exact ⟨filesOf front, filesOf back, by simp, fun new => by simp⟩
    · obtain ⟨rfl, rfl⟩ := List.cons.inj hplace
      obtain ⟨left, right, hfiles, hnew⟩ := ih hbelow
      refine ⟨filesOf front ++ left, right ++ filesOf back, ?_, fun new => ?_⟩
      · simp [hfiles]
      · simp [hnew]

theorem mem_filesOf_of_fileAt? {place : Location} {nodes : List Node} {file : File}
    (h : fileAt? place nodes = some file) : file ∈ filesOf nodes := by
  obtain ⟨front, back, hfiles, -⟩ := filesOf_modifyAt h
  simp [hfiles]

/-- What holds of every file still holds of every file once one is replaced. -/
theorem forall_filesOf_modifyAt {P : File → Prop} {place : Location} {nodes : List Node}
    {file new : File} (h : fileAt? place nodes = some file) (hnodes : ∀ f ∈ filesOf nodes, P f)
    (hnew : P new) : ∀ f ∈ filesOf (modifyAt new place nodes), P f := by
  obtain ⟨front, back, hfiles, hreplaced⟩ := filesOf_modifyAt h
  intro f hf
  rw [hreplaced new] at hf
  rw [hfiles] at hnodes
  rcases List.mem_append.mp hf with hf | hf
  · exact hnodes f (List.mem_append_left _ hf)
  · rcases List.mem_cons.mp hf with rfl | hf
    · exact hnew
    · exact hnodes f (List.mem_append_right _ (List.mem_cons_of_mem _ hf))

/-! ## Following a path -/

/-- The answer of a lookup below a child, as seen from the folder of the child. -/
abbrev fromChild (index : Nat) (answer : Except LookupFault Location) :
    Except LookupFault Location :=
  answer.map (index :: ·)

/-- Following a path from `nodes` leaves the nodes `after`, and gives an answer. -/
inductive Reaching (create : Bool) :
    List String → (nodes after : List Node) → Except LookupFault Location → Prop where
  /-- there is nothing to follow -/
  | done (nodes : List Node) : Reaching create [] nodes nodes (.error (.emptyComponent ""))
  /-- a component is empty -/
  | empty (rest : List String) (nodes : List Node) :
    Reaching create ("" :: rest) nodes nodes (.error (.emptyComponent (join '/' ("" :: rest))))
  /-- the file is there -/
  | file {name : String} {front back : List Node} {file : File} (hname : name ≠ "")
    (hfront : ∀ other ∈ front, ¬ sameName other.name name) (hfile : sameName file.name name) :
    Reaching create [name] (front ++ .file file :: back) (front ++ .file file :: back)
      (.ok [front.length])
  /-- a file stands where the path goes on -/
  | notFolder {name next : String} {rest : List String} {front back : List Node} {file : File}
    (hname : name ≠ "") (hfront : ∀ other ∈ front, ¬ sameName other.name name)
    (hfile : sameName file.name name) :
    Reaching create (name :: next :: rest) (front ++ .file file :: back)
      (front ++ .file file :: back) (.error (.notFolder name))
  /-- a folder stands where the path ends -/
  | notFile {name found : String} {front back below : List Node} (hname : name ≠ "")
    (hfront : ∀ other ∈ front, ¬ sameName other.name name) (hfound : sameName found name) :
    Reaching create [name] (front ++ .folder found below :: back)
      (front ++ .folder found below :: back) (.error (.notFile name))
  /-- the path goes on in a folder -/
  | folder {name next found : String} {rest : List String} {front back below after : List Node}
    {answer : Except LookupFault Location} (hname : name ≠ "")
    (hfront : ∀ other ∈ front, ¬ sameName other.name name) (hfound : sameName found name)
    (hbelow : Reaching create (next :: rest) below after answer) :
    Reaching create (name :: next :: rest) (front ++ .folder found below :: back)
      (front ++ .folder found after :: back) (fromChild front.length answer)
  /-- nothing has the name, and nothing is created -/
  | missing {name : String} {rest : List String} {nodes : List Node} (hname : name ≠ "")
    (hcreate : create = false) (hnodes : ∀ other ∈ nodes, ¬ sameName other.name name) :
    Reaching create (name :: rest) nodes nodes (.error (.missing name))
  /-- the file is created -/
  | newFile {name : String} {nodes : List Node} (hname : name ≠ "") (hcreate : create = true)
    (hnodes : ∀ other ∈ nodes, ¬ sameName other.name name) :
    Reaching create [name] nodes (nodes ++ [.file (File.empty name)]) (.ok [nodes.length])
  /-- a folder is created, and the path goes on in it -/
  | newFolder {name next : String} {rest : List String} {nodes after : List Node}
    {answer : Except LookupFault Location} (hname : name ≠ "") (hcreate : create = true)
    (hnodes : ∀ other ∈ nodes, ¬ sameName other.name name)
    (hbelow : Reaching create (next :: rest) [] after answer) :
    Reaching create (name :: next :: rest) nodes (nodes ++ [.folder name after])
      (fromChild nodes.length answer)

/-- **Following a path goes one of these ways.** -/
theorem reaching (create : Bool) (parts : List String) (nodes : List Node) :
    Reaching create parts nodes (reachParts create parts nodes).1
      (reachParts create parts nodes).2 := by
  induction parts generalizing nodes with
  | nil => exact .done nodes
  | cons name rest ih =>
    rw [reachParts]
    by_cases hname : name = ""
    · subst hname
      rw [if_pos rfl]
      exact .empty rest nodes
    · rw [if_neg hname]
      rcases hchild : childNamed? name 0 nodes with _ | ⟨index, file | ⟨found, below⟩⟩
      · have hnodes := childNamed?_eq_none hchild
        cases create with
        | false => exact .missing hname rfl hnodes
        | true =>
          cases rest with
          | nil => exact .newFile hname rfl hnodes
          | cons next rest => exact .newFolder hname rfl hnodes (ih [])
      · obtain ⟨front, back, rfl, rfl, hfile, hfront⟩ := childNamed?_eq_some hchild
        rw [Nat.zero_add]
        cases rest with
        | nil => exact .file hname hfront hfile
        | cons next rest => exact .notFolder hname hfront hfile
      · obtain ⟨front, back, rfl, rfl, hfound, hfront⟩ := childNamed?_eq_some hchild
        rw [Nat.zero_add]
        cases rest with
        | nil => exact .notFile hname hfront hfound
        | cons next rest =>
          have hset (after : List Node) : (front ++ .folder found below :: back).set front.length
              (.folder found after) = front ++ .folder found after :: back := by simp
          simp only [List.cons_ne_nil, if_false, hset]
          exact .folder hname hfront hfound (ih below)

/-- A path that is followed to its end leads to a file. -/
theorem Reaching.exists_file {create : Bool} {parts : List String} {nodes after : List Node}
    {answer : Except LookupFault Location} (h : Reaching create parts nodes after answer) :
    ∀ place, answer = .ok place → ∃ file, fileAt? place after = some file := by
  induction h with
  | @file name front back file =>
    rintro place ⟨⟩
    exact ⟨file, fileAt?_here front back file⟩
  | @newFile name nodes =>
    rintro place ⟨⟩
    exact ⟨File.empty name, fileAt?_here nodes [] _⟩
  | @folder _ _ _ _ _ _ _ _ answer _ _ _ _ ih =>
    cases answer with
    | error fault => rintro place ⟨⟩
    | ok place =>
      rintro _ ⟨⟩
      simpa using ih place rfl
  | @newFolder _ _ _ _ _ answer _ _ _ _ ih =>
    cases answer with
    | error fault => rintro place ⟨⟩
    | ok place =>
      rintro _ ⟨⟩
      simpa using ih place rfl
  | _ => rintro place ⟨⟩

/-- **Following a path creates at most one file and changes none.** -/
theorem Reaching.files {create : Bool} {parts : List String} {nodes after : List Node}
    {answer : Except LookupFault Location} (h : Reaching create parts nodes after answer) :
    filesOf after = filesOf nodes ∨
      ∃ front back name, filesOf nodes = front ++ back ∧
        filesOf after = front ++ File.empty name :: back := by
  induction h with
  | @newFile name nodes => exact .inr ⟨filesOf nodes, [], name, by simp, by simp⟩
  | @folder _ _ _ _ front back _ _ _ _ _ _ _ ih =>
    rcases ih with hsame | ⟨left, right, name, hbelow, hafter⟩
    · exact .inl (by simp [hsame])
    · refine .inr ⟨filesOf front ++ left, right ++ filesOf back, name, ?_, ?_⟩
      · simp [hbelow]
      · simp [hafter]
  | @newFolder _ _ _ nodes _ _ _ _ _ _ ih =>
    rcases ih with hsame | ⟨left, right, name, hbelow, hafter⟩
    · exact .inl (by simp [hsame])
    · refine .inr ⟨filesOf nodes, [], name, by simp, ?_⟩
      obtain ⟨rfl, rfl⟩ := List.append_eq_nil_iff.mp hbelow.symm
      simp [hafter]
  | _ => exact .inl rfl

/-- What holds of every file still holds once a path was followed, if it holds of new files. -/
theorem Reaching.forall_files {P : File → Prop} {create : Bool} {parts : List String}
    {nodes after : List Node} {answer : Except LookupFault Location}
    (h : Reaching create parts nodes after answer) (hempty : ∀ name, P (File.empty name))
    (hnodes : ∀ f ∈ filesOf nodes, P f) : ∀ f ∈ filesOf after, P f := by
  intro f hf
  rcases h.files with hsame | ⟨front, back, name, hbefore, hafter⟩
  · exact hnodes f (hsame ▸ hf)
  · rw [hafter] at hf
    rw [hbefore] at hnodes
    rcases List.mem_append.mp hf with hf | hf
    · exact hnodes f (List.mem_append_left _ hf)
    · rcases List.mem_cons.mp hf with rfl | hf
      · exact hempty name
      · exact hnodes f (List.mem_append_right _ hf)

/-! ## Finding a file by its name -/

/-- The first file of that name below the nodes stands at a place. -/
inductive Holding (name : String) : List Node → Location → File → Prop where
  /-- it stands among the nodes -/
  | here {front back : List Node} {file : File}
    (hfront : ∀ other ∈ front, other.findFile? name = none) (hfile : sameName file.name name) :
    Holding name (front ++ .file file :: back) [front.length] file
  /-- it stands further down -/
  | deeper {front back below : List Node} {found : String} {place : Location} {file : File}
    (hfront : ∀ other ∈ front, other.findFile? name = none)
    (hbelow : Holding name below place file) :
    Holding name (front ++ .folder found below :: back) (front.length :: place) file

theorem Holding.fileAt? {name : String} {nodes : List Node} {place : Location} {file : File}
    (h : Holding name nodes place file) : DiscPatch.fileAt? place nodes = some file := by
  induction h with
  | here => exact fileAt?_here ..
  | deeper _ _ ih => rwa [fileAt?_below]

theorem findFile?_eq_some {name : String} {index : Nat} {nodes : List Node} {place : Location}
    (h : findFile? name index nodes = some place) :
    ∃ front node back below, nodes = front ++ node :: back ∧
      place = (index + front.length) :: below ∧ node.findFile? name = some below ∧
      ∀ other ∈ front, other.findFile? name = none := by
  induction nodes generalizing index with
  | nil => cases h
  | cons first rest ih =>
    rw [findFile?] at h
    rcases hfirst : first.findFile? name with _ | below
    · rw [hfirst] at h
      obtain ⟨front, node, back, below, rfl, rfl, hnode, hfront⟩ := ih h
      refine ⟨first :: front, node, back, below, rfl, ?_, hnode,
        List.forall_mem_cons.mpr ⟨hfirst, hfront⟩⟩
      rw [List.length_cons]
      congr 1
      omega
    · rw [hfirst] at h
      cases h
      exact ⟨[], first, rest, below, rfl, rfl, hfirst, by simp⟩

theorem holding_of_findFile? {name : String} {nodes : List Node} {place : Location}
    (h : findFile? name 0 nodes = some place) : ∃ file, Holding name nodes place file := by
  induction place generalizing nodes with
  | nil =>
    obtain ⟨front, node, back, below, rfl, hplace, -, -⟩ := findFile?_eq_some h
    cases hplace
  | cons index place ih =>
    obtain ⟨front, node, back, below, rfl, hplace, hnode, hfront⟩ := findFile?_eq_some h
    rw [Nat.zero_add] at hplace
    obtain ⟨rfl, rfl⟩ := List.cons.inj hplace
    cases node with
    | file file =>
      rw [Node.findFile?] at hnode
      split at hnode
      · next hfile =>
        cases hnode
        exact ⟨file, .here hfront hfile⟩
      · cases hnode
    | folder found children =>
      obtain ⟨file, hfile⟩ := ih hnode
      exact ⟨file, .deeper hfront hfile⟩

end DiscPatch
