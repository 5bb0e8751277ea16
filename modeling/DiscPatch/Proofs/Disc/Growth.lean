import DiscPatch.Proofs.Disc.Places

/-!
# What a lookup creates

A path that is followed to a file leaves a tree as it is, or the tree grows by what is missing on
the path and by nothing else.

* `sprout` — a new file in new folders;
* `Grown` — a tree with a sprout at the end of the folder where a path stops existing;
* `LeadsToFile` — a path leads to a file that is there already;
* `reachParts_file`, `reachParts_folder` — a path is followed through what is there, one component
  at a time;
* `Reaching.found_or_grown` — a path that is followed leads to a file, or the tree has grown;
* `Grown.listing` — one empty file is new, and all others are as they were.
-/

namespace DiscPatch

/-- An empty file at the end of a path of which nothing exists: the names before the last one become
folders. -/
def sprout (name : String) : List String → Node
  | [] => .file (File.empty name)
  | next :: rest => .folder name [sprout next rest]

/-- The nodes `after` are `nodes` with a sprout put where the path stops existing. -/
inductive Grown : (parts : List String) → (nodes after : List Node) → Prop where
  /-- nothing has the first name -/
  | new {name : String} {rest : List String} {nodes : List Node}
    (hnodes : ∀ other ∈ nodes, ¬ sameName other.name name) :
    Grown (name :: rest) nodes (nodes ++ [sprout name rest])
  /-- the path goes on in the first folder of that name -/
  | deeper {name found : String} {rest : List String} {front back below after : List Node}
    (hfront : ∀ other ∈ front, ¬ sameName other.name name) (hfound : sameName found name)
    (hbelow : Grown rest below after) :
    Grown (name :: rest) (front ++ .folder found below :: back)
      (front ++ .folder found after :: back)

/-- The path leads to a file. -/
def LeadsToFile (parts : List String) (nodes : List Node) : Prop :=
  ∃ place, (reachParts false parts nodes).2 = .ok place

/-! ## Following a path through what is there -/

theorem childNamed?_of_split {name : String} {index : Nat} {front back : List Node} {node : Node}
    (hfront : ∀ other ∈ front, ¬ sameName other.name name) (hnode : sameName node.name name) :
    childNamed? name index (front ++ node :: back) = some (index + front.length, node) := by
  induction front generalizing index with
  | nil => exact if_pos hnode
  | cons first rest ih =>
    obtain ⟨hfirst, hrest⟩ := List.forall_mem_cons.mp hfront
    rw [List.cons_append, childNamed?, if_neg hfirst, ih hrest, List.length_cons]
    congr 2
    omega

theorem childNamed?_of_absent {name : String} {index : Nat} {nodes : List Node}
    (h : ∀ other ∈ nodes, ¬ sameName other.name name) : childNamed? name index nodes = none := by
  induction nodes generalizing index with
  | nil => rfl
  | cons first rest ih =>
    obtain ⟨hfirst, hrest⟩ := List.forall_mem_cons.mp h
    rw [childNamed?, if_neg hfirst, ih hrest]

/-- The path ends at the first file of its name. -/
theorem reachParts_file {create : Bool} {name : String} {front back : List Node} {file : File}
    (hname : name ≠ "") (hfront : ∀ other ∈ front, ¬ sameName other.name name)
    (hfile : sameName file.name name) :
    reachParts create [name] (front ++ .file file :: back) =
      (front ++ .file file :: back, .ok [front.length]) := by
  have hchild : childNamed? name 0 (front ++ .file file :: back) =
      some (0 + front.length, .file file) := childNamed?_of_split hfront hfile
  rw [reachParts, if_neg hname, hchild, Nat.zero_add]
  rfl

/-- The path goes on in the first folder of its name. -/
theorem reachParts_folder {create : Bool} {name found : String} {rest : List String}
    {front back below : List Node} (hname : name ≠ "") (hrest : rest ≠ [])
    (hfront : ∀ other ∈ front, ¬ sameName other.name name) (hfound : sameName found name) :
    reachParts create (name :: rest) (front ++ .folder found below :: back) =
      (front ++ .folder found (reachParts create rest below).1 :: back,
        fromChild front.length (reachParts create rest below).2) := by
  have hchild : childNamed? name 0 (front ++ .folder found below :: back) =
      some (0 + front.length, .folder found below) := childNamed?_of_split hfront hfound
  rw [reachParts, if_neg hname, hchild, Nat.zero_add]
  simp [hrest]

theorem leadsToFile_of_file {name : String} {front back : List Node} {file : File}
    (hname : name ≠ "") (hfront : ∀ other ∈ front, ¬ sameName other.name name)
    (hfile : sameName file.name name) : LeadsToFile [name] (front ++ .file file :: back) :=
  ⟨[front.length], by rw [reachParts_file hname hfront hfile]⟩

theorem leadsToFile_folder_iff {name next found : String} {rest : List String}
    {front back below : List Node} (hname : name ≠ "")
    (hfront : ∀ other ∈ front, ¬ sameName other.name name) (hfound : sameName found name) :
    LeadsToFile (name :: next :: rest) (front ++ .folder found below :: back) ↔
      LeadsToFile (next :: rest) below := by
  rw [LeadsToFile, reachParts_folder hname (List.cons_ne_nil next rest) hfront hfound, LeadsToFile]
  rcases (reachParts false (next :: rest) below).2 with fault | place <;> simp [Except.map]

theorem not_leadsToFile_of_absent {name : String} {rest : List String} {nodes : List Node}
    (h : ∀ other ∈ nodes, ¬ sameName other.name name) : ¬ LeadsToFile (name :: rest) nodes := by
  rintro ⟨place, hplace⟩
  rw [reachParts, childNamed?_of_absent h] at hplace
  split at hplace <;> cases hplace

/-! ## Growth -/

/-- In an empty folder, everything is new. -/
theorem Grown.eq_sprout {name : String} {rest : List String} {after : List Node}
    (h : Grown (name :: rest) [] after) : after = [sprout name rest] := by
  generalize hnodes : ([] : List Node) = nodes at h
  cases h with
  | new => rw [← hnodes, List.nil_append]
  | deeper => simp at hnodes

/-- **A path that is followed leads to a file, or the tree has grown.** -/
theorem Reaching.found_or_grown {create : Bool} {parts : List String} {nodes after : List Node}
    {answer : Except LookupFault Location} (h : Reaching create parts nodes after answer) :
    ∀ place, answer = .ok place →
      after = nodes ∧ LeadsToFile parts nodes ∨
        create = true ∧ Grown parts nodes after ∧ ¬ LeadsToFile parts nodes := by
  induction h with
  | file hname hfront hfile => exact fun _ _ => .inl ⟨rfl, leadsToFile_of_file hname hfront hfile⟩
  | @folder name next found rest front back below after answer hname hfront hfound _ ih =>
    cases answer with
    | error fault => rintro place ⟨⟩
    | ok place =>
      rintro _ -
      rw [leadsToFile_folder_iff hname hfront hfound]
      rcases ih place rfl with ⟨rfl, hfile⟩ | ⟨hcreate, hgrown, hnone⟩
      · exact .inl ⟨rfl, hfile⟩
      · exact .inr ⟨hcreate, .deeper hfront hfound hgrown, hnone⟩
  | newFile _ hcreate hnodes =>
    exact fun _ _ => .inr ⟨hcreate, .new hnodes, not_leadsToFile_of_absent hnodes⟩
  | @newFolder name next rest nodes after answer _ hcreate hnodes _ ih =>
    cases answer with
    | error fault => rintro place ⟨⟩
    | ok place =>
      rintro _ -
      have hnone : ¬ LeadsToFile (next :: rest) [] := not_leadsToFile_of_absent (by simp)
      rcases ih place rfl with ⟨-, hfile⟩ | ⟨-, hgrown, -⟩
      · exact absurd hfile hnone
      · rw [hgrown.eq_sprout]
        exact .inr ⟨hcreate, .new hnodes, not_leadsToFile_of_absent hnodes⟩
  | _ => rintro place ⟨⟩

theorem listing_append (above : String) (front back : List Node) :
    listing above (front ++ back) = listing above front ++ listing above back := by
  induction front with
  | nil => rfl
  | cons node rest ih => rw [List.cons_append, listing, ih, listing, List.append_assoc]

theorem listing_sprout (above name : String) (rest : List String) :
    ∃ path last, (sprout name rest).listing above = [(path, File.empty last)] := by
  induction rest generalizing above name with
  | nil => exact ⟨_, name, rfl⟩
  | cons next rest ih =>
    obtain ⟨path, last, hlisting⟩ := ih (childPath above name) next
    refine ⟨path, last, ?_⟩
    rw [sprout, Node.listing, listing, hlisting]
    rfl

/-- **One empty file is new, and all others are as they were.** -/
theorem Grown.listing {parts : List String} {nodes after : List Node} (h : Grown parts nodes after)
    (above : String) :
    ∃ front path name back, DiscPatch.listing above nodes = front ++ back ∧
      DiscPatch.listing above after = front ++ (path, File.empty name) :: back := by
  induction h generalizing above with
  | @new name rest nodes =>
    obtain ⟨path, last, hlisting⟩ := listing_sprout above name rest
    refine ⟨DiscPatch.listing above nodes, path, last, [], by simp, ?_⟩
    rw [listing_append, DiscPatch.listing, hlisting]
    rfl
  | @deeper name found rest front back _ _ _ _ _ ih =>
    obtain ⟨left, path, last, right, hbelow, hafter⟩ := ih (childPath above found)
    refine ⟨DiscPatch.listing above front ++ left, path, last,
      right ++ DiscPatch.listing above back, ?_, ?_⟩
    · simp [listing_append, DiscPatch.listing, Node.listing, hbelow]
    · simp [listing_append, DiscPatch.listing, Node.listing, hafter]

theorem Grown.ne {parts : List String} {nodes after : List Node} (h : Grown parts nodes after) :
    after ≠ nodes := by
  rintro rfl
  obtain ⟨front, path, name, back, hbefore, hafter⟩ := h.listing ""
  have hlength := congrArg List.length (hbefore.symm.trans hafter)
  simp at hlength

end DiscPatch
