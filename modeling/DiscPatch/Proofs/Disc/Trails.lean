import DiscPatch.Proofs.Disc.Places
import Mathlib.Data.List.Forall2

/-!
# The names that lead to files

* `trailsOf` — for each file of a tree, the names that lead to it. A listing writes them as paths
  (`map_fst_listing`), and no trail is lost in that if the names are proper
  (`split_foldl_childPath`);
* `Named` — what holds of the name of every file and folder;
* `Reaching.trails`, `Reaching.named` — following a path adds at most one trail, made of names of
  the path;
* `trailsOf_modifyAt`, `named_modifyAt` — replacing a file under its own name changes neither.
-/

namespace DiscPatch

open DiscPatch.Text (split)

/-! ## Trails -/

mutual
/-- The names that lead to each file of a node, its own name first. -/
def Node.trails : Node → List (List String)
  | .file file => [[file.name]]
  | .folder name children => (trailsOf children).map (name :: ·)

/-- The names that lead to each file below a list of nodes. -/
def trailsOf : List Node → List (List String)
  | [] => []
  | node :: rest => node.trails ++ trailsOf rest
end

@[simp] theorem trailsOf_nil : trailsOf [] = [] := rfl

@[simp] theorem trailsOf_file (file : File) (rest : List Node) :
    trailsOf (.file file :: rest) = [file.name] :: trailsOf rest := rfl

@[simp] theorem trailsOf_folder (name : String) (below rest : List Node) :
    trailsOf (.folder name below :: rest) = (trailsOf below).map (name :: ·) ++ trailsOf rest := rfl

@[simp] theorem trailsOf_append (front back : List Node) :
    trailsOf (front ++ back) = trailsOf front ++ trailsOf back := by
  induction front with
  | nil => rfl
  | cons node rest ih => rw [List.cons_append, trailsOf, ih, trailsOf, List.append_assoc]

mutual
theorem Node.map_fst_listing (above : String) :
    ∀ node : Node, (node.listing above).map (·.1) = node.trails.map (·.foldl childPath above)
  | .file _ => rfl
  | .folder name children => by
    rw [Node.listing, map_fst_listing, Node.trails, List.map_map]
    rfl

/-- The paths of a listing are the trails, written as paths. -/
theorem map_fst_listing (above : String) :
    ∀ nodes : List Node, (listing above nodes).map (·.1) =
      (trailsOf nodes).map (·.foldl childPath above)
  | [] => rfl
  | node :: rest => by
    rw [listing, List.map_append, node.map_fst_listing, map_fst_listing above rest, trailsOf,
      List.map_append]
end

/-- A path written below another one splits into the names of both. -/
theorem split_foldl_childPath_of_ne {above : String} {names : List String} (h : above ≠ "")
    (hnames : ∀ name ∈ names, '/' ∉ name.toList) :
    split '/' (names.foldl childPath above) = split '/' above ++ names := by
  induction names generalizing above with
  | nil => simp
  | cons name rest ih =>
    obtain ⟨hname, hrest⟩ := List.forall_mem_cons.mp hnames
    have hpath : childPath above name = above ++ "/" ++ name := if_neg h
    have hne : childPath above name ≠ "" := by
      rw [hpath]
      intro hempty
      have := congrArg String.toList hempty
      simp at this
    rw [List.foldl_cons, ih hne hrest, hpath, Text.split_append, Text.split_of_not_mem hname,
      List.append_assoc]
    rfl

/-- A trail of proper names can be read back from its path. -/
theorem split_foldl_childPath {names : List String} (h : names ≠ [])
    (hnames : ∀ name ∈ names, name ≠ "" ∧ '/' ∉ name.toList) :
    split '/' (names.foldl childPath "") = names := by
  cases names with
  | nil => exact absurd rfl h
  | cons name rest =>
    obtain ⟨hname, hrest⟩ := List.forall_mem_cons.mp hnames
    have hpath : childPath "" name = name := if_pos rfl
    rw [List.foldl_cons, hpath, split_foldl_childPath_of_ne hname.1 fun other hother =>
      (hrest other hother).2, Text.split_of_not_mem hname.2]
    rfl

/-! ## Names -/

mutual
/-- The name of the node and of all below it satisfies `P`. -/
def Node.Named (P : String → Prop) : Node → Prop
  | .file file => P file.name
  | .folder name children => P name ∧ Named P children

/-- The names of the nodes and of all below them satisfy `P`. -/
def Named (P : String → Prop) : List Node → Prop
  | [] => True
  | node :: rest => node.Named P ∧ Named P rest
end

variable {P : String → Prop}

@[simp] theorem named_append {front back : List Node} :
    Named P (front ++ back) ↔ Named P front ∧ Named P back := by
  induction front with
  | nil => simp [Named]
  | cons node rest ih => simp [Named, ih, and_assoc]

theorem named_iff_forall_mem {nodes : List Node} :
    Named P nodes ↔ ∀ node ∈ nodes, node.Named P := by
  induction nodes with
  | nil => simp [Named]
  | cons node rest ih => simp [Named, ih]

mutual
theorem Node.Named.imp {Q : String → Prop} (h : ∀ name, P name → Q name) :
    ∀ node : Node, node.Named P → node.Named Q
  | .file _ => h _
  | .folder _ children => And.imp (h _) (Named.imp h children)

theorem Named.imp {Q : String → Prop} (h : ∀ name, P name → Q name) :
    ∀ nodes : List Node, Named P nodes → Named Q nodes
  | [] => id
  | node :: rest => And.imp (Node.Named.imp h node) (Named.imp h rest)
end

mutual
theorem Node.forall_mem_trails :
    ∀ node : Node, node.Named P → ∀ trail ∈ node.trails, trail ≠ [] ∧ ∀ name ∈ trail, P name
  | .file file => by
    intro h trail htrail
    obtain rfl := List.mem_singleton.mp htrail
    exact ⟨by simp, List.forall_mem_singleton.mpr h⟩
  | .folder name children => by
    intro h trail htrail
    obtain ⟨below, hbelow, rfl⟩ := List.mem_map.mp htrail
    obtain ⟨-, hnames⟩ := forall_mem_trailsOf children h.2 below hbelow
    exact ⟨by simp, List.forall_mem_cons.mpr ⟨h.1, hnames⟩⟩

/-- Trails are made of the names of files and folders. -/
theorem forall_mem_trailsOf :
    ∀ nodes : List Node, Named P nodes → ∀ trail ∈ trailsOf nodes,
      trail ≠ [] ∧ ∀ name ∈ trail, P name
  | [] => by
    intro _ trail htrail
    cases htrail
  | node :: rest => by
    intro h trail htrail
    rcases List.mem_append.mp htrail with htrail | htrail
    · exact node.forall_mem_trails h.1 trail htrail
    · exact forall_mem_trailsOf rest h.2 trail htrail
end

/-! ## What lookups and replacements do to them -/

theorem trailsOf_modifyAt {place : Location} {nodes : List Node} {file new : File}
    (h : fileAt? place nodes = some file) (hname : new.name = file.name) :
    trailsOf (modifyAt new place nodes) = trailsOf nodes := by
  induction place generalizing nodes with
  | nil => cases h
  | cons index place ih =>
    rcases fileAt?_cases h with ⟨front, back, hplace, rfl⟩ |
      ⟨front, back, name, below, rest, hplace, rfl, hbelow⟩
    · simp [hplace, hname]
    · obtain ⟨rfl, rfl⟩ := List.cons.inj hplace
      simp [ih hbelow]

theorem named_modifyAt {place : Location} {nodes : List Node} {file new : File}
    (h : fileAt? place nodes = some file) (hname : new.name = file.name) (hnodes : Named P nodes) :
    Named P (modifyAt new place nodes) := by
  induction place generalizing nodes with
  | nil => cases h
  | cons index place ih =>
    rcases fileAt?_cases h with ⟨front, back, hplace, rfl⟩ |
      ⟨front, back, name, below, rest, hplace, rfl, hbelow⟩
    · simp only [named_append, Named, Node.Named] at hnodes
      simpa [hplace, Named, Node.Named, hname] using hnodes
    · obtain ⟨rfl, rfl⟩ := List.cons.inj hplace
      simp only [named_append, Named, Node.Named] at hnodes
      obtain ⟨hfront, ⟨hfolder, hinside⟩, hback⟩ := hnodes
      simp only [modifyAt_below, named_append, Named, Node.Named]
      exact ⟨hfront, ⟨hfolder, ih hbelow hinside⟩, hback⟩

/-- What following `parts` from `nodes` does to the trails: nothing if it fails; otherwise one of
the trails after it goes along the parts, and this is the only one that may be new. -/
def Leads (parts : List String) (nodes after : List Node) : Except LookupFault Location → Prop
  | .error _ => trailsOf after = trailsOf nodes
  | .ok _ => ∃ front trail back, trailsOf after = front ++ trail :: back ∧
      List.Forall₂ (fun name part => sameName name part) trail parts ∧
      (trailsOf nodes = front ++ trail :: back ∨ trailsOf nodes = front ++ back)

/-- **A path that is followed leads to one trail.** -/
theorem Reaching.trails {create : Bool} {parts : List String} {nodes after : List Node}
    {answer : Except LookupFault Location} (h : Reaching create parts nodes after answer) :
    Leads parts nodes after answer := by
  induction h with
  | @file name front back file _ _ hfile =>
    refine ⟨trailsOf front, [file.name], trailsOf back, by simp, ?_, .inl (by simp)⟩
    exact .cons hfile .nil
  | @folder name next found rest front back below after answer _ _ hfound _ ih =>
    cases answer with
    | error fault =>
      have hsame : trailsOf after = trailsOf below := ih
      simp [Leads, hsame, fromChild, Except.map]
    | ok place =>
      obtain ⟨left, trail, right, hafter, htrail, hbelow⟩ := ih
      refine ⟨trailsOf front ++ left.map (found :: ·), found :: trail,
        right.map (found :: ·) ++ trailsOf back, by simp [hafter], .cons hfound htrail, ?_⟩
      rcases hbelow with hold | hnew
      · exact .inl (by simp [hold])
      · exact .inr (by simp [hnew])
  | @newFile name nodes =>
    refine ⟨trailsOf nodes, [name], [], by simp [File.empty], ?_, .inr (by simp)⟩
    exact .cons (by simp [sameName]) .nil
  | @newFolder name next rest nodes after answer _ _ _ _ ih =>
    cases answer with
    | error fault =>
      have hnone : trailsOf after = [] := ih
      simp [Leads, hnone, fromChild, Except.map]
    | ok place =>
      obtain ⟨left, trail, right, hafter, htrail, hbelow⟩ := ih
      -- a new folder has no other trail
      obtain ⟨rfl, rfl⟩ : left = [] ∧ right = [] := by
        rcases hbelow with hold | hnew
        · simp at hold
        · simpa [eq_comm] using hnew
      refine ⟨trailsOf nodes, name :: trail, [], by simp [hafter], ?_, .inr (by simp)⟩
      exact .cons (by simp [sameName]) htrail
  | _ => exact rfl

/-- Only names of the path are added. -/
theorem Reaching.named {create : Bool} {parts : List String} {nodes after : List Node}
    {answer : Except LookupFault Location} (h : Reaching create parts nodes after answer)
    (hparts : ∀ part ∈ parts, part ≠ "" → P part) (hnodes : Named P nodes) : Named P after := by
  induction h with
  | folder _ _ _ _ ih =>
    simp only [named_append, Named, Node.Named] at hnodes ⊢
    obtain ⟨hfront, ⟨hfolder, hinside⟩, hback⟩ := hnodes
    exact ⟨hfront, ⟨hfolder, ih (fun part hpart => hparts part (.tail _ hpart)) hinside⟩, hback⟩
  | newFile hname =>
    simp only [named_append, Named, Node.Named]
    exact ⟨hnodes, hparts _ (.head _) hname, trivial⟩
  | newFolder hname _ _ _ ih =>
    simp only [named_append, Named, Node.Named]
    exact ⟨hnodes, ⟨hparts _ (.head _) hname,
      ih (fun part hpart => hparts part (.tail _ hpart)) trivial⟩, trivial⟩
  | _ => exact hnodes

end DiscPatch
