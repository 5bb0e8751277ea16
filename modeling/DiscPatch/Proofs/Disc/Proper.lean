import DiscPatch.Proofs.Disc.Entries
import DiscPatch.Proofs.Disc.ExportPaths
import Mathlib.Data.List.Nodup

/-!
# Paths lead back to the files they are listed under

A listing writes down the names on the way to each file, and a lookup takes a path apart and goes
down by its names. In a tree whose names are proper and tell children apart, the two are inverse to
each other, up to the case of `A` to `Z`.

* `Proper` — names are single components, and no folder has two children of the same name;
* `Standing` — a file stands at a place, and names lead to it;
* `placesOf`, `standing_listing` — the places of all files, in the order of the listing;
* `Standing.reachParts`, `Reaching.standing` — names lead to the place of their file, and every
  lookup that succeeds ends at such a place;
* `follows_apartLedger` — no batch makes two children of the same name;
* `proper_round_trip` — batches keep trees proper, and in a proper tree paths and files correspond.
-/

namespace DiscPatch

open DiscPatch.Text (split foldAscii)
open Edit

/-- Every name is a single component, and no folder has two children of the same name. -/
structure Proper (nodes : List Node) : Prop where
  /-- names are proper -/
  named : Named IsComponent nodes
  /-- children are told apart by their names -/
  distinct : Distinct nodes

theorem ne_empty_of_sameName {name part : String} (h : sameName name part) (hname : name ≠ "") :
    part ≠ "" := by
  rintro rfl
  exact hname (eq_of_sameName_of_dots (by simp) h)

/-! ## Files at their places -/

/-- A file stands at a place, and the names lead to it. -/
inductive Standing : List Node → Location → List String → File → Prop where
  /-- it stands among the nodes -/
  | here (front back : List Node) (file : File) :
    Standing (front ++ .file file :: back) [front.length] [file.name] file
  /-- it stands in a folder -/
  | deeper (front back : List Node) (name : String) {below : List Node} {place : Location}
    {trail : List String} {file : File} (hbelow : Standing below place trail file) :
    Standing (front ++ .folder name below :: back) (front.length :: place) (name :: trail) file

namespace Standing

variable {nodes : List Node} {place : Location} {trail : List String} {file : File}

theorem fileAt? (h : Standing nodes place trail file) :
    DiscPatch.fileAt? place nodes = some file := by
  induction h with
  | here => exact fileAt?_here ..
  | deeper _ _ _ _ ih => rwa [fileAt?_below]

theorem mem_trailsOf (h : Standing nodes place trail file) : trail ∈ trailsOf nodes := by
  induction h with
  | here front back file => simp
  | deeper front back name _ ih => simp [ih]

/-- The file is listed under the path of its names. -/
theorem mem_listing (h : Standing nodes place trail file) (above : String) :
    (trail.foldl childPath above, file) ∈ listing above nodes := by
  induction h generalizing above with
  | here front back file => simp [listing_append]
  | deeper front back name _ ih =>
    rw [listing_append, listing_folder]
    exact List.mem_append_right _ (List.mem_append_left _ (ih (childPath above name)))

/-- **Names lead to the place of their file**, in whatever case they are written. -/
theorem reachParts (h : Standing nodes place trail file) (hnodes : Distinct nodes)
    (hnames : ∀ name ∈ trail, name ≠ "") {parts : List String}
    (hsame : List.Forall₂ (fun name part => sameName name part) trail parts) :
    DiscPatch.reachParts false parts nodes = (nodes, .ok place) := by
  induction h generalizing parts with
  | here front back file =>
    cases hsame with
    | @cons _ part _ _ hname hrest =>
      cases hrest
      have hpart := ne_empty_of_sameName hname (hnames _ (.head _))
      exact reachParts_file hpart (hnodes.front hname) hname
  | @deeper front back name below place trail file hbelow ih =>
    cases hsame with
    | @cons _ part _ rest hname hrest =>
      obtain ⟨hfirst, hothers⟩ := List.forall_mem_cons.mp hnames
      -- a file stands in the folder, so the path goes on
      have hmore : rest ≠ [] := by
        rintro rfl
        cases hrest
        cases hbelow
      have hpart := ne_empty_of_sameName hname hfirst
      rw [reachParts_folder hpart hmore (hnodes.front hname) hname,
        ih hnodes.node hothers hrest]
      rfl

end Standing

/-- **A lookup that succeeds ends at a file**, and the names on the way are those of the path. -/
theorem Reaching.standing {create : Bool} {parts : List String} {nodes after : List Node}
    {answer : Except LookupFault Location} (h : Reaching create parts nodes after answer) :
    ∀ place, answer = .ok place → ∃ trail file, Standing after place trail file ∧
      List.Forall₂ (fun name part => sameName name part) trail parts := by
  induction h with
  | @file name front back file _ _ hfile =>
    rintro place ⟨⟩
    exact ⟨_, file, .here front back file, .cons hfile .nil⟩
  | @newFile name nodes =>
    rintro place ⟨⟩
    exact ⟨_, _, .here nodes [] _, .cons (sameName_self name) .nil⟩
  | @folder name next found rest front back below after answer _ _ hfound _ ih =>
    cases answer with
    | error fault => rintro place ⟨⟩
    | ok place =>
      rintro _ ⟨⟩
      obtain ⟨trail, file, hstanding, hsame⟩ := ih place rfl
      exact ⟨_, file, .deeper front back found hstanding, .cons hfound hsame⟩
  | @newFolder name next rest nodes after answer _ _ _ _ ih =>
    cases answer with
    | error fault => rintro place ⟨⟩
    | ok place =>
      rintro _ ⟨⟩
      obtain ⟨trail, file, hstanding, hsame⟩ := ih place rfl
      exact ⟨_, file, .deeper nodes [] name hstanding, .cons (sameName_self name) hsame⟩
  | _ => rintro place ⟨⟩

/-! ## All places -/

mutual
/-- The places of the files in a node, from the node on. -/
def Node.places : Node → List Location
  | .file _ => [[]]
  | .folder _ children => placesFrom 0 children

/-- The places of the files below nodes that are counted from `index` on. -/
def placesFrom (index : Nat) : List Node → List Location
  | [] => []
  | node :: rest => node.places.map (index :: ·) ++ placesFrom (index + 1) rest
end

/-- The places of all files, in the order of the listing. -/
def placesOf (nodes : List Node) : List Location :=
  placesFrom 0 nodes

theorem exists_cons_of_mem_placesFrom {index : Nat} {nodes : List Node} {place : Location}
    (h : place ∈ placesFrom index nodes) :
    ∃ number rest, place = number :: rest ∧ index ≤ number := by
  induction nodes generalizing index with
  | nil => cases h
  | cons node rest ih =>
    rw [placesFrom, List.mem_append, List.mem_map] at h
    rcases h with ⟨below, -, rfl⟩ | h
    · exact ⟨index, below, rfl, Nat.le_refl _⟩
    · obtain ⟨number, below, rfl, hle⟩ := ih h
      exact ⟨number, below, rfl, by omega⟩

mutual
theorem Node.nodup_places : ∀ node : Node, node.places.Nodup
  | .file _ => List.pairwise_singleton _ _
  | .folder _ children => nodup_placesFrom 0 children

/-- No two files stand at the same place. -/
theorem nodup_placesFrom (index : Nat) : ∀ nodes : List Node, (placesFrom index nodes).Nodup
  | [] => List.nodup_nil
  | node :: rest => by
    rw [placesFrom, List.nodup_append]
    refine ⟨?_, nodup_placesFrom (index + 1) rest, ?_⟩
    · exact List.Pairwise.map _ (fun _ _ hne heq => hne (List.cons.inj heq).2) node.nodup_places
    · intro place hplace other hother heq
      obtain ⟨below, -, rfl⟩ := List.mem_map.mp hplace
      obtain ⟨number, more, rfl, hle⟩ := exists_cons_of_mem_placesFrom hother
      have hindex : index = number := (List.cons.inj heq).1
      omega
end

/-- A place holds the file of an entry, and the names that lead to it are written in the entry. -/
def Entitled (above : String) (nodes : List Node) (place : Location) (entry : String × File) :
    Prop :=
  ∃ trail, Standing nodes place trail entry.2 ∧ entry.1 = trail.foldl childPath above

mutual
theorem Node.standing_listing (above : String) (front back : List Node) : ∀ node : Node,
    List.Forall₂ (Entitled above (front ++ node :: back)) (node.places.map (front.length :: ·))
      (node.listing above)
  | .file file => .cons ⟨[file.name], .here front back file, rfl⟩ .nil
  | .folder name children => by
    rw [Node.places, Node.listing, List.forall₂_map_left_iff]
    refine (standing_listing (childPath above name) [] children).imp ?_
    rintro place entry ⟨trail, hstanding, hpath⟩
    exact ⟨name :: trail, .deeper front back name hstanding, hpath⟩

/-- **The places and the listing go together**, file by file. -/
theorem standing_listing (above : String) (front : List Node) : ∀ nodes : List Node,
    List.Forall₂ (Entitled above (front ++ nodes)) (placesFrom front.length nodes)
      (listing above nodes)
  | [] => .nil
  | node :: rest => by
    have hrest := standing_listing above (front ++ [node]) rest
    rw [List.length_append, List.length_singleton, ← List.append_cons] at hrest
    exact List.rel_append (node.standing_listing above front rest) hrest
end

theorem placesFrom_append (index : Nat) (front back : List Node) :
    placesFrom index (front ++ back) =
      placesFrom index front ++ placesFrom (index + front.length) back := by
  induction front generalizing index with
  | nil => rfl
  | cons node rest ih =>
    rw [List.cons_append, placesFrom, ih, placesFrom, List.append_assoc, List.length_cons,
      Nat.add_assoc, Nat.add_comm 1]

/-- These are all places with a file. -/
theorem mem_placesOf_iff {nodes : List Node} {place : Location} :
    place ∈ placesOf nodes ↔ ∃ file, fileAt? place nodes = some file := by
  constructor
  · intro h
    obtain ⟨number, hnumber, rfl⟩ := List.getElem_of_mem h
    have hall := standing_listing "" [] nodes
    obtain ⟨trail, hstanding, -⟩ := hall.get hnumber (hall.length_eq ▸ hnumber)
    exact ⟨_, hstanding.fileAt?⟩
  · rintro ⟨file, hfile⟩
    induction place generalizing nodes with
    | nil => cases hfile
    | cons index place ih =>
      rcases fileAt?_cases hfile with ⟨front, back, hplace, rfl⟩ |
        ⟨front, back, name, below, rest, hplace, rfl, hbelow⟩
      · rw [hplace, placesOf, placesFrom_append]
        simp [placesFrom, Node.places]
      · obtain ⟨rfl, rfl⟩ := List.cons.inj hplace
        have hmem : place ∈ placesFrom 0 below := ih hbelow
        rw [placesOf, placesFrom_append]
        simp [placesFrom, Node.places, hmem]

/-! ## Proper trees -/

theorem pairwise_of_forall₂ {α β : Type} {R : α → β → Prop} {S : α → α → Prop}
    {T : β → β → Prop} {items : List α} {others : List β} (h : List.Forall₂ R items others)
    (hitems : items.Pairwise S)
    (himp : ∀ {a b c d}, R a b → R c d → S a c → T b d) : others.Pairwise T := by
  rw [List.pairwise_iff_getElem] at hitems ⊢
  intro i j hi hj hlt
  have hlength := h.length_eq
  exact himp (h.get (by omega) hi) (h.get (by omega) hj) (hitems i j (by omega) (by omega) hlt)

namespace Proper

variable {nodes : List Node}

/-- The names of a file can be read back from the path they are written as. -/
theorem split_path (h : Proper nodes) {place : Location} {trail : List String} {file : File}
    (hstanding : Standing nodes place trail file) :
    split '/' (trail.foldl childPath "") = trail := by
  obtain ⟨hne, hnames⟩ := forall_mem_trailsOf nodes h.named trail hstanding.mem_trailsOf
  exact split_foldl_childPath hne hnames

/-- The path of a file leads to it, as it is listed or in any other case. -/
theorem reach_path (h : Proper nodes) {place : Location} {trail : List String} {file : File}
    (hstanding : Standing nodes place trail file) {path : String}
    (hpath : sameName path (trail.foldl childPath "")) :
    reach false path nodes = (nodes, .ok place) := by
  obtain ⟨-, hnames⟩ := forall_mem_trailsOf nodes h.named trail hstanding.mem_trailsOf
  have hsame := sameName_iff_split.mp (sameName_symm hpath)
  rw [h.split_path hstanding] at hsame
  exact hstanding.reachParts h.distinct (fun name hname => (hnames name hname).1) hsame

/-- Every file is found where it stands, under the path it is listed under. -/
theorem reach_listing (h : Proper nodes) :
    List.Forall₂ (fun place entry => fileAt? place nodes = some entry.2 ∧
      ∀ path, sameName path entry.1 → reach false path nodes = (nodes, .ok place))
      (placesOf nodes) (listing "" nodes) := by
  refine (standing_listing "" [] nodes).imp ?_
  rintro place ⟨_, file⟩ ⟨trail, hstanding, rfl⟩
  exact ⟨hstanding.fileAt?, fun path hpath => h.reach_path hstanding hpath⟩

/-- **No two files are listed under the same path**, in whatever case it is written. -/
theorem nodup_folded (h : Proper nodes) :
    ((listing "" nodes).map fun entry => foldAscii entry.1).Nodup := by
  refine List.pairwise_map.mpr (pairwise_of_forall₂ h.reach_listing (nodup_placesFrom 0 nodes) ?_)
  rintro place entry other second ⟨-, hentry⟩ ⟨-, hsecond⟩ hne hfold
  -- the path of one leads to both
  have hboth := (hentry entry.1 (sameName_self _)).symm.trans
    (hsecond entry.1 (sameName_iff.mpr hfold))
  exact hne (Except.ok.inj (Prod.mk.inj hboth).2)

theorem nodup_paths (h : Proper nodes) : ((listing "" nodes).map (·.1)).Nodup := by
  have hfolded := h.nodup_folded
  rw [← Function.comp_def foldAscii, ← List.map_map] at hfolded
  exact List.Nodup.of_map _ hfolded

/-- A path that leads to a file is the path of exactly one file of the listing, up to case. -/
theorem existsUnique_path (h : Proper nodes) {path : String} {place : Location}
    (hpath : (reach false path nodes).2 = .ok place) :
    ∃! listed, listed ∈ (listing "" nodes).map (·.1) ∧ sameName path listed := by
  have hreaching := reaching false (split '/' path) nodes
  obtain ⟨hsame, -⟩ : _ ∧ LeadsToFile _ _ := by
    rcases hreaching.found_or_grown place hpath with hfound | ⟨hcreate, -⟩
    · exact hfound
    · cases hcreate
  obtain ⟨trail, file, hstanding, hparts⟩ := hreaching.standing place hpath
  rw [hsame] at hstanding
  have hpath : sameName path (trail.foldl childPath "") := by
    refine sameName_symm (sameName_iff_split.mpr ?_)
    rwa [h.split_path hstanding]
  refine ⟨_, ⟨List.mem_map_of_mem (hstanding.mem_listing ""), hpath⟩, ?_⟩
  rintro other ⟨hother, hsecond⟩
  obtain ⟨entry, hentry, rfl⟩ := List.mem_map.mp hother
  have hfold := (sameName_iff.mp hsecond).symm.trans (sameName_iff.mp hpath)
  exact congrArg Prod.fst
    (List.inj_on_of_nodup_map h.nodup_folded hentry (hstanding.mem_listing "") hfold)

end Proper

/-! ## Frozen trees -/

theorem Frozen.insert_of_not_mem {path : String} {layout : Layout} {frozen : Frozen}
    (h : path ∉ frozen.map (·.1)) : frozen.insert path layout = frozen ++ [(path, layout)] := by
  induction frozen with
  | nil => rfl
  | cons entry rest ih =>
    obtain ⟨hne, hrest⟩ := not_or.mp (List.mem_cons.not.mp h)
    rw [Frozen.insert, if_neg (Ne.symm hne), ih hrest, List.cons_append]

/-- Files with paths of their own are frozen one by one. -/
theorem freezeAll_eq {frozen : Frozen} {entries : List (String × File)}
    (h : (frozen.map (·.1) ++ entries.map (·.1)).Nodup) :
    freezeAll frozen entries =
      (entries.mapM fun entry : String × File => (entry.2.freeze 0).map (entry.1, ·)).map
        (frozen ++ ·) := by
  induction entries generalizing frozen with
  | nil => exact congrArg Except.ok (List.append_nil frozen).symm
  | cons entry rest ih =>
    obtain ⟨path, file⟩ := entry
    rw [freezeAll, List.mapM_cons]
    cases file.freeze 0 with
    | error error => rfl
    | ok layout =>
      have hnew : path ∉ frozen.map (·.1) := fun hmem =>
        (List.nodup_append.mp h).2.2 path hmem path (.head _) rfl
      have hrest : ((frozen ++ [(path, layout)]).map (·.1) ++ rest.map (·.1)).Nodup := by
        simpa using h
      change freezeAll (frozen.insert path layout) rest = _
      rw [Frozen.insert_of_not_mem hnew, ih hrest]
      cases rest.mapM fun entry : String × File => (entry.2.freeze 0).map (entry.1, ·) with
      | error error => simp [Except.map, bind, Except.bind]
      | ok others => simp [Except.map, bind, Except.bind, pure, Except.pure]

/-- A tree whose files are listed under different paths is frozen file by file. -/
theorem Folder.freeze_eq {folder : Folder} (h : ((listing "" folder.children).map (·.1)).Nodup) :
    folder.freeze = (listing "" folder.children).mapM
      fun entry => (entry.2.freeze 0).map (entry.1, ·) := by
  have hall : folder.freeze = _ := freezeAll_eq h
  rw [hall]
  cases (listing "" folder.children).mapM fun entry => (entry.2.freeze 0).map (entry.1, ·) <;> rfl

/-! ## What a batch does -/

/-- What a run does to names that count as one: children stay apart, and the executable keeps its
name. -/
def ApartLedger (before : Disc) (_ : Option (List FileReport)) (after : Disc) : Prop :=
  (Distinct before.root.children → Distinct after.root.children) ∧
    after.main.map (·.name) = before.main.map (·.name)

theorem apartLedger : Ledger ApartLedger where
  idle _ := ⟨id, rfl⟩
  failed _ := ⟨id, rfl⟩
  next hfirst hrest := ⟨hrest.1 ∘ hfirst.1, hrest.2.trans hfirst.2⟩

theorem Targeting.apart {executable : String} {directive : FileDirective} {disc after : Disc}
    {answer : Except Outcome Target} (h : Targeting executable directive disc answer after) :
    (Distinct disc.root.children → Distinct after.root.children) ∧ after.main = disc.main := by
  cases h with
  | path _ hnodes => exact ⟨hnodes.distinct, rfl⟩
  | noPath _ hnodes => exact ⟨hnodes.distinct, rfl⟩
  | _ => exact ⟨id, rfl⟩

/-- Replacing a file under its own name keeps children apart and the name of the executable. -/
theorem Disc.apart_setFile {disc : Disc} {target : Target} {file new : File}
    (hfile : disc.file? target = some file) (hname : new.name = file.name) :
    (Distinct disc.root.children → Distinct (disc.setFile new target).root.children) ∧
      (disc.setFile new target).main.map (·.name) = disc.main.map (·.name) := by
  cases target with
  | main =>
    have hmain : disc.main = some file := hfile
    exact ⟨id, by rw [hmain, Disc.setFile, Option.map_some, Option.map_some, hname]⟩
  | place place => exact ⟨distinct_modifyAt hfile hname, rfl⟩

/-- One file directive keeps children apart. -/
theorem apartLedger_of_carried {external : External} {executable : String}
    {directive : FileDirective} {disc after : Disc} {answer : Except Error FileReport}
    (h : Carried external executable directive disc answer after) (log : Option (List FileReport)) :
    ApartLedger disc log after := by
  cases h with
  | refused => exact ⟨id, rfl⟩
  | untargeted _ htarget => exact ⟨htarget.apart.1, congrArg _ htarget.apart.2⟩
  | @changed target after file new answer _ htarget hfile hchanged =>
    have hname : new.name = file.name := by
      rw [← File.name_applyDirective external directive file, hchanged]
    obtain ⟨hdistinct, hmain⟩ := Disc.apart_setFile hfile hname
    exact ⟨hdistinct ∘ htarget.apart.1, hmain.trans (congrArg _ htarget.apart.2)⟩

/-- **No batch makes two children of the same name.** -/
theorem follows_apartLedger (executable : String) (patches : List Patch) :
    Follows ApartLedger (applyPatches executable patches) := by
  refine follows_applyPatches apartLedger (fun external directive disc => ?_) patches
  rw [outcome_bind_pure]
  exact apartLedger_of_carried (carried external executable directive disc) _

/-- **In a proper tree, paths and files correspond.** Every batch leaves a proper tree proper, also
if it fails. The files stand at different places, one for each entry of the listing, and an entry's
path leads to its place in whatever case it is written. A path that leads to a file without creating
any is that of exactly one entry. No path is listed twice, and a frozen tree has the entries of the
listing. -/
theorem proper_round_trip {folder : Folder} (h : Proper folder.children) :
    (∀ executable patches main,
      Proper ((applyPatches executable patches).outcome ⟨folder, main⟩).2.root.children) ∧
    (placesOf folder.children).Nodup ∧
    (∀ place, place ∈ placesOf folder.children ↔
      ∃ file, fileAt? place folder.children = some file) ∧
    List.Forall₂ (fun place entry => fileAt? place folder.children = some entry.2 ∧
        ∀ path, sameName path entry.1 →
          reach false path folder.children = (folder.children, .ok place))
      (placesOf folder.children) (listing "" folder.children) ∧
    (∀ path place, (reach false path folder.children).2 = .ok place →
      ∃! listed, listed ∈ (listing "" folder.children).map (·.1) ∧ sameName path listed) ∧
    ((listing "" folder.children).map (·.1)).Nodup ∧
    folder.freeze = (listing "" folder.children).mapM
      fun entry => (entry.2.freeze 0).map (entry.1, ·) := by
  refine ⟨fun executable patches main => ?_, nodup_placesFrom 0 _, fun _ => mem_placesOf_iff,
    h.reach_listing, fun path place => h.existsUnique_path, h.nodup_paths,
    Folder.freeze_eq h.nodup_paths⟩
  exact ⟨(follows_strayLedger executable patches ⟨folder, main⟩).1 h.named,
    (follows_apartLedger executable patches ⟨folder, main⟩).1 h.distinct⟩

/-- A file in a folder is found under its path in capital and small letters. -/
theorem proper_round_trip_stage :
    Proper [.folder "Stage" [.file (.empty "A.arc")], .file (.empty "b")] ∧
      reach false "STAGE/a.ARC" [.folder "Stage" [.file (.empty "A.arc")], .file (.empty "b")] =
        ([.folder "Stage" [.file (.empty "A.arc")], .file (.empty "b")], .ok [0, 0]) := by
  have hproper : Proper [.folder "Stage" [.file (.empty "A.arc")], .file (.empty "b")] := by
    constructor
    · simp [Named, Node.Named, IsComponent, File.empty]
    · refine ⟨List.forall_mem_singleton.mpr ?_, ⟨by simp, trivial, trivial⟩, by simp, trivial,
        trivial⟩
      decide
  obtain ⟨-, -, -, hreach, -⟩ := @proper_round_trip ⟨"disc", _⟩ hproper
  cases hreach with
  | cons hfirst _ => exact ⟨hproper, hfirst.2 "STAGE/a.ARC" (by decide)⟩

end DiscPatch
