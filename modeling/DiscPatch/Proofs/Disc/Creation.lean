import DiscPatch.Proofs.Disc.Proper
import DiscPatch.Proofs.Edit

/-!
# Lookups that may create

A lookup that may create what is missing makes each folder when it comes to it. So it can still fail
behind what it has made, but for one reason only: nothing of the wrong kind stands in a new folder,
and what stops the lookup there is an empty component.

* `isPassable` — nothing of the wrong kind stands on the path;
* `Reaching.succeeds_iff` — with creation, a path is followed exactly if it is passable and has no
  empty component;
* `Reaching.old_or_new` — then it leads to a file that was there, or the tree has grown;
* `LeadsTo`, `LeadsTo.reachParts` — a path that leads to a file leads there in whatever case it is
  written, with or without creation;
* `reach_creates` — all this, with what is created;
* `breaksOff` — the path stops existing in front of an empty component;
* `stump`, `Stumped` — new folders with no file in them, at the end of the folder where a path stops
  existing;
* `Folder.reach_failed` — a lookup that fails leaves the tree as it was unless the path breaks off;
  then it leaves a stump.
-/

namespace DiscPatch

open DiscPatch.Text (split)
open Edit

/-! ## Paths that can be followed -/

/-- Whether nothing of the wrong kind stands on a path. It goes down by the first child of each name
as long as there is one; a file has to stand at its end, and folders before it. -/
def isPassable : List String → List Node → Bool
  | [], _ => false
  | name :: rest, nodes =>
    match nodes.find? (sameName ·.name name) with
    | none => true
    | some (.file _) => rest.isEmpty
    | some (.folder _ below) => isPassable rest below

theorem find?_of_split {name : String} {front back : List Node} (node : Node)
    (hfront : ∀ other ∈ front, ¬ sameName other.name name) (hnode : sameName node.name name) :
    (front ++ node :: back).find? (sameName ·.name name) = some node := by
  rw [List.find?_append, List.find?_eq_none.mpr hfront, Option.none_or]
  exact List.find?_cons_of_pos hnode

/-- **With creation, a path is followed exactly if it is passable** and has no empty component. -/
theorem Reaching.succeeds_iff {parts : List String} {nodes after : List Node}
    {answer : Except LookupFault Location} (h : Reaching true parts nodes after answer) :
    (∃ place, answer = .ok place) ↔ "" ∉ parts ∧ isPassable parts nodes = true := by
  induction h with
  | done => simp [isPassable]
  | empty => simp
  | file hname hfront hfile =>
    rw [isPassable, find?_of_split (.file _) hfront hfile]
    simpa using Ne.symm hname
  | notFolder _ hfront hfile =>
    rw [isPassable, find?_of_split (.file _) hfront hfile]
    simp
  | notFile _ hfront hfound =>
    rw [isPassable, find?_of_split (.folder _ _) hfront hfound]
    simp [isPassable]
  | @folder name next found rest front back below after answer hname hfront hfound _ ih =>
    rw [isPassable, find?_of_split (.folder _ _) hfront hfound, List.mem_cons, not_or,
      and_iff_right (Ne.symm hname), ← ih]
    cases answer <;> simp [Except.map]
  | missing _ hcreate => cases hcreate
  | newFile hname _ hnodes =>
    rw [isPassable, List.find?_eq_none.mpr hnodes]
    simpa using Ne.symm hname
  | @newFolder name next rest nodes after answer hname _ hnodes _ ih =>
    rw [isPassable, List.find?_eq_none.mpr hnodes, List.mem_cons, not_or,
      and_iff_right (Ne.symm hname)]
    -- everything is passable where nothing stands
    rw [isPassable] at ih
    cases answer <;> simpa [Except.map] using ih

/-- A path that is followed leads to a file that was there, or the tree has grown and it leads to
what is new. -/
theorem Reaching.old_or_new {create : Bool} {parts : List String} {nodes after : List Node}
    {answer : Except LookupFault Location} (h : Reaching create parts nodes after answer) :
    ∀ place, answer = .ok place →
      (after = nodes ∧ ∃ file, fileAt? place nodes = some file) ∨
        Grown parts nodes after ∧ fileAt? place nodes = none ∧
          ∃ name, parts.getLast? = some name ∧ fileAt? place after = some (File.empty name) := by
  induction h with
  | @file name front back file =>
    rintro place ⟨⟩
    exact .inl ⟨rfl, file, fileAt?_here front back file⟩
  | @folder name next found rest front back below after answer hname hfront hfound _ ih =>
    cases answer with
    | error fault => rintro place ⟨⟩
    | ok place =>
      rintro _ ⟨⟩
      simp only [fileAt?_below, List.getLast?_cons_cons]
      rcases ih place rfl with ⟨rfl, hfile⟩ | ⟨hgrown, hnone, hnew⟩
      · exact .inl ⟨rfl, hfile⟩
      · exact .inr ⟨.deeper hfront hfound hgrown, hnone, hnew⟩
  | @newFile name nodes _ _ hnodes =>
    rintro place ⟨⟩
    exact .inr ⟨.new hnodes, by simp [fileAt?], name, rfl, fileAt?_here nodes [] _⟩
  | @newFolder name next rest nodes after answer _ _ hnodes _ ih =>
    cases answer with
    | error fault => rintro place ⟨⟩
    | ok place =>
      rintro _ ⟨⟩
      simp only [fileAt?_below, List.getLast?_cons_cons]
      rcases ih place rfl with ⟨-, file, hfile⟩ | ⟨hgrown, -, hnew⟩
      · -- no file stands in an empty folder
        simpa using mem_filesOf_of_fileAt? hfile
      · rw [hgrown.eq_sprout]
        rw [hgrown.eq_sprout] at hnew
        exact .inr ⟨.new hnodes, by simp [fileAt?], hnew⟩
  | _ => rintro place ⟨⟩

/-! ## Following a path again -/

/-- By the first child of each name, the path leads to a file at that place. -/
inductive LeadsTo : (parts : List String) → (nodes : List Node) → (place : Location) → Prop where
  /-- the file is the first child of its name -/
  | here {name : String} {front back : List Node} {file : File} (hname : name ≠ "")
    (hfront : ∀ other ∈ front, ¬ sameName other.name name) (hfile : sameName file.name name) :
    LeadsTo [name] (front ++ .file file :: back) [front.length]
  /-- the path goes on in the first folder of that name -/
  | deeper {name found : String} {rest : List String} {front back below : List Node}
    {place : Location} (hname : name ≠ "")
    (hfront : ∀ other ∈ front, ¬ sameName other.name name) (hfound : sameName found name)
    (hbelow : LeadsTo rest below place) :
    LeadsTo (name :: rest) (front ++ .folder found below :: back) (front.length :: place)

/-- A path that was followed leads to the place that was answered. -/
theorem Reaching.leadsTo {create : Bool} {parts : List String} {nodes after : List Node}
    {answer : Except LookupFault Location} (h : Reaching create parts nodes after answer) :
    ∀ place, answer = .ok place → LeadsTo parts after place := by
  induction h with
  | file hname hfront hfile =>
    rintro place ⟨⟩
    exact .here hname hfront hfile
  | newFile hname _ hnodes =>
    rintro place ⟨⟩
    exact .here hname hnodes (sameName_self _)
  | @folder _ _ _ _ _ _ _ _ answer hname hfront hfound _ ih =>
    cases answer with
    | error fault => rintro place ⟨⟩
    | ok place =>
      rintro _ ⟨⟩
      exact .deeper hname hfront hfound (ih place rfl)
  | @newFolder _ _ _ _ _ answer hname _ hnodes _ ih =>
    cases answer with
    | error fault => rintro place ⟨⟩
    | ok place =>
      rintro _ ⟨⟩
      exact .deeper hname hnodes (sameName_self _) (ih place rfl)
  | _ => rintro place ⟨⟩

/-- Names that do not match a name do not match it in another case either. -/
theorem forall_not_sameName {name variant : String} {nodes : List Node}
    (h : ∀ other ∈ nodes, ¬ sameName other.name name) (hsame : sameName variant name) :
    ∀ other ∈ nodes, ¬ sameName other.name variant :=
  fun other hother hvariant => h other hother (sameName_trans hvariant hsame)

/-- **A path that leads to a file is followed there**, in whatever case it is written and with or
without creation, and nothing changes. -/
theorem LeadsTo.reachParts {parts : List String} {nodes : List Node} {place : Location}
    (h : LeadsTo parts nodes place) (create : Bool) : ∀ variant : List String,
      List.Forall₂ (fun name part => sameName name part) variant parts →
        reachParts create variant nodes = (nodes, .ok place) := by
  induction h with
  | here hname hfront hfile =>
    rintro _ (_ | ⟨hsame, ⟨⟩⟩)
    exact reachParts_file (ne_empty_of_sameName (sameName_symm hsame) hname)
      (forall_not_sameName hfront hsame) (sameName_trans hfile (sameName_symm hsame))
  | deeper hname hfront hfound hbelow ih =>
    intro variant hvariant
    obtain ⟨first, others, hsame, hothers, rfl⟩ := List.forall₂_cons_right_iff.mp hvariant
    have hmore : others ≠ [] := by
      rintro rfl
      cases hothers
      cases hbelow
    rw [reachParts_folder (ne_empty_of_sameName (sameName_symm hsame) hname) hmore
      (forall_not_sameName hfront hsame) (sameName_trans hfound (sameName_symm hsame)),
      ih others hothers]
    rfl

/-- **Creation on lookup is exact, and done once.** With creation, a lookup succeeds exactly if no
component of the path is empty and nothing of the wrong kind stands on it. Then the path leads to the
place that it answers: either a file is there and the tree is as it was, or the tree has grown by what
was missing on the path and by nothing else, and the file is the new one, which is empty. Every
further lookup of the path, with or without creation and in whatever case it is written, answers with
the same place and changes nothing. -/
theorem reach_creates (path : String) (nodes : List Node) :
    ((∃ place, (reach true path nodes).2 = .ok place) ↔
      "" ∉ split '/' path ∧ isPassable (split '/' path) nodes = true) ∧
    ∀ after place, reach true path nodes = (after, .ok place) →
      LeadsTo (split '/' path) after place ∧
      ((after = nodes ∧ ∃ file, fileAt? place nodes = some file) ∨
        Grown (split '/' path) nodes after ∧ fileAt? place nodes = none ∧
          ∃ name, (split '/' path).getLast? = some name ∧
            fileAt? place after = some (File.empty name)) ∧
      ∀ (create : Bool) (variant : String), sameName variant path →
        reach create variant after = (after, .ok place) := by
  have hreaching := reaching true (split '/' path) nodes
  refine ⟨hreaching.succeeds_iff, fun after place h => ?_⟩
  rw [← reach, h] at hreaching
  have hleads := hreaching.leadsTo place rfl
  exact ⟨hleads, hreaching.old_or_new place rfl, fun create variant hvariant =>
    hleads.reachParts create _ (sameName_iff_split.mp hvariant)⟩

/-- Two folders of one name: what is missing is created in the first of them, although the second has
it, and is found there again. -/
theorem reach_creates_twice :
    let other : Node := .folder "data" [.folder "sub" [.file (File.empty "a.bin")]]
    let nodes : List Node := [.folder "DATA" [], other]
    let after : List Node :=
      [.folder "DATA" [.folder "sub" [.file (File.empty "a.bin")]], other]
    reach true "data/sub/a.bin" nodes = (after, .ok [0, 0, 0]) ∧
      reach false "Data/SUB/A.bin" after = (after, .ok [0, 0, 0]) := by
  intro other nodes after
  have hfirst : reach true "data/sub/a.bin" nodes = (after, .ok [0, 0, 0]) := rfl
  obtain ⟨-, hfound⟩ := reach_creates "data/sub/a.bin" nodes
  exact ⟨hfirst, (hfound _ _ hfirst).2.2 false "Data/SUB/A.bin" (by decide +kernel)⟩

/-! ## Lookups that fail -/

/-- Whether a path stops existing in front of an empty component, all components up to there being
proper. -/
def breaksOff : List String → List Node → Bool
  | [], _ => false
  | name :: rest, nodes =>
    name != "" && match nodes.find? (sameName ·.name name) with
      | none => rest.contains ""
      | some (.file _) => false
      | some (.folder _ below) => breaksOff rest below

/-- New folders, one in the other, with no file in the last. -/
def stump (name : String) : List String → Node
  | [] => .folder name []
  | next :: rest => .folder name [stump next rest]

/-- The nodes `after` are `nodes` with a stump put where the path stops existing: its folders have
the names of the components up to the first empty one. -/
inductive Stumped : (parts : List String) → (nodes after : List Node) → Prop where
  /-- nothing has the first name -/
  | new {name : String} {missing rest : List String} {nodes : List Node}
    (hnodes : ∀ other ∈ nodes, ¬ sameName other.name name) (hmissing : "" ∉ missing) :
    Stumped (name :: (missing ++ "" :: rest)) nodes (nodes ++ [stump name missing])
  /-- the path goes on in the first folder of that name -/
  | deeper {name found : String} {rest : List String} {front back below after : List Node}
    (hfront : ∀ other ∈ front, ¬ sameName other.name name) (hfound : sameName found name)
    (hbelow : Stumped rest below after) :
    Stumped (name :: rest) (front ++ .folder found below :: back)
      (front ++ .folder found after :: back)

theorem Stumped.ne {parts : List String} {nodes after : List Node}
    (h : Stumped parts nodes after) : after ≠ nodes := by
  induction h with
  | new => simp
  | deeper _ _ _ ih => simpa using ih

/-- In an empty folder, all folders are new. -/
theorem Stumped.eq_stump {name : String} {rest : List String} {after : List Node}
    (h : Stumped (name :: rest) [] after) :
    ∃ missing others, rest = missing ++ "" :: others ∧ "" ∉ missing ∧
      after = [stump name missing] := by
  generalize hnodes : ([] : List Node) = nodes at h
  cases h with
  | @new _ missing others _ _ hmissing =>
    exact ⟨missing, others, rfl, hmissing, by rw [← hnodes, List.nil_append]⟩
  | deeper => simp at hnodes

/-- **A path that cannot be followed leaves the tree alone, or a stump**, the latter exactly if it
may create and breaks off. -/
theorem Reaching.same_or_stumped {create : Bool} {parts : List String} {nodes after : List Node}
    {answer : Except LookupFault Location} (h : Reaching create parts nodes after answer) :
    ∀ fault, answer = .error fault →
      after = nodes ∧ ¬ (create = true ∧ breaksOff parts nodes = true) ∨
        (create = true ∧ breaksOff parts nodes = true) ∧ Stumped parts nodes after := by
  induction h with
  | done => exact fun _ _ => .inl ⟨rfl, by simp [breaksOff]⟩
  | empty => exact fun _ _ => .inl ⟨rfl, by simp [breaksOff]⟩
  | notFolder _ hfront hfile =>
    refine fun _ _ => .inl ⟨rfl, ?_⟩
    rw [breaksOff, find?_of_split (.file _) hfront hfile]
    simp
  | notFile _ hfront hfound =>
    refine fun _ _ => .inl ⟨rfl, ?_⟩
    rw [breaksOff, find?_of_split (.folder _ _) hfront hfound]
    simp [breaksOff]
  | missing _ hcreate => exact fun _ _ => .inl ⟨rfl, by simp [hcreate]⟩
  | @folder name next found rest front back below after answer hname hfront hfound _ ih =>
    cases answer with
    | ok place => rintro fault ⟨⟩
    | error fault =>
      rintro _ -
      have hbreaks : breaksOff (name :: next :: rest) (front ++ .folder found below :: back) =
          breaksOff (next :: rest) below := by
        rw [breaksOff, find?_of_split (.folder _ _) hfront hfound]
        simp [hname]
      rw [hbreaks]
      rcases ih fault rfl with ⟨rfl, hwhole⟩ | ⟨hbreaks, hstumped⟩
      · exact .inl ⟨rfl, hwhole⟩
      · exact .inr ⟨hbreaks, .deeper hfront hfound hstumped⟩
  | @newFolder name next rest nodes after answer hname hcreate hnodes hbelow ih =>
    cases answer with
    | ok place => rintro fault ⟨⟩
    | error fault =>
      rintro _ -
      subst hcreate
      -- in a new folder only an empty component stops a path
      have hempty : "" ∈ next :: rest := by
        refine Decidable.byContradiction fun hproper => ?_
        obtain ⟨place, hplace⟩ := hbelow.succeeds_iff.mpr ⟨hproper, rfl⟩
        cases hplace
      have hbreaks : breaksOff (name :: next :: rest) nodes = true := by
        rw [breaksOff, List.find?_eq_none.mpr hnodes]
        simpa [hname] using hempty
      refine .inr ⟨⟨rfl, hbreaks⟩, ?_⟩
      by_cases hnext : next = ""
      · -- it is the next one, and nothing was put into the folder
        subst hnext
        rcases ih fault rfl with ⟨rfl, -⟩ | ⟨⟨-, hbelow⟩, -⟩
        · exact .new hnodes List.not_mem_nil
        · simp [breaksOff] at hbelow
      · have hrest : "" ∈ rest := (List.mem_cons.mp hempty).resolve_left (Ne.symm hnext)
        rcases ih fault rfl with ⟨-, hwhole⟩ | ⟨-, hstumped⟩
        · exact absurd ⟨rfl, by simpa [breaksOff, hnext] using hrest⟩ hwhole
        · obtain ⟨missing, others, rfl, hmissing, rfl⟩ := hstumped.eq_stump
          refine @Stumped.new name (next :: missing) others nodes hnodes ?_
          simpa [hmissing] using Ne.symm hnext
  | _ => rintro fault ⟨⟩

/-- The two forms of a lookup do the same to a folder. -/
theorem Folder.outcome_reach (create : Bool) (path : String) (folder : Folder) :
    (Folder.reach create path).outcome folder =
        ((DiscPatch.reach create path folder.children).2.mapError .lookup,
          { folder with children := (DiscPatch.reach create path folder.children).1 }) ∧
      (Folder.reach? create path).outcome folder =
        (.ok (DiscPatch.reach create path folder.children).2.toOption,
          { folder with children := (DiscPatch.reach create path folder.children).1 }) := by
  rw [Folder.reach, Folder.reach?, outcome_bind_ok (outcome_get folder),
    outcome_bind_ok (outcome_get folder)]
  rcases DiscPatch.reach create path folder.children with ⟨children, fault | place⟩
  · exact ⟨rfl, rfl⟩
  · exact ⟨rfl, rfl⟩

/-- **What a failed lookup leaves.** The two forms of a lookup fail together and leave the same. The
tree is as it was exactly if nothing may be created or the path does not break off; in particular it
is if something of the wrong kind stands on the path. Otherwise it has a stump where the path stops
existing, and its files are as they were. -/
theorem Folder.reach_failed (create : Bool) (path : String) (folder after : Folder) :
    ((∃ fault, (Folder.reach create path).outcome folder = (.error (.lookup fault), after)) ↔
      (Folder.reach? create path).outcome folder = (.ok none, after)) ∧
    ∀ fault, (Folder.reach create path).outcome folder = (.error (.lookup fault), after) →
      (after = folder ↔
        ¬ (create = true ∧ breaksOff (split '/' path) folder.children = true)) ∧
      (fault.isMismatch = true → after = folder) ∧
      (after ≠ folder → after.name = folder.name ∧
        Stumped (split '/' path) folder.children after.children ∧
        listing "" after.children = listing "" folder.children) := by
  obtain ⟨hreach, hreach?⟩ := Folder.outcome_reach create path folder
  have hreaching := reaching create (split '/' path) folder.children
  rw [hreach, hreach?]
  change Reaching create _ _ (DiscPatch.reach create path folder.children).1
    (DiscPatch.reach create path folder.children).2 at hreaching
  generalize DiscPatch.reach create path folder.children = reached at hreaching ⊢
  obtain ⟨children, fault | place⟩ := reached
  · refine ⟨?_, fun other h => ?_⟩
    · simp [Except.mapError, Except.toOption]
    · obtain ⟨hfault, rfl⟩ := Prod.mk.inj h
      cases hfault
      have hsame : ({ folder with children := children } : Folder) = folder ↔
          children = folder.children := by
        cases folder
        simp
      have hstumped := hreaching.same_or_stumped fault rfl
      rw [hsame]
      refine ⟨?_, fun hmismatch => (hreaching.eq_of_mismatch fault rfl hmismatch).1,
        fun hchanged => ⟨rfl, ?_, hreaching.listing_of_error "" fault rfl⟩⟩
      · rcases hstumped with ⟨hnodes, hwhole⟩ | ⟨hbreaks, hstumped⟩
        · exact iff_of_true hnodes hwhole
        · exact iff_of_false hstumped.ne fun hwhole => hwhole hbreaks
      · rcases hstumped with ⟨hnodes, -⟩ | ⟨-, hstumped⟩
        · exact absurd (hsame.mpr hnodes) hchanged
        · exact hstumped
  · refine ⟨?_, fun other h => ?_⟩
    · simp [Except.mapError, Except.toOption]
    · cases (Prod.mk.inj h).1

/-- A component is missing, and the next one is empty: the lookup fails, and the folder that it has
made for the first stays. -/
theorem Folder.reach_failed_stump :
    let folder : Folder := ⟨"", []⟩
    let after : Folder := ⟨"", [.folder "new" []]⟩
    (Folder.reach true "new//a.bin").outcome folder =
        (.error (.lookup (.emptyComponent "/a.bin")), after) ∧
      (Folder.reach? true "new//a.bin").outcome folder = (.ok none, after) ∧
      breaksOff (split '/' "new//a.bin") folder.children = true ∧ after ≠ folder := by
  intro folder after
  have hfailed : (Folder.reach true "new//a.bin").outcome folder =
      (.error (.lookup (.emptyComponent "/a.bin")), after) := rfl
  have hbreaks : breaksOff (split '/' "new//a.bin") folder.children = true := by decide +kernel
  obtain ⟨hboth, hleft⟩ := Folder.reach_failed true "new//a.bin" folder after
  exact ⟨hfailed, hboth.mp ⟨_, hfailed⟩, hbreaks,
    fun hsame => (hleft _ hfailed).1.mp hsame ⟨rfl, hbreaks⟩⟩

end DiscPatch
