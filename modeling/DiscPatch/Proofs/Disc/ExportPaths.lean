import DiscPatch.Disc.Export
import DiscPatch.Disc.HostFolder
import DiscPatch.Proofs.Content.WellFormed
import DiscPatch.Proofs.Disc.Distinct
import DiscPatch.Proofs.Host.Walk
import DiscPatch.Proofs.Patch.Runs

/-!
# Where a patched tree is written

The tree of a host folder has the names of host entries, and patching adds the names that occur in
the paths of directives. These may be `.` and `..`, which mean something else once the tree is
written out.

* `IsDots`, `SafeName`, `SafePath` — names and paths that stand for themselves on the host;
* `FileReport.Strays` — a directive found or created its file by a path with dots in it;
* `follows_strayLedger` — a batch brings in such names exactly if one of its reports strays;
* `safePath_listing_iff` — a patched tree is written below its output folder exactly if no report
  strays.
-/

namespace DiscPatch

open DiscPatch.Host (Entry FileSystem WrittenPath EntriesNamed)
open DiscPatch.Text (split foldAscii foldAsciiChar)
open Edit

/-! ## Names -/

/-- A name that means this folder or the one above it. -/
def IsDots (name : String) : Prop :=
  name = "." ∨ name = ".."

/-- A name that is a single component of a path. -/
def IsComponent (name : String) : Prop :=
  name ≠ "" ∧ '/' ∉ name.toList

/-- A name that stands for itself on the host. -/
def SafeName (name : String) : Prop :=
  IsComponent name ∧ ¬ IsDots name

/-- Every component of the path is a safe name. -/
def SafePath (path : String) : Prop :=
  ∀ component ∈ split '/' path, SafeName component

/-- Dots have no other spelling. -/
theorem eq_of_sameName_of_dots {name dots : String} (hdots : ∀ c ∈ dots.toList, c = '.')
    (h : sameName name dots) : name = dots := by
  have hfold : name.toList.map foldAsciiChar = dots.toList.map foldAsciiChar := eq_of_beq h
  -- folding is not injective, so the characters are compared one by one
  have hchars : ∀ {front back : List Char}, (∀ c ∈ back, c = '.') →
      front.map foldAsciiChar = back.map foldAsciiChar → front = back := by
    intro front
    induction front with
    | nil =>
      intro back _ hmap
      exact (List.map_eq_nil_iff.mp hmap.symm).symm
    | cons c rest ih =>
      intro back hback hmap
      cases back with
      | nil => cases hmap
      | cons d others =>
        obtain ⟨hd, hothers⟩ := List.forall_mem_cons.mp hback
        obtain ⟨hhead, htail⟩ := List.cons.inj hmap
        subst hd
        have hdot : c = '.' := eq_of_foldAsciiChar (by decide) hhead
        rw [hdot, ih hothers htail]
  exact String.toList_inj.mp (hchars hdots hfold)

theorem isDots_iff_of_sameName {name part : String} (h : sameName name part) :
    IsDots name ↔ IsDots part := by
  have hsymm : sameName part name := sameName_symm h
  constructor
  · rintro (rfl | rfl)
    · exact .inl (eq_of_sameName_of_dots (by simp) hsymm)
    · exact .inr (eq_of_sameName_of_dots (by simp) hsymm)
  · rintro (rfl | rfl)
    · exact .inl (eq_of_sameName_of_dots (by simp) h)
    · exact .inr (eq_of_sameName_of_dots (by simp) h)

/-! ## Trails with dots -/

/-- Some name of the trail is made of dots. -/
def HasDots (trail : List String) : Prop :=
  ∃ name ∈ trail, IsDots name

/-- Some file is reached through a name made of dots. -/
def Dotted (nodes : List Node) : Prop :=
  ∃ trail ∈ trailsOf nodes, HasDots trail

theorem hasDots_iff_of_forall₂ {trail parts : List String}
    (h : List.Forall₂ (fun name part => sameName name part) trail parts) :
    HasDots trail ↔ HasDots parts := by
  induction h with
  | nil => rfl
  | cons hname _ ih =>
    simp only [HasDots, List.exists_mem_cons_iff] at ih ⊢
    rw [isDots_iff_of_sameName hname, ih]

/-- A path that is followed brings in dots exactly if it has some. -/
theorem dotted_of_leads {parts : List String} {nodes after : List Node} {place : Location}
    (h : Leads parts nodes after (.ok place)) : Dotted after ↔ Dotted nodes ∨ HasDots parts := by
  obtain ⟨front, trail, back, hafter, htrail, hnodes⟩ := h
  rw [← hasDots_iff_of_forall₂ htrail]
  rcases hnodes with hold | hnew
  · simp only [Dotted, hafter, hold, List.mem_append, List.mem_cons]
    grind
  · simp only [Dotted, hafter, hnew, List.mem_append, List.mem_cons]
    grind

/-! ## What a batch does -/

/-- The report of a directive that found or created its file by a path with dots in it. -/
def FileReport.Strays (report : FileReport) : Prop :=
  (report.outcome = .applied ∨ report.outcome = .resourceUnavailable) ∧
    report.disc.toList.head? = some '/' ∧ HasDots (split '/' report.disc)

/-- What a run does to the names of the tree: proper names stay proper, and there are dots after it
exactly if there were some before it or a report strays. -/
def StrayLedger (before : Disc) (log : Option (List FileReport)) (after : Disc) : Prop :=
  (Named IsComponent before.root.children → Named IsComponent after.root.children) ∧
    ∀ reports, log = some reports → (Dotted after.root.children ↔
      Dotted before.root.children ∨ ∃ report ∈ reports, report.Strays)

theorem strayLedger : Ledger StrayLedger where
  idle disc := ⟨id, by rintro reports ⟨⟩; simp⟩
  failed disc := ⟨id, by rintro reports ⟨⟩⟩
  next := by
    intro before mid after first rest hfirst hrest
    refine ⟨fun h => hrest.1 (hfirst.1 h), fun reports hreports => ?_⟩
    obtain ⟨others, rfl, rfl⟩ := Option.map_eq_some_iff.mp hreports
    rw [hrest.2 others rfl, hfirst.2 first rfl, or_assoc]
    simp only [List.mem_append, or_and_right, exists_or]

/-- Replacing a file under its own name keeps the names and the trails of a disc. -/
theorem Disc.names_setFile {P : String → Prop} {disc : Disc} {target : Target} {file new : File}
    (hfile : disc.file? target = some file) (hname : new.name = file.name) :
    (Named P disc.root.children → Named P (disc.setFile new target).root.children) ∧
      trailsOf (disc.setFile new target).root.children = trailsOf disc.root.children := by
  cases target with
  | main => exact ⟨id, rfl⟩
  | place place => exact ⟨named_modifyAt hfile hname, trailsOf_modifyAt hfile hname⟩

section Targeting

variable {executable : String} {directive : FileDirective} {disc after : Disc}

/-- Looking for a target adds proper names only. -/
theorem Targeting.named {answer : Except Outcome Target}
    (h : Targeting executable directive disc answer after)
    (hdisc : Named IsComponent disc.root.children) : Named IsComponent after.root.children := by
  have hparts : ∀ part ∈ directive.parts, part ≠ "" → IsComponent part :=
    fun part hpart hne => ⟨hne, Text.not_mem_of_mem_split hpart⟩
  cases h with
  | path _ hnodes => exact hnodes.named hparts hdisc
  | noPath _ hnodes => exact hnodes.named hparts hdisc
  | _ => exact hdisc

/-- A directive that finds its target brings in dots exactly if it has a path with dots. -/
theorem Targeting.dotted_iff {target : Target}
    (h : Targeting executable directive disc (.ok target) after) :
    Dotted after.root.children ↔ Dotted disc.root.children ∨
      directive.disc.toList.head? = some '/' ∧ HasDots (split '/' directive.disc) := by
  cases h with
  | @path nodes place hpath hnodes =>
    have hparts : HasDots (split '/' directive.disc) ↔ HasDots directive.parts := by
      rw [Text.split_of_head hpath, FileDirective.parts]
      simp [HasDots, IsDots]
    have hnew : Dotted nodes ↔ _ := dotted_of_leads hnodes.trails
    simp only [hpath, true_and, hparts]
    exact hnew
  | main hpath => simp [hpath]
  | name hpath => simp [hpath]

/-- A directive without a target brings in no trail, and its report does not stray. -/
theorem Targeting.trails_of_error {outcome : Outcome}
    (h : Targeting executable directive disc (.error outcome) after) :
    trailsOf after.root.children = trailsOf disc.root.children ∧
      ¬ (directive.report outcome).Strays := by
  cases h with
  | @noPath nodes fault hpath hnodes =>
    have hreport : ¬ (directive.report fault.outcome).Strays := by
      rw [LookupFault.outcome]
      split <;> simp [FileReport.Strays, FileDirective.report]
    exact ⟨hnodes.trails, hreport⟩
  | noMain hpath => exact ⟨rfl, fun hstrays => hpath hstrays.2.1⟩
  | noName hpath => exact ⟨rfl, fun hstrays => hpath hstrays.2.1⟩

end Targeting

/-- **One file directive brings in dots exactly if its report strays.** -/
theorem strayLedger_of_carried {external : External} {executable : String}
    {directive : FileDirective} {disc after : Disc} {answer : Except Error FileReport}
    (h : Carried external executable directive disc answer after) :
    StrayLedger disc (answer.map ([·])).toOption after := by
  cases h with
  | refused =>
    have hreport : ¬ (directive.report .skipped).Strays := by
      simp [FileReport.Strays, FileDirective.report]
    refine ⟨id, ?_⟩
    rintro reports ⟨⟩
    simp [hreport]
  | untargeted _ htarget =>
    obtain ⟨htrails, hreport⟩ := htarget.trails_of_error
    refine ⟨htarget.named, ?_⟩
    rintro reports ⟨⟩
    simp [Dotted, htrails, hreport]
  | @changed target after file new answer _ htarget hfile hchanged =>
    have hname : new.name = file.name := by
      rw [← File.name_applyDirective external directive file, hchanged]
    obtain ⟨hnamed, htrails⟩ := Disc.names_setFile hfile hname
    refine ⟨fun hdisc => hnamed (htarget.named hdisc), fun reports hreports => ?_⟩
    cases answer with
    | error error => cases hreports
    | ok done =>
      cases hreports
      -- both ways to end with a target count
      have hreport : (directive.report (if done then .applied else .resourceUnavailable)).Strays ↔
          directive.disc.toList.head? = some '/' ∧ HasDots (split '/' directive.disc) := by
        cases done <;> simp [FileReport.Strays, FileDirective.report]
      rw [Dotted, htrails, ← Dotted, htarget.dotted_iff, ← hreport]
      simp

/-- A batch brings in dots exactly if one of its reports strays. -/
theorem follows_strayLedger (executable : String) (patches : List Patch) :
    Follows StrayLedger (applyPatches executable patches) := by
  refine follows_applyPatches strayLedger (fun external directive disc => ?_) patches
  rw [outcome_bind_pure]
  exact strayLedger_of_carried (carried external executable directive disc)

/-! ## The tree of a host folder -/

section HostTree

variable {P : String → Prop} {fs : FileSystem}

theorem named_of_perm {nodes moved : List Node} (h : nodes.Perm moved) (hmoved : Named P moved) :
    Named P nodes :=
  named_iff_forall_mem.mpr fun node hnode => named_iff_forall_mem.mp hmoved node (h.subset hnode)

theorem File.name_ofHost {path name : String} {file : File}
    (h : (File.ofHost fs path (some name)).value = .ok file) : file.name = name := by
  rw [File.ofHost, Logged.value_bind] at h
  rcases hsegment : (hostSegment fs 0 path none).value with error | segment
  · rw [hsegment] at h
    cases h
  · rw [hsegment] at h
    cases h
    rfl

mutual
theorem named_nodesOfEntry {path name : String} (hname : P name) :
    ∀ entry : Entry, entry.Named P → ∀ nodes, (nodesOfEntry fs path name entry).value = .ok nodes →
      Named P nodes
  | .file _ => by
    intro _ nodes hnodes
    obtain ⟨file, hfile, rfl⟩ := nodesOfEntry_file_eq_ok_iff.mp hnodes
    obtain rfl := File.name_ofHost hfile
    exact ⟨hname, trivial⟩
  | .folder entries => by
    intro h nodes hnodes
    obtain ⟨-, children, hchildren, rfl⟩ := nodesOfEntry_folder_eq_ok_iff.mp hnodes
    obtain ⟨plain, hplain, hperm⟩ := exists_inTurn_of_inOrder hchildren
    exact ⟨⟨hname, named_of_perm hperm (named_nodesOfEntries entries h plain hplain)⟩, trivial⟩
  | .link _ => by
    rintro _ nodes ⟨⟩
    trivial
  | .pipe => by
    rintro _ nodes ⟨⟩
    trivial

theorem named_nodesOfEntries {folder : String} :
    ∀ entries : List (String × Entry), EntriesNamed P entries →
      ∀ nodes, (inTurn ((nodesOfEntries fs folder entries).map (·.2))).value = .ok nodes →
        Named P nodes
  | [] => by
    rintro _ nodes ⟨⟩
    trivial
  | (name, entry) :: rest => by
    intro h nodes hnodes
    obtain ⟨hname, hentry, hrest⟩ := h
    rw [nodesOfEntries, List.map_cons] at hnodes
    obtain ⟨first, others, hfirst, hothers, rfl⟩ := inTurn_cons_eq_ok_iff.mp hnodes
    rw [named_append]
    exact ⟨named_nodesOfEntry hname entry hentry first hfirst,
      named_nodesOfEntries rest hrest others hothers⟩
end

/-- The names of a host tree are names of the host. -/
theorem named_ofHost (h : fs.Named P) {path name : String} {folder : Folder}
    (hfolder : Folder.ofHost fs path name = .ok folder) : Named P folder.children := by
  obtain ⟨entries, hlist, children, hchildren, rfl⟩ := Folder.ofHost_eq_ok_iff.mp hfolder
  obtain ⟨plain, hplain, hperm⟩ := exists_inTurn_of_inOrder hchildren
  exact named_of_perm hperm (named_nodesOfEntries entries (Host.named_of_list h hlist) plain hplain)

end HostTree

/-! ## Paths of a listing -/

/-- The components of the paths of a listing are the names of the trails. -/
theorem forall_split_listing (P : String → Prop) {nodes : List Node} (h : Named IsComponent nodes) :
    (∀ path ∈ (listing "" nodes).map (·.1), ∀ component ∈ split '/' path, P component) ↔
      ∀ trail ∈ trailsOf nodes, ∀ name ∈ trail, P name := by
  rw [map_fst_listing, List.forall_mem_map]
  refine forall₂_congr fun trail htrail => ?_
  obtain ⟨hne, hnames⟩ := forall_mem_trailsOf nodes h trail htrail
  rw [split_foldl_childPath hne hnames]

theorem anchorOf_of_safePath {path : String} (h : SafePath path) :
    WrittenPath.anchorOf path = "" := by
  have hfront : path.toList.takeWhile (· = '/') = [] := by
    rcases hchars : path.toList with _ | ⟨c, rest⟩
    · rfl
    · have hc : c ≠ '/' := by
        rintro rfl
        have hempty : "" ∈ split '/' path := by
          rw [Text.split_of_head (by rw [hchars]; rfl)]
          exact List.mem_cons_self ..
        exact (h "" hempty).1.1 rfl
      simp [hc]
  rw [WrittenPath.anchorOf, hfront]
  rfl

/-- A safe path is written below a folder under its own names. -/
theorem append_of_safePath (folder : WrittenPath) {path : String} (h : SafePath path) :
    folder.append path = ⟨folder.anchor, folder.parts ++ split '/' path⟩ := by
  have hparts : (split '/' path).filter (fun part => part ≠ "" ∧ part ≠ ".") = split '/' path := by
    refine List.filter_eq_self.mpr fun part hpart => ?_
    obtain ⟨⟨hne, -⟩, hdots⟩ := h part hpart
    simpa using ⟨hne, fun hdot => hdots (.inl hdot)⟩
  rw [WrittenPath.append, WrittenPath.ofText, anchorOf_of_safePath h, hparts]
  rfl

theorem not_dotted_of_named {nodes : List Node} (h : Named SafeName nodes) : ¬ Dotted nodes := by
  rintro ⟨trail, htrail, name, hname, hdots⟩
  exact ((forall_mem_trailsOf nodes h trail htrail).2 name hname).2 hdots

/-- All paths of a listing are safe exactly if no file is reached through dots. -/
theorem safePath_listing_iff_not_dotted {nodes : List Node} (h : Named IsComponent nodes) :
    (∀ path ∈ (listing "" nodes).map (·.1), SafePath path) ↔ ¬ Dotted nodes := by
  have hpaths : (∀ path ∈ (listing "" nodes).map (·.1), SafePath path) ↔
      ∀ trail ∈ trailsOf nodes, ∀ name ∈ trail, SafeName name :=
    forall_split_listing SafeName h
  rw [hpaths]
  constructor
  · rintro hsafe ⟨trail, htrail, name, hname, hdots⟩
    exact (hsafe trail htrail name hname).2 hdots
  · intro hdotted trail htrail name hname
    refine ⟨(forall_mem_trailsOf nodes h trail htrail).2 name hname, fun hdots => hdotted ?_⟩
    exact ⟨trail, htrail, name, hname, hdots⟩

/-- **Where a patched host tree is written.** Whatever the patches are, the paths of the tree are
made of proper components, and a path without dots is written below the output folder under its own
names. All paths are without dots exactly if no directive of the batch found or created its file by a
path with dots in it. -/
theorem safePath_listing_iff {fs : FileSystem} (hfs : fs.Named SafeName) {path name : String}
    {folder : Folder} (hfolder : Folder.ofHost fs path name = .ok folder) (main : Option File)
    (executable : String) (patches : List Patch) :
    let result := (applyPatches executable patches).outcome ⟨folder, main⟩
    let paths := (listing "" result.2.root.children).map (·.1)
    (∀ path ∈ paths, ∀ component ∈ split '/' path, IsComponent component) ∧
      (∀ output : WrittenPath, ∀ path ∈ paths, SafePath path →
        output.append path = ⟨output.anchor, output.parts ++ split '/' path⟩) ∧
      ∀ reports, result.1 = .ok reports →
        ((∀ path ∈ paths, SafePath path) ↔ ∀ report ∈ reports, ¬ report.Strays) := by
  intro result paths
  have hsafe : Named SafeName folder.children := named_ofHost hfs hfolder
  obtain ⟨hkept, hdotted⟩ := follows_strayLedger executable patches ⟨folder, main⟩
  have hnamed : Named IsComponent result.2.root.children :=
    hkept (Named.imp (fun _ h => h.1) folder.children hsafe)
  refine ⟨?_, fun output path _ => append_of_safePath output, fun reports hreports => ?_⟩
  · have hcomponents : (∀ path ∈ paths, ∀ component ∈ split '/' path, IsComponent component) ↔
        ∀ trail ∈ trailsOf result.2.root.children, ∀ name ∈ trail, IsComponent name :=
      forall_split_listing IsComponent hnamed
    exact hcomponents.mpr fun trail htrail => (forall_mem_trailsOf _ hnamed trail htrail).2
  · have hlog : result.1.toOption = some reports := by rw [hreports]; rfl
    rw [safePath_listing_iff_not_dotted hnamed, hdotted reports hlog]
    simp [not_dotted_of_named hsafe]

/-- A directive that creates a file above the top folder: its report strays, and the file is listed
with a path that leaves the output folder. -/
theorem safePath_listing_iff_climb :
    let fs : FileSystem := ⟨[("disc", .folder [("a.bin", .file [0])])], []⟩
    let folder : Folder := ⟨"", [.file ⟨"a.bin", 1, [⟨0, 1, .file "disc/a.bin" 0⟩]⟩]⟩
    let patch : Patch := ⟨"p", [⟨"/../evil.bin", "a", 0, 0, 0, false, true⟩], [], [], [],
      some (External.shelf (.folder [("a", .file [120])]) ⟨"", ""⟩)⟩
    let result := (applyPatches "main.dol" [patch]).outcome ⟨folder, none⟩
    let paths := (listing "" result.2.root.children).map (·.1)
    fs.Named SafeName ∧ Folder.ofHost fs "disc" "" = .ok folder ∧
      result.1 = .ok [⟨"/../evil.bin", "a", .applied⟩] ∧ paths = ["a.bin", "../evil.bin"] ∧
      ¬ ∀ path ∈ paths, SafePath path := by
  intro fs folder patch
  have hfs : fs.Named SafeName :=
    ⟨⟨⟨by decide, by decide⟩, by simp [IsDots]⟩,
      ⟨⟨⟨by decide, by decide⟩, by simp [IsDots]⟩, trivial, trivial⟩, trivial⟩
  have hfolder : Folder.ofHost fs "disc" "" = .ok folder := by
    have hlist : fs.list "disc" = .ok [("a.bin", .file [0])] := by rfl
    rw [Folder.ofHost, Folder.describe, hlist]
    rfl
  have hreports : ((applyPatches "main.dol" [patch]).outcome ⟨folder, none⟩).1 =
      .ok [⟨"/../evil.bin", "a", .applied⟩] := by decide +kernel
  have hpaths : (listing "" ((applyPatches "main.dol" [patch]).outcome
      ⟨folder, none⟩).2.root.children).map (·.1) = ["a.bin", "../evil.bin"] := by decide +kernel
  have hstrays : FileReport.Strays ⟨"/../evil.bin", "a", .applied⟩ :=
    ⟨.inl rfl, by decide, "..", by decide, .inr rfl⟩
  have h := safePath_listing_iff hfs hfolder none "main.dol" [patch]
  -- from here on the result is only known by its reports and its paths
  generalize (applyPatches "main.dol" [patch]).outcome ⟨folder, none⟩ = result
    at h hreports hpaths ⊢
  refine ⟨hfs, hfolder, hreports, hpaths, fun hsafe => ?_⟩
  exact (h.2.2 _ hreports).mp hsafe _ (List.mem_singleton.mpr rfl) hstrays

end DiscPatch
