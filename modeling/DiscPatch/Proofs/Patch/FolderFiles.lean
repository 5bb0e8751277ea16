import DiscPatch.Proofs.Patch.Faults

/-!
# The files that a folder directive stands for

A folder directive looks at external folders by path. Here the file directives that come of it are
tied to the files themselves.

* `Shelf.FileBelow` — a file below the folder that an external path leads to, by the names that lead
  to it;
* `Shelf.mem_trails_iff`, `Shelf.pairwise_trails` — the trails of that folder lead to these files,
  each once, in the order of their names from the folder down;
* `foldl_joinPaths` — joining name after name is joining the relative path at once, and
  `Shelf.FileBelow.find_joinPaths` — the joined path leads to the file;
* `applyFolder_expands` — a folder directive is one file directive for each of these files.
-/

namespace DiscPatch

open DiscPatch.Text
open Edit

/-! ## Relative paths -/

/-- A path without the separator at its end, if there is one. -/
def withoutSeparator (path : String) : String :=
  if path.toList.getLast? = some '/' then String.ofList path.toList.dropLast else path

/-- What starts with a name, joined to a path. -/
theorem joinPaths_name (path : String) {name : String} (h : IsName name) (more : String) :
    joinPaths path (name ++ more) =
      if path = "" then name ++ more else withoutSeparator path ++ "/" ++ (name ++ more) := by
  have hchars : name.toList ≠ [] := fun hnil => h.nonempty (String.toList_eq_nil_iff.mp hnil)
  have hne : name ++ more ≠ "" := by
    rw [Ne, ← String.toList_eq_nil_iff, String.toList_append]
    simp [hchars]
  have hhead : (name ++ more).toList.head? ≠ some '/' := by
    rw [String.toList_append, List.head?_append_of_ne_nil _ hchars]
    exact fun hhead => h.single (List.mem_of_mem_head? hhead)
  simp only [joinPaths, withoutSeparator, if_neg hne, if_neg hhead]

/-- What ends with a name has no separator at its end. -/
theorem withoutSeparator_name (front : String) {name : String} (h : IsName name) :
    front ++ name ≠ "" ∧ withoutSeparator (front ++ name) = front ++ name := by
  have hchars : name.toList ≠ [] := fun hnil => h.nonempty (String.toList_eq_nil_iff.mp hnil)
  constructor
  · rw [Ne, ← String.toList_eq_nil_iff, String.toList_append]
    simp [hchars]
  · have hlast : (front ++ name).toList.getLast? ≠ some '/' := by
      rw [String.toList_append, List.getLast?_append_of_ne_nil _ hchars]
      exact fun hlast => h.single (List.mem_of_getLast? hlast)
    rw [withoutSeparator, if_neg hlast]

/-- Joining a name, and then what starts with a name, is joining both at once. -/
theorem joinPaths_joinPaths (path : String) {name next : String} (h : IsName name)
    (hnext : IsName next) (more : String) :
    joinPaths (joinPaths path name) (next ++ more) =
      joinPaths path (name ++ ("/" ++ (next ++ more))) := by
  have hone : joinPaths path name =
      (if path = "" then "" else withoutSeparator path ++ "/") ++ name := by
    have hjoin := joinPaths_name path h ""
    simp only [String.append_empty] at hjoin
    rw [hjoin]
    split
    · rw [String.empty_append]
    · rfl
  obtain ⟨hne, hsame⟩ := withoutSeparator_name
    (if path = "" then "" else withoutSeparator path ++ "/") h
  rw [hone, joinPaths_name _ hnext, if_neg hne, hsame, joinPaths_name path h]
  split <;> simp [String.append_assoc]

theorem join_cons_cons (name next : String) (rest : List String) :
    join '/' (name :: next :: rest) = name ++ ("/" ++ join '/' (next :: rest)) := by
  rw [← String.toList_inj]
  simp [join, joinChars]

theorem exists_join_cons (name : String) (rest : List String) :
    ∃ more, join '/' (name :: rest) = name ++ more := by
  cases rest with
  | nil => exact ⟨"", by simp [join, joinChars]⟩
  | cons next others => exact ⟨_, join_cons_cons name next others⟩

/-- **Joining name after name is joining the relative path.** -/
theorem foldl_joinPaths (path : String) {trail : List String} (h : ∀ name ∈ trail, IsName name) :
    trail.foldl joinPaths path = joinPaths path (join '/' trail) := by
  induction trail generalizing path with
  | nil =>
    have hempty : join '/' [] = "" := rfl
    rw [hempty, joinPaths]
    split
    · next hpath => exact hpath
    · rfl
  | cons name rest ih =>
    obtain ⟨hname, hrest⟩ := List.forall_mem_cons.mp h
    cases rest with
    | nil => simp [join, joinChars]
    | cons next others =>
      obtain ⟨more, hmore⟩ := exists_join_cons next others
      rw [List.foldl_cons, ih _ hrest, join_cons_cons, hmore]
      exact joinPaths_joinPaths path hname (List.forall_mem_cons.mp hrest).1 more

/-- A path leads along the names that are joined to it. -/
theorem Shelf.find_foldl_joinPaths {tree : FileTree} {roots : Roots} {path : String}
    {found : Option FileTree} {trail : List String} (h : ∀ name ∈ trail, IsName name)
    (hfound : find tree roots path = .ok found) :
    find tree roots (trail.foldl joinPaths path) = .ok (found.bind (·.at? trail)) := by
  induction trail generalizing path found with
  | nil =>
    rw [List.foldl_nil, hfound]
    cases found <;> rfl
  | cons name rest ih =>
    obtain ⟨hname, hrest⟩ := List.forall_mem_cons.mp h
    rw [List.foldl_cons, ih hrest (find_joinPaths hname hfound)]
    cases found with
    | none => rfl
    | some found =>
      simp only [Option.bind_some, FileTree.at?, if_neg hname.nonempty]
      cases found.child? name <;> rfl

/-! ## Trails lead to files -/

namespace FileTree

variable {deep : Bool} {name : String} {trail rest : List String}
  {entries : List (String × FileTree)} {tree next : FileTree}

/-- **One step of a trail**: a name of the folder, and then a trail of what it leads to, which is a
folder only in a deep look. -/
theorem cons_mem_trails_folder (h : (folder entries).Ordinary) :
    name :: rest ∈ (folder entries).trails deep ↔
      ∃ next, (folder entries).child? name = some next ∧ (next.isFolder = true → deep = true) ∧
        rest ∈ next.trails deep := by
  rw [trails_folder, List.mem_flatMap]
  constructor
  · rintro ⟨⟨other, next⟩, hmem, hrest⟩
    obtain ⟨below, hbelow, heq⟩ := List.mem_map.mp hrest
    obtain ⟨rfl, rfl⟩ := List.cons.inj heq
    have hchild := (lookup_eq_some_iff_mem h.1).mpr (mem_sortByName.mp hmem)
    split at hbelow
    · cases hbelow
    · next hlook =>
      refine ⟨next, hchild, fun hfolder => ?_, hbelow⟩
      simpa [hfolder] using hlook
  · rintro ⟨next, hchild, hlook, hrest⟩
    refine ⟨(name, next), mem_sortByName.mpr (mem_of_lookup hchild), ?_⟩
    have hlook' : ¬ (next.isFolder && !deep) = true := by
      simpa using hlook
    rw [if_neg hlook']
    exact List.mem_map.mpr ⟨rest, hrest, rfl⟩

theorem at?_cons (hname : name ≠ "") :
    tree.at? (name :: rest) = (tree.child? name).bind (·.at? rest) := by
  rw [at?, if_neg hname]
  cases tree.child? name <;> rfl

/-- The names of a trail are ordinary. -/
theorem isName_of_mem_trails (h : tree.Ordinary) (htrail : trail ∈ tree.trails deep) :
    ∀ name ∈ trail, IsName name := by
  induction trail generalizing tree with
  | nil => simp
  | cons name rest ih =>
    cases tree with
    | file data => simp [trails] at htrail
    | folder entries =>
      obtain ⟨next, hchild, -, hrest⟩ := (cons_mem_trails_folder h).mp htrail
      obtain ⟨hname, hnext⟩ := ordinaryEntries_iff.mp h.2 _ (mem_of_lookup hchild)
      exact List.forall_mem_cons.mpr ⟨hname, ih hnext hrest⟩

/-- **The trails of a tree lead to its files**, in a shallow look only to those right below it. -/
theorem mem_trails_iff (h : tree.Ordinary) :
    trail ∈ tree.trails deep ↔ "" ∉ trail ∧ (∃ data, tree.at? trail = some (.file data)) ∧
      (deep = true ∨ trail.length ≤ 1) := by
  induction trail generalizing tree with
  | nil =>
    cases tree with
    | file data => simp [trails, at?]
    | folder entries =>
      rw [trails_folder]
      simp [at?]
  | cons name rest ih =>
    cases tree with
    | file data =>
      refine iff_of_false (by simp [trails]) ?_
      rintro ⟨hnames, ⟨_, hat⟩, -⟩
      rw [at?_cons fun hname => hnames (hname ▸ List.mem_cons_self)] at hat
      cases hat
    | folder entries =>
      rw [cons_mem_trails_folder h]
      constructor
      · rintro ⟨next, hchild, hlook, hrest⟩
        obtain ⟨hname, hnext⟩ := ordinaryEntries_iff.mp h.2 _ (mem_of_lookup hchild)
        obtain ⟨hnames, ⟨data, hat⟩, -⟩ := (ih hnext).mp hrest
        refine ⟨by simp [hnames, hname.nonempty.symm], ⟨data, ?_⟩, ?_⟩
        · rw [at?_cons hname.nonempty, hchild]
          exact hat
        · cases next with
          | folder below => exact .inl (hlook rfl)
          | file data =>
            -- nothing is left of the trail at a file
            obtain rfl : rest = [] := by simpa [trails] using hrest
            exact .inr (Nat.le_refl 1)
      · rintro ⟨hnames, ⟨data, hat⟩, hdepth⟩
        rw [at?_cons fun hname => hnames (hname ▸ List.mem_cons_self)] at hat
        obtain ⟨next, hchild, hat⟩ := Option.bind_eq_some_iff.mp hat
        obtain ⟨-, hnext⟩ := ordinaryEntries_iff.mp h.2 _ (mem_of_lookup hchild)
        have hshort : deep = true ∨ rest = [] :=
          hdepth.imp_right fun hlength => List.eq_nil_of_length_eq_zero (by simpa using hlength)
        refine ⟨next, hchild, fun hfolder => hshort.resolve_right ?_, (ih hnext).mpr
          ⟨fun hmem => hnames (List.mem_cons_of_mem _ hmem), ⟨data, hat⟩, ?_⟩⟩
        · rintro rfl
          obtain rfl := Option.some.inj hat
          cases hfolder
        · exact hshort.imp_right fun hnil => by simp [hnil]

/-! ## The order of trails -/

/-- The entries of an ordinary folder, in the strict order of their names. -/
theorem pairwise_sortByName (h : (entries.map (·.1)).Nodup) :
    (sortByName entries).Pairwise fun a b => a.1 < b.1 := by
  have hsorted : (sortByName entries).Pairwise fun a b => a.1 ≤ b.1 :=
    pairwise_mergeSort_names Prod.fst entries
  have hperm : (sortByName entries).Perm entries := List.mergeSort_perm entries _
  have hnames : ((sortByName entries).map (·.1)).Nodup := (hperm.map _).nodup_iff.mpr h
  refine (hsorted.and (List.pairwise_map.mp hnames)).imp fun hab => ?_
  obtain ⟨hle, hne⟩ := hab
  exact String.not_le.mp fun hge => hne (String.le_antisymm hle hge)

mutual
/-- **Trails come in the order of their names**, from the folder down, and each comes once. -/
theorem pairwise_trails (deep : Bool) :
    ∀ {tree : FileTree}, tree.Ordinary → (tree.trails deep).Pairwise (List.Lex (· < ·))
  | .file _, _ => List.pairwise_singleton ..
  | .folder entries, h => by
    rw [trails_folder, List.pairwise_flatMap]
    refine ⟨fun entry hentry => ?_, (pairwise_sortByName h.1).imp fun hlt => ?_⟩
    · rw [List.pairwise_map]
      have hbelow := pairwise_entryTrails deep h.2 entry (mem_sortByName.mp hentry)
      split
      · exact .nil
      · exact hbelow.imp fun hlex => .cons hlex
    · intro x hx y hy
      obtain ⟨below, -, rfl⟩ := List.mem_map.mp hx
      obtain ⟨below', -, rfl⟩ := List.mem_map.mp hy
      exact .rel hlt

theorem pairwise_entryTrails (deep : Bool) :
    ∀ {entries : List (String × FileTree)}, OrdinaryEntries entries →
      ∀ entry ∈ entries, (entry.2.trails deep).Pairwise (List.Lex (· < ·))
  | [], _, _, hentry => by cases hentry
  | (name, tree) :: rest, h, entry, hentry => by
    rcases List.mem_cons.mp hentry with rfl | hrest
    · exact pairwise_trails deep h.2.1
    · exact pairwise_entryTrails deep h.2.2 entry hrest
end

end FileTree

/-! ## The files of a folder directive -/

/-- A file with these bytes lies below the folder that an external path leads to: the names of the
trail lead there, through other folders only in a deep look. -/
structure Shelf.FileBelow (tree : FileTree) (roots : Roots) (path : String) (deep : Bool)
    (trail : List String) (data : Bytes) : Prop where
  /-- the path leads to a folder, and the names of the trail lead on from there to the file -/
  found : ∃ entries, find tree roots path = .ok (some (.folder entries)) ∧
    (FileTree.folder entries).at? trail = some (.file data)
  /-- every name of the trail is a step down -/
  steps : "" ∉ trail
  /-- in a shallow look, the file is right below the folder -/
  reach : deep = true ∨ trail.length = 1

section FolderFiles

variable {tree : FileTree} {roots : Roots} {path : String} {deep : Bool} {trail : List String}

/-- The trails from an external path lead to the files below the folder there. -/
theorem Shelf.mem_trails_iff (h : tree.Ordinary) :
    trail ∈ Shelf.trails tree roots deep path ↔
      ∃ data, FileBelow tree roots path deep trail data := by
  constructor
  · intro htrail
    rw [Shelf.trails] at htrail
    split at htrail
    · next entries hfound =>
      obtain ⟨hsteps, ⟨data, hat⟩, hreach⟩ :=
        (FileTree.mem_trails_iff (Shelf.ordinary_of_find h hfound).1).mp htrail
      refine ⟨data, ⟨entries, hfound, hat⟩, hsteps, hreach.imp_right fun hlength => ?_⟩
      cases trail with
      | nil => cases hat
      | cons name rest => exact Nat.le_antisymm hlength (Nat.succ_pos _)
    · cases htrail
  · rintro ⟨data, hbelow⟩
    obtain ⟨entries, hfound, hat⟩ := hbelow.found
    rw [Shelf.trails, hfound]
    exact (FileTree.mem_trails_iff (Shelf.ordinary_of_find h hfound).1).mpr
      ⟨hbelow.steps, ⟨data, hat⟩, hbelow.reach.imp_right Nat.le_of_eq⟩

theorem Shelf.pairwise_trails (h : tree.Ordinary) :
    (Shelf.trails tree roots deep path).Pairwise (List.Lex (· < ·)) := by
  rw [Shelf.trails]
  split
  · next hfound => exact FileTree.pairwise_trails deep (Shelf.ordinary_of_find h hfound).1
  · exact .nil

theorem Shelf.isName_of_mem_trails (h : tree.Ordinary)
    (htrail : trail ∈ Shelf.trails tree roots deep path) : ∀ name ∈ trail, IsName name := by
  rw [Shelf.trails] at htrail
  split at htrail
  · next hfound =>
    exact FileTree.isName_of_mem_trails (Shelf.ordinary_of_find h hfound).1 htrail
  · cases htrail

/-- A file below the folder of an external path is found by the path joined with its relative
path. -/
theorem Shelf.FileBelow.find_joinPaths {data : Bytes}
    (h : FileBelow tree roots path deep trail data) (hnames : ∀ name ∈ trail, IsName name) :
    find tree roots (joinPaths path (join '/' trail)) = .ok (some (.file data)) := by
  obtain ⟨entries, hfound, hat⟩ := h.found
  rw [← foldl_joinPaths path hnames, find_foldl_joinPaths hnames hfound, Option.bind_some, hat]

/-- The file directive for a file below a folder: its relative path is joined to both paths. -/
def FolderDirective.forTrail (directive : FolderDirective) (disc path : String)
    (trail : List String) : FileDirective :=
  directive.single (joinPaths disc (join '/' trail)) (joinPaths path (join '/' trail))

variable {executable : String} {directive : FolderDirective}

/-- A folder directive of natural length is a file directive for each trail. -/
theorem applyFolder_eq_forTrail (h : tree.Ordinary) (hlength : 0 ≤ directive.length)
    (disc path : String) :
    applyFolder (External.shelf tree roots) executable directive disc path =
      ((Shelf.trails tree roots.trimmed directive.recursive path).map
        (directive.forTrail disc path)).mapM
        (applyFile (External.shelf tree roots) executable) := by
  have hcarry : directive.carryOut (External.shelf tree roots) executable =
      applyFile (External.shelf tree roots) executable := by
    funext single
    rw [FolderDirective.carryOut, FolderDirective.checked, if_neg (Int.not_lt.mpr hlength)]
    rfl
  have halong : (Shelf.trails tree roots.trimmed directive.recursive path).map
        (directive.along disc path) =
      (Shelf.trails tree roots.trimmed directive.recursive path).map
        (directive.forTrail disc path) := by
    refine List.map_congr_left fun trail htrail => ?_
    have hnames := Shelf.isName_of_mem_trails h htrail
    rw [FolderDirective.along, FolderDirective.forTrail, foldl_joinPaths disc hnames,
      foldl_joinPaths path hnames]
  rw [applyFolder_eq_along h, hcarry, halong]

/-- File directives all answer in turn. -/
theorem outcome_mapM_applyFile (directives : List FileDirective) {disc : Disc}
    (hdisc : disc.Natural) :
    ∃ reports after, (directives.mapM (applyFile (External.shelf tree roots) executable)).outcome
      disc = (.ok reports, after) := by
  let orders := directives.map (Order.mk tree roots)
  obtain ⟨reports, after, hrun, -, -⟩ := outcome_steps executable (orders.map .ok) hdisc
  rw [(performed_map_ok orders).1, List.mapM_map] at hrun
  exact ⟨reports, after, hrun⟩

end FolderFiles

/-- **A folder directive is one file directive for each file below its external folder.** The
directives are carried out in turn and all answer. They come in the order of the names that lead to
the files, from the folder down, each file once and no other; the relative path of the file is
joined to both paths of the folder directive, and its external path leads to that very file. -/
theorem applyFolder_expands {tree : FileTree} (h : tree.Ordinary) (roots : Roots)
    (executable : String) {directive : FolderDirective} (hlength : 0 ≤ directive.length)
    (discPath path : String) {disc : Disc} (hdisc : disc.Natural) :
    let folder := applyFolder (External.shelf tree roots) executable directive discPath path
    let below := Shelf.FileBelow tree roots.trimmed path directive.recursive
    ∃ trails : List (List String),
      (∀ trail, trail ∈ trails ↔ ∃ data, below trail data) ∧
      trails.Pairwise (List.Lex (· < ·)) ∧
      (∀ trail data, below trail data →
        Shelf.find tree roots.trimmed (directive.forTrail discPath path trail).external =
          .ok (some (.file data))) ∧
      folder = (trails.map (directive.forTrail discPath path)).mapM
        (applyFile (External.shelf tree roots) executable) ∧
      ∃ reports after, folder.outcome disc = (.ok reports, after) := by
  intro folder below
  have hfolder : folder = ((Shelf.trails tree roots.trimmed directive.recursive path).map
      (directive.forTrail discPath path)).mapM
      (applyFile (External.shelf tree roots) executable) :=
    applyFolder_eq_forTrail h hlength discPath path
  refine ⟨Shelf.trails tree roots.trimmed directive.recursive path,
    fun trail => Shelf.mem_trails_iff h, Shelf.pairwise_trails h, ?_, hfolder, ?_⟩
  · intro trail data hbelow
    exact hbelow.find_joinPaths
      (Shelf.isName_of_mem_trails h ((Shelf.mem_trails_iff h).mpr ⟨data, hbelow⟩))
  · rw [hfolder]
    exact outcome_mapM_applyFile _ hdisc

/-- A path that goes up and ends with a separator still leads to the files of nested folders. A
folder has its place among the files beside it by its name. -/
theorem applyFolder_expands_nested :
    let tree := FileTree.folder [("e", .file [101]), ("d", .folder [("b", .file [98]),
      ("a", .folder [("c", .file [99])]), ("A", .file [65])])]
    let directive : FolderDirective := ⟨"/x/", "e/../d/", true, true, true, 0⟩
    let disc : Disc := ⟨⟨"", []⟩, none⟩
    let folder := applyFolder (External.shelf tree ⟨"", ""⟩) "main.dol" directive "/x/" "e/../d/"
    tree.Ordinary ∧ 0 ≤ directive.length ∧ disc.Natural ∧
      (∃ trails : List (List String), ["a", "c"] ∈ trails ∧ folder =
        (trails.map (directive.forTrail "/x/" "e/../d/")).mapM
          (applyFile (External.shelf tree ⟨"", ""⟩) "main.dol")) ∧
      ∃ reports after, folder.outcome disc = (.ok reports, after) ∧
        reports.map (·.subject) =
          [("/x/A", "e/../d/A"), ("/x/a/c", "e/../d/a/c"), ("/x/b", "e/../d/b")] := by
  intro tree directive disc folder
  have hname : ∀ name ∈ ["a", "b", "c", "d", "e", "A"], IsName name := by decide
  have htree : tree.Ordinary := by
    simp [tree, FileTree.Ordinary, FileTree.OrdinaryEntries, hname]
  have hdisc : disc.Natural := by simp [Disc.Natural, Disc.files, disc]
  have hlength : 0 ≤ directive.length := Int.le_refl 0
  obtain ⟨trails, hmem, -, -, hfolder, reports, after, hrun⟩ :=
    applyFolder_expands htree ⟨"", ""⟩ "main.dol" hlength "/x/" "e/../d/" hdisc
  have hbelow : Shelf.FileBelow tree (Roots.trimmed ⟨"", ""⟩) "e/../d/" true ["a", "c"] [99] :=
    ⟨⟨_, rfl, rfl⟩, by decide, .inl rfl⟩
  have hsubjects : (folder.outcome disc).1.toOption.map (·.map (·.subject)) =
      some [("/x/A", "e/../d/A"), ("/x/a/c", "e/../d/a/c"), ("/x/b", "e/../d/b")] := by
    decide +kernel
  rw [show folder.outcome disc = _ from hrun] at hsubjects
  exact ⟨htree, hlength, hdisc, ⟨trails, (hmem _).mpr ⟨_, hbelow⟩, hfolder⟩, reports, after, hrun,
    Option.some.inj hsubjects⟩

end DiscPatch
