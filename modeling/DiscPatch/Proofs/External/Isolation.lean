import DiscPatch.Content.Layout
import DiscPatch.Proofs.External.Confinement
import DiscPatch.Proofs.Host.Descent
import DiscPatch.Proofs.Patch.Expansion
import Mathlib.Data.List.DropRight
import Mathlib.Data.List.Nodup

/-!
# External files on the host are those below the roots

What is kept outside the two roots makes no difference to any answer, and neither does where a link
leads. The reason is that three ways agree: the one that the components of a path settle on, the one
that is searched for links, and the one that the host walks.

* `FileSystem.placeOf`, `IsRoot` — the place of a root, and roots that lead through folders;
* `SharedRoot` — two file systems look the same below a root;
* `find_alike` — a path below a shared root leads to the same thing in both, unless there is a link
  on the way;
* `linkBelow_alike`, `resolve_alike` — the links on the way are the same ones, so the same paths are
  accepted;
* `host_isolated` — every answer is the same in both.
-/

namespace DiscPatch

open DiscPatch.Host
open DiscPatch.Text (split dropEnd)

/-! ## Paths below a root -/

/-- The path that names lead to below a root. -/
def pathBelow (root : String) (names : List String) : String :=
  below (dropEnd (· = '/') root) names

section Paths

variable {root : String} {front names : List String}

theorem pathBelow_concat (root : String) (names : List String) (name : String) :
    pathBelow root (names ++ [name]) = pathBelow root names ++ "/" ++ name := by
  rw [pathBelow, below, List.foldl_append]
  rfl

/-- A longer way begins with the shorter one. -/
theorem exists_pathBelow_eq (root : String) (h : front <+: names) :
    ∃ more, pathBelow root names = pathBelow root front ++ more := by
  obtain ⟨back, rfl⟩ := h
  have hback : pathBelow root (front ++ back) = below (pathBelow root front) back :=
    List.foldl_append
  rw [hback, below_eq]
  exact ⟨_, rfl⟩

theorem pathNames_pathBelow (root : String) (hnames : ∀ name ∈ names, IsName name) :
    pathNames (pathBelow root names) = pathNames root ++ names := by
  rw [pathBelow, pathNames_below hnames, pathNames_dropEnd]

/-- A path below a root has no separator at its end. -/
theorem getLast?_pathBelow (hroot : pathNames root ≠ []) (hnames : ∀ name ∈ names, IsName name) :
    (pathBelow root names).toList.getLast? ≠ some '/' := by
  rcases List.eq_nil_or_concat names with rfl | ⟨front, last, rfl⟩
  · have hne : root.toList.rdropWhile (· = '/') ≠ [] := fun hempty =>
      hroot (dropEnd_eq_empty_iff.mp (congrArg String.ofList hempty))
    have hlast := List.rdropWhile_last_not (· = '/') root.toList hne
    rw [pathBelow, below, List.foldl_nil, dropEnd, String.toList_ofList, ← List.rdropWhile,
      List.getLast?_eq_getLast_of_ne_nil hne]
    simpa using hlast
  · rw [List.concat_eq_append] at hnames ⊢
    obtain ⟨hnonempty, hsingle, -⟩ := hnames last (by simp)
    have hne : last.toList ≠ [] := mt String.toList_eq_nil_iff.mp hnonempty
    rw [pathBelow_concat, String.toList_append, List.getLast?_append_of_ne_nil _ hne]
    exact fun hlast => hsingle (List.mem_of_getLast? hlast)

theorem pathParts_pathBelow (hroot : pathNames root ≠ []) (hnames : ∀ name ∈ names, IsName name) :
    pathParts (pathBelow root names) = pathNames root ++ names := by
  rw [← pathNames_pathBelow root hnames]
  exact if_neg (getLast?_pathBelow hroot hnames)

theorem IsName.descends {name : String} (h : IsName name) : Descends name := by
  refine ⟨?_, ?_⟩
  · rintro rfl
    exact absurd h.notDots (by decide)
  · rintro rfl
    exact absurd h.notDots (by decide)

/-- The host gives up on a path that is too long, or that has a name too long in its root. -/
def isUnwieldy (root path : String) : Bool :=
  maxPath ≤ path.utf8ByteSize || (pathNames root).any isLongName

theorem isUnwieldy_halfway (h : front <+: names)
    (hwieldy : isUnwieldy root (pathBelow root names) = false) :
    isUnwieldy root (pathBelow root front) = false := by
  obtain ⟨more, hmore⟩ := exists_pathBelow_eq root h
  rw [isUnwieldy, Bool.or_eq_false_iff, decide_eq_false_iff_not, hmore,
    String.utf8ByteSize_append] at hwieldy
  rw [isUnwieldy, Bool.or_eq_false_iff, decide_eq_false_iff_not]
  exact ⟨by omega, hwieldy.2⟩

theorem hasNul_halfway (h : front <+: names) (hnul : hasNul (pathBelow root names) = false) :
    hasNul (pathBelow root front) = false := by
  obtain ⟨more, hmore⟩ := exists_pathBelow_eq root h
  rw [hmore, hasNul, String.toList_append, List.contains_append, Bool.or_eq_false_iff] at hnul
  exact hnul.1

end Paths

/-! ## Roots on the host -/

/-- The names that lead to a root from the top. -/
def Host.FileSystem.placeOf (fs : FileSystem) (root : String) : List String :=
  (if isAbsolute root then [] else fs.current) ++ pathNames root

/-- A root that leads through folders. -/
structure IsRoot (fs : FileSystem) (root : String) : Prop where
  /-- it has names -/
  named : pathNames root ≠ []
  /-- all of them lead down -/
  descends : ∀ name ∈ pathNames root, Descends name
  /-- they lead to a folder without following a link -/
  folder : ∃ entries, fs.at? (fs.placeOf root) = some (.folder entries)

section Walks

variable {fs : FileSystem} {root : String} {names : List String}

/-- A walk to a path below a root goes on from the place of the root. -/
theorem exists_walk_pathBelow (follow : Bool) (hroot : IsRoot fs root)
    (hnames : ∀ name ∈ names, IsName name) :
    ∃ onLink, fs.walk follow (pathBelow root names) =
      if isUnwieldy root (pathBelow root names) then .error .nameTooLong
      else fs.stride follow onLink (fs.placeOf root) names := by
  obtain ⟨onLink, hstride⟩ : ∃ onLink, fs.walkFrom follow maxLinks = fs.stride follow onLink :=
    exists_walkFrom_eq maxLinks
  refine ⟨onLink, ?_⟩
  have hne : pathBelow root names ≠ "" := by
    intro hempty
    have hparts := pathNames_pathBelow root hnames
    rw [hempty, pathNames_eq_nil_iff.mpr (by simp)] at hparts
    exact hroot.named (List.append_eq_nil_iff.mp hparts.symm).1
  have habsolute : isAbsolute (pathBelow root names) = isAbsolute root := by
    rw [pathBelow, isAbsolute_below_dropEnd, if_neg hroot.named]
  obtain ⟨entries, hfolder⟩ := hroot.folder
  rw [FileSystem.walk, if_neg hne, hstride, habsolute, pathParts_pathBelow hroot.named hnames,
    stride_folders hfolder hroot.descends, isUnwieldy]
  by_cases hlong : maxPath ≤ (pathBelow root names).utf8ByteSize
  · rw [if_pos hlong, decide_eq_true hlong]
    rfl
  · rw [if_neg hlong, decide_eq_false hlong, Bool.false_or]
    rfl

/-- A link below a root is seen as one, unless the host gives up on the way to it. -/
theorem isLink_pathBelow (hroot : IsRoot fs root) (hnames : ∀ name ∈ names, IsName name)
    {target : String} (hlink : fs.at? (fs.placeOf root ++ names) = some (.link target))
    (hne : names ≠ []) (hnul : hasNul (pathBelow root names) = false)
    (hwieldy : isUnwieldy root (pathBelow root names) = false)
    (hfits : names.any isLongName = false) : fs.isLink (pathBelow root names) = true := by
  obtain ⟨onLink, hwalk⟩ := exists_walk_pathBelow false hroot hnames
  rw [hwieldy, if_neg Bool.false_ne_true,
    stride_link hlink hne (fun name hname => (hnames name hname).descends) hfits] at hwalk
  rw [FileSystem.isLink, FileSystem.find, hnul, if_neg Bool.false_ne_true, hwalk]
  rfl

end Walks

/-! ## Ways without links -/

/-- No link is seen on the way down from a root that a walk would follow. -/
def ClearWay (fs : FileSystem) (follow : Bool) (root : String) (names : List String) : Prop :=
  ∀ front, front <+: names → front ≠ [] → (front = names → follow = true) →
    fs.isLink (pathBelow root front) = false

section ClearWays

variable {fs : FileSystem} {root : String} {names : List String}

theorem clearWay_nil (follow : Bool) : ClearWay fs follow root [] :=
  fun _ hfront hne _ => absurd (List.prefix_nil.mp hfront) hne

/-- One more name does no harm as long as a link at the end is not followed. -/
theorem ClearWay.concat (h : ClearWay fs true root names) (name : String) :
    ClearWay fs false root (names ++ [name]) := by
  intro front hfront hne hlast
  rcases List.prefix_concat_iff.mp hfront with hall | hproper
  · exact absurd (hlast hall) Bool.false_ne_true
  · exact h front hproper hne fun _ => rfl

theorem ClearWay.concat_of_not_isLink {name : String} (h : ClearWay fs true root names)
    (hlink : fs.isLink (pathBelow root (names ++ [name])) = false) :
    ClearWay fs true root (names ++ [name]) := by
  intro front hfront hne _
  rcases List.prefix_concat_iff.mp hfront with rfl | hproper
  · exact hlink
  · exact h front hproper hne fun _ => rfl

end ClearWays

/-! ## Listings -/

/-- The entries of a folder as they are listed: links are left out. -/
def visible (entries : List (String × Entry)) : List Listed :=
  (entries.filter fun (_, entry) => !entry.isLink).map fun (name, entry) => ⟨name, entry.isFolder⟩

theorem visible_cons (name : String) (entry : Entry) (rest : List (String × Entry)) :
    visible ((name, entry) :: rest) =
      if entry.isLink then visible rest else ⟨name, entry.isFolder⟩ :: visible rest := by
  cases entry <;> rfl

/-- The same names in the same order, with entries that look the same. -/
def SameOrder (entries₁ entries₂ : List (String × Entry)) : Prop :=
  List.Forall₂ (fun first second => first.1 = second.1 ∧ first.2.LooksLike second.2)
    entries₁ entries₂

theorem SameOrder.visible_eq {entries₁ entries₂ : List (String × Entry)}
    (h : SameOrder entries₁ entries₂) : visible entries₁ = visible entries₂ := by
  induction h with
  | nil => rfl
  | @cons first second rest₁ rest₂ hfirst _ ih =>
    obtain ⟨name, entry₁⟩ := first
    obtain ⟨_, entry₂⟩ := second
    obtain ⟨rfl, hlooks⟩ := hfirst
    rw [visible_cons, visible_cons, ih]
    cases hlooks <;> rfl

theorem mem_visible_iff {entries : List (String × Entry)} {listed : Listed}
    (hdistinct : (entries.map (·.1)).Nodup) :
    listed ∈ visible entries ↔ ∃ entry, entries.lookup listed.name = some entry ∧
      entry.isLink = false ∧ entry.isFolder = listed.isFolder := by
  simp only [visible, List.mem_map, List.mem_filter, lookup_eq_some_iff_mem hdistinct]
  constructor
  · rintro ⟨⟨name, entry⟩, ⟨hmem, hlink⟩, rfl⟩
    exact ⟨entry, hmem, by simpa using hlink, rfl⟩
  · rintro ⟨entry, hmem, hlink, hfolder⟩
    exact ⟨(listed.name, entry), ⟨hmem, by simpa using hlink⟩, by rw [hfolder]⟩

theorem nodup_names_visible {entries : List (String × Entry)}
    (hdistinct : (entries.map (·.1)).Nodup) : ((visible entries).map (·.name)).Nodup := by
  have hnames : (visible entries).map (·.name) =
      (entries.filter fun (_, entry) => !entry.isLink).map (·.1) := by
    simp [visible]
  rw [hnames]
  exact hdistinct.sublist (List.filter_sublist.map _)

/-- There is only one order of the names. -/
theorem sortListed_eq_of_perm {entries₁ entries₂ : List Listed} (h : entries₁.Perm entries₂)
    (hdistinct : (entries₁.map (·.name)).Nodup) : sortListed entries₁ = sortListed entries₂ := by
  have hperm₁ : (sortListed entries₁).Perm entries₁ :=
    sortListed_eq_mergeSort entries₁ ▸ List.mergeSort_perm ..
  have hperm₂ : (sortListed entries₂).Perm entries₂ :=
    sortListed_eq_mergeSort entries₂ ▸ List.mergeSort_perm ..
  refine (hperm₁.trans (h.trans hperm₂.symm)).eq_of_pairwise ?_ (pairwise_sortListed entries₁)
    (pairwise_sortListed entries₂)
  intro first second hfirst hsecond hle hge
  exact List.inj_on_of_nodup_map hdistinct (hperm₁.subset hfirst)
    ((hperm₂.trans h.symm).subset hsecond) (String.le_antisymm hle hge)

/-- Folders that look the same inside are listed the same. -/
theorem sortListed_visible_eq {entries₁ entries₂ : List (String × Entry)}
    (hlooks : ∀ name, Option.Rel Entry.LooksLike (entries₁.lookup name) (entries₂.lookup name))
    (h₁ : (entries₁.map (·.1)).Nodup) (h₂ : (entries₂.map (·.1)).Nodup) :
    sortListed (visible entries₁) = sortListed (visible entries₂) := by
  refine sortListed_eq_of_perm ?_ (nodup_names_visible h₁)
  rw [List.perm_ext_iff_of_nodup (.of_map _ (nodup_names_visible h₁))
    (.of_map _ (nodup_names_visible h₂))]
  intro listed
  rw [mem_visible_iff h₁, mem_visible_iff h₂]
  have hlook := hlooks listed.name
  generalize entries₁.lookup listed.name = found₁ at hlook ⊢
  generalize entries₂.lookup listed.name = found₂ at hlook ⊢
  cases hlook with
  | none => simp
  | some hlook => cases hlook <;> simp [Entry.isLink, Entry.isFolder]

/-! ## Two file systems that share a root -/

/-- Two file systems look the same below a root. What else they hold and where the links lead may
differ. -/
structure SharedRoot (fs₁ fs₂ : FileSystem) (root : String) : Prop where
  /-- it is a root of the first -/
  left : IsRoot fs₁ root
  /-- it is a root of the second -/
  right : IsRoot fs₂ root
  /-- names lead to what looks the same -/
  alike : fs₁.AlikeBelow (fs₁.placeOf root) fs₂ (fs₂.placeOf root)
  /-- if folders keep their entries in different orders, then their names tell them apart -/
  kept : ∀ names entries₁ entries₂,
    fs₁.at? (fs₁.placeOf root ++ names) = some (.folder entries₁) →
    fs₂.at? (fs₂.placeOf root ++ names) = some (.folder entries₂) →
    SameOrder entries₁ entries₂ ∨ (entries₁.map (·.1)).Nodup ∧ (entries₂.map (·.1)).Nodup

/-- File systems that have the very same folder at a root share it. -/
theorem sharedRoot_of_at? {fs₁ fs₂ : FileSystem} {root : String} {entries : List (String × Entry)}
    (hnamed : pathNames root ≠ []) (hdescends : ∀ name ∈ pathNames root, Descends name)
    (h₁ : fs₁.at? (fs₁.placeOf root) = some (.folder entries))
    (h₂ : fs₂.at? (fs₂.placeOf root) = some (.folder entries)) : SharedRoot fs₁ fs₂ root := by
  have hsame : ∀ names,
      fs₁.at? (fs₁.placeOf root ++ names) = fs₂.at? (fs₂.placeOf root ++ names) := by
    intro names
    rw [FileSystem.at?_append, FileSystem.at?_append, h₁, h₂]
  refine ⟨⟨hnamed, hdescends, _, h₁⟩, ⟨hnamed, hdescends, _, h₂⟩, ?_, ?_⟩
  · intro names
    rw [hsame]
    cases fs₂.at? (fs₂.placeOf root ++ names) with
    | none => exact .none
    | some entry => exact .some entry.looksLike_self
  · intro names entries₁ entries₂ hat₁ hat₂
    rw [hsame, hat₂] at hat₁
    cases hat₁
    exact .inl (List.forall₂_same.mpr fun entry _ => ⟨rfl, entry.2.looksLike_self⟩)

section Shared

variable {fs₁ fs₂ : FileSystem} {follow : Bool} {root : String} {names : List String}

/-- Walks along a clear way end alike. -/
theorem walk_alike (h : SharedRoot fs₁ fs₂ root) (hnames : ∀ name ∈ names, IsName name)
    (hclear : ClearWay fs₁ follow root names) (hnul : hasNul (pathBelow root names) = false) :
    EndAlike fs₁ (fs₁.placeOf root ++ names) fs₂ (fs₂.placeOf root ++ names)
      (fs₁.walk follow (pathBelow root names)) (fs₂.walk follow (pathBelow root names)) := by
  obtain ⟨onLink₁, hwalk₁⟩ := exists_walk_pathBelow follow h.left hnames
  obtain ⟨onLink₂, hwalk₂⟩ := exists_walk_pathBelow follow h.right hnames
  rw [hwalk₁, hwalk₂]
  cases hwieldy : isUnwieldy root (pathBelow root names) with
  | true => exact .inl ⟨_, rfl, rfl⟩
  | false =>
    refine endAlike_stride h.alike (fun name hname => (hnames name hname).descends) ?_
    -- a link on the way would have been seen, for the host does not give up before it
    intro front hfront hne hfollow hfits target hlink
    have hseen := isLink_pathBelow h.left (fun name hname => hnames name (hfront.subset hname))
      hlink hne (hasNul_halfway hfront hnul) (isUnwieldy_halfway hfront hwieldy) hfits
    rw [hclear front hfront hne hfollow] at hseen
    exact Bool.false_ne_true hseen

/-- **A clear way leads to the same in both file systems**, or is refused for the same reason. -/
theorem find_alike (h : SharedRoot fs₁ fs₂ root) (hnames : ∀ name ∈ names, IsName name)
    (hclear : ClearWay fs₁ follow root names) :
    (∃ fault, fs₁.find follow (pathBelow root names) = .error fault ∧
      fs₂.find follow (pathBelow root names) = .error fault) ∨
    ∃ entry₁ entry₂, fs₁.find follow (pathBelow root names) = .ok entry₁ ∧
      fs₂.find follow (pathBelow root names) = .ok entry₂ ∧
      fs₁.at? (fs₁.placeOf root ++ names) = some entry₁ ∧
      fs₂.at? (fs₂.placeOf root ++ names) = some entry₂ ∧ entry₁.LooksLike entry₂ := by
  rw [FileSystem.find, FileSystem.find]
  cases hnul : hasNul (pathBelow root names) with
  | true => exact .inl ⟨.nulInPath, rfl, rfl⟩
  | false =>
    rcases walk_alike h hnames hclear hnul with ⟨code, hend₁, hend₂⟩ | ⟨hend₁, hend₂⟩
    · rw [hend₁, hend₂]
      exact .inl ⟨_, rfl, rfl⟩
    · rw [hend₁, hend₂]
      have hend := h.alike names
      generalize fs₁.at? (fs₁.placeOf root ++ names) = found₁ at hend ⊢
      generalize fs₂.at? (fs₂.placeOf root ++ names) = found₂ at hend ⊢
      cases hend with
      | none => exact .inl ⟨_, rfl, rfl⟩
      | some hlooks => exact .inr ⟨_, _, rfl, rfl, rfl, rfl, hlooks⟩

theorem isLink_alike (h : SharedRoot fs₁ fs₂ root) (hnames : ∀ name ∈ names, IsName name)
    (hclear : ClearWay fs₁ false root names) :
    fs₁.isLink (pathBelow root names) = fs₂.isLink (pathBelow root names) := by
  rw [FileSystem.isLink, FileSystem.isLink]
  obtain ⟨fault, h₁, h₂⟩ | ⟨_, _, h₁, h₂, -, -, hlooks⟩ := find_alike h hnames hclear
  · rw [h₁, h₂]
  · rw [h₁, h₂]
    cases hlooks <;> rfl

/-- The search for links goes the same way in both: it finds the same link, or the way is clear. -/
theorem linkBelow_alike (h : SharedRoot fs₁ fs₂ root) {front rest : List String}
    (hnames : ∀ name ∈ front ++ rest, IsName name) (hclear : ClearWay fs₁ true root front) :
    Mount.linkBelow fs₁ (pathBelow root front) rest =
        Mount.linkBelow fs₂ (pathBelow root front) rest ∧
      (Mount.linkBelow fs₁ (pathBelow root front) rest = none →
        ClearWay fs₁ true root (front ++ rest)) := by
  induction rest generalizing front with
  | nil =>
    rw [List.append_nil]
    exact ⟨rfl, fun _ => hclear⟩
  | cons name rest ih =>
    have hname : name ≠ "" := (hnames name (by simp)).nonempty
    rw [List.append_cons] at hnames ⊢
    have hsame := isLink_alike h (fun name hmem => hnames name (List.mem_append_left rest hmem))
      (hclear.concat name)
    rw [pathBelow_concat] at hsame
    simp only [Mount.linkBelow, if_neg hname, ← hsame]
    cases hlink : fs₁.isLink (pathBelow root front ++ "/" ++ name) with
    | true =>
      refine ⟨rfl, fun hnone => ?_⟩
      cases hnone
    | false =>
      rw [← pathBelow_concat] at hlink ⊢
      exact ih hnames (hclear.concat_of_not_isLink hlink)

/-! ## What the host answers -/

theorem stat?_alike (h : SharedRoot fs₁ fs₂ root) (hnames : ∀ name ∈ names, IsName name)
    (hclear : ClearWay fs₁ true root names) :
    Option.Rel Entry.LooksLike (fs₁.stat? (pathBelow root names))
      (fs₂.stat? (pathBelow root names)) := by
  rw [FileSystem.stat?, FileSystem.stat?]
  obtain ⟨fault, h₁, h₂⟩ | ⟨_, _, h₁, h₂, -, -, hlooks⟩ := find_alike h hnames hclear
  · rw [h₁, h₂]
    exact .none
  · rw [h₁, h₂]
    exact .some hlooks

theorem readFile_alike (h : SharedRoot fs₁ fs₂ root) (hnames : ∀ name ∈ names, IsName name)
    (hclear : ClearWay fs₁ true root names) :
    fs₁.readFile (pathBelow root names) = fs₂.readFile (pathBelow root names) := by
  rw [FileSystem.readFile, FileSystem.readFile]
  obtain ⟨fault, h₁, h₂⟩ | ⟨_, _, h₁, h₂, -, -, hlooks⟩ := find_alike h hnames hclear
  · rw [h₁, h₂]
  · rw [h₁, h₂]
    cases hlooks <;> rfl

/-- A listing does not depend on the order in which the entries are kept. -/
theorem list_alike (h : SharedRoot fs₁ fs₂ root) (hnames : ∀ name ∈ names, IsName name)
    (hclear : ClearWay fs₁ true root names) :
    (fs₁.list (pathBelow root names)).map (sortListed <| visible ·) =
      (fs₂.list (pathBelow root names)).map (sortListed <| visible ·) := by
  rw [FileSystem.list, FileSystem.list]
  obtain ⟨fault, h₁, h₂⟩ | ⟨_, _, h₁, h₂, hat₁, hat₂, hlooks⟩ := find_alike h hnames hclear
  · rw [h₁, h₂]
  · rw [h₁, h₂]
    cases hlooks with
    | file | link | pipe => rfl
    | folder entries₁ entries₂ =>
      refine congrArg Except.ok ?_
      rcases h.kept names entries₁ entries₂ hat₁ hat₂ with hsame | ⟨hdistinct₁, hdistinct₂⟩
      · exact congrArg sortListed hsame.visible_eq
      · refine sortListed_visible_eq (fun name => ?_) hdistinct₁ hdistinct₂
        rw [← FileSystem.at?_name hat₁, ← FileSystem.at?_name hat₂, List.append_assoc,
          List.append_assoc]
        exact h.alike (names ++ [name])

end Shared

/-! ## What is accepted -/

theorem Roots.start_trimmed (given : Roots) (path : String) :
    given.trimmed.start path = pathBelow (given.start path) [] := by
  rw [Roots.start, Roots.start]
  cases isAbsolute path <;> rfl

/-- The way from a root to a path below it. -/
theorem split_drop_below {root : String} {names : List String}
    (hnames : ∀ name ∈ names, IsName name) :
    split '/' (String.ofList ((below root names).toList.drop root.length)) = "" :: names := by
  have hway : String.ofList ((below root names).toList.drop root.length) = below "" names := by
    rw [below_eq, below_eq, String.toList_append, ← String.length_toList, List.drop_left,
      String.ofList_toList, String.empty_append]
  rw [hway, split_below fun name hname => (hnames name hname).single]
  rfl

/-- **The same paths are accepted**, and the way to them is clear. -/
theorem resolve_alike {fs₁ fs₂ : FileSystem} {given : Roots} {path : String}
    (h : SharedRoot fs₁ fs₂ (given.start path)) :
    Mount.resolve fs₁ given.trimmed path = Mount.resolve fs₂ given.trimmed path ∧
      ∀ located, (Mount.resolve fs₁ given.trimmed path).value = some located →
        ∃ names, located = pathBelow (given.start path) names ∧
          (∀ name ∈ names, IsName name) ∧ ClearWay fs₁ true (given.start path) names := by
  rw [Mount.resolve, Mount.resolve]
  rcases hlocated : given.trimmed.locate path with cause | located
  · refine ⟨rfl, fun _ hnone => ?_⟩
    cases hnone
  · obtain ⟨rfl, hnames⟩ := Roots.eq_below_of_locateWithout hlocated
    generalize remaining (split '/' path) = names at hnames ⊢
    have hskip : ∀ fs root, Mount.linkBelow fs root ("" :: names) = Mount.linkBelow fs root names :=
      fun _ _ => if_pos rfl
    obtain ⟨hsame, hclear⟩ :
        Mount.linkBelow fs₁ (pathBelow (given.start path) []) names =
            Mount.linkBelow fs₂ (pathBelow (given.start path) []) names ∧
          (Mount.linkBelow fs₁ (pathBelow (given.start path) []) names = none →
            ClearWay fs₁ true (given.start path) names) :=
      linkBelow_alike h hnames (clearWay_nil true)
    dsimp only
    rw [split_drop_below hnames, Roots.start_trimmed, hskip, hskip, ← hsame]
    cases hlink : Mount.linkBelow fs₁ (pathBelow (given.start path) []) names with
    | some link =>
      refine ⟨rfl, fun _ hnone => ?_⟩
      cases hnone
    | none =>
      refine ⟨rfl, fun _ hsome => ?_⟩
      exact ⟨names, (Option.some.inj hsome).symm, hnames, hclear hlink⟩

/-! ## Every answer -/

section Answers

variable {fs₁ fs₂ : FileSystem} {given : Roots} {path : String}

/-- Answers that are given for the resolved path are the same if they are the same at the end of
every clear way. -/
theorem answer_alike {α : Type} {answer₁ answer₂ : Option String → Logged α}
    (h : SharedRoot fs₁ fs₂ (given.start path)) (hnone : answer₁ none = answer₂ none)
    (hsome : ∀ names, (∀ name ∈ names, IsName name) → ClearWay fs₁ true (given.start path) names →
      answer₁ (some (pathBelow (given.start path) names)) =
        answer₂ (some (pathBelow (given.start path) names))) :
    (Mount.resolve fs₁ given.trimmed path >>= answer₁) =
      (Mount.resolve fs₂ given.trimmed path >>= answer₂) := by
  obtain ⟨hsame, haccepted⟩ := resolve_alike h
  rw [← hsame]
  have hvalue : answer₁ (Mount.resolve fs₁ given.trimmed path).value =
      answer₂ (Mount.resolve fs₁ given.trimmed path).value := by
    cases hresolved : (Mount.resolve fs₁ given.trimmed path).value with
    | none => exact hnone
    | some located =>
      obtain ⟨names, rfl, hnames, hclear⟩ := haccepted located hresolved
      exact hsome names hnames hclear
  exact congrArg (fun answer : Logged α =>
    Logged.mk answer.value ((Mount.resolve fs₁ given.trimmed path).events ++ answer.events)) hvalue

theorem size?_alike (h : SharedRoot fs₁ fs₂ (given.start path)) :
    Mount.size? fs₁ given.trimmed path = Mount.size? fs₂ given.trimmed path := by
  refine answer_alike h rfl fun names hnames hclear => ?_
  have hstat := stat?_alike h hnames hclear
  dsimp only
  generalize fs₁.stat? (pathBelow (given.start path) names) = found₁ at hstat ⊢
  generalize fs₂.stat? (pathBelow (given.start path) names) = found₂ at hstat ⊢
  cases hstat with
  | none => rfl
  | some hlooks => cases hlooks <;> rfl

theorem contents_alike (h : SharedRoot fs₁ fs₂ (given.start path)) :
    Mount.contents fs₁ given.trimmed path = Mount.contents fs₂ given.trimmed path := by
  refine answer_alike h rfl fun names hnames hclear => ?_
  dsimp only
  rw [readFile_alike h hnames hclear]

theorem entries_alike (h : SharedRoot fs₁ fs₂ (given.start path)) :
    Mount.entries fs₁ given.trimmed path = Mount.entries fs₂ given.trimmed path := by
  refine answer_alike h rfl fun names hnames hclear => ?_
  have hlist := list_alike h hnames hclear
  dsimp only
  generalize fs₁.list (pathBelow (given.start path) names) = listed₁ at hlist ⊢
  generalize fs₂.list (pathBelow (given.start path) names) = listed₂ at hlist ⊢
  rcases listed₁ with fault | entries₁ <;> rcases listed₂ with other | entries₂
  · cases hlist
    rfl
  · cases hlist
  · cases hlist
  · have hsorted : sortListed (visible entries₁) = sortListed (visible entries₂) :=
      Except.ok.inj hlist
    exact congrArg (fun listed => pure (Except.ok listed)) hsorted

/-- The same source is handed out, and it reads the same bytes. -/
theorem source_alike (h : SharedRoot fs₁ fs₂ (given.start path)) (offset size target : Int) :
    (External.host fs₁ given).source path offset size target =
        (External.host fs₂ given).source path offset size target ∧
      ∀ delta length,
        ((External.host fs₁ given).source path offset size target).value.read fs₁ delta length =
          ((External.host fs₂ given).source path offset size target).value.read fs₂ delta
            length := by
  refine ⟨answer_alike h rfl fun _ _ _ => rfl, fun delta length => ?_⟩
  have hvalue : ∀ fs, ((External.host fs given).source path offset size target).value =
      ((Mount.resolve fs given.trimmed path).value.map (Source.file · offset)).getD .zeros := by
    intro fs
    refine (Logged.value_bind _ _).trans ?_
    cases (Mount.resolve fs given.trimmed path).value <;> rfl
  obtain ⟨hsame, haccepted⟩ := resolve_alike h
  rw [hvalue, hvalue, ← hsame]
  cases hresolved : (Mount.resolve fs₁ given.trimmed path).value with
  | none => simp only [Option.map_none, Option.getD_none, Source.zeros, Source.read]
  | some located =>
    obtain ⟨names, rfl, hnames, hclear⟩ := haccepted located hresolved
    simp only [Option.map_some, Option.getD_some, Source.read, readHostFile,
      readFile_alike h hnames hclear]

end Answers

/-- **Isolation.** Two file systems that look the same below both roots give the same answers for
every external path, with the same events: sizes, contents, listings, segments and what can be read
through them, and savegame folders. -/
theorem host_isolated {fs₁ fs₂ : FileSystem} {roots : Roots}
    (hcard : SharedRoot fs₁ fs₂ roots.card) (hpatch : SharedRoot fs₁ fs₂ roots.patch)
    (path : String) :
    (External.host fs₁ roots).size? path = (External.host fs₂ roots).size? path ∧
      (External.host fs₁ roots).contents path = (External.host fs₂ roots).contents path ∧
      (External.host fs₁ roots).entries path = (External.host fs₂ roots).entries path ∧
      (∀ offset size target, (External.host fs₁ roots).segment path offset size target =
        (External.host fs₂ roots).segment path offset size target) ∧
      (∀ offset size target delta length,
        ((External.host fs₁ roots).source path offset size target).value.read fs₁ delta length =
          ((External.host fs₂ roots).source path offset size target).value.read fs₂ delta length) ∧
      (External.host fs₁ roots).savegame? path = (External.host fs₂ roots).savegame? path := by
  have h : SharedRoot fs₁ fs₂ (roots.start path) := by
    rw [Roots.start]
    cases isAbsolute path with
    | true => exact hcard
    | false => exact hpatch
  refine ⟨size?_alike h, contents_alike h, entries_alike h, ?_, ?_, (resolve_alike h).1⟩
  · intro offset size target
    rw [External.segment, External.segment, (source_alike h offset size target).1]
  · intro offset size target
    exact (source_alike h offset size target).2

/-- A card that holds a patch, which holds a link to something outside. -/
def linkedOut (outside : Entry) : FileSystem :=
  ⟨[("sd", .folder [("mods", .folder [("a.bin", .file [1]), ("out", .link "/outside")])]),
    ("outside", outside)], []⟩

theorem host_isolated_linkedOut :
    SharedRoot (linkedOut (.file [7])) (linkedOut (.folder [])) "/sd" ∧
      SharedRoot (linkedOut (.file [7])) (linkedOut (.folder [])) "/sd/mods/" ∧
      (linkedOut (.file [7])).isFile "/sd/mods/out" = true ∧
      (linkedOut (.folder [])).isFile "/sd/mods/out" = false ∧
      (External.host (linkedOut (.file [7])) ⟨"/sd", "/sd/mods/"⟩).contents "./out" =
        (External.host (linkedOut (.folder [])) ⟨"/sd", "/sd/mods/"⟩).contents "./out" := by
  have hcard : SharedRoot (linkedOut (.file [7])) (linkedOut (.folder [])) "/sd" :=
    sharedRoot_of_at? (by decide +kernel) (by decide +kernel) rfl rfl
  have hpatch : SharedRoot (linkedOut (.file [7])) (linkedOut (.folder [])) "/sd/mods/" :=
    sharedRoot_of_at? (by decide +kernel) (by decide +kernel) rfl rfl
  refine ⟨hcard, hpatch, by decide +kernel, by decide +kernel, ?_⟩
  exact (host_isolated hcard hpatch "./out").2.1

end DiscPatch
