import DiscPatch.Disc.HostFolder
import DiscPatch.Proofs.External.Agreement

/-!
# Walks that go on

A path that leads to a folder, with a name of that folder put after it, leads to the entry of that
name, however many links are followed on the way to the folder.

* `exists_walkFrom_onward` — a walk to a folder goes on from there as a walk of its own;
* `exists_pathParts_entryPath` — the names of the path of an entry;
* `find_entryPath` — the path of an entry leads to it, unless the entry is a link or the path is too
  long.
-/

namespace DiscPatch

open DiscPatch.Host
open DiscPatch.Text (split)

variable {fs : FileSystem}

/-! ## Going on from a folder -/

/-- Names that mean the folder itself lead nowhere else. -/
theorem stride_dots {onLink : List String → String → List String → Except OsCode Place}
    (follow : Bool) (trail : List String) {dots : List String} (h : ∀ part ∈ dots, part = ".") :
    fs.stride follow onLink trail dots = .ok ⟨trail, fs.at? trail⟩ := by
  induction dots with
  | nil => rfl
  | cons part rest ih =>
    obtain ⟨hpart, hrest⟩ := List.forall_mem_cons.mp h
    rw [FileSystem.stride, if_pos hpart, ih hrest]

section Onward

variable {entries : List (String × Entry)} {place dots more : List String}

/-- A stride to a folder goes on from there, if the walks behind links do. -/
theorem exists_stride_onward
    {onLink : List String → String → List String → Except OsCode Place}
    (hdots : ∀ part ∈ dots, part = ".")
    (hlinks : ∀ trail target rest,
      onLink trail target (rest ++ dots) = .ok ⟨place, some (.folder entries)⟩ →
      ∃ left, onLink trail target (rest ++ more) = fs.walkFrom true left place more)
    (hend : ∃ left, fs.stride true onLink place more = fs.walkFrom true left place more)
    {trail parts : List String}
    (h : fs.stride true onLink trail (parts ++ dots) = .ok ⟨place, some (.folder entries)⟩) :
    ∃ left, fs.stride true onLink trail (parts ++ more) = fs.walkFrom true left place more := by
  induction parts generalizing trail with
  | nil =>
    rw [List.nil_append, stride_dots true trail hdots] at h
    obtain ⟨rfl, -⟩ := Place.mk.inj (Except.ok.inj h)
    exact hend
  | cons part rest ih =>
    rw [List.cons_append, FileSystem.stride] at h
    rw [List.cons_append, FileSystem.stride]
    by_cases hdot : part = "."
    · rw [if_pos hdot] at h ⊢
      exact ih h
    by_cases hup : part = ".."
    · rw [if_neg hdot, if_pos hup] at h ⊢
      exact ih h
    by_cases hlong : maxName < part.utf8ByteSize
    · rw [if_neg hdot, if_neg hup, if_pos hlong] at h
      cases h
    rw [if_neg hdot, if_neg hup, if_neg hlong] at h ⊢
    have hfollow : ∀ others : List String, ¬ (others = [] ∧ true = false) :=
      fun _ hstop => Bool.noConfusion hstop.2
    generalize fs.at? (trail ++ [part]) = found at h ⊢
    rcases found with _ | (data | inner | target | _)
    · dsimp only at h
      split at h <;> cases h
    · dsimp only at h
      split at h <;> cases h
    · exact ih h
    · dsimp only at h ⊢
      rw [if_neg (hfollow _)] at h ⊢
      exact hlinks trail target rest h
    · dsimp only at h
      split at h <;> cases h

/-- **A walk to a folder goes on from there** as a walk of its own, with the links that are left. -/
theorem exists_walkFrom_onward (hdots : ∀ part ∈ dots, part = ".") (more : List String)
    {budget : Nat} {trail parts : List String}
    (h : fs.walkFrom true budget trail (parts ++ dots) = .ok ⟨place, some (.folder entries)⟩) :
    ∃ left, fs.walkFrom true budget trail (parts ++ more) = fs.walkFrom true left place more := by
  -- behind a link the names of its target come first, and one link less is left
  induction budget generalizing trail parts with
  | zero =>
    refine exists_stride_onward hdots (fun trail target rest hlink => ?_) ⟨0, rfl⟩ h
    cases hlink
  | succ budget ih =>
    refine exists_stride_onward hdots (fun trail target rest hlink => ?_) ⟨budget + 1, rfl⟩ h
    split at hlink
    · cases hlink
    · next htarget =>
      rw [if_neg htarget]
      rw [← List.append_assoc] at hlink ⊢
      exact ih hlink

end Onward

/-! ## Paths of entries -/

section Paths

variable {folder name : String}

theorem pathParts_name (front : String) (hname : Walkable name) :
    pathParts (front ++ "/" ++ name) = (split '/' front).filter (· ≠ "") ++ [name] := by
  have hlast : (front ++ "/" ++ name).toList.getLast? ≠ some '/' := by
    have hne : name.toList ≠ [] := mt String.toList_eq_nil_iff.mp hname.nonempty
    rw [String.toList_append, List.getLast?_append_of_ne_nil _ hne]
    exact fun hsep => hname.single (List.mem_of_getLast? hsep)
  rw [pathParts, Text.split_append, Text.split_of_not_mem hname.single, if_neg hlast,
    List.filter_append]
  simp [hname.nonempty]

/-- The path of an entry has the name after the names of the folder, which a separator at the end of
the folder's own path takes the place of. -/
theorem exists_pathParts_entryPath (folder : String) (hname : Walkable name) :
    ∃ parts dots, pathParts folder = parts ++ dots ∧ (∀ part ∈ dots, part = ".") ∧
      pathParts (entryPath folder name) = parts ++ [name] := by
  by_cases hlast : folder.toList.getLast? = some '/'
  · obtain ⟨chars, hchars⟩ := List.getLast?_eq_some_iff.mp hlast
    obtain rfl : folder = String.ofList chars ++ "/" := by
      rw [← String.toList_inj, hchars, String.toList_append, String.toList_ofList]
      rfl
    have hfolder : split '/' (String.ofList chars ++ "/") = split '/' (String.ofList chars) ++ [""] := by
      have hsplit := Text.split_append (String.ofList chars) ""
      rwa [String.append_empty] at hsplit
    refine ⟨(split '/' (String.ofList chars)).filter (· ≠ ""), ["."], ?_, by simp, ?_⟩
    · rw [pathParts, if_pos hlast, hfolder, List.filter_append]
      simp
    · rw [entryPath, if_pos hlast, pathParts_name _ hname]
  · refine ⟨(split '/' folder).filter (· ≠ ""), [], ?_, by simp, ?_⟩
    · rw [pathParts, if_neg hlast, List.append_nil]
    · rw [entryPath, if_neg hlast, pathParts_name _ hname]

theorem isAbsolute_entryPath (hfolder : folder ≠ "") (name : String) :
    isAbsolute (entryPath folder name) = isAbsolute folder := by
  have hne : folder.toList ≠ [] := mt String.toList_eq_nil_iff.mp hfolder
  obtain ⟨c, rest, hchars⟩ := List.exists_cons_of_ne_nil hne
  rw [isAbsolute, isAbsolute, entryPath]
  split <;> simp [hchars]

theorem entryPath_ne_empty (hname : name ≠ "") : entryPath folder name ≠ "" := by
  rw [entryPath]
  split <;> simp [hname]

theorem hasNul_entryPath (hfolder : hasNul folder = false) (hname : hasNul name = false) :
    hasNul (entryPath folder name) = false := by
  rw [entryPath]
  split
  · exact hasNul_append.mpr ⟨hfolder, hname⟩
  · exact hasNul_append.mpr ⟨hasNul_append.mpr ⟨hfolder, by decide⟩, hname⟩

end Paths

/-! ## Finding entries -/

/-- A path is found if it is a path, it is not too long, and the walk ends at an entry. -/
theorem find_eq_ok_iff {follow : Bool} {path : String} {entry : Entry} :
    fs.find follow path = .ok entry ↔
      hasNul path = false ∧ path ≠ "" ∧ path.utf8ByteSize < maxPath ∧
        ∃ place, fs.walkFrom follow maxLinks (if isAbsolute path then [] else fs.current)
          (pathParts path) = .ok ⟨place, some entry⟩ := by
  rw [FileSystem.find, FileSystem.walk]
  cases hnul : hasNul path with
  | true => simp
  | false =>
    by_cases hempty : path = ""
    · simp [hempty]
    by_cases hlong : maxPath ≤ path.utf8ByteSize
    · simp [hempty, hlong, Nat.not_lt.mpr hlong]
    rw [if_neg Bool.false_ne_true, if_neg hempty, if_neg hlong]
    generalize fs.walkFrom follow maxLinks _ (pathParts path) = result
    rcases result with code | ⟨place, _ | found⟩
    · simp
    · simp
    · simp [hempty, Nat.not_le.mp hlong]

/-- **The path of an entry leads to it**, unless it is a link, which would be followed. -/
theorem find_entryPath {folder name : String} {entries : List (String × Entry)} {entry : Entry}
    (hfolder : fs.find true folder = .ok (.folder entries)) (hname : HostName name)
    (hentry : entries.lookup name = some entry) (hlink : entry.isLink = false)
    (hshort : (entryPath folder name).utf8ByteSize < maxPath) :
    fs.find true (entryPath folder name) = .ok entry := by
  obtain ⟨hnul, hempty, -, place, hwalk⟩ := find_eq_ok_iff.mp hfolder
  obtain ⟨parts, dots, hparts, hdots, hmore⟩ := exists_pathParts_entryPath folder hname.toWalkable
  rw [hparts] at hwalk
  obtain ⟨left, honward⟩ := exists_walkFrom_onward hdots [name] hwalk
  have hplace : fs.at? (place ++ [name]) = some entry := by
    have hsound := sound_walkFrom _ _ _ _ _ hwalk rfl
    rw [FileSystem.at?_name hsound, hentry]
  refine find_eq_ok_iff.mpr ⟨hasNul_entryPath hnul hname.noNul, entryPath_ne_empty hname.nonempty,
    hshort, place ++ [name], ?_⟩
  obtain ⟨onLink, hstride⟩ : ∃ onLink, fs.walkFrom true left = fs.stride true onLink :=
    exists_walkFrom_eq left
  rw [isAbsolute_entryPath hempty, hmore, honward, hstride, stride_cons hname.descends hname.fits,
    hplace]
  cases entry with
  | file data => rfl
  | folder inner => exact congrArg (fun found => Except.ok (Place.mk (place ++ [name]) found)) hplace
  | link target => cases hlink
  | pipe => rfl

end DiscPatch
