import DiscPatch.Host.FileSystem
import DiscPatch.Proofs.External.Finding
import Mathlib.Data.List.DropRight

/-!
# The names on a path

As far as the host is concerned, a path is made of its names and of where it starts: at the top or
not. Separators at its end do not count, and neither does how many there are in a row.

* `pathNames` — the names on a path; `Host.isAbsolute` says where it starts;
* `pathNames_dropEnd`, `isAbsolute_dropEnd` — a path without the separators at its end;
* `pathNames_below`, `isAbsolute_below` — a path with names put below it;
* `folderOf_eq_empty_iff`, `isAbsolute_folderOf` — the folder of a path.
-/

namespace DiscPatch

open DiscPatch.Host (isAbsolute)
open DiscPatch.Text

/-! ## Names -/

/-- The names on a path. -/
def pathNames (path : String) : List String :=
  (split '/' path).filter (· ≠ "")

theorem pathNames_append (front back : String) :
    pathNames (front ++ "/" ++ back) = pathNames front ++ pathNames back := by
  rw [pathNames, split_append, List.filter_append]
  rfl

theorem pathNames_separators {tail : List Char} (h : ∀ c ∈ tail, c = '/') (front : List Char) :
    pathNames (String.ofList (front ++ tail)) = pathNames (String.ofList front) := by
  induction tail generalizing front with
  | nil => rw [List.append_nil]
  | cons c rest ih =>
    obtain ⟨rfl, hrest⟩ := List.forall_mem_cons.mp h
    have hone : String.ofList (front ++ ['/']) = String.ofList front ++ "/" ++ "" := by
      rw [← String.toList_inj]
      simp
    rw [List.append_cons, ih hrest, hone, pathNames_append]
    exact List.append_nil _

theorem mem_joinChars {sep c : Char} {parts : List (List Char)} (h : c ∈ joinChars sep parts) :
    c = sep ∨ ∃ part ∈ parts, c ∈ part := by
  induction parts with
  | nil => cases h
  | cons part rest ih =>
    cases rest with
    | nil => exact .inr ⟨part, List.mem_singleton.mpr rfl, h⟩
    | cons next rest =>
      simp only [joinChars, List.mem_append, List.mem_cons] at h
      rcases h with hpart | hsep | hrest
      · exact .inr ⟨part, List.mem_cons_self .., hpart⟩
      · exact .inl hsep
      · rcases ih hrest with hsep | ⟨other, hother, hc⟩
        · exact .inl hsep
        · exact .inr ⟨other, List.mem_cons_of_mem _ hother, hc⟩

theorem mem_joinChars_of_mem {sep c : Char} {parts : List (List Char)} {part : List Char}
    (hpart : part ∈ parts) (hc : c ∈ part) : c ∈ joinChars sep parts := by
  induction parts with
  | nil => cases hpart
  | cons first rest ih =>
    cases rest with
    | nil =>
      obtain rfl := List.mem_singleton.mp hpart
      exact hc
    | cons next others =>
      rw [joinChars]
      · rcases List.mem_cons.mp hpart with rfl | hpart
        · exact List.mem_append_left _ hc
        · exact List.mem_append_right _ (List.mem_cons_of_mem _ (ih hpart))
      · simp

/-- A path has no names exactly if it is made of separators. -/
theorem pathNames_eq_nil_iff {path : String} :
    pathNames path = [] ↔ ∀ c ∈ path.toList, c = '/' := by
  constructor
  · intro h c hc
    have hparts : ∀ part ∈ splitChars '/' path.toList, part = [] := by
      intro part hpart
      have hempty := List.filter_eq_nil_iff.mp h (String.ofList part) (List.mem_map_of_mem hpart)
      simpa using hempty
    rw [← joinChars_splitChars '/' path.toList] at hc
    rcases mem_joinChars hc with hsep | ⟨part, hpart, hmem⟩
    · exact hsep
    · rw [hparts part hpart] at hmem
      cases hmem
  · intro h
    have hpath := pathNames_separators h []
    rwa [List.nil_append, String.ofList_toList] at hpath

/-! ## Separators at the end -/

theorem pathNames_dropEnd (path : String) :
    pathNames (dropEnd (· = '/') path) = pathNames path := by
  have htail : ∀ c ∈ path.toList.rtakeWhile (· = '/'), c = '/' :=
    fun c hc => by simpa using List.mem_rtakeWhile_imp hc
  have hnames := pathNames_separators htail (path.toList.rdropWhile (· = '/'))
  rw [List.rdropWhile_append_rtakeWhile, String.ofList_toList] at hnames
  exact hnames.symm

theorem dropEnd_eq_empty_iff_all {drop : Char → Bool} {text : String} :
    dropEnd drop text = "" ↔ ∀ c ∈ text.toList, drop c = true := by
  rw [dropEnd, String.ofList_eq_empty_iff]
  exact List.rdropWhile_eq_nil_iff

theorem dropEnd_eq_empty_iff {path : String} :
    dropEnd (· = '/') path = "" ↔ pathNames path = [] := by
  rw [pathNames_eq_nil_iff, dropEnd_eq_empty_iff_all]
  simp

/-- Unless nothing is left of it, a text starts as before. -/
theorem isAbsolute_dropEnd {drop : Char → Bool} {text : String} (h : dropEnd drop text ≠ "") :
    isAbsolute (dropEnd drop text) = isAbsolute text := by
  obtain ⟨tail, htail⟩ := List.rdropWhile_prefix drop (l := text.toList)
  rw [dropEnd, ne_eq, String.ofList_eq_empty_iff, ← List.rdropWhile] at h
  rw [isAbsolute, isAbsolute, dropEnd, String.toList_ofList, ← List.rdropWhile]
  conv_rhs => rw [← htail]
  rw [List.head?_append_of_ne_nil _ h]

/-! ## Names below a path -/

variable {root : String} {names : List String}

theorem split_below (h : ∀ name ∈ names, '/' ∉ name.toList) :
    split '/' (below root names) = split '/' root ++ names := by
  induction names generalizing root with
  | nil => exact (List.append_nil _).symm
  | cons name rest ih =>
    obtain ⟨hname, hrest⟩ := List.forall_mem_cons.mp h
    have hnext : below root (name :: rest) = below (root ++ "/" ++ name) rest := rfl
    rw [hnext, ih hrest, split_append, split_of_not_mem hname, List.append_assoc]
    rfl

theorem pathNames_below (h : ∀ name ∈ names, IsName name) :
    pathNames (below root names) = pathNames root ++ names := by
  have hnames : names.filter (· ≠ "") = names :=
    List.filter_eq_self.mpr fun name hname => by simp [(h name hname).nonempty]
  rw [pathNames, split_below fun name hname => (h name hname).single, List.filter_append, hnames]
  rfl

theorem isAbsolute_below :
    isAbsolute (below root names) = if root = "" then !names.isEmpty else isAbsolute root := by
  induction names generalizing root with
  | nil =>
    by_cases hroot : root = ""
    · subst hroot
      rfl
    · rw [if_neg hroot]
      rfl
  | cons name rest ih =>
    have hnext : below root (name :: rest) = below (root ++ "/" ++ name) rest := rfl
    have hne : root ++ "/" ++ name ≠ "" := by
      intro hempty
      have := congrArg String.toList hempty
      simp at this
    rw [hnext, ih, if_neg hne, isAbsolute]
    by_cases hroot : root = ""
    · subst hroot
      simp
    · rcases hchars : root.toList with _ | ⟨c, chars⟩
      · exact absurd (String.toList_eq_nil_iff.mp hchars) hroot
      · simp [isAbsolute, hroot, hchars]

/-- Names put below a folder whose separators at the end were taken off. A folder without names has
then lost where it starts: the names below it start at the top. -/
theorem isAbsolute_below_dropEnd {folder : String} {names : List String} :
    isAbsolute (below (dropEnd (· = '/') folder) names) =
      if pathNames folder = [] then !names.isEmpty else isAbsolute folder := by
  rw [isAbsolute_below]
  by_cases hnames : pathNames folder = []
  · rw [if_pos (dropEnd_eq_empty_iff.mpr hnames), if_pos hnames]
  · rw [if_neg (mt dropEnd_eq_empty_iff.mp hnames), if_neg hnames,
      isAbsolute_dropEnd (mt dropEnd_eq_empty_iff.mp hnames)]

/-! ## Folders -/

/-- A path without separators lies in no folder that it names. -/
theorem folderOf_eq_empty_iff {path : String} : folderOf path = "" ↔ '/' ∉ path.toList := by
  have hhead : dropEnd (· ≠ '/') path = "" ↔ '/' ∉ path.toList := by
    rw [dropEnd_eq_empty_iff_all]
    simp only [decide_eq_true_eq]
    exact ⟨fun h hmem => h _ hmem rfl, fun h c hc hsep => h (hsep ▸ hc)⟩
  rw [folderOf, ← hhead]
  generalize dropEnd (· ≠ '/') path = head
  split
  · rfl
  · next hnames =>
    rw [dropEnd_eq_empty_iff_all, ← List.all_eq_true]
    refine ⟨fun hall => absurd hall hnames, ?_⟩
    rintro rfl
    exact absurd rfl hnames

theorem isAbsolute_folderOf (path : String) : isAbsolute (folderOf path) = isAbsolute path := by
  by_cases hpath : folderOf path = ""
  · have hsep := folderOf_eq_empty_iff.mp hpath
    have hhead : path.toList.head? ≠ some '/' := fun hhead => hsep (List.mem_of_mem_head? hhead)
    rw [hpath, isAbsolute, isAbsolute, beq_eq_false_iff_ne.mpr hhead]
    rfl
  · rw [folderOf] at hpath ⊢
    have hne : dropEnd (· ≠ '/') path ≠ "" := by
      intro hempty
      rw [hempty] at hpath
      exact hpath rfl
    rw [← isAbsolute_dropEnd hne]
    generalize dropEnd (· ≠ '/') path = head at hpath ⊢
    split
    · rfl
    · next hnames =>
      rw [if_neg hnames] at hpath
      rw [isAbsolute_dropEnd hpath]

theorem pathNames_eq_nil_iff_of_relative {path : String} (h : isAbsolute path = false) :
    pathNames path = [] ↔ path = "" := by
  rw [pathNames_eq_nil_iff]
  constructor
  · intro hseps
    rcases hchars : path.toList with _ | ⟨c, rest⟩
    · exact String.toList_eq_nil_iff.mp hchars
    · have hc : c = '/' := hseps c (by simp [hchars])
      simp [isAbsolute, hchars, hc] at h
  · rintro rfl
    simp

end DiscPatch
