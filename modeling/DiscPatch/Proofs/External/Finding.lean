import DiscPatch.External.Shelf
import DiscPatch.Patch.Compose
import DiscPatch.Proofs.Host.Descent

/-!
# Finding files on a shelf

* `IsName` — an ordinary name: not empty, without a separator, and not made of dots only;
* `FileTree.Ordinary` — every folder of a tree has ordinary names, each only once;
* `Shelf.find_joinPaths` — a path with one more name leads to the entry of that name.

Going down from folder to folder by names is therefore the same as asking for longer and longer
paths, whatever the first path looks like.
-/

namespace DiscPatch

open DiscPatch.Host (isAbsolute)
open DiscPatch.Text

/-! ## Ordinary names -/

/-- A name that stands for itself wherever it occurs as a component of a path. -/
structure IsName (name : String) : Prop where
  /-- it is not empty -/
  nonempty : name ≠ ""
  /-- it is a single component -/
  single : '/' ∉ name.toList
  /-- it is not made of dots only -/
  notDots : isDots name = false

instance (name : String) : Decidable (IsName name) :=
  decidable_of_iff (name ≠ "" ∧ '/' ∉ name.toList ∧ isDots name = false)
    ⟨fun ⟨hne, hsingle, hdots⟩ => ⟨hne, hsingle, hdots⟩,
      fun h => ⟨h.nonempty, h.single, h.notDots⟩⟩

theorem IsName.relative {name : String} (h : IsName name) : isAbsolute name = false :=
  beq_eq_false_iff_ne.mpr fun hhead => h.single (List.mem_of_mem_head? hhead)

/-! ## Joined paths -/

theorem joinPaths_empty (path : String) : joinPaths path "" = path := by
  rw [joinPaths]
  split
  · next hpath => exact hpath.symm
  · rfl

/-- A relative path joined to a path: one separator stands between them. -/
theorem joinPaths_cases (path : String) {more : String} (hne : more ≠ "")
    (hrelative : isAbsolute more = false) :
    path = "" ∧ joinPaths path more = more ∨
      path ≠ "" ∧ ∃ front, (path = front ∨ path = front ++ "/") ∧
        joinPaths path more = front ++ "/" ++ more := by
  have hhead : more.toList.head? ≠ some '/' := beq_eq_false_iff_ne.mp hrelative
  by_cases hempty : path = ""
  · exact .inl ⟨hempty, by rw [joinPaths, if_pos hempty]⟩
  · refine .inr ⟨hempty, ?_⟩
    simp only [joinPaths, if_neg hempty, if_neg hne, if_neg hhead]
    by_cases hlast : path.toList.getLast? = some '/'
    · obtain ⟨front, hfront⟩ := List.getLast?_eq_some_iff.mp hlast
      refine ⟨String.ofList front, .inr ?_, ?_⟩
      · rw [← String.toList_inj, hfront]
        simp
      · rw [if_pos hlast, hfront, List.dropLast_concat]
    · exact ⟨path, .inl rfl, by rw [if_neg hlast]⟩

/-- A relative path that is joined to a path does not change where it starts. -/
theorem isAbsolute_joinPaths (path : String) {more : String} (h : isAbsolute more = false) :
    isAbsolute (joinPaths path more) = isAbsolute path := by
  by_cases hne : more = ""
  · rw [hne, joinPaths_empty]
  rcases joinPaths_cases path hne h with ⟨rfl, hjoin⟩ | ⟨hnonempty, front, rfl | rfl, hjoin⟩
  · rw [hjoin, h]
    rfl
  · rw [hjoin]
    rcases hchars : path.toList with _ | ⟨c, rest⟩
    · exact absurd (String.toList_eq_nil_iff.mp hchars) hnonempty
    · simp [isAbsolute, hchars]
  · rw [hjoin]
    rcases hchars : front.toList with _ | ⟨c, rest⟩ <;> simp [isAbsolute, hchars]

/-! ## Settling longer paths -/

/-- What settles on its own settles above a stack as well and never reaches down to it. The path is
only quoted in refusals. -/
theorem settle_onto {path other : String} {top base components settled : List String}
    (h : settle path top components = .ok settled) :
    settle other (top ++ base) components = .ok (base.reverse ++ settled) := by
  induction components generalizing top with
  | nil =>
    cases h
    rw [settle, List.reverse_append]
  | cons component rest ih =>
    simp only [settle] at h ⊢
    by_cases hskip : component = "" ∨ component = "."
    · rw [if_pos hskip] at h ⊢
      exact ih h
    · rw [if_neg hskip] at h ⊢
      by_cases hup : component = ".."
      · rw [if_pos hup] at h ⊢
        cases top with
        | nil => cases h
        | cons _ below => exact ih h
      · rw [if_neg hup] at h ⊢
        by_cases hdots : isDots component
        · rw [if_pos hdots] at h
          cases h
        · rw [if_neg hdots] at h ⊢
          exact ih h

theorem settle_of_settle {path other : String} {stack components settled : List String}
    (h : settle path stack components = .ok settled) :
    settle other stack components = .ok settled := by
  simpa using @settle_onto path other stack [] components settled h

theorem settle_append (path : String) (stack front back : List String) :
    settle path stack (front ++ back) =
      (settle path stack front).bind fun settled => settle path settled.reverse back := by
  induction front generalizing stack with
  | nil => simp [settle, Except.bind]
  | cons component rest ih =>
    simp only [List.cons_append, settle]
    split
    · exact ih stack
    · split
      · cases stack with
        | nil => rfl
        | cons _ below => exact ih below
      · split
        · rfl
        · exact ih _

/-- A joined path settles as the path does, and then as what is joined to it. -/
theorem settle_joinPaths (text path : String) {more : String} (h : isAbsolute more = false) :
    settle text [] (split '/' (joinPaths path more)) =
      (settle text [] (split '/' path)).bind fun settled =>
        settle text settled.reverse (split '/' more) := by
  -- an empty component changes nothing
  have hempty (stack : List String) : settle text stack [""] = .ok stack.reverse := by simp [settle]
  have hnone : split '/' "" = [""] := rfl
  by_cases hne : more = ""
  · rw [hne, joinPaths_empty, hnone]
    rcases settle text [] (split '/' path) with cause | settled
    · rfl
    · simp [Except.bind, hempty]
  rcases joinPaths_cases path hne h with ⟨rfl, hjoin⟩ | ⟨-, front, rfl | rfl, hjoin⟩
  · rw [hjoin, hnone, hempty]
    rfl
  · rw [hjoin, split_append, settle_append]
  · have hfront : split '/' (front ++ "/") = split '/' front ++ [""] := by
      have hsplit := split_append front ""
      rwa [String.append_empty, hnone] at hsplit
    rw [hjoin, split_append, settle_append, hfront, settle_append]
    rcases settle text [] (split '/' front) with cause | settled
    · rfl
    · simp [Except.bind, hempty]

theorem settle_name (path : String) (stack : List String) {name : String} (h : IsName name) :
    settle path stack [name] = .ok (stack.reverse ++ [name]) := by
  have hdots : ¬ (name = "" ∨ name = ".") := by
    rintro (rfl | rfl)
    · exact h.nonempty rfl
    · exact absurd h.notDots (by decide)
  have hup : name ≠ ".." := by
    rintro rfl
    exact absurd h.notDots (by decide)
  simp [settle, hdots, hup, h.notDots]

/-- A path with one more name is found one level deeper. -/
theorem Roots.locate_joinPaths {roots : Roots} {path place name : String} (h : IsName name)
    (hplace : roots.locate path = .ok place) :
    roots.locate (joinPaths path name) = .ok (place ++ "/" ++ name) := by
  simp only [locate, locateWithout, List.find?_nil] at hplace ⊢
  rcases hpath : settle path [] (split '/' path) with _ | settled
  · rw [hpath] at hplace
    cases hplace
  · rw [hpath] at hplace
    rw [settle_joinPaths _ _ h.relative, settle_of_settle hpath, split_of_not_mem h.single]
    simp only [Except.bind, settle_name _ _ h, List.reverse_reverse, start,
      isAbsolute_joinPaths path h.relative]
    rw [← Except.ok.inj hplace, Except.map, below, below, List.foldl_append]
    rfl

/-! ## Trees with ordinary names -/

namespace FileTree

theorem at?_append (tree : FileTree) (front back : List String) :
    tree.at? (front ++ back) = (tree.at? front).bind (·.at? back) := by
  induction front generalizing tree with
  | nil => rfl
  | cons name rest ih =>
    simp only [List.cons_append, at?]
    split
    · exact ih tree
    · cases tree.child? name with
      | none => rfl
      | some next => exact ih next

theorem at?_name (tree : FileTree) {name : String} (h : name ≠ "") :
    tree.at? [name] = tree.child? name := by
  simp only [at?, if_neg h]
  cases tree.child? name <;> rfl

mutual
/-- Every folder has ordinary names, each only once. -/
def Ordinary : FileTree → Prop
  | .file _ => True
  | .folder entries => (entries.map (·.1)).Nodup ∧ OrdinaryEntries entries

/-- The entries have ordinary names and are ordinary themselves. -/
def OrdinaryEntries : List (String × FileTree) → Prop
  | [] => True
  | (name, tree) :: rest => IsName name ∧ tree.Ordinary ∧ OrdinaryEntries rest
end

theorem ordinaryEntries_iff {entries : List (String × FileTree)} :
    OrdinaryEntries entries ↔ ∀ entry ∈ entries, IsName entry.1 ∧ entry.2.Ordinary := by
  induction entries with
  | nil => simp [OrdinaryEntries]
  | cons entry rest ih =>
    obtain ⟨name, tree⟩ := entry
    simp [OrdinaryEntries, ih, and_assoc]

theorem depth_le_entriesDepth {entries : List (String × FileTree)} {entry : String × FileTree}
    (h : entry ∈ entries) : entry.2.depth ≤ entriesDepth entries := by
  induction entries with
  | nil => cases h
  | cons other rest ih =>
    obtain ⟨name, tree⟩ := other
    simp only [entriesDepth]
    rcases List.mem_cons.mp h with rfl | h
    · exact Nat.le_max_left ..
    · exact Nat.le_trans (ih h) (Nat.le_max_right ..)

/-- What is found in an ordinary tree is an ordinary tree, and not deeper. -/
theorem Ordinary.of_at? {tree found : FileTree} (h : tree.Ordinary) {names : List String}
    (hfound : tree.at? names = some found) : found.Ordinary ∧ found.depth ≤ tree.depth := by
  induction names generalizing tree with
  | nil =>
    obtain rfl := Option.some.inj hfound
    exact ⟨h, Nat.le_refl _⟩
  | cons name rest ih =>
    simp only [at?] at hfound
    split at hfound
    · exact ih h hfound
    · rcases hchild : tree.child? name with _ | next
      · rw [hchild] at hfound
        cases hfound
      · rw [hchild] at hfound
        cases tree with
        | file data => cases hchild
        | folder entries =>
          have hmem : (name, next) ∈ entries := mem_of_lookup hchild
          obtain ⟨hordinary, hdepth⟩ := ih (ordinaryEntries_iff.mp h.2 _ hmem).2 hfound
          have hle := depth_le_entriesDepth hmem
          exact ⟨hordinary, by simp only [depth]; omega⟩

end FileTree

/-- **A path with one more name leads to the entry of that name.** -/
theorem Shelf.find_joinPaths {tree : FileTree} {roots : Roots} {path name : String}
    {found : Option FileTree} (h : IsName name) (hfound : find tree roots path = .ok found) :
    find tree roots (joinPaths path name) = .ok (found.bind (·.child? name)) := by
  rw [find] at hfound ⊢
  rcases hplace : roots.locate path with _ | place
  · rw [hplace] at hfound
    cases hfound
  · rw [hplace] at hfound
    rw [Roots.locate_joinPaths h hplace, Except.map, split_append, split_of_not_mem h.single,
      FileTree.at?_append, ← Except.ok.inj hfound]
    simp only [FileTree.at?_name _ h.nonempty]

end DiscPatch
