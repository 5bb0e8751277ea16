import DiscPatch.Proofs.Host.Descent
import DiscPatch.Proofs.Host.Walk

/-!
# Walks where there are no links

Without links a path leads to what its names lead to in the tree, and to nothing else. The host only
refuses names and paths that are too long, and names that are too long are not in the tree.

* `FileSystem.Linkless` — there is no link anywhere;
* `entry_stride` — a stride ends at what its names lead to;
* `find_linkless` — so does a path from the top.
-/

namespace DiscPatch.Host

/-- There is no link anywhere. -/
def FileSystem.Linkless (fs : FileSystem) : Prop :=
  ∀ trail target, fs.at? trail ≠ some (.link target)

variable {fs : FileSystem} {follow : Bool} {P : String → Prop}

theorem isLink_linkless (h : fs.Linkless) (path : String) : fs.isLink path = false := by
  rw [FileSystem.isLink]
  rcases hfind : fs.find false path with fault | entry
  · rfl
  · obtain ⟨trail, htrail⟩ := at?_of_find hfind
    cases entry with
    | link target => exact absurd htrail (h trail target)
    | _ => rfl

/-- A name that no name in the tree is like leads nowhere. -/
theorem at?_of_not_named (hfs : fs.Named P) {name : String} (hname : ¬ P name)
    (trail rest : List String) : fs.at? (trail ++ name :: rest) = none := by
  rcases hfound : fs.at? (trail ++ name :: rest) with _ | found
  · rfl
  · rw [FileSystem.at?_append] at hfound
    obtain ⟨entry, hentry, hbelow⟩ := Option.bind_eq_some_iff.mp hfound
    obtain ⟨entries, next, rfl, hnext, -⟩ := Entry.exists_of_at?_cons hbelow
    have hentries : EntriesNamed P entries := Entry.Named.of_at? hfs hentry
    exact absurd (entriesNamed_iff.mp hentries _ (mem_of_lookup hnext)).1 hname

/-- **A stride ends at what its names lead to.** -/
theorem entry_stride (hlinks : fs.Linkless) (hfs : fs.Named P)
    (hfits : ∀ name, P name → isLongName name = false)
    (onLink : List String → String → List String → Except OsCode Place) {names : List String}
    (hnames : ∀ name ∈ names, Descends name) (trail : List String) :
    (fs.stride follow onLink trail names).toOption.bind (·.entry) = fs.at? (trail ++ names) := by
  induction names generalizing trail with
  | nil =>
    rw [List.append_nil]
    rfl
  | cons name rest ih =>
    obtain ⟨hname, hrest⟩ := List.forall_mem_cons.mp hnames
    cases hlong : isLongName name with
    | true =>
      have hnone : ¬ P name := fun hkept => absurd (hfits name hkept) (by simp [hlong])
      rw [stride_cons_of_long hname hlong, at?_of_not_named hfs hnone]
      rfl
    | false =>
      rw [stride_cons hname hlong, List.append_cons trail name rest]
      rcases hfound : fs.at? (trail ++ [name]) with _ | entry
      · rw [FileSystem.at?_append, hfound]
        dsimp only
        split <;> rfl
      · -- nothing is below what is no folder
        have hend (hchild : ∀ part, entry.child? part = none) :
            (if rest = [] then Except.ok ⟨trail ++ [name], some entry⟩
              else .error .notFolder : Except OsCode Place).toOption.bind (·.entry) =
            fs.at? (trail ++ [name] ++ rest) := by
          rw [FileSystem.at?_append, hfound]
          cases rest with
          | nil => rfl
          | cons part others =>
            rw [Option.bind_some, Entry.at?, hchild part]
            rfl
        cases entry with
        | folder entries => exact ih hrest (trail ++ [name])
        | link target => exact absurd hfound (hlinks _ target)
        | file data => exact hend fun _ => rfl
        | pipe => exact hend fun _ => rfl

/-- **A path from the top leads to what its names lead to**, or is refused. -/
theorem find_linkless (follow : Bool) (hlinks : fs.Linkless) (hfs : fs.Named P)
    (hfits : ∀ name, P name → isLongName name = false) {path : String} {names : List String}
    (habsolute : isAbsolute path = true)
    (hparts : pathParts path = names) (hnames : ∀ name ∈ names, Descends name)
    (hnul : hasNul path = false) (hshort : path.utf8ByteSize < maxPath) :
    (∃ entry, fs.at? names = some entry ∧ fs.find follow path = .ok entry) ∨
      fs.at? names = none ∧ ∃ fault, fs.find follow path = .error (.refused fault) := by
  obtain ⟨onLink, hstride⟩ : ∃ onLink, fs.walkFrom follow maxLinks = fs.stride follow onLink :=
    exists_walkFrom_eq maxLinks
  have hne : path ≠ "" := by
    rintro rfl
    cases habsolute
  have hwalk : fs.walk follow path = fs.stride follow onLink [] names := by
    rw [FileSystem.walk, if_neg hne, if_neg (Nat.not_le.mpr hshort), habsolute, hparts, hstride]
    rfl
  have hend : (fs.stride follow onLink [] names).toOption.bind (·.entry) = fs.at? ([] ++ names) :=
    entry_stride hlinks hfs hfits onLink hnames []
  rw [← hwalk, List.nil_append] at hend
  rw [FileSystem.find, hnul, ← hend]
  rcases fs.walk follow path with code | ⟨trail, _ | entry⟩
  · exact .inr ⟨rfl, _, rfl⟩
  · exact .inr ⟨rfl, _, rfl⟩
  · exact .inl ⟨entry, rfl, rfl⟩

/-- A path that is too long is refused. -/
theorem find_of_long {path : String} (hnul : hasNul path = false)
    (hlong : maxPath ≤ path.utf8ByteSize) :
    ∃ fault, fs.find follow path = .error (.refused fault) := by
  have hne : path ≠ "" := by
    rintro rfl
    exact absurd hlong (by decide)
  have hwalk : fs.walk follow path = .error .nameTooLong := by
    rw [FileSystem.walk, if_neg hne, if_pos hlong]
  rw [FileSystem.find, hnul, hwalk]
  exact ⟨_, rfl⟩

end DiscPatch.Host
