import DiscPatch.Proofs.Content.Pointwise
import DiscPatch.Proofs.External.Isolation

/-!
# Folders in which a name stands for one entry

* `Entry.Unambiguous` — every folder has each of its names only once, as on every host there is;
* `mem_filesFrom_iff` — then the files of an entry are those that names lead to;
* `nodup_trails` — and no two of them are reached by the same names.
-/

namespace DiscPatch.Host

/-! ## Going down -/

mutual
/-- Every folder has each of its names only once. -/
def Entry.Unambiguous : Entry → Prop
  | .folder entries => (entries.map (·.1)).Nodup ∧ EntriesUnambiguous entries
  | .file _ | .link _ | .pipe => True

/-- Every folder in the entries has each of its names only once. -/
def EntriesUnambiguous : List (String × Entry) → Prop
  | [] => True
  | (_, entry) :: rest => entry.Unambiguous ∧ EntriesUnambiguous rest
end

theorem entriesUnambiguous_iff {entries : List (String × Entry)} :
    EntriesUnambiguous entries ↔ ∀ entry ∈ entries, entry.2.Unambiguous := by
  induction entries with
  | nil => simp [EntriesUnambiguous]
  | cons entry rest ih =>
    obtain ⟨name, entry⟩ := entry
    simp [EntriesUnambiguous, ih]

/-- Below a folder there is what is below one of its entries. -/
theorem at?_folder_cons {entries : List (String × Entry)} {name : String} {names : List String}
    {found : Entry} :
    (Entry.folder entries).at? (name :: names) = some found ↔
      ∃ entry, entries.lookup name = some entry ∧ entry.at? names = some found := by
  rw [Entry.at?, Entry.child?]
  rcases entries.lookup name with _ | entry
  · simp
  · simp

theorem Entry.Unambiguous.of_at? {entry found : Entry} (h : entry.Unambiguous)
    {names : List String} (hfound : entry.at? names = some found) : found.Unambiguous := by
  induction names generalizing entry with
  | nil =>
    obtain rfl := Option.some.inj hfound
    exact h
  | cons name rest ih =>
    obtain ⟨entries, next, rfl, hnext, hrest⟩ := Entry.exists_of_at?_cons hfound
    exact ih (entriesUnambiguous_iff.mp h.2 _ (mem_of_lookup hnext)) hrest

/-! ## The files of an entry -/

mutual
theorem exists_at?_of_mem_filesFrom (trail : List String) :
    ∀ entry : Entry, entry.Unambiguous → ∀ file ∈ entry.filesFrom trail,
      ∃ names, file.1 = trail ++ names ∧ entry.at? names = some (.file file.2)
  | .file data => by
    intro _ file hfile
    obtain rfl := List.mem_singleton.mp hfile
    exact ⟨[], (List.append_nil trail).symm, rfl⟩
  | .folder entries => by
    intro h file hfile
    obtain ⟨name, entry, names, hmem, htrail, hat⟩ :=
      exists_mem_of_mem_entriesFilesFrom trail entries h.2 file hfile
    exact ⟨name :: names, htrail,
      at?_folder_cons.mpr ⟨entry, (lookup_eq_some_iff_mem h.1).mpr hmem, hat⟩⟩
  | .link _ => fun _ _ hfile => absurd hfile List.not_mem_nil
  | .pipe => fun _ _ hfile => absurd hfile List.not_mem_nil

theorem exists_mem_of_mem_entriesFilesFrom (trail : List String) :
    ∀ entries : List (String × Entry), EntriesUnambiguous entries →
      ∀ file ∈ entriesFilesFrom trail entries, ∃ name entry names, (name, entry) ∈ entries ∧
        file.1 = trail ++ name :: names ∧ entry.at? names = some (.file file.2)
  | [] => fun _ _ hfile => absurd hfile List.not_mem_nil
  | (name, entry) :: rest => by
    intro h file hfile
    rcases List.mem_append.mp hfile with hfirst | hrest
    · obtain ⟨names, htrail, hat⟩ :=
        exists_at?_of_mem_filesFrom (trail ++ [name]) entry h.1 file hfirst
      exact ⟨name, entry, names, List.mem_cons_self .., by rw [htrail]; simp, hat⟩
    · obtain ⟨other, found, names, hmem, htrail, hat⟩ :=
        exists_mem_of_mem_entriesFilesFrom trail rest h.2 file hrest
      exact ⟨other, found, names, List.mem_cons_of_mem _ hmem, htrail, hat⟩
end

/-- **The files of an entry** are those that names lead to. -/
theorem mem_filesFrom_iff {entry : Entry} (h : entry.Unambiguous) {names : List String}
    {data : Bytes} : (names, data) ∈ entry.filesFrom [] ↔ entry.at? names = some (.file data) := by
  constructor
  · intro hmem
    obtain ⟨others, hnames, hat⟩ := exists_at?_of_mem_filesFrom [] entry h _ hmem
    obtain rfl : names = others := hnames
    exact hat
  · exact mem_filesFrom_of_at? []

mutual
/-- No two files of an entry are reached by the same names. -/
theorem nodup_trails (trail : List String) :
    ∀ entry : Entry, entry.Unambiguous → ((entry.filesFrom trail).map (·.1)).Nodup
  | .file _ => fun _ => List.nodup_singleton _
  | .folder entries => fun h => nodup_entriesTrails trail entries h.1 h.2
  | .link _ => fun _ => List.nodup_nil
  | .pipe => fun _ => List.nodup_nil

theorem nodup_entriesTrails (trail : List String) :
    ∀ entries : List (String × Entry), (entries.map (·.1)).Nodup → EntriesUnambiguous entries →
      ((entriesFilesFrom trail entries).map (·.1)).Nodup
  | [] => fun _ _ => List.nodup_nil
  | (name, entry) :: rest => by
    intro hnames h
    obtain ⟨hnew, hothers⟩ := List.nodup_cons.mp hnames
    rw [entriesFilesFrom, List.map_append]
    refine (nodup_trails _ entry h.1).append (nodup_entriesTrails trail rest hothers h.2) ?_
    -- trails into the first entry go on with its name, which no other entry has
    intro names hfirst hrest
    obtain ⟨file, hfile, rfl⟩ := List.mem_map.mp hfirst
    obtain ⟨other, hother, hsame⟩ := List.mem_map.mp hrest
    obtain ⟨below, htrail, -⟩ := exists_at?_of_mem_filesFrom _ entry h.1 file hfile
    obtain ⟨second, found, names, hmem, hsecond, -⟩ :=
      exists_mem_of_mem_entriesFilesFrom trail rest h.2 other hother
    rw [← hsame, hsecond, List.append_assoc, List.append_cancel_left_eq] at htrail
    obtain rfl : second = name := (List.cons.inj htrail).1
    exact hnew (List.mem_map.mpr ⟨_, hmem, rfl⟩)
end

end DiscPatch.Host
