import DiscPatch.Proofs.Host.Descent

/-!
# Where walks lead

* `Sound` — a walk that finds an entry finds it where it says, in the tree of the file system;
* `sound_walk`, `at?_of_list` — all walks are sound, however many links they follow, so a folder
  that is listed is a folder of the tree;
* `Entry.Named`, `FileSystem.Named` — what holds of every name in a tree;
* `named_of_list` — it holds of every name in a folder that is listed.
-/

namespace DiscPatch.Host

variable {fs : FileSystem} {follow : Bool}

/-! ## Walks -/

/-- An entry that was found stands in the tree at the place that was found. -/
def Sound (fs : FileSystem) (result : Except OsCode Place) : Prop :=
  ∀ place entry, result = .ok place → place.entry = some entry → fs.at? place.trail = some entry

theorem sound_error (code : OsCode) : Sound fs (.error code) := by
  intro place entry hplace
  cases hplace

theorem sound_at (trail : List String) : Sound fs (.ok ⟨trail, fs.at? trail⟩) := by
  intro place entry hplace hentry
  cases hplace
  exact hentry

theorem sound_missing (trail : List String) : Sound fs (.ok ⟨trail, none⟩) := by
  intro place entry hplace hentry
  cases hplace
  cases hentry

theorem sound_stride {onLink : List String → String → List String → Except OsCode Place}
    (h : ∀ trail target rest, Sound fs (onLink trail target rest)) (trail parts : List String) :
    Sound fs (fs.stride follow onLink trail parts) := by
  induction parts generalizing trail with
  | nil => exact sound_at trail
  | cons part rest ih =>
    rw [FileSystem.stride]
    split
    · exact ih trail
    split
    · exact ih trail.dropLast
    split
    · exact sound_error _
    rcases hnext : fs.at? (trail ++ [part]) with _ | entry
    · dsimp only
      split
      · exact sound_missing _
      · exact sound_error _
    · have hfound : Sound fs (.ok ⟨trail ++ [part], some entry⟩) :=
        hnext ▸ sound_at (trail ++ [part])
      cases entry with
      | folder entries => exact ih (trail ++ [part])
      | link target =>
        dsimp only
        split
        · exact hfound
        · exact h trail target rest
      | file data =>
        dsimp only
        split
        · exact hfound
        · exact sound_error _
      | pipe =>
        dsimp only
        split
        · exact hfound
        · exact sound_error _

theorem sound_walkFrom (budget : Nat) (trail parts : List String) :
    Sound fs (fs.walkFrom follow budget trail parts) := by
  -- a stride uses up the names; at a link the rest of the walk has a smaller budget
  induction budget generalizing trail parts with
  | zero => exact sound_stride (fun _ _ _ => sound_error _) trail parts
  | succ budget ih =>
    refine sound_stride (fun trail target rest => ?_) trail parts
    split
    · exact sound_error _
    · exact ih _ _

/-- **Walks are sound.** -/
theorem sound_walk (path : String) : Sound fs (fs.walk follow path) := by
  rw [FileSystem.walk]
  split
  · exact sound_error _
  split
  · exact sound_error _
  · exact sound_walkFrom _ _ _

theorem at?_of_find {path : String} {entry : Entry} (h : fs.find follow path = .ok entry) :
    ∃ trail, fs.at? trail = some entry := by
  rw [FileSystem.find] at h
  split at h
  · cases h
  · rcases hwalk : fs.walk follow path with code | ⟨trail, _ | found⟩
    · rw [hwalk] at h
      cases h
    · rw [hwalk] at h
      cases h
    · rw [hwalk] at h
      cases h
      exact ⟨trail, sound_walk path ⟨trail, some entry⟩ entry hwalk rfl⟩

theorem find_of_list {path : String} {entries : List (String × Entry)}
    (h : fs.list path = .ok entries) : fs.find true path = .ok (.folder entries) := by
  rw [FileSystem.list] at h
  split at h
  · cases h
  · next hfind =>
    cases h
    exact hfind
  · cases h

/-- A folder that is listed is a folder of the tree. -/
theorem at?_of_list {path : String} {entries : List (String × Entry)}
    (h : fs.list path = .ok entries) : ∃ trail, fs.at? trail = some (.folder entries) :=
  at?_of_find (find_of_list h)

/-! ## Names -/

mutual
/-- Every name in the entry satisfies `P`. -/
def Entry.Named (P : String → Prop) : Entry → Prop
  | .folder entries => EntriesNamed P entries
  | .file _ | .link _ | .pipe => True

/-- Every name among the entries, and in them, satisfies `P`. -/
def EntriesNamed (P : String → Prop) : List (String × Entry) → Prop
  | [] => True
  | (name, entry) :: rest => P name ∧ entry.Named P ∧ EntriesNamed P rest
end

/-- Every name in the file system satisfies `P`. -/
def FileSystem.Named (P : String → Prop) (fs : FileSystem) : Prop :=
  fs.top.Named P

variable {P : String → Prop}

theorem entriesNamed_iff {entries : List (String × Entry)} :
    EntriesNamed P entries ↔ ∀ entry ∈ entries, P entry.1 ∧ entry.2.Named P := by
  induction entries with
  | nil => simp [EntriesNamed]
  | cons entry rest ih =>
    obtain ⟨name, entry⟩ := entry
    simp [EntriesNamed, ih, and_assoc]

theorem Entry.Named.of_at? {entry found : Entry} (h : entry.Named P) {names : List String}
    (hfound : entry.at? names = some found) : found.Named P := by
  induction names generalizing entry with
  | nil =>
    obtain rfl := Option.some.inj hfound
    exact h
  | cons name rest ih =>
    obtain ⟨entries, next, rfl, hnext, hrest⟩ := Entry.exists_of_at?_cons hfound
    exact ih (entriesNamed_iff.mp h _ (mem_of_lookup hnext)).2 hrest

/-- What holds of every name in a file system holds of every name in a folder that is listed. -/
theorem named_of_list (h : fs.Named P) {path : String} {entries : List (String × Entry)}
    (hlist : fs.list path = .ok entries) : EntriesNamed P entries := by
  obtain ⟨trail, hfound⟩ := at?_of_list hlist
  exact h.of_at? hfound

end DiscPatch.Host
