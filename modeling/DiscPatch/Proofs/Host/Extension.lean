import DiscPatch.Proofs.Host.Descent

/-!
# Files that get longer

A walk looks at folders and links and never at the bytes of a file. So a path leads to the same
place whatever bytes are written to a file, and what is read of other files is the same.

* `Entry.put_put`, `Entry.put_self` — an entry that is replaced twice, and one that is replaced by
  itself;
* `Entry.SameBut`, `FileSystem.SameBut` — trees that differ in the bytes of files only;
* `sameEnd_walk` — every path leads to the same place in both;
* `sameBut_put` — writing to a file changes the bytes of this file only;
* `FileSystem.extend_extend` — bytes that are added in two parts;
* `readFile_put_of_ne` — what is read of other files is the same.
-/

namespace DiscPatch.Host

/-! ## Replacing an entry -/

section Entries

variable {name : String} {entry : Entry} {entries : List (String × Entry)}

theorem lookup_insert (name other : String) (entry : Entry) (entries : List (String × Entry)) :
    (insert name entry entries).lookup other =
      if name = other then some entry else entries.lookup other := by
  induction entries with
  | nil => exact lookup_cons_if other name entry []
  | cons pair rest ih =>
    obtain ⟨first, found⟩ := pair
    rw [insert, lookup_cons_if]
    by_cases h : first = name
    · subst h
      rw [if_pos rfl, lookup_cons_if]
      split
      · rfl
      · rfl
    · rw [if_neg h, lookup_cons_if, ih]
      by_cases hother : first = other
      · rw [if_pos hother, if_pos hother, if_neg (hother ▸ Ne.symm h)]
      · rw [if_neg hother, if_neg hother]

theorem insert_insert (name : String) (old new : Entry) (entries : List (String × Entry)) :
    insert name new (insert name old entries) = insert name new entries := by
  induction entries with
  | nil => exact if_pos rfl
  | cons pair rest ih =>
    obtain ⟨first, found⟩ := pair
    rw [insert, insert]
    by_cases h : first = name
    · rw [if_pos h, if_pos h, insert, if_pos rfl]
    · rw [if_neg h, if_neg h, insert, if_neg h, ih]

theorem insert_of_lookup (h : entries.lookup name = some entry) :
    insert name entry entries = entries := by
  induction entries with
  | nil => cases h
  | cons pair rest ih =>
    obtain ⟨first, found⟩ := pair
    rw [lookup_cons_if] at h
    rw [insert]
    by_cases hfirst : first = name
    · rw [if_pos hfirst] at h ⊢
      obtain rfl := Option.some.inj h
      rw [hfirst]
    · rw [if_neg hfirst] at h ⊢
      rw [ih h]

end Entries

namespace Entry

variable {entry old : Entry} {name : String} {names trail : List String}

theorem put_cons {entries : List (String × Entry)} {next : Entry}
    (h : entries.lookup name = some next) (new : Entry) (names : List String) :
    put new (name :: names) (.folder entries) =
      .folder (insert name (put new names next) entries) := by
  simp only [put, h]

theorem at?_put (h : entry.at? trail = some old) (new : Entry) :
    (put new trail entry).at? trail = some new := by
  induction trail generalizing entry with
  | nil => rfl
  | cons name names ih =>
    obtain ⟨entries, next, rfl, hnext, hold⟩ := exists_of_at?_cons h
    rw [put_cons hnext, at?, child?, lookup_insert, if_pos rfl]
    exact ih hold

/-- Of two entries that are put in the same place, the second stays. -/
theorem put_put (h : entry.at? trail = some old) (first second : Entry) :
    put second trail (put first trail entry) = put second trail entry := by
  induction trail generalizing entry with
  | nil => rfl
  | cons name names ih =>
    obtain ⟨entries, next, rfl, hnext, hold⟩ := exists_of_at?_cons h
    have hput := (lookup_insert name name (put first names next) entries).trans (if_pos rfl)
    rw [put_cons hnext, put_cons hput, put_cons hnext, insert_insert, ih hold]

theorem put_self (h : entry.at? trail = some old) : put old trail entry = entry := by
  induction trail generalizing entry with
  | nil => exact (Option.some.inj h).symm
  | cons name names ih =>
    obtain ⟨entries, next, rfl, hnext, hold⟩ := exists_of_at?_cons h
    rw [put_cons hnext, ih hold, insert_of_lookup hnext]

end Entry

/-! ## Trees that differ in the bytes of files -/

/-- Two entries are the same to a walk, and the bytes of files are as `files` says. -/
inductive Entry.SameBut (files : Bytes → Bytes → Prop) : Entry → Entry → Prop where
  /-- files, with bytes that may differ -/
  | file {data₁ data₂ : Bytes} (h : files data₁ data₂) : SameBut files (.file data₁) (.file data₂)
  /-- folders, whatever is in them -/
  | folder (entries₁ entries₂ : List (String × Entry)) :
    SameBut files (.folder entries₁) (.folder entries₂)
  /-- links to the same target -/
  | link (target : String) : SameBut files (.link target) (.link target)
  /-- pipes -/
  | pipe : SameBut files .pipe .pipe

/-- Two file systems are the same but for the bytes of files; those of the files at a place are as
`files` says of the place. -/
structure FileSystem.SameBut (files : List String → Bytes → Bytes → Prop)
    (fs₁ fs₂ : FileSystem) : Prop where
  /-- relative paths start from the same folder -/
  current : fs₁.current = fs₂.current
  /-- the same names lead to what is the same to a walk -/
  entries : ∀ trail, Option.Rel (Entry.SameBut (files trail)) (fs₁.at? trail) (fs₂.at? trail)

/-- Two walks end in the same place, or fail for the same reason. -/
def SameEnd (fs₁ fs₂ : FileSystem) (result₁ result₂ : Except OsCode Place) : Prop :=
  ∃ trail, EndAlike fs₁ trail fs₂ trail result₁ result₂

/-- Where a path leads, by the names from the top. -/
def FileSystem.end? (fs : FileSystem) (path : String) : Option (List String) :=
  (fs.walk true path).toOption.map (·.trail)

section Walks

variable {files : List String → Bytes → Bytes → Prop} {fs₁ fs₂ : FileSystem} {follow : Bool}

theorem sameEnd_error (code : OsCode) : SameEnd fs₁ fs₂ (.error code) (.error code) :=
  ⟨[], .inl ⟨code, rfl, rfl⟩⟩

theorem sameEnd_stride (h : fs₁.SameBut files fs₂)
    {onLink₁ onLink₂ : List String → String → List String → Except OsCode Place}
    (hlink : ∀ trail target rest,
      SameEnd fs₁ fs₂ (onLink₁ trail target rest) (onLink₂ trail target rest))
    (trail parts : List String) :
    SameEnd fs₁ fs₂ (fs₁.stride follow onLink₁ trail parts)
      (fs₂.stride follow onLink₂ trail parts) := by
  induction parts generalizing trail with
  | nil => exact ⟨trail, .inr ⟨rfl, rfl⟩⟩
  | cons part rest ih =>
    rw [FileSystem.stride, FileSystem.stride]
    split
    · exact ih trail
    split
    · exact ih trail.dropLast
    split
    · exact sameEnd_error _
    have hstep := h.entries (trail ++ [part])
    generalize h₁ : fs₁.at? (trail ++ [part]) = found₁ at hstep
    generalize h₂ : fs₂.at? (trail ++ [part]) = found₂ at hstep
    cases hstep with
    | none => exact ⟨_, endAlike_last .noEntry h₁ h₂⟩
    | some hsame =>
      cases hsame with
      | file | pipe => exact ⟨_, endAlike_last .notFolder h₁ h₂⟩
      | folder => exact ih (trail ++ [part])
      | link target =>
        dsimp only
        split
        · exact ⟨trail ++ [part], .inr ⟨h₁ ▸ rfl, h₂ ▸ rfl⟩⟩
        · exact hlink trail target rest

theorem sameEnd_walkFrom (h : fs₁.SameBut files fs₂) (budget : Nat) (trail parts : List String) :
    SameEnd fs₁ fs₂ (fs₁.walkFrom follow budget trail parts)
      (fs₂.walkFrom follow budget trail parts) := by
  induction budget generalizing trail parts with
  | zero => exact sameEnd_stride h (fun _ _ _ => sameEnd_error _) trail parts
  | succ budget ih =>
    refine sameEnd_stride h (fun trail target rest => ?_) trail parts
    split
    · exact sameEnd_error _
    · exact ih _ _

/-- **The bytes of files make no difference to a walk.** -/
theorem sameEnd_walk (h : fs₁.SameBut files fs₂) (follow : Bool) (path : String) :
    SameEnd fs₁ fs₂ (fs₁.walk follow path) (fs₂.walk follow path) := by
  rw [FileSystem.walk, FileSystem.walk, h.current]
  split
  · exact sameEnd_error _
  split
  · exact sameEnd_error _
  · exact sameEnd_walkFrom h _ _ _

/-- What is read of a path is the same, unless the path leads to a file. -/
theorem FileSystem.SameBut.readFile (h : fs₁.SameBut files fs₂) (path : String) :
    fs₂.readFile path = fs₁.readFile path ∨ ∃ trail data₁ data₂, fs₁.end? path = some trail ∧
      files trail data₁ data₂ ∧ fs₁.readFile path = .ok data₁ ∧ fs₂.readFile path = .ok data₂ := by
  unfold FileSystem.readFile FileSystem.find FileSystem.end?
  cases hasNul path with
  | true => exact .inl rfl
  | false =>
    obtain ⟨trail, ⟨code, h₁, h₂⟩ | ⟨h₁, h₂⟩⟩ := sameEnd_walk h true path
    · rw [h₁, h₂]
      exact .inl rfl
    · rw [h₁, h₂]
      have hend := h.entries trail
      generalize fs₁.at? trail = found₁ at hend
      generalize fs₂.at? trail = found₂ at hend
      cases hend with
      | none => exact .inl rfl
      | some hsame =>
        cases hsame with
        | file hfiles => exact .inr ⟨trail, _, _, rfl, hfiles, rfl, rfl⟩
        | folder | link | pipe => exact .inl rfl

end Walks

/-! ## Writing to a file -/

theorem Entry.rel_sameBut_self {files : Bytes → Bytes → Prop} (h : ∀ data, files data data)
    (found : Option Entry) : Option.Rel (Entry.SameBut files) found found := by
  rcases found with _ | entry
  · exact .none
  refine .some ?_
  cases entry with
  | file data => exact .file (h data)
  | folder entries => exact .folder entries entries
  | link target => exact .link target
  | pipe => exact .pipe

theorem Entry.sameBut_put {entry : Entry} {trail names : List String} {old new : Bytes}
    {files : Bytes → Bytes → Prop} (h : entry.at? trail = some (.file old))
    (hkept : ∀ data, files data data) (hnew : names = trail → files old new) :
    Option.Rel (Entry.SameBut files) (entry.at? names)
      ((put (.file new) trail entry).at? names) := by
  induction trail generalizing entry names with
  | nil =>
    obtain rfl := Option.some.inj h
    cases names with
    | nil => exact .some (.file (hnew rfl))
    | cons name rest => exact .none
  | cons name trail ih =>
    obtain ⟨entries, next, rfl, hnext, hold⟩ := exists_of_at?_cons h
    rw [put_cons hnext]
    cases names with
    | nil => exact .some (.folder _ _)
    | cons other rest =>
      rw [at?, at?, child?, child?, lookup_insert]
      by_cases hother : name = other
      · subst hother
        rw [if_pos rfl, hnext]
        exact ih hold fun hrest => hnew (by rw [hrest])
      · rw [if_neg hother]
        exact rel_sameBut_self hkept _

namespace FileSystem

variable {fs : FileSystem} {trail : List String} {old : Bytes}

theorem top_put (h : fs.at? trail = some (.file old)) (new : Entry) :
    (fs.put trail new).top = Entry.put new trail fs.top := by
  cases trail with
  | nil => cases h
  | cons name names =>
    obtain ⟨entries, next, htop, hnext, -⟩ := Entry.exists_of_at?_cons h
    rw [put, htop, Entry.put_cons hnext]
    rfl

theorem current_put (fs : FileSystem) (trail : List String) (new : Entry) :
    (fs.put trail new).current = fs.current := by
  unfold put
  split
  · rfl
  · rfl

theorem eq_of_top {fs₁ fs₂ : FileSystem} (htop : fs₁.top = fs₂.top)
    (hcurrent : fs₁.current = fs₂.current) : fs₁ = fs₂ := by
  cases fs₁
  cases fs₂
  cases htop
  cases hcurrent
  rfl

/-- **Writing to a file changes its bytes and nothing else.** -/
theorem sameBut_put (h : fs.at? trail = some (.file old)) {new : Bytes}
    {files : List String → Bytes → Bytes → Prop} (hkept : ∀ names data, files names data data)
    (hnew : files trail old new) : fs.SameBut files (fs.put trail (.file new)) where
  current := (fs.current_put trail _).symm
  entries names := by
    rw [at?, at?, top_put h]
    exact Entry.sameBut_put h (hkept names) fun hnames => hnames ▸ hnew

theorem at?_put (h : fs.at? trail = some (.file old)) (new : Entry) :
    (fs.put trail new).at? trail = some new := by
  rw [at?, top_put h]
  exact Entry.at?_put h new

theorem put_put (h : fs.at? trail = some (.file old)) (first second : Bytes) :
    (fs.put trail (.file first)).put trail (.file second) = fs.put trail (.file second) := by
  refine eq_of_top ?_ (by rw [current_put, current_put, current_put])
  rw [top_put (at?_put h (.file first)), top_put h, top_put h, Entry.put_put h]

theorem put_self (h : fs.at? trail = some (.file old)) : fs.put trail (.file old) = fs :=
  eq_of_top (by rw [top_put h, Entry.put_self h]) (current_put ..)

/-! ### Files that get longer -/

theorem extend_of_file (h : fs.at? trail = some (.file old)) (more : Bytes) :
    fs.extend trail more = fs.put trail (.file (old ++ more)) := by
  rw [extend, h]

theorem extend_of_ne (h : ∀ data, fs.at? trail ≠ some (.file data)) (more : Bytes) :
    fs.extend trail more = fs := by
  rw [extend]
  split
  · next data hdata => exact absurd hdata (h data)
  · rfl

theorem extend_nil (fs : FileSystem) (trail : List String) : fs.extend trail [] = fs := by
  rw [extend]
  split
  · next data hdata => rw [List.append_nil, put_self hdata]
  · rfl

theorem extend_extend (fs : FileSystem) (trail : List String) (front back : Bytes) :
    (fs.extend trail front).extend trail back = fs.extend trail (front ++ back) := by
  by_cases h : ∃ data, fs.at? trail = some (.file data)
  · obtain ⟨data, hdata⟩ := h
    rw [extend_of_file hdata, extend_of_file (at?_put hdata _), put_put hdata,
      extend_of_file hdata, List.append_assoc]
  · have hother : ∀ data, fs.at? trail ≠ some (.file data) := fun data hdata => h ⟨data, hdata⟩
    rw [extend_of_ne hother, extend_of_ne hother, extend_of_ne hother]

/-- A path that does not lead to the file that is written to is read as before. -/
theorem readFile_put_of_ne (h : fs.at? trail = some (.file old)) (new : Bytes) {path : String}
    (hpath : fs.end? path ≠ some trail) :
    (fs.put trail (.file new)).readFile path = fs.readFile path := by
  have hsame : fs.SameBut (fun names before after => names = trail ∨ before = after)
      (fs.put trail (.file new)) := sameBut_put h (fun _ _ => .inr rfl) (.inl rfl)
  rcases hsame.readFile path with hread | ⟨names, data₁, data₂, hend, hdata, hread₁, hread₂⟩
  · exact hread
  · rcases hdata with rfl | rfl
    · exact absurd hend hpath
    · rw [hread₁, hread₂]

end FileSystem

end DiscPatch.Host
