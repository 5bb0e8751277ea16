import DiscPatch.Host.Access

/-!
# Walks that go down

A path made of proper names leads down from where it starts, as long as there is no link on the way.
What such a walk meets is decided by the folder it starts from.

* `mem_of_lookup`, `lookup_eq_some_iff_mem` — what stands under a name in a folder, of the host or
  kept in memory;
* `Entry.LooksLike` — two entries look the same from where they stand;
* `FileSystem.AlikeBelow` — two folders look the same wherever proper names lead to from them;
* `stride_folders`, `stride_link` — a walk through folders, and one to a link that is not followed;
* `endAlike_stride` — from folders that are alike, walks without links end alike.
-/

namespace DiscPatch

/-! ## Entries by name -/

section Entries

variable {α : Type} {name : String} {item : α} {items : List (String × α)}

theorem lookup_cons_if (name other : String) (item : α) (rest : List (String × α)) :
    ((other, item) :: rest).lookup name =
      if other = name then some item else rest.lookup name := by
  by_cases h : other = name
  · rw [if_pos h, h, List.lookup_cons_self]
  · rw [if_neg h, List.lookup_cons, beq_false_of_ne (Ne.symm h)]

/-- What is found by a name stands under it. -/
theorem mem_of_lookup (h : items.lookup name = some item) : (name, item) ∈ items := by
  obtain ⟨front, back, rfl, -⟩ := List.lookup_eq_some_iff.mp h
  exact List.mem_append_right front List.mem_cons_self

theorem lookup_eq_none_iff_notMem : items.lookup name = none ↔ name ∉ items.map (·.1) := by
  rw [List.lookup_eq_none_iff, List.mem_map]
  constructor
  · rintro h ⟨pair, hpair, rfl⟩
    exact absurd (h pair hpair) (by simp)
  · intro h pair hpair
    exact bne_iff_ne.mpr fun hname => h ⟨pair, hpair, hname.symm⟩

/-- If no name comes twice, all that stands under a name is found by it. -/
theorem lookup_eq_some_iff_mem (hdistinct : (items.map (·.1)).Nodup) :
    items.lookup name = some item ↔ (name, item) ∈ items := by
  refine ⟨mem_of_lookup, fun hmem => ?_⟩
  obtain ⟨front, back, rfl⟩ := List.append_of_mem hmem
  refine List.lookup_eq_some_iff.mpr ⟨front, back, rfl, fun pair hpair => ?_⟩
  rw [List.map_append, List.map_cons, List.nodup_append] at hdistinct
  have hne := hdistinct.2.2 pair.1 (List.mem_map_of_mem hpair) name List.mem_cons_self
  exact bne_iff_ne.mpr (Ne.symm hne)

end Entries

namespace Host

/-! ## Going down through a tree -/

theorem Entry.at?_append (entry : Entry) (front back : List String) :
    entry.at? (front ++ back) = (entry.at? front).bind (·.at? back) := by
  induction front generalizing entry with
  | nil => rfl
  | cons name rest ih =>
    rw [List.cons_append, at?, at?]
    cases entry.child? name with
    | none => rfl
    | some next => exact ih next

/-- The first of the names that lead somewhere is the name of an entry of a folder. -/
theorem Entry.exists_of_at?_cons {entry found : Entry} {name : String} {names : List String}
    (h : entry.at? (name :: names) = some found) :
    ∃ entries next, entry = .folder entries ∧ entries.lookup name = some next ∧
      next.at? names = some found := by
  rw [at?] at h
  cases entry with
  | folder entries =>
    rw [child?] at h
    rcases hnext : entries.lookup name with _ | next
    · rw [hnext] at h
      cases h
    · rw [hnext] at h
      exact ⟨entries, next, rfl, hnext, h⟩
  | file data => cases h
  | link target => cases h
  | pipe => cases h

namespace FileSystem

variable {fs : FileSystem}

theorem at?_append (trail names : List String) :
    fs.at? (trail ++ names) = (fs.at? trail).bind (·.at? names) :=
  fs.top.at?_append trail names

/-- Whatever has something below it is a folder. -/
theorem folder_of_at?_append {trail names : List String} {entry : Entry}
    (h : fs.at? (trail ++ names) = some entry) (hnames : names ≠ []) :
    ∃ entries, fs.at? trail = some (.folder entries) := by
  rw [at?_append] at h
  obtain ⟨found, hfound, hbelow⟩ := Option.bind_eq_some_iff.mp h
  obtain ⟨name, rest, rfl⟩ := List.exists_cons_of_ne_nil hnames
  obtain ⟨entries, -, rfl, -⟩ := Entry.exists_of_at?_cons hbelow
  exact ⟨entries, hfound⟩

theorem at?_name {trail : List String} {entries : List (String × Entry)}
    (h : fs.at? trail = some (.folder entries)) (name : String) :
    fs.at? (trail ++ [name]) = entries.lookup name := by
  rw [at?_append, h, Option.bind_some, Entry.at?, Entry.child?]
  cases entries.lookup name <;> rfl

end FileSystem

/-! ## What can be seen -/

/-- Two entries look the same as long as nobody goes into them or through them. -/
inductive Entry.LooksLike : Entry → Entry → Prop where
  /-- files with the same bytes -/
  | file (data : Bytes) : LooksLike (.file data) (.file data)
  /-- folders, whatever is in them -/
  | folder (entries₁ entries₂ : List (String × Entry)) :
    LooksLike (.folder entries₁) (.folder entries₂)
  /-- links, wherever they lead -/
  | link (target₁ target₂ : String) : LooksLike (.link target₁) (.link target₂)
  /-- pipes -/
  | pipe : LooksLike .pipe .pipe

theorem Entry.looksLike_self (entry : Entry) : entry.LooksLike entry := by
  cases entry <;> constructor

/-- The same names lead to what looks the same from the one place as from the other. -/
def FileSystem.AlikeBelow (fs₁ : FileSystem) (trail₁ : List String) (fs₂ : FileSystem)
    (trail₂ : List String) : Prop :=
  ∀ names, Option.Rel Entry.LooksLike (fs₁.at? (trail₁ ++ names)) (fs₂.at? (trail₂ ++ names))

/-- A name that a walk goes down by. -/
def Descends (name : String) : Prop :=
  name ≠ "." ∧ name ≠ ".."

instance (name : String) : Decidable (Descends name) :=
  inferInstanceAs (Decidable (_ ∧ _))

/-- A name that is too long for the host. -/
def isLongName (name : String) : Bool :=
  maxName < name.utf8ByteSize

section Strides

variable {fs fs₁ fs₂ : FileSystem} {follow : Bool}
  {onLink onLink₁ onLink₂ : List String → String → List String → Except OsCode Place}
  {trail trail₁ trail₂ : List String}

theorem FileSystem.AlikeBelow.name (h : fs₁.AlikeBelow trail₁ fs₂ trail₂) (name : String) :
    fs₁.AlikeBelow (trail₁ ++ [name]) fs₂ (trail₂ ++ [name]) := by
  intro names
  rw [List.append_assoc, List.append_assoc]
  exact h ([name] ++ names)

/-! ## Strides -/

/-- One step by a name that leads down. -/
theorem stride_cons {name : String} {rest : List String} (hname : Descends name)
    (hlong : isLongName name = false) :
    fs.stride follow onLink trail (name :: rest) =
      match fs.at? (trail ++ [name]) with
      | none => if rest = [] then .ok ⟨trail ++ [name], none⟩ else .error .noEntry
      | some (.folder _) => fs.stride follow onLink (trail ++ [name]) rest
      | some (.link target) =>
        if rest = [] ∧ follow = false then .ok ⟨trail ++ [name], some (.link target)⟩
        else onLink trail target rest
      | some entry =>
        if rest = [] then .ok ⟨trail ++ [name], some entry⟩ else .error .notFolder := by
  have hfits : ¬ maxName < name.utf8ByteSize := of_decide_eq_false hlong
  exact (if_neg hname.1).trans ((if_neg hname.2).trans (if_neg hfits))

theorem stride_cons_of_long {name : String} {rest : List String} (hname : Descends name)
    (hlong : isLongName name = true) :
    fs.stride follow onLink trail (name :: rest) = .error .nameTooLong := by
  rw [FileSystem.stride, if_neg hname.1, if_neg hname.2, if_pos (of_decide_eq_true hlong)]

/-- **Walks through folders.** Only the length of the names matters. -/
theorem stride_folders {names rest : List String} {entries : List (String × Entry)}
    (hfolder : fs.at? (trail ++ names) = some (.folder entries))
    (hnames : ∀ name ∈ names, Descends name) :
    fs.stride follow onLink trail (names ++ rest) =
      if names.any isLongName then .error .nameTooLong
      else fs.stride follow onLink (trail ++ names) rest := by
  induction names generalizing trail with
  | nil => rw [List.append_nil]; rfl
  | cons name others ih =>
    obtain ⟨hname, hothers⟩ := List.forall_mem_cons.mp hnames
    rw [List.cons_append, List.any_cons]
    cases hlong : isLongName name with
    | true => exact stride_cons_of_long hname hlong
    | false =>
      rw [List.append_cons trail name others] at hfolder
      obtain ⟨found, hfound⟩ : ∃ found, fs.at? (trail ++ [name]) = some (.folder found) := by
        by_cases hlast : others = []
        · subst hlast
          rw [List.append_nil] at hfolder
          exact ⟨entries, hfolder⟩
        · exact FileSystem.folder_of_at?_append hfolder hlast
      rw [stride_cons hname hlong, hfound, Bool.false_or, List.append_cons trail name others]
      exact ih hfolder hothers

/-- A link that is not followed is where the walk to it ends. -/
theorem stride_link {names : List String} {target : String}
    (hlink : fs.at? (trail ++ names) = some (.link target)) (hne : names ≠ [])
    (hnames : ∀ name ∈ names, Descends name) (hfits : names.any isLongName = false) :
    fs.stride false onLink trail names = .ok ⟨trail ++ names, some (.link target)⟩ := by
  obtain ⟨front, last, rfl⟩ := (List.eq_nil_or_concat names).resolve_left hne
  rw [List.concat_eq_append] at hlink hnames hfits ⊢
  rw [← List.append_assoc] at hlink ⊢
  obtain ⟨entries, hfolder⟩ := FileSystem.folder_of_at?_append hlink (List.cons_ne_nil _ _)
  obtain ⟨hfront, hlast⟩ := List.forall_mem_append.mp hnames
  rw [List.any_append, Bool.or_eq_false_iff] at hfits
  rw [stride_folders hfolder hfront, hfits.1, if_neg Bool.false_ne_true,
    stride_cons (hlast last (List.mem_singleton_self _)) (by simpa using hfits.2), hlink]
  rfl

/-- Two walks along the same names end alike: both fail for the same reason, or both get to the end
of the names. -/
def EndAlike (fs₁ : FileSystem) (trail₁ : List String) (fs₂ : FileSystem) (trail₂ : List String)
    (result₁ result₂ : Except OsCode Place) : Prop :=
  (∃ code, result₁ = .error code ∧ result₂ = .error code) ∨
    result₁ = .ok ⟨trail₁, fs₁.at? trail₁⟩ ∧ result₂ = .ok ⟨trail₂, fs₂.at? trail₂⟩

/-- Where a walk can only end, it ends alike. -/
theorem endAlike_last {rest : List String} {entry₁ entry₂ : Option Entry} (code : OsCode)
    (h₁ : fs₁.at? trail₁ = entry₁) (h₂ : fs₂.at? trail₂ = entry₂) :
    EndAlike fs₁ (trail₁ ++ rest) fs₂ (trail₂ ++ rest)
      (if rest = [] then .ok ⟨trail₁, entry₁⟩ else .error code)
      (if rest = [] then .ok ⟨trail₂, entry₂⟩ else .error code) := by
  subst h₁ h₂
  by_cases hrest : rest = []
  · subst hrest
    rw [List.append_nil, List.append_nil]
    exact .inr ⟨rfl, rfl⟩
  · exact .inl ⟨code, if_neg hrest, if_neg hrest⟩

/-- **From folders that are alike, walks end alike** if they meet no link that they would follow. -/
theorem endAlike_stride {names : List String} (halike : fs₁.AlikeBelow trail₁ fs₂ trail₂)
    (hnames : ∀ name ∈ names, Descends name)
    (hlinks : ∀ front, front <+: names → front ≠ [] → (front = names → follow = true) →
      front.any isLongName = false → ∀ target, fs₁.at? (trail₁ ++ front) ≠ some (.link target)) :
    EndAlike fs₁ (trail₁ ++ names) fs₂ (trail₂ ++ names)
      (fs₁.stride follow onLink₁ trail₁ names) (fs₂.stride follow onLink₂ trail₂ names) := by
  induction names generalizing trail₁ trail₂ with
  | nil =>
    rw [List.append_nil, List.append_nil]
    exact .inr ⟨rfl, rfl⟩
  | cons name rest ih =>
    obtain ⟨hname, hrest⟩ := List.forall_mem_cons.mp hnames
    cases hlong : isLongName name with
    | true =>
      exact .inl ⟨_, stride_cons_of_long hname hlong, stride_cons_of_long hname hlong⟩
    | false =>
      rw [stride_cons hname hlong, stride_cons hname hlong, List.append_cons trail₁ name rest,
        List.append_cons trail₂ name rest]
      have hstep := halike [name]
      generalize h₁ : fs₁.at? (trail₁ ++ [name]) = found₁ at hstep
      generalize h₂ : fs₂.at? (trail₂ ++ [name]) = found₂ at hstep
      cases hstep with
      | none => exact endAlike_last .noEntry h₁ h₂
      | some hlooks =>
        cases hlooks with
        | file | pipe => exact endAlike_last .notFolder h₁ h₂
        | folder =>
          refine ih (halike.name name) hrest fun front hfront _ hfollow hfits target => ?_
          rw [← List.append_cons]
          refine hlinks (name :: front) (List.cons_prefix_cons.mpr ⟨rfl, hfront⟩)
            (List.cons_ne_nil _ _) (fun h => hfollow (List.cons.inj h).2) ?_ target
          rw [List.any_cons, hlong, hfits]
          rfl
        | link target =>
          -- it is not a link that would be followed, so the walk ends here
          have hlink : ¬ ([name] = name :: rest → follow = true) := fun hfollow =>
            hlinks [name] ⟨rest, rfl⟩ (List.cons_ne_nil _ _) hfollow
              (by rw [List.any_cons, hlong]; rfl) target h₁
          obtain ⟨hlast, hfollow⟩ := Classical.not_imp.mp hlink
          obtain rfl := (List.cons.inj hlast).2
          have hstop : ([] : List String) = [] ∧ follow = false :=
            ⟨rfl, eq_false_of_ne_true hfollow⟩
          rw [List.append_nil, List.append_nil]
          exact .inr ⟨(if_pos hstop).trans (h₁ ▸ rfl), (if_pos hstop).trans (h₂ ▸ rfl)⟩

theorem exists_walkFrom_eq (budget : Nat) :
    ∃ onLink, fs.walkFrom follow budget = fs.stride follow onLink := by
  cases budget with
  | zero => exact ⟨_, rfl⟩
  | succ budget => exact ⟨_, rfl⟩

end Strides

end Host

end DiscPatch
