import DiscPatch.Proofs.Disc.Trails

/-!
# Trees in which names tell children apart

Names that differ in the case of `A` to `Z` only count as one name, so a folder that holds two such
names hides the second child behind the first. No lookup brings this about: what it creates has a
name that nothing beside it has.

* `sameName_iff_split` — two paths count as one exactly if their components do;
* `Distinct` — no folder has two children of the same name;
* `distinct_append`, `distinct_replace`, `distinct_concat` — lists of nodes put together;
* `distinct_modifyAt`, `Reaching.distinct` — replacing a file under its own name and following a
  path keep children apart.
-/

namespace DiscPatch

open DiscPatch.Text (split splitChars joinChars_splitChars foldAscii foldAsciiChar)

/-! ## Names that count as one -/

theorem sameName_iff {a b : String} : sameName a b ↔ foldAscii a = foldAscii b :=
  beq_iff_eq

theorem sameName_self (a : String) : sameName a a :=
  sameName_iff.mpr rfl

theorem sameName_symm {a b : String} (h : sameName a b) : sameName b a :=
  sameName_iff.mpr (sameName_iff.mp h).symm

theorem sameName_trans {a b c : String} (hab : sameName a b) (hbc : sameName b c) : sameName a c :=
  sameName_iff.mpr ((sameName_iff.mp hab).trans (sameName_iff.mp hbc))

/-- Only capital letters change when they are folded, and they become small letters. -/
theorem eq_of_foldAsciiChar {c d : Char} (hd : d.toNat < 0x61) (h : foldAsciiChar c = d) :
    c = d := by
  rw [foldAsciiChar] at h
  split at h
  · next hrange =>
    have hvalid : (c.toNat + 0x20).isValidChar := .inl (by omega)
    rw [Char.ofNat, dif_pos hvalid] at h
    have hnat : c.toNat + 0x20 = d.toNat := congrArg Char.toNat h
    omega
  · exact h

/-- Folding leaves separators where they are. -/
theorem splitChars_map_fold (chars : List Char) :
    splitChars '/' (chars.map foldAsciiChar) =
      (splitChars '/' chars).map (·.map foldAsciiChar) := by
  induction chars with
  | nil => rfl
  | cons c rest ih =>
    rw [List.map_cons, splitChars, splitChars, ih]
    by_cases hc : c = '/'
    · subst hc
      rfl
    · have hfold : foldAsciiChar c ≠ '/' := fun hfold => hc (eq_of_foldAsciiChar (by decide) hfold)
      rw [if_neg hc, if_neg hfold]
      cases splitChars '/' rest <;> rfl

theorem map_foldAscii_split (path : String) :
    (split '/' path).map foldAscii = splitChars '/' (foldAscii path) := by
  rw [split, List.map_map, foldAscii, splitChars_map_fold]
  exact List.map_congr_left fun part _ => congrArg (List.map foldAsciiChar) String.toList_ofList

theorem forall₂_sameName_iff {names others : List String} :
    List.Forall₂ (fun name other => sameName name other) names others ↔
      names.map foldAscii = others.map foldAscii := by
  have hequal : names.map foldAscii = others.map foldAscii ↔
      List.Forall₂ (· = ·) (names.map foldAscii) (others.map foldAscii) := by
    rw [List.forall₂_eq_eq_eq]
  rw [hequal, List.forall₂_map_left_iff, List.forall₂_map_right_iff]
  simp only [sameName_iff]

/-- **Paths count as one if their components do**, one by one. -/
theorem sameName_iff_split {path other : String} :
    sameName path other ↔
      List.Forall₂ (fun name part => sameName name part) (split '/' path) (split '/' other) := by
  rw [forall₂_sameName_iff, map_foldAscii_split, map_foldAscii_split, sameName_iff]
  refine ⟨congrArg _, fun h => ?_⟩
  have hjoined := congrArg (Text.joinChars '/') h
  rwa [joinChars_splitChars, joinChars_splitChars] at hjoined

/-! ## Children that are told apart -/

mutual
/-- No folder in the node has two children of the same name. -/
def Node.Distinct : Node → Prop
  | .file _ => True
  | .folder _ children => Distinct children

/-- No two of the nodes have the same name, and neither have two children of a folder below them. -/
def Distinct : List Node → Prop
  | [] => True
  | node :: rest =>
    (∀ other ∈ rest, ¬ sameName node.name other.name) ∧ node.Distinct ∧ Distinct rest
end

theorem distinct_append {front back : List Node} :
    Distinct (front ++ back) ↔ Distinct front ∧ Distinct back ∧
      ∀ first ∈ front, ∀ second ∈ back, ¬ sameName first.name second.name := by
  induction front with
  | nil => simp [Distinct]
  | cons node rest ih =>
    simp only [List.cons_append, Distinct, ih, List.forall_mem_append, List.forall_mem_cons]
    constructor
    · rintro ⟨⟨hrest, hback⟩, hnode, hfront, hbelow, hacross⟩
      exact ⟨⟨hrest, hnode, hfront⟩, hbelow, hback, hacross⟩
    · rintro ⟨⟨hrest, hnode, hfront⟩, hbelow, hback, hacross⟩
      exact ⟨⟨hrest, hback⟩, hnode, hfront, hbelow, hacross⟩

/-- A node may be replaced by one of its name. -/
theorem distinct_replace {front back : List Node} {old new : Node}
    (h : Distinct (front ++ old :: back)) (hname : new.name = old.name) (hnew : new.Distinct) :
    Distinct (front ++ new :: back) := by
  obtain ⟨hfront, ⟨hbeside, -, hback⟩, hacross⟩ := distinct_append.mp h
  refine distinct_append.mpr ⟨hfront, ⟨by rwa [hname], hnew, hback⟩, fun first hfirst => ?_⟩
  obtain ⟨hold, hothers⟩ := List.forall_mem_cons.mp (hacross first hfirst)
  exact List.forall_mem_cons.mpr ⟨by rwa [hname], hothers⟩

/-- A node of a new name may be put at the end. -/
theorem distinct_concat {nodes : List Node} {new : Node} (h : Distinct nodes)
    (hname : ∀ other ∈ nodes, ¬ sameName other.name new.name) (hnew : new.Distinct) :
    Distinct (nodes ++ [new]) :=
  distinct_append.mpr ⟨h, ⟨by simp, hnew, trivial⟩,
    fun first hfirst => List.forall_mem_singleton.mpr (hname first hfirst)⟩

theorem Distinct.node {front back : List Node} {node : Node}
    (h : Distinct (front ++ node :: back)) : node.Distinct :=
  (distinct_append.mp h).2.1.2.1

/-- The nodes in front of one do not have its name, in whatever case. -/
theorem Distinct.front {front back : List Node} {node : Node} {name : String}
    (h : Distinct (front ++ node :: back)) (hname : sameName node.name name) :
    ∀ other ∈ front, ¬ sameName other.name name :=
  fun other hother hsame => (distinct_append.mp h).2.2 other hother node (List.mem_cons_self ..)
    (sameName_trans hsame (sameName_symm hname))

/-! ## What lookups and replacements do -/

theorem distinct_modifyAt {place : Location} {nodes : List Node} {file new : File}
    (hfile : fileAt? place nodes = some file) (hname : new.name = file.name) (h : Distinct nodes) :
    Distinct (modifyAt new place nodes) := by
  induction place generalizing nodes with
  | nil => cases hfile
  | cons index place ih =>
    rcases fileAt?_cases hfile with ⟨front, back, hplace, rfl⟩ |
      ⟨front, back, name, below, rest, hplace, rfl, hbelow⟩
    · rw [hplace, modifyAt_here]
      exact distinct_replace h hname trivial
    · obtain ⟨rfl, rfl⟩ := List.cons.inj hplace
      rw [modifyAt_below]
      exact distinct_replace h rfl (ih hbelow h.node)

/-- **Following a path keeps children apart.** -/
theorem Reaching.distinct {create : Bool} {parts : List String} {nodes after : List Node}
    {answer : Except LookupFault Location} (h : Reaching create parts nodes after answer)
    (hnodes : Distinct nodes) : Distinct after := by
  induction h with
  | folder _ _ _ _ ih => exact distinct_replace hnodes rfl (ih hnodes.node)
  | newFile _ _ hnew => exact distinct_concat hnodes hnew trivial
  | newFolder _ _ hnew _ ih => exact distinct_concat hnodes hnew (ih trivial)
  | _ => exact hnodes

end DiscPatch
