import DiscPatch.Patch.Schema

/-!
# What a document that is in order says

A record is put together from the checks of its fields, and all flaws are kept. It is in order
exactly if every field is.

* `Fields.get?_set`, `Fields.get?_erase` — what a field is after a change of another;
* `Checked.also_eq_ok_iff`, `Checked.under_eq_ok_iff` — a record from its parts;
* `Check.of_optional`, `Check.exists_of_mem_listOf` — what holds of every value that passes a check
  holds of the fields and the items that were checked with it.
-/

namespace DiscPatch

/-! ## Fields -/

namespace Fields

theorem get?_set (name other : String) (value : Document) (fields : Fields) :
    get? other (set name value fields) = if other = name then some value else get? other fields := by
  induction fields with
  | nil => simp [set, get?, eq_comm]
  | cons field rest ih =>
    obtain ⟨first, old⟩ := field
    rw [set]
    split
    · next hfirst =>
      subst hfirst
      simp only [get?]
      grind
    · next hfirst =>
      simp only [get?, ih]
      grind

theorem get?_erase (name other : String) (fields : Fields) :
    get? other (erase name fields) = if other = name then none else get? other fields := by
  induction fields with
  | nil => simp [erase, get?]
  | cons field rest ih =>
    obtain ⟨first, value⟩ := field
    have hrest : erase name ((first, value) :: rest) =
        if first = name then erase name rest else (first, value) :: erase name rest := by
      by_cases h : first = name <;> simp [erase, h]
    rw [hrest]
    split
    · next hfirst =>
      rw [ih, get?]
      grind
    · next hfirst =>
      rw [get?, ih, get?]
      grind

end Fields

/-! ## Records -/

namespace Checked

variable {α β : Type}

@[simp] theorem build_eq_ok_iff {f g : α} : build f = .ok g ↔ f = g := by
  simp [build]

theorem also_eq_ok_iff {f : Checked (α → β)} {a : Checked α} {b : β} :
    f.also a = .ok b ↔ ∃ g x, f = .ok g ∧ a = .ok x ∧ g x = b := by
  rcases f with flaws | g <;> rcases a with more | x <;> simp [also]

@[simp] theorem under_eq_ok_iff {step : Step} {checked : Checked α} {a : α} :
    under step checked = .ok a ↔ checked = .ok a := by
  rcases checked with flaws | x
  · exact iff_of_false (fun h => by cases h) fun h => by cases h
  · exact Iff.rfl

end Checked

namespace Check

variable {α : Type} {fields : Fields} {name : String} {check : Check α} {default a : α}

/-! ## Fields of a record -/

theorem optional_set_self (value : Document) :
    optional (fields.set name value) name check default =
      Checked.under (.field name) (check value) := by
  rw [optional, Fields.get?_set, if_pos rfl]

theorem optional_set_of_ne {other : String} (h : name ≠ other) (value : Document) :
    optional (fields.set other value) name check default = optional fields name check default := by
  rw [optional, Fields.get?_set, if_neg h, optional]

theorem optional_erase_self : optional (fields.erase name) name check default = .ok default := by
  rw [optional, Fields.get?_erase, if_pos rfl]

theorem optional_erase_of_ne {other : String} (h : name ≠ other) :
    optional (fields.erase other) name check default = optional fields name check default := by
  rw [optional, Fields.get?_erase, if_neg h, optional]

/-- A field has its default or was checked. -/
theorem of_optional {P : α → Prop} (h : optional fields name check default = .ok a)
    (hdefault : P default) (hcheck : ∀ document a, check document = .ok a → P a) : P a := by
  rw [optional] at h
  split at h
  · exact hcheck _ _ (Checked.under_eq_ok_iff.mp h)
  · cases h
    exact hdefault

/-! ## Items of a list -/

theorem exists_of_mem_itemsFrom {index : Nat} {documents : List Document} {items : List α}
    (h : itemsFrom check index documents = .ok items) {item : α} (hitem : item ∈ items) :
    ∃ document ∈ documents, check document = .ok item := by
  induction documents generalizing index items with
  | nil =>
    cases h
    cases hitem
  | cons document rest ih =>
    rw [itemsFrom] at h
    obtain ⟨_, others, hfirst, hothers, rfl⟩ := Checked.also_eq_ok_iff.mp h
    obtain ⟨_, first, hbuild, hcheck, rfl⟩ := Checked.also_eq_ok_iff.mp hfirst
    obtain rfl := Checked.build_eq_ok_iff.mp hbuild
    rcases List.mem_cons.mp hitem with rfl | hmore
    · exact ⟨document, List.mem_cons_self, Checked.under_eq_ok_iff.mp hcheck⟩
    · obtain ⟨found, hfound, hitem⟩ := ih hothers hmore
      exact ⟨found, List.mem_cons_of_mem _ hfound, hitem⟩

/-- Every item of a list was checked. -/
theorem exists_of_mem_listOf {document : Document} {items : List α}
    (h : listOf check document = .ok items) {item : α} (hitem : item ∈ items) :
    ∃ document, check document = .ok item := by
  cases document with
  | list documents =>
    obtain ⟨found, -, hfound⟩ := exists_of_mem_itemsFrom h hitem
    exact ⟨found, hfound⟩
  | _ => cases h

theorem forall_of_optional_listOf {P : α → Prop} {items : List α}
    (h : optional fields name (listOf check) [] = .ok items)
    (hcheck : ∀ document a, check document = .ok a → P a) : ∀ item ∈ items, P item := by
  refine of_optional (P := fun items => ∀ item ∈ items, P item) h (by simp) ?_
  intro document items hitems item hitem
  obtain ⟨found, hfound⟩ := exists_of_mem_listOf hitems hitem
  exact hcheck found item hfound

theorem exists_of_object {takes : Fields → Checked α} {document : Document}
    (h : object takes document = .ok a) :
    ∃ fields, document = .object fields ∧ takes fields = .ok a := by
  cases document with
  | object fields => exact ⟨fields, rfl, h⟩
  | _ => cases h

/-! ## Numbers -/

theorem natural_nonneg {document : Document} {value : Int} (h : natural document = .ok value) :
    0 ≤ value := by
  rw [natural] at h
  rcases hinteger : integer document with flaws | whole
  · rw [hinteger] at h
    cases h
  · rw [hinteger] at h
    change (if whole < 0 then Checked.flaw .tooSmall else pure whole) = _ at h
    split at h
    · cases h
    · cases h
      omega

theorem nonneg_of_optional_natural {value instead : Int}
    (h : optional fields name natural instead = .ok value) (hinstead : 0 ≤ instead) : 0 ≤ value :=
  of_optional h hinstead fun _ _ => natural_nonneg

end Check

end DiscPatch
