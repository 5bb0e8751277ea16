import DiscPatch.Text.Blank

/-!
# Splitting and joining at a separator

* `splitChars`, `split` — the parts of a text between the occurrences of one character; there is
  always at least one part, and parts may be empty;
* `join` — parts put back together.
-/

namespace DiscPatch.Text

/-- The parts between the occurrences of `sep`. -/
def splitChars (sep : Char) : List Char → List (List Char)
  | [] => [[]]
  | c :: rest =>
    if c = sep then [] :: splitChars sep rest
    else match splitChars sep rest with
      | [] => [[c]]
      | part :: parts => (c :: part) :: parts

/-- The parts of a text between the occurrences of `sep`. -/
def split (sep : Char) (text : String) : List String :=
  (splitChars sep text.toList).map String.ofList

/-- Parts with `sep` between neighbours. -/
def joinChars (sep : Char) : List (List Char) → List Char
  | [] => []
  | [part] => part
  | part :: parts => part ++ sep :: joinChars sep parts

/-- Texts with `sep` between neighbours. -/
def join (sep : Char) (parts : List String) : String :=
  String.ofList (joinChars sep (parts.map String.toList))

/-- A text without the characters at its end that satisfy `drop`. -/
def dropEnd (drop : Char → Bool) (text : String) : String :=
  String.ofList (text.toList.reverse.dropWhile drop).reverse

/-- A text without the characters at either end that satisfy `drop`. -/
def dropEnds (drop : Char → Bool) (text : String) : String :=
  String.ofList (trim drop text.toList)

theorem splitChars_ne_nil (sep : Char) (text : List Char) : splitChars sep text ≠ [] := by
  cases text with
  | nil => simp [splitChars]
  | cons c rest =>
    unfold splitChars
    split
    · simp
    · split <;> simp

/-- Splitting loses nothing: joining the parts gives the text back. -/
theorem joinChars_splitChars (sep : Char) (text : List Char) :
    joinChars sep (splitChars sep text) = text := by
  induction text with
  | nil => rfl
  | cons c rest ih =>
    unfold splitChars
    rcases h : splitChars sep rest with _ | ⟨part, parts⟩
    · exact absurd h (splitChars_ne_nil sep rest)
    · rw [h] at ih
      by_cases hc : c = sep
      · simp [hc, joinChars, ih]
      · cases parts <;> simp_all [joinChars]

/-- No part holds the separator. -/
theorem not_mem_of_mem_splitChars {sep : Char} {text part : List Char}
    (h : part ∈ splitChars sep text) : sep ∉ part := by
  induction text generalizing part with
  | nil => simp_all [splitChars]
  | cons c rest ih =>
    unfold splitChars at h
    rcases hs : splitChars sep rest with _ | ⟨first, parts⟩
    · exact absurd hs (splitChars_ne_nil sep rest)
    · rw [hs] at h ih
      by_cases hc : c = sep
      · rw [if_pos hc, List.mem_cons] at h
        rcases h with rfl | h
        · simp
        · exact ih h
      · rw [if_neg hc] at h
        rcases List.mem_cons.1 h with rfl | h
        · simp [Ne.symm hc, ih]
        · exact ih (by simp [h])

theorem splitChars_append (sep : Char) (front back : List Char) :
    splitChars sep (front ++ sep :: back) = splitChars sep front ++ splitChars sep back := by
  induction front with
  | nil => simp [splitChars]
  | cons c rest ih =>
    rcases hrest : splitChars sep rest with _ | ⟨part, parts⟩
    · exact absurd hrest (splitChars_ne_nil sep rest)
    · rw [hrest] at ih
      by_cases hc : c = sep
      · simp [splitChars, hc, ih, hrest]
      · simp [splitChars, hc, ih, hrest]

theorem splitChars_of_not_mem {sep : Char} {text : List Char} (h : sep ∉ text) :
    splitChars sep text = [text] := by
  induction text with
  | nil => rfl
  | cons c rest ih =>
    have hc : c ≠ sep := fun hc => h (hc ▸ List.mem_cons_self ..)
    have hrest : sep ∉ rest := fun hrest => h (List.mem_cons_of_mem c hrest)
    simp [splitChars, hc, ih hrest]

theorem not_mem_of_mem_split {text part : String} (h : part ∈ split '/' text) :
    '/' ∉ part.toList := by
  obtain ⟨chars, hchars, rfl⟩ := List.mem_map.mp h
  rw [String.toList_ofList]
  exact not_mem_of_mem_splitChars hchars

/-- A text with a separator in it splits into the parts of either side. -/
theorem split_append (front back : String) :
    split '/' (front ++ "/" ++ back) = split '/' front ++ split '/' back := by
  have htext : (front ++ "/" ++ back).toList = front.toList ++ '/' :: back.toList := by simp
  rw [split, htext, splitChars_append, List.map_append, split, split]

theorem split_of_not_mem {text : String} (h : '/' ∉ text.toList) : split '/' text = [text] := by
  rw [split, splitChars_of_not_mem h, List.map_singleton, String.ofList_toList]

/-- A text that starts with a separator has an empty first part. -/
theorem split_of_head {text : String} (h : text.toList.head? = some '/') :
    split '/' text = "" :: split '/' (String.ofList text.toList.tail) := by
  rcases htext : text.toList with _ | ⟨c, rest⟩
  · rw [htext] at h
    cases h
  · rw [htext] at h
    obtain rfl : c = '/' := Option.some.inj h
    simp [split, htext, splitChars]

end DiscPatch.Text
