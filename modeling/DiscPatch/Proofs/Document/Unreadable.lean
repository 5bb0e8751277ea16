import DiscPatch.Document.Reader

/-!
# Texts that are no documents

Reading a document fails for one of three reasons only.

* `Unreadable` — the reasons;
* `Reader.unreadable_of_values` — each reader of values fails for them, if those it calls do;
* `unreadable_of_parse` — and so does the reader of whole texts.
-/

namespace DiscPatch

/-- Why a text is no document. -/
inductive Unreadable : Error → Prop where
  /-- it does not follow the form of documents -/
  | malformed : Unreadable .malformedDocument
  /-- an integer has too many digits -/
  | digits (count : Nat) : Unreadable (.tooManyDigits count)
  /-- half of a surrogate pair stands alone -/
  | half : Unreadable .halfPair

namespace Reader

theorem unreadable_of_readNumber {negative : Bool} {input : List Char} {error : Error}
    (h : readNumber negative input = .error error) : Unreadable error := by
  unfold readNumber at h
  split at h
  · cases h
    exact .malformed
  · dsimp only at h
    split at h
    · cases h
    · split at h
      · split at h
        · cases h
          exact .digits _
        · cases h
      · cases h

theorem unreadable_of_secondHalf {high : Nat} {input : List Char} {error : Error}
    (h : secondHalf high input = .error error) : Unreadable error := by
  unfold secondHalf at h
  split at h
  · split at h
    · split at h
      · cases h
      · cases h
        exact .half
    · cases h
      exact .malformed
  · cases h
    exact .half

theorem unreadable_of_numbered {input : List Char} {error : Error}
    (h : numbered input = .error error) : Unreadable error := by
  unfold numbered at h
  split at h
  · split at h
    · exact unreadable_of_secondHalf h
    · split at h
      · cases h
        exact .half
      · cases h
  · cases h
    exact .malformed

theorem unreadable_of_readText {fuel : Nat} {read input : List Char} {error : Error}
    (h : readText fuel read input = .error error) : Unreadable error := by
  fun_induction readText fuel read input with
  | case3 _ _ _ _ _ _ ih => exact ih h
  | case4 _ _ _ _ hnumber =>
    cases h
    exact unreadable_of_numbered hnumber
  | case5 _ _ _ _ _ _ _ ih => exact ih h
  | case9 _ _ _ _ _ _ _ _ ih => exact ih h
  | case7 => cases h
  | _ =>
    cases h
    exact .malformed

/-- The three readers of values fail for the same reasons. -/
theorem unreadable_of_values (fuel : Nat) :
    (∀ input error, readValue fuel input = .error error → Unreadable error) ∧
    (∀ read input error, readItems fuel read input = .error error → Unreadable error) ∧
    ∀ fields input error, readFields fuel fields input = .error error →
      Unreadable error := by
  -- each reader calls the others with less fuel only
  induction fuel with
  | zero =>
    refine ⟨fun input error h => ?_, fun read input error h => ?_, fun fields input error h => ?_⟩
    all_goals
      cases h
      exact .malformed
  | succ fuel ih =>
    obtain ⟨hvalue, hitems, hfields⟩ := ih
    refine ⟨fun input error h => ?_, fun read input error h => ?_, fun fields input error h => ?_⟩
    · rw [readValue.eq_def] at h
      dsimp only at h
      split at h
      · cases h
      split at h
      · split at h
        · cases h
        · exact hitems _ _ _ h
      · split at h
        · cases h
        · exact hfields _ _ _ h
      · exact unreadable_of_readNumber h
      · split at h
        · split at h
          · cases h
          · next htext =>
            cases h
            exact unreadable_of_readText htext
        · exact unreadable_of_readNumber h
      · cases h
        exact .malformed
    · rw [readItems] at h
      split at h
      · next hitem =>
        cases h
        exact hvalue _ _ hitem
      split at h
      · exact hitems _ _ _ h
      · cases h
      · cases h
        exact .malformed
    · rw [readFields.eq_def] at h
      dsimp only at h
      split at h
      · split at h
        · split at h
          · next htext =>
            cases h
            exact unreadable_of_readText htext
          split at h
          · split at h
            · next hfield =>
              cases h
              exact hvalue _ _ hfield
            split at h
            · exact hfields _ _ _ h
            · cases h
            · cases h
              exact .malformed
          · cases h
            exact .malformed
        · cases h
          exact .malformed
      · cases h
        exact .malformed

end Reader

/-- **A text that cannot be read** is malformed, or an integer in it has too many digits, or a text
in it has half of a surrogate pair. -/
theorem unreadable_of_parse {text : String} {error : Error}
    (h : Document.parse text = .error error) : Unreadable error := by
  rw [Document.parse] at h
  rcases hread : Reader.readValue (text.length + 1) (Reader.skipSpace text.toList) with fault | found
  · rw [hread] at h
    cases h
    exact (Reader.unreadable_of_values _).1 _ _ hread
  · rw [hread] at h
    change (if Reader.skipSpace found.2 = [] then Except.ok found.1
      else .error Error.malformedDocument) = .error error at h
    split at h
    · cases h
    · cases h
      exact .malformed

end DiscPatch
