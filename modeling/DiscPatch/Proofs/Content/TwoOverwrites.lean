import DiscPatch.Proofs.Content.Windows

/-!
# Two overwrites in a row

* `overwrites_supersede` — an overwrite undoes all that an earlier one did inside its range;
* `overwrites_commute` — overwrites of ranges that lie apart can change places.

Both are equations between files, segment by segment. They hold because an overwritten file is put
together from windows on what it was before: a second overwrite sees the zeros and the segments of
the first one through its own windows.
-/

namespace DiscPatch

attribute [ext] File

/-! ## One range inside the other -/

section Laying

variable {file : File} {first second : Span} {source source' : Source} {resize resize' : Bool}

theorem Span.newSize_newSize (hinner : first.stop ≤ second.stop)
    (hresize : resize = true → resize' = true) (size : Nat) :
    second.newSize resize' (first.newSize resize size) = second.newSize resize' size := by
  cases resize' with
  | true => rfl
  | false =>
    cases resize with
    | true => cases hresize rfl
    | false =>
      simp only [Span.newSize, Bool.false_eq_true, if_false]
      omega

/-- Laying a range over a file undoes what was laid over a part of it. -/
theorem File.WellFormed.laid_laid (h : file.WellFormed) (hstart : second.start ≤ first.start)
    (hstop : first.stop ≤ second.stop) (hresize : resize = true → resize' = true) :
    (file.laid first source resize).laid second source' resize' =
      file.laid second source' resize' := by
  have hrange := first.start_le_stop
  have hend := first.stop_le_newSize resize file.size.toNat
  -- the zeros that led up to the first range show as far as they lead up to the second
  have hfront : window 0 second.start (file.laid first source resize).segments =
      window 0 second.start file.segments ++ leadingZeros file.size.toNat second.start := by
    rw [h.window_laid_front hstart, Nat.zero_max]
  have hgap : leadingZeros (file.laid first source resize).size.toNat second.start = [] :=
    leadingZeros_of_le (by change second.start ≤ first.newSize resize file.size.toNat; omega)
  have hback : (if resize' then [] else
        window second.stop (file.laid first source resize).size.toNat
          (file.laid first source resize).segments) =
      if resize' then [] else window second.stop file.size.toNat file.segments := by
    cases resize' with
    | true => rfl
    | false =>
      cases resize with
      | true => cases hresize rfl
      | false =>
        simp only [Bool.false_eq_true, if_false]
        rw [h.window_laid_back hstop, h.window_toNat_size_laid]
  refine File.ext rfl ?_ ?_
  · exact congrArg Int.ofNat (Span.newSize_newSize hstop hresize file.size.toNat)
  · rw [(h.laid first source resize).segments_laid, hfront, hgap, hback, h.segments_laid,
      List.append_nil]

/-! ## Ranges that lie apart -/

/-- Laying two ranges over a file, of which one ends before the other starts. -/
theorem File.WellFormed.laid_comm_of_le (h : file.WellFormed) (hapart : first.stop ≤ second.start) :
    (file.laid first source false).laid second source' false =
      (file.laid second source' false).laid first source false := by
  have hfirst := first.start_le_stop
  have hsecond := second.start_le_stop
  -- what the second overwrite sees of the first
  have hfront : window 0 second.start (file.laid first source false).segments =
      window 0 first.start file.segments ++ leadingZeros file.size.toNat first.start ++
        laidOver source first.start first.count first.available ++
        window first.stop second.start file.segments := by
    rw [h.window_laid, window_laidOver (Nat.zero_le _) hapart, Nat.min_eq_right (by omega),
      Nat.zero_max, Nat.zero_max]
    rfl
  have hback : window second.stop (file.laid first source false).size.toNat
        (file.laid first source false).segments =
      window second.stop file.size.toNat file.segments := by
    rw [h.window_laid_back (by omega), h.window_toNat_size_laid]
  -- and what the first sees of the second, if it comes later
  have hfront' : window 0 first.start (file.laid second source' false).segments =
      window 0 first.start file.segments ++ leadingZeros file.size.toNat first.start := by
    rw [h.window_laid_front (by omega), Nat.zero_max]
  have hback' : window first.stop (file.laid second source' false).size.toNat
        (file.laid second source' false).segments =
      window first.stop second.start file.segments ++
        leadingZeros (max file.size.toNat first.stop) second.start ++
        laidOver source' second.start second.count second.available ++
        window second.stop file.size.toNat file.segments := by
    have hend : second.stop ≤ (file.laid second source' false).size.toNat := Nat.le_max_right ..
    rw [h.window_laid, window_laidOver hapart hend, Nat.min_eq_right (by omega),
      Nat.max_comm first.stop file.size.toNat,
      Nat.max_eq_right (show first.stop ≤ second.stop by omega), h.window_toNat_size_laid]
    rfl
  refine File.ext rfl ?_ ?_
  · exact congrArg Int.ofNat (Nat.max_right_comm ..)
  · have hgap : leadingZeros (file.laid second source' false).size.toNat first.start = [] :=
      leadingZeros_of_le (by rw [file.toNat_size_laid]; omega)
    rw [(h.laid first source false).segments_laid, (h.laid second source' false).segments_laid]
    simp only [Bool.false_eq_true, if_false]
    rw [hfront, hback, hfront', hback', hgap, file.toNat_size_laid]
    simp only [List.append_assoc, List.nil_append]

/-- Laying ranges that lie apart over a file, in either order. -/
theorem File.WellFormed.laid_comm (h : file.WellFormed)
    (hapart : first.stop ≤ second.start ∨ second.stop ≤ first.start) :
    (file.laid first source false).laid second source' false =
      (file.laid second source' false).laid first source false := by
  rcases hapart with hle | hge
  · exact h.laid_comm_of_le hle
  · exact (h.laid_comm_of_le hge).symm

end Laying

/-! ## Calls -/

section Calls

variable {file : File} {first second : Call} {span span' : Span}

/-- A call that covers a range succeeds on every file of natural size. -/
theorem Call.succeeds (hspan : first.span? = some span) (hsize : 0 ≤ file.size) :
    (first.edit.outcome file).1 = .ok true := by
  obtain ⟨source, hlays⟩ := Call.exists_source hspan
  rw [hlays file hsize]

/-- A call answers and leaves what it would without an earlier one inside its range. -/
theorem Call.outcome_after (h : file.WellFormed) (hfirst : first.span? = some span)
    (hsecond : second.span? = some span') (hstart : span'.start ≤ span.start)
    (hstop : span.stop ≤ span'.stop) (hresize : first.resizes = true → second.resizes = true) :
    second.edit.outcome (first.after file) = second.edit.outcome file := by
  obtain ⟨source, hfirst⟩ := Call.exists_source hfirst
  obtain ⟨source', hsecond⟩ := Call.exists_source hsecond
  have hlaid := h.laid span source first.resizes
  rw [Call.after, hfirst file h.natural, hsecond _ hlaid.natural, hsecond file h.natural,
    h.laid_laid hstart hstop hresize]

end Calls

/-- **An overwrite undoes all that an earlier one did inside its range.** If the range of a call
lies inside that of the next one, and the first call ends the file with its range only if the next
one does, then both succeed, and the next call answers and leaves what it would without the first.
In particular a call that is repeated changes nothing. -/
theorem overwrites_supersede {file : File} (h : file.WellFormed) :
    (∀ (first second : Call) (inner outer : Span), first.span? = some inner →
      second.span? = some outer → outer.start ≤ inner.start → inner.stop ≤ outer.stop →
      (first.resizes = true → second.resizes = true) →
      (first.edit.outcome file).1 = .ok true ∧ (second.edit.outcome file).1 = .ok true ∧
        second.edit.outcome (first.after file) = second.edit.outcome file) ∧
    ∀ call : Call, call.edit.outcome (call.after file) = call.edit.outcome file := by
  constructor
  · intro first second inner outer hfirst hsecond hstart hstop hresize
    exact ⟨Call.succeeds hfirst h.natural, Call.succeeds hsecond h.natural,
      Call.outcome_after h hfirst hsecond hstart hstop hresize⟩
  · intro call
    rcases hspan : call.span? with _ | span
    · obtain ⟨answer, hidle⟩ := Call.exists_answer hspan
      rw [Call.after, hidle file h.natural]
      exact hidle file h.natural
    · exact Call.outcome_after h hspan hspan (Nat.le_refl _) (Nat.le_refl _) id

/-- Zeros lead up to a range past the end of a file with a gap; then a longer range is laid over
both, and the file ends with it. -/
theorem overwrites_supersede_past_end :
    let shelf := External.shelf (.folder [("a", .file [1, 2, 3])]) ⟨"", ""⟩
    let file : File := ⟨"f", 10, [⟨0, 4, .fill 7⟩, ⟨6, 4, .buffer [4, 5, 6, 7] 0⟩]⟩
    let first : Call := .overwrite shelf "a" 12 0 0 false
    let second : Call := .overwrite shelf "a" 8 0 8 true
    file.WellFormed ∧ first.span? = some ⟨12, 0, 3, 3⟩ ∧ second.span? = some ⟨8, 0, 3, 8⟩ ∧
      second.edit.outcome (first.after file) = second.edit.outcome file ∧
      (second.after file).segments.map (fun s => (s.offset, s.size)) =
        [(0, 4), (6, 2), (8, 3), (11, 5)] := by
  intro shelf file first second
  have hfile : file.WellFormed := ⟨by decide, by decide, by simp [file]⟩
  have hfirst : first.span? = some ⟨12, 0, 3, 3⟩ := by decide +kernel
  have hsecond : second.span? = some ⟨8, 0, 3, 8⟩ := by decide +kernel
  have hsame := (overwrites_supersede hfile).1 first second _ _ hfirst hsecond (by decide)
    (by decide) fun _ => rfl
  exact ⟨hfile, hfirst, hsecond, hsame.2.2, by decide +kernel⟩

/-- **Overwrites of ranges that lie apart can change places**, as long as neither of them ends the
file with its range. -/
theorem overwrites_commute {file : File} (h : file.WellFormed) {first second : Call}
    {span span' : Span} (hfirst : first.span? = some span) (hsecond : second.span? = some span')
    (hkeeps : first.resizes = false) (hkeeps' : second.resizes = false)
    (hapart : span.stop ≤ span'.start ∨ span'.stop ≤ span.start) :
    (first.edit.outcome file).1 = .ok true ∧
      (second.edit.outcome (first.after file)).1 = .ok true ∧
      second.edit.outcome (first.after file) = first.edit.outcome (second.after file) := by
  obtain ⟨source, hlays⟩ := Call.exists_source hfirst
  obtain ⟨source', hlays'⟩ := Call.exists_source hsecond
  have hlaid := h.laid span source first.resizes
  have hlaid' := h.laid span' source' second.resizes
  rw [Call.after, Call.after, hlays file h.natural, hlays' file h.natural,
    hlays' _ hlaid.natural, hlays _ hlaid'.natural, hkeeps, hkeeps', h.laid_comm hapart]
  exact ⟨rfl, rfl, rfl⟩

/-- Two ranges past the end of a file: zeros lead up to the one that is laid first, and they are cut
if that is the one further behind. -/
theorem overwrites_commute_past_end :
    let shelf := External.shelf (.folder [("a", .file [1, 2, 3])]) ⟨"", ""⟩
    let file : File := ⟨"f", 4, [⟨0, 2, .fill 7⟩]⟩
    let first : Call := .overwrite shelf "a" 12 0 0 false
    let second : Call := .overwrite shelf "a" 6 1 3 false
    file.WellFormed ∧ first.span? = some ⟨12, 0, 3, 3⟩ ∧ second.span? = some ⟨6, 1, 2, 3⟩ ∧
      second.edit.outcome (first.after file) = first.edit.outcome (second.after file) ∧
      (second.after (first.after file)).segments.map (fun s => (s.offset, s.size)) =
        [(0, 2), (4, 2), (6, 2), (8, 1), (9, 3), (12, 3)] := by
  intro shelf file first second
  have hfile : file.WellFormed := ⟨by decide, by decide, by simp [file]⟩
  have hfirst : first.span? = some ⟨12, 0, 3, 3⟩ := by decide +kernel
  have hsecond : second.span? = some ⟨6, 1, 2, 3⟩ := by decide +kernel
  have hsame := overwrites_commute hfile hfirst hsecond rfl rfl (.inr (by decide))
  exact ⟨hfile, hfirst, hsecond, hsame.2.2, by decide +kernel⟩

end DiscPatch
