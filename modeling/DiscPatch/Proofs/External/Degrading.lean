import DiscPatch.Proofs.External.Agreement

/-!
# Requests for external files that find nothing

Patch documents may ask for anything: paths that climb, go through links, are too long or lead
nowhere. The answer to each is meant to be that of a missing file.

* `linkBelow_eq_none_iff`, `resolve_eq_some_iff` — which paths are accepted, and where they lie;
* `hasNul_pathBelow` — a path on the host holds a NUL if its root or one of its names does;
* `Entry.bytes?`, `Entry.listed?` — what there is to be had of an entry, nothing if it is of another
  kind;
* `host_degrades_unless_nul` — every request is answered, with nothing where there is nothing to be
  had. The one exception is a path with a NUL, for which the host has no answer but a refusal of its
  own kind: contents and listings pass it on.
-/

namespace DiscPatch

open DiscPatch.Host
open DiscPatch.Text (split dropEnd)

/-! ## Accepted paths -/

/-- The search for links finds none exactly if the way is clear. -/
theorem linkBelow_eq_none_iff {fs : FileSystem} {root : String} {front rest : List String}
    (hrest : ∀ name ∈ rest, name ≠ "") (hclear : ClearWay fs true root front) :
    Mount.linkBelow fs (pathBelow root front) rest = none ↔
      ClearWay fs true root (front ++ rest) := by
  induction rest generalizing front with
  | nil => simpa [Mount.linkBelow] using hclear
  | cons name rest ih =>
    obtain ⟨hname, hothers⟩ := List.forall_mem_cons.mp hrest
    simp only [Mount.linkBelow, if_neg hname, ← pathBelow_concat]
    rw [List.append_cons front name rest]
    cases hlink : fs.isLink (pathBelow root (front ++ [name])) with
    | true =>
      rw [if_pos rfl]
      refine iff_of_false (by simp) fun hway => ?_
      have hseen := hway (front ++ [name]) (List.prefix_append ..) (by simp) fun _ => rfl
      exact Bool.false_ne_true (hseen.symm.trans hlink)
    | false => exact ih hothers (hclear.concat_of_not_isLink hlink)

/-- **Accepted paths** are those that neither escape nor go through a link, and they lie below their
root. -/
theorem resolve_eq_some_iff (fs : FileSystem) (given : Roots) (path located : String) :
    (Mount.resolve fs given.trimmed path).value = some located ↔
      ¬ Escapes [] path ∧ ClearWay fs true (given.start path) (remaining (split '/' path)) ∧
        located = pathBelow (given.start path) (remaining (split '/' path)) := by
  rw [Mount.resolve]
  rcases hlocated : given.trimmed.locate path with cause | place
  · have hescapes : Escapes [] path := Roots.locateWithout_eq_error_iff.mp ⟨cause, hlocated⟩
    refine iff_of_false (fun hsome => ?_) fun h => h.1 hescapes
    cases hsome
  · have hescapes : ¬ Escapes [] path := Roots.exists_locateWithout_iff.mp ⟨place, hlocated⟩
    obtain ⟨rfl, hnames⟩ := Roots.eq_below_of_locateWithout hlocated
    generalize remaining (split '/' path) = names at hnames ⊢
    have hway : Mount.linkBelow fs (pathBelow (given.start path) []) ("" :: names) = none ↔
        ClearWay fs true (given.start path) names :=
      linkBelow_eq_none_iff (fun name hname => (hnames name hname).nonempty) (clearWay_nil true)
    dsimp only
    rw [split_drop_below hnames, Roots.start_trimmed, ← hway]
    cases Mount.linkBelow fs (pathBelow (given.start path) []) ("" :: names) with
    | some link =>
      refine iff_of_false (fun hsome => ?_) fun h => ?_
      · cases hsome
      · cases h.2.1
    | none =>
      simp only [hescapes, not_false_eq_true, true_and, eq_comm (a := located)]
      exact Option.some_inj

/-! ## Paths with a NUL -/

/-- Taking off separators at the end takes no NUL away. -/
theorem hasNul_dropEnd {root : String} :
    hasNul (dropEnd (· = '/') root) = false ↔ hasNul root = false := by
  have htail : Char.ofNat 0 ∉ root.toList.rtakeWhile (· = '/') := by
    intro hmem
    have hseparator := List.mem_rtakeWhile_imp hmem
    exact absurd hseparator (by decide)
  have hparts := List.rdropWhile_append_rtakeWhile (p := (· = '/')) (l := root.toList)
  rw [hasNul_eq_false_iff, hasNul_eq_false_iff, dropEnd, String.toList_ofList,
    ← List.rdropWhile]
  nth_rewrite 2 [← hparts]
  rw [List.mem_append, not_or]
  exact (and_iff_left htail).symm

/-- A path below a root is free of NULs exactly if the root and the names are. -/
theorem hasNul_pathBelow {root : String} {names : List String} :
    hasNul (pathBelow root names) = false ↔
      hasNul root = false ∧ ∀ name ∈ names, hasNul name = false := by
  rw [pathBelow, hasNul_below_iff, hasNul_dropEnd]

theorem find_of_nul (fs : FileSystem) (follow : Bool) {path : String} (h : hasNul path = true) :
    fs.find follow path = .error .nulInPath :=
  if_pos h

/-- Without a NUL, the host refuses a path only in the manner of missing files. -/
theorem find_of_no_nul (fs : FileSystem) (follow : Bool) {path : String}
    (h : hasNul path = false) :
    (∃ entry, fs.find follow path = .ok entry) ∨
      ∃ fault, fs.find follow path = .error (.refused fault) := by
  rw [FileSystem.find, h, if_neg Bool.false_ne_true]
  rcases fs.walk follow path with code | ⟨trail, _ | entry⟩
  · exact .inr ⟨_, rfl⟩
  · exact .inr ⟨_, rfl⟩
  · exact .inl ⟨entry, rfl⟩

/-! ## Answers -/

/-- The bytes of an entry that is a file. -/
def Host.Entry.bytes? : Entry → Option Bytes
  | .file data => some data
  | _ => none

/-- The entries of an entry that is a folder, as they are listed. -/
def Host.Entry.listed? : Entry → Option (List Listed)
  | .folder entries => some (sortListed (visible entries))
  | _ => none

section Answers

variable {fs : FileSystem} {given : Roots} {path place : String}

/-- A path that is not accepted has the answers of a missing file. -/
theorem values_of_unresolved (h : (Mount.resolve fs given.trimmed path).value = none) :
    (Mount.size? fs given.trimmed path).value = none ∧
      (Mount.contents fs given.trimmed path).value = .ok [] ∧
      (Mount.entries fs given.trimmed path).value = .ok [] := by
  rw [Mount.size?, Mount.contents, Mount.entries, Logged.value_bind, Logged.value_bind,
    Logged.value_bind, h]
  exact ⟨rfl, rfl, rfl⟩

/-- The size of an accepted path is that of the file there. -/
theorem size?_of_resolved (h : (Mount.resolve fs given.trimmed path).value = some place) :
    (Mount.size? fs given.trimmed path).value =
      ((fs.stat? place).bind Entry.bytes?).map List.length := by
  rw [Mount.size?, Logged.value_bind, h]
  dsimp only
  rcases fs.stat? place with _ | (_ | _ | _ | _) <;> rfl

/-- An accepted path without a NUL has the bytes and the entries of what is there. -/
theorem values_of_resolved (h : (Mount.resolve fs given.trimmed path).value = some place)
    (hnul : hasNul place = false) :
    (Mount.contents fs given.trimmed path).value =
        .ok (((fs.stat? place).bind Entry.bytes?).getD []) ∧
      (Mount.entries fs given.trimmed path).value =
        .ok (((fs.stat? place).bind Entry.listed?).getD []) := by
  rw [Mount.contents, Mount.entries, Logged.value_bind, Logged.value_bind, h]
  dsimp only
  rw [FileSystem.readFile, FileSystem.list, FileSystem.stat?]
  rcases find_of_no_nul fs true hnul with ⟨entry, hfind⟩ | ⟨fault, hfind⟩
  · rw [hfind]
    cases entry <;> exact ⟨rfl, rfl⟩
  · rw [hfind]
    exact ⟨rfl, rfl⟩

/-- With a NUL it has neither: the refusal is passed on. -/
theorem values_of_resolved_nul (h : (Mount.resolve fs given.trimmed path).value = some place)
    (hnul : hasNul place = true) :
    (Mount.contents fs given.trimmed path).value = .error (.host .nulInPath) ∧
      (Mount.entries fs given.trimmed path).value = .error (.host .nulInPath) := by
  rw [Mount.contents, Mount.entries, Logged.value_bind, Logged.value_bind, h]
  dsimp only
  rw [FileSystem.readFile, FileSystem.list, find_of_nul fs true hnul]
  exact ⟨rfl, rfl⟩

/-- A segment is made for every path; one that is not accepted is taken to be zeros. -/
theorem segment_host (fs : FileSystem) (given : Roots) (path : String)
    (offset size target : Nat) :
    ((External.host fs given).segment path offset size target).value = .ok ⟨target, size,
      ((Mount.resolve fs given.trimmed path).value.map (Source.file · offset)).getD .zeros⟩ := by
  have hsource : ((External.host fs given).source path offset size target).value =
      ((Mount.resolve fs given.trimmed path).value.map (Source.file · offset)).getD .zeros := by
    refine (Logged.value_bind _ _).trans ?_
    rcases (Mount.resolve fs given.trimmed path).value with _ | place <;> rfl
  rw [External.segment, Logged.value_bind, hsource, Logged.value_pure, Segment.checked_natCast]

end Answers

/-- **Requests that find nothing** are answered all the same. A path is accepted unless it escapes or
goes through a link; savegames are kept at accepted paths only, and a segment for another path is
zeros. The size, the bytes and the entries are those of the file or the folder that is there; where
there is none they are nothing. This fails only for the bytes and the entries, and only at accepted
paths with a NUL in the root or in a name: the host has a refusal of its own for those, and it is
passed on. -/
theorem host_degrades_unless_nul (fs : FileSystem) (given : Roots) (path : String) :
    let host := External.host fs given
    let root := given.start path
    let names := remaining (split '/' path)
    let located := (host.savegame? path).value
    let found := located.bind fs.stat?
    let clean := hasNul root = false ∧ ∀ name ∈ names, hasNul name = false
    (∀ place, located = some place ↔
      ¬ Escapes [] path ∧ ClearWay fs true root names ∧ place = pathBelow root names) ∧
    (∀ offset size target : Nat, (host.segment path offset size target).value =
      .ok ⟨target, size, (located.map (Source.file · offset)).getD .zeros⟩) ∧
    (host.size? path).value = (found.bind Entry.bytes?).map List.length ∧
    (located = none ∨ clean →
      (host.contents path).value = .ok ((found.bind Entry.bytes?).getD []) ∧
      (host.entries path).value = .ok ((found.bind Entry.listed?).getD [])) ∧
    (located ≠ none → ¬ clean →
      (host.contents path).value = .error (.host .nulInPath) ∧
      (host.entries path).value = .error (.host .nulInPath)) := by
  intro host root names located found clean
  refine ⟨resolve_eq_some_iff fs given path, segment_host fs given path, ?_⟩
  rcases Option.eq_none_or_eq_some (Mount.resolve fs given.trimmed path).value with
    hlocated | ⟨place, hlocated⟩
  · obtain ⟨hsize, hcontents, hentries⟩ := values_of_unresolved hlocated
    have hfound : found = none := congrArg (·.bind fs.stat?) hlocated
    rw [hfound]
    exact ⟨hsize, fun _ => ⟨hcontents, hentries⟩, fun hsome => absurd hlocated hsome⟩
  · have hfound : found = fs.stat? place := congrArg (·.bind fs.stat?) hlocated
    have hplace : place = pathBelow root names :=
      ((resolve_eq_some_iff fs given path place).mp hlocated).2.2
    have hclean : hasNul place = false ↔ clean := by rw [hplace, hasNul_pathBelow]
    rw [hfound]
    refine ⟨size?_of_resolved hlocated, fun h => ?_, fun _ hnul => ?_⟩
    · have hsome : located ≠ none := fun hnone =>
        Option.some_ne_none place (hlocated.symm.trans hnone)
      exact values_of_resolved hlocated (hclean.mpr (h.resolve_left hsome))
    · rw [← hclean, Bool.not_eq_false] at hnul
      exact values_of_resolved_nul hlocated hnul

/-- The file is there, and the name with a NUL after it is no other file's. -/
example : ((External.host ⟨[("sd", .folder [("a", .file [1])])], []⟩ ⟨"/sd", "/sd"⟩).contents
    "a\x00").value = .error (.host .nulInPath) := by
  decide +kernel

end DiscPatch
