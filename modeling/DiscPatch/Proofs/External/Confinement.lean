import DiscPatch.External.Host
import DiscPatch.Proofs.External.PathNames

/-!
# External paths stay below their root

Whether a path is refused is said here without walking along it: by counting the components of its
prefixes.

* `Climbs` — some prefix of the components has more `..` than ordinary components;
* `Escapes` — all reasons to refuse a path;
* `remaining` — what is left of the components once every `..` has taken one back;
* `Settling`, `settling` — all that can happen when components are settled, one rule for each way;
* `Settling.error_iff`, `Settling.eq_foldl` — it fails for these reasons only, and leaves what
  remains;
* `locateWithout_confined` — a path is refused exactly if it escapes, and otherwise leads to what
  remains of it, below its root;
* `LiesIn`, `resolved_liesIn_iff` — when the relative paths of a patch document lie in its folder.
-/

namespace DiscPatch

open DiscPatch.Host (FileSystem isAbsolute)
open DiscPatch.Text (split dropEnd)

/-! ## Reasons to refuse a path -/

/-- A component that is neither empty nor made of one or two dots. -/
def IsOrdinary (component : String) : Prop :=
  component ≠ "" ∧ component ≠ "." ∧ component ≠ ".."

instance : DecidablePred IsOrdinary :=
  fun _ => inferInstanceAs (Decidable (_ ∧ _))

/-- A component of three or more dots and nothing else. -/
def IsDotRun (component : String) : Prop :=
  3 ≤ component.length ∧ ∀ c ∈ component.toList, c = '.'

/-- From `depth` folders below the root on, some prefix of the components leads above it. -/
def ClimbsFrom (depth : Nat) (components : List String) : Prop :=
  ∃ front, front <+: components ∧ depth + front.countP (IsOrdinary ·) < front.count ".."

/-- Some prefix of the components has more `..` than ordinary components. -/
def Climbs (components : List String) : Prop :=
  ∃ front, front <+: components ∧ front.countP (IsOrdinary ·) < front.count ".."

/-- The path holds one of the separators in `foreign`, it has a component of three or more dots, or
it climbs above its root. -/
def Escapes (foreign : List String) (path : String) : Prop :=
  (∃ separator ∈ foreign, separator.toList <:+: path.toList) ∨
    (∃ component ∈ split '/' path, IsDotRun component) ∨ Climbs (split '/' path)

/-- The stack after one more component: `..` takes the last one back, and an ordinary component is
put on top. -/
def pushed (stack : List String) (component : String) : List String :=
  if component = ".." then stack.dropLast
  else if IsOrdinary component then stack ++ [component]
  else stack

/-- What is left of the components. -/
def remaining (components : List String) : List String :=
  components.foldl pushed []

/-! ## Components one at a time -/

theorem climbsFrom_zero {components : List String} :
    ClimbsFrom 0 components ↔ Climbs components := by
  simp only [ClimbsFrom, Climbs, Nat.zero_add]

/-- The first component counts for every prefix but the empty one, which never climbs. -/
theorem climbsFrom_cons {depth : Nat} {component : String} {rest : List String} :
    ClimbsFrom depth (component :: rest) ↔ ∃ front, front <+: rest ∧
      depth + (front.countP (IsOrdinary ·) + if IsOrdinary component then 1 else 0) <
        front.count ".." + if component = ".." then 1 else 0 := by
  simp only [ClimbsFrom, List.prefix_cons_iff]
  constructor
  · rintro ⟨_, rfl | ⟨front, rfl, hfront⟩, hcount⟩
    · simp at hcount
    · exact ⟨front, hfront, by simpa [List.countP_cons, List.count_cons] using hcount⟩
  · rintro ⟨front, hfront, hcount⟩
    refine ⟨component :: front, .inr ⟨front, rfl, hfront⟩, ?_⟩
    simpa [List.countP_cons, List.count_cons] using hcount

theorem climbsFrom_cons_of_skipped {depth : Nat} {component : String} {rest : List String}
    (hordinary : ¬ IsOrdinary component) (hup : component ≠ "..") :
    ClimbsFrom depth (component :: rest) ↔ ClimbsFrom depth rest := by
  rw [climbsFrom_cons, if_neg hordinary, if_neg hup]
  rfl

theorem climbsFrom_cons_of_ordinary {depth : Nat} {component : String} {rest : List String}
    (h : IsOrdinary component) :
    ClimbsFrom depth (component :: rest) ↔ ClimbsFrom (depth + 1) rest := by
  rw [climbsFrom_cons, if_pos h, if_neg h.2.2]
  exact exists_congr fun front => and_congr_right fun _ => by omega

theorem climbsFrom_up_of_zero (rest : List String) : ClimbsFrom 0 (".." :: rest) :=
  ⟨[".."], ⟨rest, rfl⟩, by decide⟩

theorem climbsFrom_up_of_succ {depth : Nat} {rest : List String} :
    ClimbsFrom (depth + 1) (".." :: rest) ↔ ClimbsFrom depth rest := by
  rw [climbsFrom_cons, if_neg (by decide), if_pos rfl]
  exact exists_congr fun front => and_congr_right fun _ => by omega

/-- Three or more dots are all that is left of the dots once `.` and `..` have their own meaning. -/
theorem isDots_iff_isDotRun {component : String} (h : IsOrdinary component) :
    isDots component = true ↔ IsDotRun component := by
  obtain ⟨hempty, hdot, hup⟩ := h
  have hall : isDots component = true ↔ ∀ c ∈ component.toList, c = '.' := by
    simp [isDots, hempty]
  rw [hall, IsDotRun, ← String.length_toList]
  refine ⟨fun hdots => ⟨?_, hdots⟩, And.right⟩
  -- a shorter run of dots would be one of the three components that are excluded
  have hrun := List.eq_replicate_iff.mpr ⟨rfl, hdots⟩
  rcases Nat.lt_or_ge component.toList.length 3 with hshort | hlong
  · have hlength : component.toList.length = 0 ∨ component.toList.length = 1 ∨
        component.toList.length = 2 := by omega
    rcases hlength with hlength | hlength | hlength <;> rw [hlength] at hrun
    · exact absurd (String.toList_inj.mp hrun) hempty
    · exact absurd (String.toList_inj.mp hrun) hdot
    · exact absurd (String.toList_inj.mp hrun) hup
  · exact hlong

theorem not_isDotRun_of_not_isOrdinary {component : String} (h : ¬ IsOrdinary component) :
    ¬ IsDotRun component := by
  rintro ⟨hlength, -⟩
  refine h ⟨?_, ?_, ?_⟩
  · rintro rfl
    exact absurd hlength (by decide)
  · rintro rfl
    exact absurd hlength (by decide)
  · rintro rfl
    exact absurd hlength (by decide)

/-! ## Settling components -/

/-- Settling the components on a stack, whose top comes first, ends so. -/
inductive Settling (path : String) :
    (stack components : List String) → Except Escape (List String) → Prop where
  /-- all components are settled -/
  | done (stack : List String) : Settling path stack [] (.ok stack.reverse)
  /-- a component means nothing -/
  | skip {component : String} {stack rest : List String} {result : Except Escape (List String)}
    (hordinary : ¬ IsOrdinary component) (hup : component ≠ "..")
    (hrest : Settling path stack rest result) : Settling path stack (component :: rest) result
  /-- there is nothing to take back -/
  | climb (rest : List String) : Settling path [] (".." :: rest) (.error (.climbs path))
  /-- the latest component is taken back -/
  | back {top : String} {below rest : List String} {result : Except Escape (List String)}
    (hrest : Settling path below rest result) : Settling path (top :: below) (".." :: rest) result
  /-- a component is a run of dots -/
  | dots {component : String} {stack rest : List String} (hrun : IsDotRun component) :
    Settling path stack (component :: rest) (.error (.dots component path))
  /-- a component is put on top -/
  | push {component : String} {stack rest : List String} {result : Except Escape (List String)}
    (hordinary : IsOrdinary component) (hdots : isDots component = false)
    (hrest : Settling path (component :: stack) rest result) :
    Settling path stack (component :: rest) result

/-- **Settling goes one of these ways.** -/
theorem settling (path : String) (stack components : List String) :
    Settling path stack components (settle path stack components) := by
  induction components generalizing stack with
  | nil => exact .done stack
  | cons component rest ih =>
    simp only [settle]
    by_cases hskip : component = "" ∨ component = "."
    · rw [if_pos hskip]
      refine .skip (fun hordinary => ?_) ?_ (ih stack)
      · exact hskip.elim hordinary.1 hordinary.2.1
      · rcases hskip with rfl | rfl <;> decide
    rw [if_neg hskip]
    by_cases hup : component = ".."
    · subst hup
      rw [if_pos rfl]
      cases stack with
      | nil => exact .climb rest
      | cons top below => exact .back (ih below)
    rw [if_neg hup]
    obtain ⟨hempty, hdot⟩ := not_or.mp hskip
    have hordinary : IsOrdinary component := ⟨hempty, hdot, hup⟩
    by_cases hdots : isDots component = true
    · rw [if_pos hdots]
      exact .dots ((isDots_iff_isDotRun hordinary).mp hdots)
    · rw [if_neg hdots]
      exact .push hordinary (Bool.eq_false_iff.mpr hdots) (ih (component :: stack))

namespace Settling

variable {path : String} {stack components settled : List String}
  {result : Except Escape (List String)}

/-- **Settling fails exactly at a run of dots or above the root.** -/
theorem error_iff (h : Settling path stack components result) :
    (∃ cause, result = .error cause) ↔
      (∃ component ∈ components, IsDotRun component) ∨ ClimbsFrom stack.length components := by
  induction h with
  | done stack => simp [ClimbsFrom]
  | skip hordinary hup _ ih =>
    simp [ih, climbsFrom_cons_of_skipped hordinary hup, not_isDotRun_of_not_isOrdinary hordinary]
  | climb rest => simp [climbsFrom_up_of_zero]
  | back _ ih =>
    have hrun : ¬ IsDotRun ".." := not_isDotRun_of_not_isOrdinary (by decide)
    simp [ih, climbsFrom_up_of_succ, hrun]
  | dots hrun => simp [hrun]
  | push hordinary hdots _ ih =>
    have hrun : ¬ IsDotRun _ := mt (isDots_iff_isDotRun hordinary).mpr (by simp [hdots])
    simp [ih, climbsFrom_cons_of_ordinary hordinary, hrun]

/-- Settling leaves what remains. -/
theorem eq_foldl (h : Settling path stack components result) (hsettled : result = .ok settled) :
    settled = components.foldl pushed stack.reverse := by
  induction h with
  | done stack => exact (Except.ok.inj hsettled).symm
  | skip hordinary hup _ ih =>
    rw [ih hsettled, List.foldl_cons, pushed, if_neg hup, if_neg hordinary]
  | back _ ih =>
    rw [ih hsettled, List.foldl_cons, pushed, if_pos rfl, List.reverse_cons, List.dropLast_concat]
  | push hordinary _ _ ih =>
    rw [ih hsettled, List.foldl_cons, pushed, if_neg hordinary.2.2, if_pos hordinary,
      List.reverse_cons]
  | climb | dots => cases hsettled

/-- What remains is made of names. -/
theorem isName (h : Settling path stack components result) (hsettled : result = .ok settled)
    (hcomponents : ∀ component ∈ components, '/' ∉ component.toList)
    (hstack : ∀ name ∈ stack, IsName name) : ∀ name ∈ settled, IsName name := by
  induction h with
  | done stack =>
    cases hsettled
    simpa using hstack
  | skip _ _ _ ih => exact ih hsettled (List.forall_mem_cons.mp hcomponents).2 hstack
  | back _ ih =>
    exact ih hsettled (List.forall_mem_cons.mp hcomponents).2 (List.forall_mem_cons.mp hstack).2
  | push hordinary hdots _ ih =>
    obtain ⟨hcomponent, hrest⟩ := List.forall_mem_cons.mp hcomponents
    have hname : IsName _ := ⟨hordinary.1, hcomponent, hdots⟩
    exact ih hsettled hrest (List.forall_mem_cons.mpr ⟨hname, hstack⟩)
  | climb | dots => cases hsettled

end Settling

/-! ## Where a path leads -/

theorem occursIn_iff {part text : List Char} : occursIn part text = true ↔ part <:+: text := by
  induction text with
  | nil => simp [occursIn]
  | cons c rest ih =>
    rw [occursIn, Bool.or_eq_true, ih, List.isPrefixOf_iff_prefix, List.infix_cons_iff]

theorem below_eq (root : String) (components : List String) :
    below root components = root ++ String.join (components.map ("/" ++ ·)) := by
  induction components generalizing root with
  | nil => simp [below]
  | cons component rest ih =>
    have hnext : below root (component :: rest) = below (root ++ "/" ++ component) rest := rfl
    rw [hnext, ih, List.map_cons, String.join_cons]
    simp [String.append_assoc]

namespace Roots

variable {roots : Roots} {foreign : List String} {path located : String}

/-- A path without foreign separators leads where its components settle. -/
theorem locateWithout_of_not_foreign
    (h : ¬ ∃ separator ∈ foreign, separator.toList <:+: path.toList) :
    roots.locateWithout foreign path =
      (settle path [] (split '/' path)).map (below (roots.start path)) := by
  have hnone : foreign.find? (fun separator => occursIn separator.toList path.toList) = none := by
    refine List.find?_eq_none.mpr fun separator hseparator hoccurs => ?_
    exact h ⟨separator, hseparator, occursIn_iff.mp hoccurs⟩
  rw [locateWithout, hnone]

/-- A path is refused exactly if it escapes. -/
theorem locateWithout_eq_error_iff :
    (∃ cause, roots.locateWithout foreign path = .error cause) ↔ Escapes foreign path := by
  by_cases hforeign : ∃ separator ∈ foreign, separator.toList <:+: path.toList
  · refine ⟨fun _ => .inl hforeign, fun _ => ?_⟩
    rcases hfound : foreign.find? fun separator => occursIn separator.toList path.toList
      with _ | separator
    · obtain ⟨separator, hseparator, hinfix⟩ := hforeign
      exact absurd (occursIn_iff.mpr hinfix) (List.find?_eq_none.mp hfound separator hseparator)
    · exact ⟨_, by rw [locateWithout, hfound]⟩
  · have hsettling := (settling path [] (split '/' path)).error_iff
    rw [List.length_nil, climbsFrom_zero] at hsettling
    rw [locateWithout_of_not_foreign hforeign, Escapes, ← hsettling]
    rcases settle path [] (split '/' path) with cause | settled
    · simp [Except.map]
    · simp [Except.map, hforeign]

theorem exists_locateWithout_iff :
    (∃ located, roots.locateWithout foreign path = .ok located) ↔ ¬ Escapes foreign path := by
  rw [← locateWithout_eq_error_iff]
  rcases roots.locateWithout foreign path with cause | located <;> simp

/-- A path that is not refused holds no foreign separator, and its components settle. -/
theorem exists_settle_of_locateWithout (h : roots.locateWithout foreign path = .ok located) :
    (¬ ∃ separator ∈ foreign, separator.toList <:+: path.toList) ∧
      ∃ names, settle path [] (split '/' path) = .ok names ∧
        located = below (roots.start path) names := by
  have hforeign : ¬ ∃ separator ∈ foreign, separator.toList <:+: path.toList :=
    fun hforeign => exists_locateWithout_iff.mp ⟨located, h⟩ (.inl hforeign)
  refine ⟨hforeign, ?_⟩
  rw [locateWithout_of_not_foreign hforeign] at h
  rcases hsettled : settle path [] (split '/' path) with cause | names
  · rw [hsettled] at h
    cases h
  · rw [hsettled] at h
    exact ⟨names, rfl, (Except.ok.inj h).symm⟩

/-- A path that is not refused leads to what remains of it, and that is made of names. -/
theorem eq_below_of_locateWithout (h : roots.locateWithout foreign path = .ok located) :
    located = below (roots.start path) (remaining (split '/' path)) ∧
      ∀ name ∈ remaining (split '/' path), IsName name := by
  obtain ⟨-, names, hsettled, rfl⟩ := exists_settle_of_locateWithout h
  have hsettling := settling path [] (split '/' path)
  obtain rfl : names = remaining (split '/' path) := hsettling.eq_foldl hsettled
  refine ⟨rfl, hsettling.isName hsettled ?_ (by simp)⟩
  exact fun component => Text.not_mem_of_mem_split

/-- Only the root a path starts from makes a difference. -/
theorem locateWithout_congr {other : Roots} (h : other.start path = roots.start path) :
    other.locateWithout foreign path = roots.locateWithout foreign path := by
  rw [locateWithout, locateWithout, h]

end Roots

/-- **External paths are confined.** A path is refused exactly if it escapes. Any other path leads
to the root it starts from, with what remains of its components below it, and these are proper
names. The other root makes no difference. -/
theorem locateWithout_confined (roots : Roots) (foreign : List String) (path : String) :
    ((∃ cause, roots.locateWithout foreign path = .error cause) ↔ Escapes foreign path) ∧
      (∀ located, roots.locateWithout foreign path = .ok located ↔ ¬ Escapes foreign path ∧
        located = (if path.toList.head? = some '/' then roots.card else roots.patch) ++
          String.join ((remaining (split '/' path)).map ("/" ++ ·))) ∧
      (¬ Escapes foreign path → ∀ name ∈ remaining (split '/' path), IsName name) ∧
      ∀ other : String, Roots.locateWithout
        (if path.toList.head? = some '/' then ⟨roots.card, other⟩ else ⟨other, roots.patch⟩)
        foreign path = roots.locateWithout foreign path := by
  have hstart : roots.start path =
      if path.toList.head? = some '/' then roots.card else roots.patch := by
    simp [Roots.start, isAbsolute]
  refine ⟨Roots.locateWithout_eq_error_iff, fun located => ⟨fun h => ?_, ?_⟩, fun h => ?_,
    fun other => Roots.locateWithout_congr ?_⟩
  · obtain ⟨rfl, -⟩ := Roots.eq_below_of_locateWithout h
    exact ⟨Roots.exists_locateWithout_iff.mp ⟨_, h⟩, by rw [below_eq, hstart]⟩
  · rintro ⟨hstays, rfl⟩
    obtain ⟨located, h⟩ := Roots.exists_locateWithout_iff.mpr hstays
    rw [h, (Roots.eq_below_of_locateWithout h).1, below_eq, hstart]
  · have hexists : ∃ located, roots.locateWithout foreign path = .ok located :=
      Roots.exists_locateWithout_iff.mpr h
    obtain ⟨located, hlocated⟩ := hexists
    exact (Roots.eq_below_of_locateWithout hlocated).2
  · rw [hstart]
    split
    · next hcard => simp [Roots.start, isAbsolute, hcard]
    · next hpatch => simp [Roots.start, isAbsolute, hpatch]

/-! ## The folder of a patch document -/

/-- A path is a folder or lies below it: it starts where the folder starts, and proper names follow
the names of the folder. -/
def LiesIn (folder path : String) : Prop :=
  isAbsolute path = isAbsolute folder ∧
    ∃ names, (∀ name ∈ names, IsName name) ∧ pathNames path = pathNames folder ++ names

theorem Mount.locate_of_resolve {fs : FileSystem} {roots : Roots} {path located : String}
    (h : (Mount.resolve fs roots path).value = some located) : roots.locate path = .ok located := by
  rw [Mount.resolve] at h
  rcases hlocated : roots.locate path with cause | found
  · rw [hlocated] at h
    cases h
  · rw [hlocated] at h
    dsimp only at h
    split at h
    · cases h
    · exact congrArg Except.ok (Option.some.inj h)

/-- **Where the relative paths of a patch document lead.** A path that is accepted leads to the
names of the document's folder and then to what remains of it. It lies in that folder whenever the
folder has a name. Otherwise the folder is the top, where every path lies of which something
remains, or the working folder, where no such path lies: they all start at the top as well. -/
theorem resolved_liesIn_iff {fs : FileSystem} {card document path located : String}
    (hpath : isAbsolute path = false)
    (h : ((External.host fs ⟨card, (patchRoot card document "").value⟩).savegame? path).value =
      some located) :
    pathNames located = pathNames (folderOf document) ++ remaining (split '/' path) ∧
      (∀ name ∈ remaining (split '/' path), IsName name) ∧
      (LiesIn (folderOf document) located ↔ pathNames (folderOf document) ≠ [] ∨
        (isAbsolute document = true ↔ remaining (split '/' path) ≠ [])) ∧
      (isAbsolute document = false → (isAbsolute located = true ↔
        '/' ∉ document.toList ∧ remaining (split '/' path) ≠ [])) := by
  have hresolved : (Mount.resolve fs (Roots.trimmed ⟨card, folderOf document⟩) path).value =
      some located := h
  obtain ⟨hlocated, hnames⟩ :=
    Roots.eq_below_of_locateWithout (Mount.locate_of_resolve hresolved)
  have hroot : located =
      below (dropEnd (· = '/') (folderOf document)) (remaining (split '/' path)) := by
    rw [hlocated, Roots.start, hpath]
    rfl
  have habsolute : isAbsolute located = if pathNames (folderOf document) = []
      then !(remaining (split '/' path)).isEmpty else isAbsolute document := by
    rw [hroot, isAbsolute_below_dropEnd, isAbsolute_folderOf]
  have hparts : pathNames located =
      pathNames (folderOf document) ++ remaining (split '/' path) := by
    rw [hroot, pathNames_below hnames, pathNames_dropEnd]
  have hlies : LiesIn (folderOf document) located ↔ isAbsolute located = isAbsolute document := by
    rw [LiesIn, isAbsolute_folderOf]
    exact ⟨And.left, fun hstart => ⟨hstart, _, hnames, hparts⟩⟩
  refine ⟨hparts, hnames, ?_, fun hrelative => ?_⟩
  · rw [hlies, habsolute]
    by_cases hfolder : pathNames (folderOf document) = []
    · simp only [hfolder, ne_eq, not_true_eq_false, false_or]
      cases isAbsolute document <;> simp
    · simp [hfolder]
  · have hfolder : pathNames (folderOf document) = [] ↔ '/' ∉ document.toList := by
      rw [pathNames_eq_nil_iff_of_relative (by rw [isAbsolute_folderOf, hrelative]),
        folderOf_eq_empty_iff]
    rw [habsolute, ← hfolder]
    by_cases hbare : pathNames (folderOf document) = []
    · simp [hbare]
    · simp [hbare, hrelative]

/-- A document in the working folder: the path of a file beside it leads to the top instead. -/
theorem resolved_liesIn_iff_bare :
    let fs : FileSystem := ⟨[("home", .folder [("a.bin", .file [0])])], ["home"]⟩
    isAbsolute "a.bin" = false ∧
      ((External.host fs ⟨"sd", (patchRoot "sd" "mod.json" "").value⟩).savegame? "a.bin").value =
        some "/a.bin" ∧ isAbsolute "/a.bin" = true ∧ ¬ LiesIn (folderOf "mod.json") "/a.bin" := by
  intro fs
  have hpath : isAbsolute "a.bin" = false := by decide
  have hlocated : ((External.host fs ⟨"sd", (patchRoot "sd" "mod.json" "").value⟩).savegame?
      "a.bin").value = some "/a.bin" := by decide +kernel
  obtain ⟨-, -, hlies, habsolute⟩ := resolved_liesIn_iff hpath hlocated
  have hnames : remaining (split '/' "a.bin") ≠ [] := by decide +kernel
  have hrelative : isAbsolute "mod.json" = false := by decide
  have hfolder : pathNames (folderOf "mod.json") = [] := by decide +kernel
  refine ⟨hpath, hlocated, (habsolute hrelative).mpr ⟨by decide, hnames⟩, ?_⟩
  rw [hlies]
  simp [hnames, hrelative, hfolder]

end DiscPatch
