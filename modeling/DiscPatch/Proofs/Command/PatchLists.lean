import DiscPatch.Command.Run
import DiscPatch.Proofs.Document.Checks
import DiscPatch.Proofs.Document.Unreadable
import DiscPatch.Proofs.Patch.Application
import Mathlib.Data.List.Forall2

/-!
# Patch lists that are not in order

A patch list is loaded entry by entry. The first entry that is not in order ends it, and the run
with it. This is so whatever `check` makes patches of the fields of entries.

* `Patch.Natural`, `Patch.natural_of_check` — a patch that comes from a document has natural numbers
  only;
* `Loaded`, `Refused` — what an entry is loaded as, and what it is refused for;
* `patchesOf_eq_ok_iff`, `patchesOf_eq_error_iff` — what comes of a whole document;
* `Reached`, `exists_failure_of_load` — how a run ends that cannot load its patch list;
* `patchLists_refused` — a patch list that is not in order is invalid input, but for one flaw: a
  `root` that is neither blank nor a text ends the run as an unexpected failure.
-/

namespace DiscPatch

/-! ## Numbers of a patch -/

/-- No number in the directives of the patch is negative. -/
structure Patch.Natural (patch : Patch) : Prop where
  /-- those for single files -/
  files : ∀ directive ∈ patch.files, directive.Natural
  /-- those for folders -/
  folders : ∀ directive ∈ patch.folders, 0 ≤ directive.length
  /-- those for memory -/
  memory : ∀ directive ∈ patch.memory, 0 ≤ directive.offset ∧ 0 ≤ directive.align

theorem FileDirective.natural_of_check {document : Document} {directive : FileDirective}
    (h : FileDirective.check document = .ok directive) : directive.Natural := by
  obtain ⟨fields, rfl, hfields⟩ := Check.exists_of_object h
  simp only [Checked.also_eq_ok_iff, Checked.build_eq_ok_iff] at hfields
  obtain ⟨_, _, ⟨_, _, ⟨_, _, ⟨_, _, ⟨_, _, ⟨_, _, ⟨_, _, rfl, -, rfl⟩, -, rfl⟩, hoffset, rfl⟩,
    hfileOffset, rfl⟩, hlength, rfl⟩, -, rfl⟩, -, rfl⟩ := hfields
  exact ⟨Check.nonneg_of_optional_natural hoffset (by decide),
    Check.nonneg_of_optional_natural hfileOffset (by decide),
    Check.nonneg_of_optional_natural hlength (by decide)⟩

theorem FolderDirective.length_nonneg_of_check {document : Document} {directive : FolderDirective}
    (h : FolderDirective.check document = .ok directive) : 0 ≤ directive.length := by
  obtain ⟨fields, rfl, hfields⟩ := Check.exists_of_object h
  simp only [Checked.also_eq_ok_iff, Checked.build_eq_ok_iff] at hfields
  obtain ⟨_, _, ⟨_, _, ⟨_, _, ⟨_, _, ⟨_, _, ⟨_, _, rfl, -, rfl⟩, -, rfl⟩, -, rfl⟩, -, rfl⟩, -, rfl⟩,
    hlength, rfl⟩ := hfields
  exact Check.nonneg_of_optional_natural hlength (by decide)

theorem MemoryDirective.nonneg_of_check {document : Document} {directive : MemoryDirective}
    (h : MemoryDirective.check document = .ok directive) :
    0 ≤ directive.offset ∧ 0 ≤ directive.align := by
  obtain ⟨fields, rfl, hfields⟩ := Check.exists_of_object h
  simp only [Checked.also_eq_ok_iff, Checked.build_eq_ok_iff] at hfields
  obtain ⟨_, _, ⟨_, _, ⟨_, _, ⟨_, _, ⟨_, _, ⟨_, _, ⟨_, _, rfl, hoffset, rfl⟩, -, rfl⟩, -, rfl⟩,
    -, rfl⟩, -, rfl⟩, halign, rfl⟩, -, rfl⟩ := hfields
  exact ⟨Check.nonneg_of_optional_natural hoffset (by decide),
    Check.nonneg_of_optional_natural halign (by decide)⟩

/-- **A patch that comes from a document has natural numbers only.** -/
theorem Patch.natural_of_check {document : Document} {patch : Patch}
    (h : Patch.check document = .ok patch) : patch.Natural := by
  obtain ⟨fields, rfl, hfields⟩ := Check.exists_of_object h
  simp only [Checked.also_eq_ok_iff, Checked.build_eq_ok_iff] at hfields
  obtain ⟨_, _, ⟨_, _, ⟨_, _, ⟨_, _, ⟨_, _, ⟨_, _, rfl, -, rfl⟩, hfiles, rfl⟩, hfolders, rfl⟩,
    hmemory, rfl⟩, -, rfl⟩, -, rfl⟩ := hfields
  exact ⟨Check.forall_of_optional_listOf hfiles fun _ _ => FileDirective.natural_of_check,
    Check.forall_of_optional_listOf hfolders fun _ _ => FolderDirective.length_nonneg_of_check,
    Check.forall_of_optional_listOf hmemory fun _ _ => MemoryDirective.nonneg_of_check⟩

namespace Command

open DiscPatch.Host (FileSystem WrittenPath absolute)

/-! ## Entries -/

/-- The entry has a root that is neither blank nor a text. -/
def StrayRoot (fields : Fields) : Prop :=
  ∃ value, fields.get? "root" = some value ∧ value.isBlank = false ∧ ∀ root, value ≠ .text root

/-- The root of an entry: the text that stands there, if one does. -/
def rootText (fields : Fields) : String :=
  match fields.get? "root" with
  | some (.text root) => root
  | _ => ""

/-- What is checked of an entry: all fields but those that are not written for the patch. -/
def patchFields (fields : Fields) : Document :=
  .object ((fields.erase "root").erase "loader")

/-- What an entry is loaded as: the patch that its fields give, and the external files of the host
from its own root on. -/
inductive Loaded (check : Check Patch) (fs : FileSystem) (card path : String) :
    Document → Patch → Prop where
  /-- the fields of the entry are in order -/
  | entry {fields : Fields} {patch : Patch} (hroot : ¬ StrayRoot fields)
    (hcheck : check (patchFields fields) = .ok patch) :
    Loaded check fs card path (.object fields) { patch with
      external := some (External.host fs ⟨card, (patchRoot card path (rootText fields)).value⟩) }

/-- What an entry is refused for. -/
inductive Refused (check : Check Patch) (path : String) : Document → Error → Prop where
  /-- it is no object -/
  | shape {entry : Document} (h : ∀ fields, entry ≠ .object fields) :
    Refused check path entry (.notPatchEntry path)
  /-- its root is neither blank nor a text -/
  | root {fields : Fields} (hroot : StrayRoot fields) :
    Refused check path (.object fields) .rootNotText
  /-- its fields have flaws -/
  | flaws {fields : Fields} {flaws : List Flaw} (hroot : ¬ StrayRoot fields)
    (hcheck : check (patchFields fields) = .error flaws) :
    Refused check path (.object fields) (.invalid flaws)

/-- A root that is not stray is the text that stands there, if one does. -/
theorem rootOf_cases (fields : Fields) :
    StrayRoot fields ∧ rootOf fields = .error .rootNotText ∨
      ¬ StrayRoot fields ∧ rootOf fields = .ok (rootText fields) := by
  rw [rootOf, rootText, StrayRoot]
  rcases fields.get? "root" with _ | value
  · exact .inr ⟨by simp, rfl⟩
  cases hblank : value.isBlank with
  | true =>
    refine .inr ⟨by simp [hblank], ?_⟩
    cases value <;> simp [hblank]
  | false =>
    cases value with
    | text root => exact .inr ⟨by simp, rfl⟩
    | _ => exact .inl ⟨⟨_, rfl, hblank, by simp⟩, by simp [hblank]⟩

section Entries

variable {check : Check Patch} {fs : FileSystem} {card path : String}

/-- What an entry answers. -/
def answerOf (check : Check Patch) (fs : FileSystem) (card path : String) :
    Document → Except Error Patch
  | .object fields => (patchOf check fs card path fields).value
  | _ => .error (.notPatchEntry path)

theorem value_patchOf (fields : Fields) :
    (patchOf check fs card path fields).value = (do
      let root ← rootOf fields
      let patch ← (check (patchFields fields)).mapError .invalid
      return { patch with
        external := some (External.host fs ⟨card, (patchRoot card path root).value⟩) }) := by
  rw [patchOf, patchFields]
  rcases rootOf fields with error | root
  · rfl
  · rw [Logged.value_bind]
    rcases check (.object ((fields.erase "root").erase "loader")) with flaws | patch <;> rfl

/-- **An entry is loaded or refused.** -/
theorem answerOf_cases (check : Check Patch) (fs : FileSystem) (card path : String)
    (entry : Document) :
    (∃ patch, answerOf check fs card path entry = .ok patch ∧
        Loaded check fs card path entry patch) ∨
      ∃ error, answerOf check fs card path entry = .error error ∧
        Refused check path entry error := by
  cases entry with
  | object fields =>
    rw [answerOf, value_patchOf]
    rcases rootOf_cases fields with ⟨hroot, hof⟩ | ⟨hroot, hof⟩
    · rw [hof]
      exact .inr ⟨_, rfl, .root hroot⟩
    · rw [hof]
      rcases hcheck : check (patchFields fields) with flaws | patch
      · exact .inr ⟨_, rfl, .flaws hroot hcheck⟩
      · exact .inl ⟨_, rfl, .entry hroot hcheck⟩
  | _ => exact .inr ⟨_, rfl, .shape (by simp)⟩

theorem answerOf_eq_ok_iff {entry : Document} {patch : Patch} :
    answerOf check fs card path entry = .ok patch ↔ Loaded check fs card path entry patch := by
  constructor
  · intro h
    rcases answerOf_cases check fs card path entry with
      ⟨found, hfound, hloaded⟩ | ⟨error, herror, -⟩
    · cases h.symm.trans hfound
      exact hloaded
    · cases h.symm.trans herror
  · rintro ⟨hroot, hcheck⟩
    rw [answerOf, value_patchOf, ((rootOf_cases _).resolve_left fun h => hroot h.1).2, hcheck]
    rfl

theorem answerOf_eq_error_iff {entry : Document} {error : Error} :
    answerOf check fs card path entry = .error error ↔ Refused check path entry error := by
  constructor
  · intro h
    rcases answerOf_cases check fs card path entry with
      ⟨patch, hpatch, -⟩ | ⟨found, hfound, hrefused⟩
    · cases h.symm.trans hpatch
    · cases h.symm.trans hfound
      exact hrefused
  · rintro (hshape | hroot | ⟨hroot, hcheck⟩)
    · cases entry with
      | object fields => exact absurd rfl (hshape fields)
      | _ => rfl
    · rw [answerOf, value_patchOf, ((rootOf_cases _).resolve_right fun h => h.1 hroot).2]
      rfl
    · rw [answerOf, value_patchOf, ((rootOf_cases _).resolve_left fun h => hroot h.1).2, hcheck]
      rfl

/-! ## Documents -/

theorem value_patchesFrom_cons (entry : Document) (rest : List Document) :
    (patchesFrom check fs card path (entry :: rest)).value = (do
      let patch ← answerOf check fs card path entry
      let patches ← (patchesFrom check fs card path rest).value
      return patch :: patches) := by
  cases entry with
  | object fields =>
    rw [patchesFrom, Logged.value_bind, answerOf]
    rcases (patchOf check fs card path fields).value with error | patch
    · rfl
    · change (patchesFrom check fs card path rest).value.map _ = _
      rcases (patchesFrom check fs card path rest).value with error | patches <;> rfl
  | _ => rfl

/-- Entries are loaded one by one. -/
theorem patchesFrom_eq_ok_iff {entries : List Document} {patches : List Patch} :
    (patchesFrom check fs card path entries).value = .ok patches ↔
      List.Forall₂ (Loaded check fs card path) entries patches := by
  induction entries generalizing patches with
  | nil =>
    constructor
    · rintro ⟨⟩
      exact .nil
    · rintro ⟨⟩
      rfl
  | cons entry rest ih =>
    rw [value_patchesFrom_cons]
    constructor
    · intro h
      rcases hentry : answerOf check fs card path entry with error | patch
      · rw [hentry] at h
        cases h
      rcases hrest : (patchesFrom check fs card path rest).value with error | others
      · rw [hentry, hrest] at h
        cases h
      · rw [hentry, hrest] at h
        cases h
        exact .cons (answerOf_eq_ok_iff.mp hentry) (ih.mp hrest)
    · rintro (_ | ⟨hentry, hrest⟩)
      rw [answerOf_eq_ok_iff.mpr hentry, ih.mpr hrest]
      rfl

/-- The first entry that is refused is what all are refused for. -/
theorem patchesFrom_eq_error_iff {entries : List Document} {error : Error} :
    (patchesFrom check fs card path entries).value = .error error ↔
      ∃ front entry back loaded, entries = front ++ entry :: back ∧
        List.Forall₂ (Loaded check fs card path) front loaded ∧ Refused check path entry error := by
  induction entries with
  | nil =>
    constructor
    · rintro ⟨⟩
    · rintro ⟨front, entry, back, loaded, hentries, -⟩
      simp at hentries
  | cons first rest ih =>
    rw [value_patchesFrom_cons]
    constructor
    · intro h
      rcases hfirst : answerOf check fs card path first with fault | patch
      · rw [hfirst] at h
        cases h
        exact ⟨[], first, rest, [], rfl, .nil, answerOf_eq_error_iff.mp hfirst⟩
      rcases hrest : (patchesFrom check fs card path rest).value with fault | others
      · rw [hfirst, hrest] at h
        cases h
        obtain ⟨front, entry, back, loaded, rfl, hfront, hentry⟩ := ih.mp hrest
        exact ⟨first :: front, entry, back, patch :: loaded, rfl,
          .cons (answerOf_eq_ok_iff.mp hfirst) hfront, hentry⟩
      · rw [hfirst, hrest] at h
        cases h
    · rintro ⟨front, entry, back, loaded, hentries, hfront, hentry⟩
      -- the first entry is the one that is refused, or stands in front of it
      cases hfront with
      | nil =>
        obtain ⟨rfl, rfl⟩ := List.cons.inj hentries
        rw [answerOf_eq_error_iff.mpr hentry]
        rfl
      | cons hfirst hfront =>
        obtain ⟨rfl, rfl⟩ := List.cons.inj hentries
        rw [answerOf_eq_ok_iff.mpr hfirst, ih.mpr ⟨_, _, _, _, rfl, hfront, hentry⟩]
        rfl

/-- **A document is loaded exactly if it is a list of entries that are loaded.** -/
theorem patchesOf_eq_ok_iff {document : Document} {patches : List Patch} :
    (patchesOf check fs card path document).value = .ok patches ↔
      ∃ entries, document = .list entries ∧
        List.Forall₂ (Loaded check fs card path) entries patches := by
  cases document with
  | list entries => simpa [patchesOf] using patchesFrom_eq_ok_iff
  | _ => simp [patchesOf]

/-- **A document is refused** as a whole or for its first entry that is. -/
theorem patchesOf_eq_error_iff {document : Document} {error : Error} :
    (patchesOf check fs card path document).value = .error error ↔
      (∀ entries, document ≠ .list entries) ∧ error = .notPatchList path ∨
      ∃ front entry back loaded, document = .list (front ++ entry :: back) ∧
        List.Forall₂ (Loaded check fs card path) front loaded ∧ Refused check path entry error := by
  cases document with
  | list entries => simpa [patchesOf] using patchesFrom_eq_error_iff
  | _ => simp [patchesOf, eq_comm]

end Entries

/-- What is loaded has natural numbers only, if all that is checked has. -/
theorem natural_of_patchesOf {check : Check Patch} {fs : FileSystem} {card path : String}
    {document : Document} {patches : List Patch}
    (hcheck : ∀ document patch, check document = .ok patch → patch.Natural)
    (h : (patchesOf check fs card path document).value = .ok patches) :
    ∀ patch ∈ patches, patch.Natural := by
  obtain ⟨entries, -, hentries⟩ := patchesOf_eq_ok_iff.mp h
  clear h
  induction hentries with
  | nil => exact fun _ hpatch => by cases hpatch
  | cons hentry _ ih =>
    obtain ⟨-, hfields⟩ := hentry
    obtain ⟨hfiles, hfolders, hmemory⟩ := hcheck _ _ hfields
    exact List.forall_mem_cons.mpr ⟨⟨hfiles, hfolders, hmemory⟩, ih⟩

/-! ## Host files -/

theorem readDocument_of_readFile {fs : FileSystem} {path : String} {data : Bytes}
    (h : fs.readFile path = .ok data) :
    readDocument fs path = match data.toText? with
      | none => .error .undecodable
      | some text => Document.parse text := by
  rw [readDocument, h]
  rfl

/-- Reading a host file that is there fails only over what is in it. -/
theorem unreadable_of_readDocument {fs : FileSystem} {path : String} {error : Error}
    (hfile : fs.isFile path = true) (h : readDocument fs path = .error error) :
    error = .undecodable ∨ Unreadable error := by
  obtain ⟨data, hdata⟩ : ∃ data, fs.readFile path = .ok data := by
    rw [FileSystem.isFile, FileSystem.stat?] at hfile
    rw [FileSystem.readFile]
    rcases hfind : fs.find true path with fault | entry
    · rw [hfind] at hfile
      cases hfile
    · rw [hfind] at hfile
      cases entry with
      | file data => exact ⟨data, rfl⟩
      | _ => cases hfile
  rw [readDocument_of_readFile hdata] at h
  split at h
  · cases h
    exact .inl rfl
  · exact .inr (unreadable_of_parse h)

/-! ## Runs -/

namespace Work

variable {α β : Type} {files after : FileSystem}

/-- What a part of a run answers, or how it stops the run, and the files it leaves. -/
def outcome (work : Work α) (files : FileSystem) : Except Failure α × FileSystem :=
  (work.run.run files).value

theorem outcome_get (files : FileSystem) :
    (get : Work FileSystem).outcome files = (.ok files, files) := rfl

theorem outcome_noting (answer : Logged α) (files : FileSystem) :
    (noting answer).outcome files = (.ok answer.value, files) := rfl

theorem outcome_bind (work : Work α) (next : α → Work β) (files : FileSystem) :
    (work >>= next).outcome files =
      match work.outcome files with
      | (.ok a, after) => (next a).outcome after
      | (.error failure, after) => (.error failure, after) := by
  change (ExceptT.bindCont next (work.outcome files).1 (work.outcome files).2).value = _
  rcases work.outcome files with ⟨_ | a, after⟩ <;> rfl

theorem outcome_bind_ok {work : Work α} {next : α → Work β} {a : α}
    (h : work.outcome files = (.ok a, after)) :
    (work >>= next).outcome files = (next a).outcome after := by
  rw [outcome_bind, h]

theorem outcome_bind_error {work : Work α} {next : α → Work β} {failure : Failure}
    (h : work.outcome files = (.error failure, after)) :
    (work >>= next).outcome files = (.error failure, after) := by
  rw [outcome_bind, h]

end Work

open Work

section Runs

variable {check : Check Patch} {files : FileSystem} {base patches card path : String}
  {patchTrail cardTrail : List String} {error : Error}

theorem outcome_placeOf {place : List String}
    (h : files.realPath (WrittenPath.ofText path).text = .ok place) :
    (placeOf path).outcome files = (.ok place, files) := by
  rw [placeOf, outcome_bind_ok (outcome_get files), h]
  rfl

/-- A run goes on with the place of external files, given or not. -/
theorem outcome_cardTrail {next : List String → Work String}
    (h : (if card = "" then .ok patchTrail.dropLast
      else files.realPath (WrittenPath.ofText card).text) = .ok cardTrail) :
    outcome (if card = "" then pure patchTrail.dropLast >>= next else placeOf card >>= next) files =
      (next cardTrail).outcome files := by
  split at h
  · next hnone =>
    cases h
    rw [if_pos hnone, pure_bind]
  · next hsome => rw [if_neg hsome, outcome_bind_ok (outcome_placeOf h)]

/-- A run that loads a patch list stops if that fails. -/
theorem outcome_load_error {failure : Error → Failure} {next : List Patch → Work String}
    (h : (loadPatches check files card path).value = .error error) :
    outcome (do
      let patches ← orStop failure (← noting (loadPatches check (← get) card path))
      next patches) files = (.error (failure error), files) := by
  rw [outcome_bind_ok (outcome_get files), outcome_bind_ok (outcome_noting _ files), h]
  exact outcome_bind_error rfl

/-- The paths that a run was given lead to a folder, to the file of a patch list and to the place of
external files. -/
structure Reached (files : FileSystem) (base patches card : String)
    (patchTrail cardTrail : List String) : Prop where
  /-- the folder to patch -/
  base : ∃ trail, files.realPath (WrittenPath.ofText base).text = .ok trail ∧
    files.isFolder (absolute trail) = true
  /-- the place of the patch list -/
  patches : files.realPath (WrittenPath.ofText patches).text = .ok patchTrail
  /-- the patch list is a file -/
  file : files.isFile (absolute patchTrail) = true
  /-- the place of external files, which is that of the patch list if none was given -/
  card : (if card = "" then .ok patchTrail.dropLast
    else files.realPath (WrittenPath.ofText card).text) = .ok cardTrail

/-- **A run that cannot load its patch list stops** with the files as they were. -/
theorem exists_failure_of_load (hreached : Reached files base patches card patchTrail cardTrail)
    (hload : (loadPatches check files (absolute cardTrail) (absolute patchTrail)).value =
      .error error)
    (settings : Settings) (output : String) (asDocument verbose : Bool) :
    ∃ failure,
      (applyTask check settings base patches card output asDocument verbose).outcome files =
        (.error failure, files) ∧ failure.cause = some error ∧
      (failure.code = exitUnexpected ∧ (error = .rootNotText ∨ ∃ fault, error = .host fault) ∨
        failure.code = exitInvalid ∧ error ≠ .rootNotText ∧ ∀ fault, error ≠ .host fault) := by
  obtain ⟨⟨baseTrail, hbase, hfolder⟩, hpatches, hfile, hcard⟩ := hreached
  rw [applyTask, outcome_bind_ok (outcome_placeOf hbase), outcome_bind_ok (outcome_get files),
    if_neg (by simp [hfolder]), outcome_bind_ok (outcome_placeOf hpatches),
    outcome_bind_ok (outcome_get files), if_neg (by simp [hfile])]
  dsimp only
  rw [outcome_cardTrail hcard, outcome_load_error hload]
  refine ⟨_, rfl, ?_⟩
  -- all errors but two are taken for flaws of the patch list
  cases error with
  | rootNotText => exact ⟨rfl, .inl ⟨rfl, .inl rfl⟩⟩
  | host fault => exact ⟨rfl, .inl ⟨rfl, .inr ⟨fault, rfl⟩⟩⟩
  | _ => exact ⟨rfl, .inr ⟨rfl, by simp, by simp⟩⟩

end Runs

/-! ## What comes of a patch list -/

/-- The first entry of the document that is not loaded has a root that is neither blank nor a
text. -/
def StrayIn (check : Check Patch) (fs : FileSystem) (card path : String) (document : Document) :
    Prop :=
  ∃ front fields back loaded, document = .list (front ++ .object fields :: back) ∧
    List.Forall₂ (Loaded check fs card path) front loaded ∧ StrayRoot fields

section Lists

variable {check : Check Patch} {fs : FileSystem} {card path : String} {document : Document}
  {error : Error}

theorem patchesOf_eq_rootNotText_iff :
    (patchesOf check fs card path document).value = .error .rootNotText ↔
      StrayIn check fs card path document := by
  rw [patchesOf_eq_error_iff]
  constructor
  · rintro (⟨-, hnot⟩ | ⟨front, entry, back, loaded, hdocument, hfront, hentry⟩)
    · cases hnot
    · cases hentry with
      | root hroot => exact ⟨front, _, back, loaded, hdocument, hfront, hroot⟩
  · rintro ⟨front, fields, back, loaded, hdocument, hfront, hroot⟩
    exact .inr ⟨front, _, back, loaded, hdocument, hfront, .root hroot⟩

theorem error_of_patchesOf (h : (patchesOf check fs card path document).value = .error error) :
    error = .notPatchList path ∨ error = .notPatchEntry path ∨ (∃ flaws, error = .invalid flaws) ∨
      error = .rootNotText := by
  rcases patchesOf_eq_error_iff.mp h with ⟨-, rfl⟩ | ⟨_, _, _, _, -, -, hentry⟩
  · exact .inl rfl
  · cases hentry with
    | shape => exact .inr (.inl rfl)
    | root => exact .inr (.inr (.inr rfl))
    | flaws => exact .inr (.inr (.inl ⟨_, rfl⟩))

/-- Loading a patch list from a file that is there fails over a stray root exactly if its document
has one, and never over the host. -/
theorem loadPatches_error_iff (hfile : fs.isFile path = true)
    (h : (loadPatches check fs card path).value = .error error) :
    (error = .rootNotText ↔ ∃ document, readDocument fs path = .ok document ∧
      StrayIn check fs card path document) ∧ ∀ fault, error ≠ .host fault := by
  rw [loadPatches] at h
  rcases hread : readDocument fs path with fault | document
  · rw [hread] at h
    cases h
    have hkind := unreadable_of_readDocument hfile hread
    refine ⟨⟨?_, ?_⟩, ?_⟩
    · rintro rfl
      rcases hkind with hkind | hkind <;> cases hkind
    · rintro ⟨_, hfound, -⟩
      cases hfound
    · rintro fault rfl
      rcases hkind with hkind | hkind <;> cases hkind
  · rw [hread] at h
    change (patchesOf check fs card path document).value = .error error at h
    refine ⟨⟨?_, ?_⟩, ?_⟩
    · rintro rfl
      exact ⟨document, rfl, patchesOf_eq_rootNotText_iff.mp h⟩
    · rintro ⟨_, ⟨⟩, hstray⟩
      exact Except.error.inj (h.symm.trans (patchesOf_eq_rootNotText_iff.mpr hstray))
    · rintro fault rfl
      rcases error_of_patchesOf h with hkind | hkind | ⟨_, hkind⟩ | hkind <;> cases hkind

end Lists

/-- **A patch list that is not in order is invalid input, but for a stray root.** Whatever the check
of the fields of an entry is, a document gives patches exactly if it is a list of entries that are
loaded, one patch for each and in their order; no number in them is negative if the check lets none
pass. Otherwise the document is refused for what is said to be wrong, or else for a root that is
neither blank nor a text. A run that cannot load its patch list stops with the files as they were:
with the code for unexpected failures if the first entry that is not in order has such a root, and
in every other case with the code for invalid input. Documents that spell half of a surrogate pair
are left out, since there is no text for it. -/
theorem patchLists_refused (check : Check Patch)
    (hcheck : ∀ document patch, check document = .ok patch → patch.Natural)
    (files : FileSystem) :
    (∀ (card path : String) (document : Document),
      (∀ patches, (patchesOf check files card path document).value = .ok patches ↔
        ∃ entries, document = .list entries ∧
          List.Forall₂ (Loaded check files card path) entries patches) ∧
      (∀ patches, (patchesOf check files card path document).value = .ok patches →
        ∀ patch ∈ patches, patch.Natural) ∧
      (∀ error, (patchesOf check files card path document).value = .error error →
        error = .notPatchList path ∨ error = .notPatchEntry path ∨
          (∃ flaws, error = .invalid flaws) ∨ error = .rootNotText) ∧
      ((patchesOf check files card path document).value = .error .rootNotText ↔
        StrayIn check files card path document)) ∧
    ∀ (settings : Settings) (base patches card output : String) (asDocument verbose : Bool)
      (patchTrail cardTrail : List String) (error : Error),
      Reached files base patches card patchTrail cardTrail →
      (loadPatches check files (absolute cardTrail) (absolute patchTrail)).value = .error error →
      error ≠ .halfPair →
      ∃ failure,
        (applyTask check settings base patches card output asDocument verbose).outcome files =
          (.error failure, files) ∧ failure.cause = some error ∧
        (failure.code = exitUnexpected ∨ failure.code = exitInvalid) ∧
        (failure.code = exitUnexpected ↔
          ∃ document, readDocument files (absolute patchTrail) = .ok document ∧
            StrayIn check files (absolute cardTrail) (absolute patchTrail) document) := by
  refine ⟨fun card path document => ⟨fun patches => patchesOf_eq_ok_iff,
    fun patches => natural_of_patchesOf hcheck, fun error => error_of_patchesOf,
    patchesOf_eq_rootNotText_iff⟩, ?_⟩
  intro settings base patches card output asDocument verbose patchTrail cardTrail error hreached
    hload _
  obtain ⟨failure, houtcome, hcause, hcode⟩ :=
    exists_failure_of_load hreached hload settings output asDocument verbose
  obtain ⟨hstray, hhost⟩ := loadPatches_error_iff hreached.file hload
  refine ⟨failure, houtcome, hcause, ?_, ?_⟩
  · exact hcode.imp And.left And.left
  · rw [← hstray]
    rcases hcode with ⟨hcode, hroot | ⟨fault, rfl⟩⟩ | ⟨hcode, hroot, -⟩
    · simp [hcode, hroot]
    · -- the file is there, so the host does not refuse it
      exact absurd rfl (hhost fault)
    · simp [hcode, hroot, exitInvalid, exitUnexpected]

/-- A list of an entry that is loaded and one whose root is a number. -/
theorem patchLists_refused_number :
    let text := "[\x7b\x7d, \x7b\"root\": 5\x7d]"
    let files : FileSystem :=
      ⟨[("base", .folder []), ("p.json", .file (Bytes.ofText text))], []⟩
    let settings : Settings := ⟨"main.dol", 0, true, "WARNING"⟩
    Reached files "base" "p.json" "" ["p.json"] [] ∧
      (loadPatches Patch.check files "/" "/p.json").value = .error .rootNotText ∧
      ∃ failure, (applyTask Patch.check settings "base" "p.json" "" "" false false).outcome files =
          (.error failure, files) ∧ failure.code = exitUnexpected := by
  intro text files settings
  have hreached : Reached files "base" "p.json" "" ["p.json"] [] :=
    ⟨⟨["base"], by decide +kernel, by decide +kernel⟩, by decide +kernel, by decide +kernel, rfl⟩
  have hread : readDocument files "/p.json" =
      .ok (.list [.object [], .object [("root", .int 5)]]) := by
    have hdata : files.readFile "/p.json" = .ok (Bytes.ofText text) := by decide +kernel
    have htext : (Bytes.ofText text).toText? = some text := by decide +kernel
    have hparse : Document.parse text = .ok (.list [.object [], .object [("root", .int 5)]]) := by
      simp only [Document.parse, String.reduceToList, text]
      rfl
    rw [readDocument_of_readFile hdata, htext]
    exact hparse
  have hstray : StrayIn Patch.check files "/" "/p.json"
      (.list [.object [], .object [("root", .int 5)]]) := by
    have hfirst : Loaded Patch.check files "/" "/p.json" (.object []) _ :=
      .entry (by rintro ⟨_, hnone, -⟩; cases hnone) rfl
    exact ⟨[.object []], [("root", .int 5)], [], [_], rfl, .cons hfirst .nil,
      .int 5, rfl, rfl, by simp⟩
  have hload : (loadPatches Patch.check files "/" "/p.json").value = .error .rootNotText := by
    rw [loadPatches, hread]
    exact patchesOf_eq_rootNotText_iff.mpr hstray
  obtain ⟨failure, houtcome, -, -, hcode⟩ :=
    (patchLists_refused Patch.check (fun _ _ => Patch.natural_of_check) files).2 settings "base"
      "p.json" "" "" false false ["p.json"] [] _ hreached hload (by simp)
  exact ⟨hreached, hload, failure, houtcome, hcode.mpr ⟨_, hread, hstray⟩⟩

end Command

end DiscPatch
