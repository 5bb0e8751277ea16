import DiscPatch.Proofs.Disc.PlainTree
import DiscPatch.Proofs.Patch.Expansion

/-!
# Patching a disc of byte strings

* `PlainDisc` — a disc whose files are plain byte strings;
* `Order.onPlain` — an order carried out on it;
* `Disc.plain`, `Disc.composed` — the disc of byte strings that a disc stands for;
* `composed_applyPatches` — patches do to a disc what their orders do to the disc of byte strings.

One order is simulated by `Order.simulates`; a run of orders follows by induction
(`Simulates.mapM`).
-/

namespace DiscPatch

open DiscPatch.Host (FileSystem)
open DiscPatch.Text (split)
open Edit

/-! ## The plain model -/

/-- A disc whose files are byte strings. -/
structure PlainDisc where
  /-- the name of the top folder -/
  name : String
  /-- what the top folder holds -/
  children : List Plain
  /-- the name and the bytes of the main executable, if there is one -/
  main : Option (String × Bytes)

namespace Order

/-- The bytes of the external file of an order, `none` if it is missing. -/
def external? (order : Order) : Option Bytes :=
  Shelf.bytes? order.tree order.roots order.directive.external

/-- What an order does to the bytes of its target: the external bytes are laid over them, from the
offset rounded down to a whole word. -/
def edit (order : Order) (current : Bytes) : Bytes :=
  match order.external? with
  | none => current
  | some external =>
    current.overwritten
      (external.body order.directive.fileOffset.toNat order.directive.length.toNat)
      (order.directive.offset.toNat / 4 * 4) order.directive.resize

/-- How an order ends that has a target. -/
def ending (order : Order) : Outcome :=
  if order.external?.isSome then .applied else .resourceUnavailable

/-- An order carried out on a disc of byte strings. -/
def onPlain (executable : String) (order : Order) : StateM PlainDisc FileReport := fun disc =>
  if order.directive.disc.toList.head? = some '/' then
    let (children, fault) := overPath order.directive.create order.edit
      (split '/' (String.ofList order.directive.disc.toList.tail)) disc.children
    (order.directive.report (fault.getD order.ending), { disc with children := children })
  else if sameName order.directive.disc executable then
    match disc.main with
    | some (name, bytes) =>
      (order.directive.report order.ending, { disc with main := some (name, order.edit bytes) })
    | none => (order.directive.report .skipped, disc)
  else
    match overName order.directive.disc order.edit disc.children with
    | some children => (order.directive.report order.ending, { disc with children := children })
    | none => (order.directive.report .skipped, disc)

end Order

/-! ## What a disc stands for -/

namespace Disc

/-- The files of a disc: those of the tree, and the main executable. -/
def files (disc : Disc) : List File :=
  filesOf disc.root.children ++ disc.main.toList

/-- Every file of the disc is complete. -/
def Complete (fs : FileSystem) (disc : Disc) : Prop :=
  ∀ file ∈ disc.files, file.Complete fs

/-- A disc with each file replaced by its bytes. -/
def plain (fs : FileSystem) (disc : Disc) : PlainDisc where
  name := disc.root.name
  children := plainOf fs disc.root.children
  main := disc.main.map fun file => (file.name, file.bytes fs)

/-- A disc with each file replaced by what reading it gives. -/
def composed (fs : FileSystem) (disc : Disc) : Except Error PlainDisc := do
  let children ← composedOf fs disc.root.children
  match disc.main with
  | none => return ⟨disc.root.name, children, none⟩
  | some file => return ⟨disc.root.name, children, some (file.name, ← file.contents fs)⟩

end Disc

variable {fs : FileSystem} {executable : String}

theorem File.complete_empty (name : String) : (File.empty name).Complete fs :=
  ⟨Int.le_refl _, rfl, by simp [File.empty]⟩

/-- A complete disc of files that can be counted reads as its bytes. -/
theorem Disc.composed_eq {disc : Disc} (h : disc.Complete fs)
    (hsize : ∀ file ∈ disc.files, isFar file.size = false) :
    disc.composed fs = .ok (disc.plain fs) := by
  have hcontents (file : File) (hfile : file ∈ disc.files) :
      file.contents fs = .ok (file.bytes fs) := by
    refine (h file hfile).contents_eq ?_
    rw [(h file hfile).length_bytes]
    exact hsize file hfile
  rw [composed, composedOf_eq _ fun file hfile => hcontents file (List.mem_append_left _ hfile)]
  rcases hmain : disc.main with _ | file
  · simp only [plain, hmain]
    rfl
  · have hfile : file ∈ disc.files := List.mem_append_right _ (by simp [hmain])
    simp only [plain, hmain, hcontents file hfile]
    rfl

/-! ## One order -/

/-- What an order with natural numbers does to a complete file. -/
theorem Order.outcome_applyDirective (order : Order) (h : order.directive.Natural) {file : File}
    (hfile : file.Complete fs) :
    ∃ new, (File.applyDirective (External.shelf order.tree order.roots)
        order.directive).outcome file = (.ok order.external?.isSome, new) ∧
      new.Complete fs ∧ new.name = file.name ∧ new.bytes fs = order.edit (file.bytes fs) := by
  rw [File.applyDirective_of_natural h, outcome_overwrite_shelf hfile.natural, Order.edit,
    Order.external?]
  rcases Shelf.bytes? order.tree order.roots order.directive.external with _ | external
  · exact ⟨file, rfl, hfile, rfl, rfl⟩
  · exact ⟨_, rfl, hfile.laid external .., rfl, hfile.bytes_laid external ..⟩

/-- An edit of discs does the same as a program on discs of byte strings: it gives the same answer,
and complete discs stay complete. -/
def Simulates {α : Type} (fs : FileSystem) (edit : Edit Disc α) (program : StateM PlainDisc α) :
    Prop :=
  ∀ disc : Disc, disc.Complete fs → ∃ after,
    edit.outcome disc = (.ok (program (disc.plain fs)).1, after) ∧ after.Complete fs ∧
      after.plain fs = (program (disc.plain fs)).2

theorem Disc.mem_files_of_file? {disc : Disc} {target : Target} {file : File}
    (h : disc.file? target = some file) : file ∈ disc.files := by
  cases target with
  | main => exact List.mem_append_right _ (Option.mem_toList.mpr h)
  | place place => exact List.mem_append_left _ (mem_filesOf_of_fileAt? h)

/-- What holds of every file of a disc still holds once one is replaced. -/
theorem Disc.forall_files_setFile {P : File → Prop} {disc : Disc} (h : ∀ f ∈ disc.files, P f)
    {target : Target} {file new : File} (hfile : disc.file? target = some file) (hnew : P new) :
    ∀ f ∈ (disc.setFile new target).files, P f := by
  obtain ⟨htree, hmain⟩ := List.forall_mem_append.mp h
  cases target with
  | main => exact List.forall_mem_append.mpr ⟨htree, List.forall_mem_singleton.mpr hnew⟩
  | place place =>
    exact List.forall_mem_append.mpr ⟨forall_filesOf_modifyAt hfile htree hnew, hmain⟩

/-- What holds of every file of a disc still holds once a target was looked for, if it holds of new
files. -/
theorem Targeting.forall_files {P : File → Prop} {directive : FileDirective} {disc after : Disc}
    {answer : Except Outcome Target} (h : Targeting executable directive disc answer after)
    (hempty : ∀ name, P (File.empty name)) (hdisc : ∀ f ∈ disc.files, P f) :
    ∀ f ∈ after.files, P f := by
  obtain ⟨htree, hmain⟩ := List.forall_mem_append.mp hdisc
  cases h with
  | path _ hnodes => exact List.forall_mem_append.mpr ⟨hnodes.forall_files hempty htree, hmain⟩
  | noPath _ hnodes => exact List.forall_mem_append.mpr ⟨hnodes.forall_files hempty htree, hmain⟩
  | _ => exact hdisc

/-- An order without a target, on the byte strings. -/
theorem Order.onPlain_of_no_target (order : Order) {disc after : Disc} {outcome : Outcome}
    (h : Targeting executable order.directive disc (.error outcome) after) :
    order.onPlain executable (disc.plain fs) =
      (order.directive.report outcome, after.plain fs) := by
  rw [onPlain]
  cases h with
  | @noPath nodes fault hpath hnodes =>
    have hchanged : Agrees fs order.edit _ nodes (.error fault) := hnodes.overPath order.edit
    rw [Agrees, FileDirective.parts] at hchanged
    simp only [if_pos hpath, Disc.plain, hchanged, Option.getD_some, Disc.withChildren]
  | noMain hpath hname hmain =>
    simp only [if_neg hpath, if_pos hname, Disc.plain, hmain, Option.map_none]
  | noName hpath hname hnone =>
    simp only [if_neg hpath, if_neg hname, Disc.plain, overName_eq_none order.edit _ 0 hnone]

/-- An order with a target, on the byte strings: its file may be replaced by any that has the edited
bytes. -/
theorem Order.onPlain_of_target (order : Order) {disc after : Disc} {target : Target}
    {file new : File} (h : Targeting executable order.directive disc (.ok target) after)
    (hfile : after.file? target = some file) (hname : new.name = file.name)
    (hbytes : new.bytes fs = order.edit (file.bytes fs)) :
    order.onPlain executable (disc.plain fs) =
      (order.directive.report order.ending, (after.setFile new target).plain fs) := by
  rw [onPlain]
  cases h with
  | @path nodes place hpath hnodes =>
    have hagrees : Agrees fs order.edit _ nodes (.ok place) := hnodes.overPath order.edit
    obtain ⟨found, hfound, hchanged⟩ := hagrees
    obtain rfl : found = file := Option.some.inj (hfound.symm.trans hfile)
    rw [FileDirective.parts] at hchanged
    simp only [if_pos hpath, Disc.plain, hchanged new hname hbytes, Option.getD_none,
      Disc.withChildren, Disc.setFile]
  | main hpath hmain hfound =>
    have hold : disc.main = some file := hfile
    simp only [if_neg hpath, if_pos hmain, Disc.plain, Disc.setFile, hold, Option.map_some, hname,
      hbytes]
  | name hpath hmain hholding =>
    obtain rfl := Option.some.inj (hholding.fileAt?.symm.trans hfile)
    simp only [if_neg hpath, if_neg hmain, Disc.plain, hholding.overName hname hbytes, Disc.setFile]

/-- **One order does to a disc what it does to the disc of byte strings.** -/
theorem Order.simulates (order : Order) (h : order.directive.Natural) :
    Simulates fs (order.apply executable) (order.onPlain executable) := by
  intro disc hdisc
  have hcarried := carried (External.shelf order.tree order.roots) executable order.directive disc
  rw [apply]
  generalize (applyFile (External.shelf order.tree order.roots) executable
    order.directive).outcome disc = result at hcarried ⊢
  obtain ⟨answer, after⟩ := result
  cases hcarried with
  | refused hnumbers => exact absurd h hnumbers
  | untargeted _ htarget =>
    rw [order.onPlain_of_no_target htarget]
    exact ⟨after, rfl, htarget.forall_files File.complete_empty hdisc, rfl⟩
  | @changed target after file new answer _ htarget hfile hchanged =>
    have hafter : after.Complete fs := htarget.forall_files File.complete_empty hdisc
    obtain ⟨laid, hlaid, hnew, hname, hbytes⟩ :=
      order.outcome_applyDirective h (hafter file (Disc.mem_files_of_file? hfile))
    -- an overwrite with natural numbers never fails
    obtain ⟨rfl, rfl⟩ := Prod.mk.inj (hchanged.symm.trans hlaid)
    rw [order.onPlain_of_target htarget hfile hname hbytes]
    exact ⟨_, rfl, Disc.forall_files_setFile hafter hfile hnew, rfl⟩

/-! ## Runs of orders -/

theorem Simulates.pure {α : Type} (a : α) :
    Simulates fs (Pure.pure a) (Pure.pure a) :=
  fun disc hdisc => ⟨disc, rfl, hdisc, rfl⟩

theorem Simulates.bind {α β : Type} {edit : Edit Disc α} {program : StateM PlainDisc α}
    {next : α → Edit Disc β} {after : α → StateM PlainDisc β} (h : Simulates fs edit program)
    (hnext : ∀ a, Simulates fs (next a) (after a)) :
    Simulates fs (edit >>= next) (program >>= after) := by
  intro disc hdisc
  obtain ⟨mid, hmid, hcomplete, hplain⟩ := h disc hdisc
  obtain ⟨last, hlast, hend⟩ := hnext (program (disc.plain fs)).1 mid hcomplete
  rw [hplain] at hlast hend
  exact ⟨last, (outcome_bind_ok hmid).trans hlast, hend⟩

theorem Simulates.mapM {α β : Type} {edit : α → Edit Disc β} {program : α → StateM PlainDisc β}
    {items : List α} (h : ∀ item ∈ items, Simulates fs (edit item) (program item)) :
    Simulates fs (items.mapM edit) (items.mapM program) := by
  induction items with
  | nil =>
    rw [List.mapM_nil, List.mapM_nil]
    exact .pure []
  | cons item rest ih =>
    obtain ⟨hitem, hrest⟩ := List.forall_mem_cons.mp h
    rw [List.mapM_cons, List.mapM_cons]
    exact hitem.bind fun first => (ih hrest).bind fun others => .pure (first :: others)

/-! ## Whole batches -/

/-- The directives of the patch have natural numbers. -/
structure ShelfPatch.Natural (patch : ShelfPatch) : Prop where
  /-- those for files -/
  files : ∀ directive ∈ patch.files, directive.Natural
  /-- those for folders -/
  folders : patch.NaturalFolders

theorem ShelfPatch.natural_of_mem_orders {patch : ShelfPatch} (h : patch.Natural) {order : Order}
    (horder : order ∈ patch.orders) : order.directive.Natural := by
  obtain ⟨directive, hdirective, rfl⟩ := List.mem_map.mp horder
  rcases List.mem_append.mp hdirective with hfile | hfolder
  · exact h.files directive hfile
  · obtain ⟨folder, hmem, hexpanded⟩ := List.mem_flatMap.mp hfolder
    rw [FolderDirective.expansion] at hexpanded
    split at hexpanded
    · obtain ⟨trail, -, rfl⟩ := List.mem_map.mp hexpanded
      exact ⟨Int.le_refl _, Int.le_refl _, h.folders folder hmem⟩
    · cases hexpanded

/-- **Patches do to a disc what they do to the disc of byte strings**: for patches with natural
numbers and files kept in memory, the reports are the same, and each file has the bytes that it has
there; reading the files gives these bytes, unless a file has too many for a 64-bit count. -/
theorem composed_applyPatches {disc : Disc} (hdisc : disc.Complete fs) {patches : List ShelfPatch}
    (hpatches : ∀ patch ∈ patches, patch.Natural) (executable : String) :
    let result := (applyPatches executable (patches.map (·.toPatch))).outcome disc
    let plain := ((patches.flatMap (·.orders)).mapM (Order.onPlain executable)).run (disc.plain fs)
    result.1 = .ok plain.1 ∧ result.2.plain fs = plain.2 ∧
      ((∀ file ∈ result.2.files, isFar file.size = false) →
        result.2.composed fs = .ok plain.2) := by
  have horders : Simulates fs ((patches.flatMap (·.orders)).mapM (Order.apply executable))
      ((patches.flatMap (·.orders)).mapM (Order.onPlain executable)) := by
    refine .mapM fun order horder => order.simulates ?_
    obtain ⟨patch, hpatch, hmem⟩ := List.mem_flatMap.mp horder
    exact ShelfPatch.natural_of_mem_orders (hpatches patch hpatch) hmem
  obtain ⟨after, hafter, hcomplete, hplain⟩ := horders disc hdisc
  intro result plain
  -- the batch notes one more event at its end
  have hresult : result = (.ok plain.1, after) := by
    change (applyPatches executable (patches.map (·.toPatch))).outcome disc = _
    rw [applyPatches_eq fun patch hpatch => (hpatches patch hpatch).folders,
      outcome_bind_ok hafter]
    rfl
  rw [hresult]
  refine ⟨rfl, hplain, fun hsize => ?_⟩
  rw [Disc.composed_eq hcomplete hsize, hplain]
  rfl

/-- A disc with an executable, patched with a file directive that creates its target, one for a bare
name, one for the executable and a folder directive. -/
theorem composed_applyPatches_folder :
    let tree := FileTree.folder [("x", .file [1, 2]), ("d", .folder [("y", .file [3])])]
    let disc : Disc := ⟨⟨"", [.file ⟨"a", 3, [⟨0, 3, .fill 9⟩]⟩]⟩,
      some ⟨"main.dol", 2, [⟨0, 2, .buffer [5, 6] 0⟩]⟩⟩
    let patch : Patch := ⟨"p", [⟨"/n/b", "x", 0, 0, 0, false, true⟩,
      ⟨"A", "x", 1, 1, 0, true, false⟩, ⟨"main.dol", "d/y", 4, 0, 2, false, false⟩],
      [⟨"/n", "d", true, true, true, 0⟩], [], [], some (External.shelf tree ⟨"", ""⟩)⟩
    tree.Ordinary ∧ disc.Complete ⟨[], []⟩ ∧
      ((applyPatches "main.dol" [patch]).outcome disc).1 = .ok [⟨"/n/b", "x", .applied⟩,
        ⟨"A", "x", .applied⟩, ⟨"main.dol", "d/y", .applied⟩, ⟨"/n/y", "d/y", .applied⟩] := by
  intro tree disc patch
  let shelved : ShelfPatch := ⟨patch, tree, ⟨"", ""⟩, rfl,
    ⟨by decide, ⟨by decide, by decide, by decide⟩, trivial, ⟨by decide, by decide, by decide⟩,
      ⟨by decide, ⟨by decide, by decide, by decide⟩, trivial, trivial⟩, trivial⟩⟩
  have hdisc : disc.Complete ⟨[], []⟩ := by
    intro file hfile
    rcases List.mem_cons.mp hfile with rfl | hmain
    · exact ⟨by decide, by decide, List.forall_mem_singleton.mpr (Segment.readable_fill 0 3 9)⟩
    · obtain rfl := List.mem_singleton.mp hmain
      exact ⟨by decide, by decide, List.forall_mem_singleton.mpr
        (Segment.readable_buffer 0 (by decide))⟩
  have hnatural : shelved.Natural := by
    refine ⟨fun directive hdirective => ?_, fun directive hdirective => ?_⟩
    · simp only [shelved, patch, List.mem_cons, List.not_mem_nil, or_false] at hdirective
      rcases hdirective with rfl | rfl | rfl <;> exact ⟨by decide, by decide, by decide⟩
    · obtain rfl := List.mem_singleton.mp hdirective
      decide
  refine ⟨shelved.ordinary, hdisc, ?_⟩
  have h := composed_applyPatches hdisc (List.forall_mem_singleton.mpr hnatural) "main.dol"
  refine h.1.trans (congrArg Except.ok ?_)
  decide +kernel

/-- A file of more bytes than a 64-bit count can be composed but not read. -/
theorem composed_applyPatches_far :
    let tree := FileTree.folder [("a", .file [120])]
    let disc : Disc := ⟨⟨"", []⟩, none⟩
    let patch : Patch := ⟨"p", [⟨"/a", "a", 0x8000000000000000, 0, 0, false, true⟩], [], [], [],
      some (External.shelf tree ⟨"", ""⟩)⟩
    tree.Ordinary ∧ disc.Complete ⟨[], []⟩ ∧
      ((applyPatches "main.dol" [patch]).outcome disc).1 = .ok [⟨"/a", "a", .applied⟩] ∧
      ((applyPatches "main.dol" [patch]).outcome disc).2.composed ⟨[], []⟩ =
        .error (.read .farCount) := by
  refine ⟨⟨by decide, ⟨by decide, by decide, by decide⟩, trivial, trivial⟩,
    by simp [Disc.Complete, Disc.files], by decide +kernel, rfl⟩

end DiscPatch
