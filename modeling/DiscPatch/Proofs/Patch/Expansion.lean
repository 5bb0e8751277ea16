import DiscPatch.Proofs.External.Finding
import Mathlib.Data.List.Basic

/-!
# Folder directives are file directives

* `FileTree.trails` — the names that lead to each file below a folder kept in memory;
* `FolderDirective.expansion` — the file directives that a folder directive stands for, one for each
  of these files;
* `applyFolder_eq_along`, `applyFolder_eq` — carrying out a folder directive is carrying out its
  expansion, unless its length is refused;
* `ShelfPatch`, `Order` — patches whose external files are kept in memory, and the file directives
  that come of them;
* `ShelfPatch.steps` — the orders of a patch, with errors in place of those that are refused;
* `applyPatches_eq_steps`, `applyPatches_eq` — carrying out patches is carrying out their steps in
  turn; with natural lengths, these are their orders.

Trails are found in the tree itself; no path is looked up and no depth is bounded. The equations are
between edits, so answers, events, failures and the disc are the same on both sides.
-/

namespace DiscPatch

/-! ## The order of names -/

section Names

variable {α : Type} (name : α → String)

theorem names_le_trans (a b c : α) (hab : decide (name a ≤ name b) = true)
    (hbc : decide (name b ≤ name c) = true) : decide (name a ≤ name c) = true := by
  simp only [decide_eq_true_eq] at hab hbc ⊢
  exact String.le_trans hab hbc

theorem names_le_total (a b : α) :
    (decide (name a ≤ name b) || decide (name b ≤ name a)) = true := by
  simpa using String.le_total (name a) (name b)

/-- What is sorted by names comes in their order. -/
theorem pairwise_mergeSort_names (items : List α) :
    (items.mergeSort fun a b => decide (name a ≤ name b)).Pairwise fun a b => name a ≤ name b :=
  (List.pairwise_mergeSort (names_le_trans name) (names_le_total name) items).imp of_decide_eq_true

end Names

/-! ## The files below a folder -/

/-- Put in the order of the names. -/
def sortByName {α : Type} (entries : List (String × α)) : List (String × α) :=
  entries.mergeSort fun a b => decide (a.1 ≤ b.1)

theorem sortByName_map {α β : Type} (f : String × α → β) (entries : List (String × α)) :
    sortByName (entries.map fun entry => (entry.1, f entry)) =
      (sortByName entries).map fun entry => (entry.1, f entry) := by
  rw [sortByName, sortByName, List.map_mergeSort]
  intro a _ b _
  rfl

theorem mem_sortByName {α : Type} {entries : List (String × α)} {entry : String × α} :
    entry ∈ sortByName entries ↔ entry ∈ entries :=
  List.mem_mergeSort

namespace FileTree

mutual
/-- The names that lead to each file: the entries of a folder come in the order of their names, with
the files of a folder in its place among them. Only a `deep` look goes into folders of a folder. -/
def trails (deep : Bool) : FileTree → List (List String)
  | .file _ => [[]]
  | .folder entries =>
    (sortByName (entryTrails deep entries)).flatMap fun entry => entry.2.map (entry.1 :: ·)

/-- The trails of each entry, without its own name. -/
def entryTrails (deep : Bool) : List (String × FileTree) → List (String × List (List String))
  | [] => []
  | (name, tree) :: rest =>
    (name, if tree.isFolder && !deep then [] else tree.trails deep) :: entryTrails deep rest
end

theorem entryTrails_eq_map (deep : Bool) (entries : List (String × FileTree)) :
    entryTrails deep entries = entries.map fun entry =>
      (entry.1, if entry.2.isFolder && !deep then [] else entry.2.trails deep) := by
  induction entries with
  | nil => rfl
  | cons entry rest ih =>
    obtain ⟨name, tree⟩ := entry
    rw [entryTrails, ih, List.map_cons]

theorem trails_folder (deep : Bool) (entries : List (String × FileTree)) :
    (folder entries).trails deep = (sortByName entries).flatMap fun entry =>
      (if entry.2.isFolder && !deep then [] else entry.2.trails deep).map (entry.1 :: ·) := by
  rw [trails, entryTrails_eq_map, sortByName_map, List.flatMap_map]

end FileTree

/-! ## The order of a listing -/

theorem insertListed_eq {entry : Listed} {front back : List Listed}
    (hfront : ∀ other ∈ front, ¬ entry.name ≤ other.name)
    (hback : ∀ other ∈ back, entry.name ≤ other.name) :
    insertListed entry (front ++ back) = front ++ entry :: back := by
  induction front with
  | nil =>
    cases back with
    | nil => rfl
    | cons other rest => exact if_pos (hback other (List.mem_cons_self ..))
  | cons other rest ih =>
    obtain ⟨hother, hrest⟩ := List.forall_mem_cons.mp hfront
    rw [List.cons_append, insertListed, if_neg hother, ih hrest]
    rfl

theorem sortListed_eq_mergeSort (entries : List Listed) :
    sortListed entries = entries.mergeSort fun a b => decide (a.name ≤ b.name) := by
  induction entries with
  | nil => simp [sortListed]
  | cons entry rest ih =>
    obtain ⟨front, back, hcons, hrest, hfront⟩ :=
      List.mergeSort_cons (names_le_trans Listed.name) (names_le_total Listed.name) entry rest
    have hsorted := pairwise_mergeSort_names Listed.name (entry :: rest)
    rw [hcons, List.pairwise_append, List.pairwise_cons] at hsorted
    rw [sortListed, ih, hrest, hcons]
    refine insertListed_eq (fun other hother => ?_) (fun other hother => ?_)
    · simpa using hfront other hother
    · exact hsorted.2.1.1 other hother

theorem pairwise_sortListed (entries : List Listed) :
    (sortListed entries).Pairwise fun a b => a.name ≤ b.name := by
  rw [sortListed_eq_mergeSort]
  exact pairwise_mergeSort_names Listed.name entries

/-- The entries of a folder on a shelf, in the order of their names. -/
theorem Shelf.entries_of_find {tree : FileTree} {roots : Roots} {path : String}
    {entries : List (String × FileTree)}
    (h : find tree roots path = .ok (some (.folder entries))) :
    Shelf.entries tree roots path =
      (sortByName entries).map fun entry => ⟨entry.1, entry.2.isFolder⟩ := by
  rw [Shelf.entries, h, sortByName]
  simp only [sortListed_eq_mergeSort]
  rw [List.map_mergeSort]
  intro a _ b _
  rfl

/-- The trails of the files below the folder that an external path leads to; none if it leads to no
folder. -/
def Shelf.trails (tree : FileTree) (roots : Roots) (deep : Bool) (path : String) :
    List (List String) :=
  match find tree roots path with
  | .ok (some (.folder entries)) => (FileTree.folder entries).trails deep
  | _ => []

/-! ## Folder directives -/

namespace FolderDirective

/-- The file directive for one external file. -/
def single (directive : FolderDirective) (disc external : String) : FileDirective where
  disc := disc
  external := external
  offset := 0
  fileOffset := 0
  length := directive.length
  resize := directive.resize
  create := directive.create

/-- The file directive for the file that a trail leads to: the names of the trail are joined to both
paths. -/
def along (directive : FolderDirective) (disc external : String) (trail : List String) :
    FileDirective :=
  directive.single (trail.foldl joinPaths disc) (trail.foldl joinPaths external)

/-- The file directives that a folder directive stands for. -/
def expansion (tree : FileTree) (roots : Roots) (directive : FolderDirective) :
    List FileDirective :=
  match Shelf.find tree roots.trimmed directive.external with
  | .ok (some (.folder entries)) =>
    ((FileTree.folder entries).trails directive.recursive).map
      (directive.along directive.disc directive.external)
  | _ => []

theorem expansion_eq (tree : FileTree) (roots : Roots) (directive : FolderDirective) :
    directive.expansion tree roots =
      (Shelf.trails tree roots.trimmed directive.recursive directive.external).map
        (directive.along directive.disc directive.external) := by
  rw [expansion, Shelf.trails]
  rcases Shelf.find tree roots.trimmed directive.external with cause | _ | data | entries <;> rfl

/-- A file directive that a folder directive stands for has the length of the folder directive,
which has to be natural. -/
def checked (directive : FolderDirective) (single : FileDirective) : Except Error FileDirective :=
  if directive.length < 0 then .error (.invalid (Segment.negativeFlaw "length" directive.length))
  else .ok single

/-- Carry out a file directive that a folder directive stands for. -/
def carryOut (external : External) (executable : String) (directive : FolderDirective)
    (single : FileDirective) : Edit Disc FileReport := do
  applyFile external executable (← ExceptT.mk (pure (directive.checked single)))

end FolderDirective

section Monads

variable {m : Type → Type} [Monad m] [LawfulMonad m] {α β γ : Type}

/-- Doing lists of things in turn is doing all the things in turn. -/
theorem mapM_flatten {f : β → m γ} {group : α → m (List γ)} {members : α → List β} {items : List α}
    (h : ∀ item ∈ items, group item = (members item).mapM f) :
    (do return (← items.mapM group).flatten) = (items.flatMap members).mapM f := by
  induction items with
  | nil => simp
  | cons item rest ih =>
    obtain ⟨hitem, hrest⟩ := List.forall_mem_cons.mp h
    rw [List.flatMap_cons, List.mapM_append, ← ih hrest, ← hitem, List.mapM_cons]
    simp

end Monads

variable {tree : FileTree} {roots : Roots} {executable : String} {directive : FolderDirective}

/-- Going through a folder is carrying out a directive for each trail. -/
theorem applyFolderAt_eq {fuel : Nat} (disc path : String) {found : FileTree}
    (hfolder : found.isFolder)
    (hfound : Shelf.find tree roots.trimmed path = .ok (some found)) (hordinary : found.Ordinary)
    (hdepth : found.depth ≤ fuel) :
    applyFolderAt (External.shelf tree roots) executable directive (fuel + 1) disc path =
      ((found.trails directive.recursive).map (directive.along disc path)).mapM
        (directive.carryOut (External.shelf tree roots) executable) := by
  -- the paths grow on the way down, while the tree that is left gets less deep
  induction fuel generalizing disc path found with
  | zero =>
    cases found with
    | file data => cases hfolder
    | folder entries => simp [FileTree.depth] at hdepth
  | succ fuel ih =>
    cases found with
    | file data => cases hfolder
    | folder entries =>
      have hentries : (Edit.fromFallible ((External.shelf tree roots).entries path) :
          Edit Disc (List Listed)) =
          pure ((sortByName entries).map fun entry => ⟨entry.1, entry.2.isFolder⟩) := by
        rw [← Shelf.entries_of_find hfound]
        rfl
      rw [applyFolderAt, hentries, pure_bind, List.mapM_map, FileTree.trails_folder,
        List.map_flatMap]
      refine mapM_flatten fun entry hentry => ?_
      have hmem := mem_sortByName.mp hentry
      obtain ⟨hname, hsub⟩ := FileTree.ordinaryEntries_iff.mp hordinary.2 entry hmem
      -- the entry is found again by the path that is built for it
      have hchild : Shelf.find tree roots.trimmed (joinPaths path entry.1) =
          .ok (some entry.2) := by
        rw [Shelf.find_joinPaths hname hfound, Option.bind_some,
          FileTree.child?, (lookup_eq_some_iff_mem hordinary.1).mpr hmem]
      have hlevel : entry.2.depth ≤ fuel := by
        have hle := FileTree.depth_le_entriesDepth hmem
        simp only [FileTree.depth] at hdepth
        omega
      obtain ⟨name, sub⟩ := entry
      cases sub with
      | file data =>
        have hone : [directive.single (joinPaths disc name) (joinPaths path name)].mapM
            (directive.carryOut (External.shelf tree roots) executable) = do
          let single ← ExceptT.mk (pure (directive.forFile (joinPaths disc name)
            (joinPaths path name)))
          return [← applyFile (External.shelf tree roots) executable single] := by
          rw [List.mapM_cons, List.mapM_nil, FolderDirective.carryOut, bind_assoc]
          rfl
        exact hone.symm
      | folder below =>
        cases hdeep : directive.recursive with
        | false => simp [FileTree.isFolder]
        | true =>
          have hbelow := ih (joinPaths disc name) (joinPaths path name) rfl hchild hsub hlevel
          simpa [hdeep, FileTree.isFolder, FolderDirective.along, Function.comp_def] using hbelow

/-- What is found on an ordinary shelf is an ordinary tree, and not deeper. -/
theorem Shelf.ordinary_of_find {path : String} {found : FileTree} (h : tree.Ordinary)
    (hfound : find tree roots path = .ok (some found)) :
    found.Ordinary ∧ found.depth ≤ tree.depth := by
  rw [find] at hfound
  cases hplace : roots.locate path with
  | error cause =>
    rw [hplace] at hfound
    cases hfound
  | ok place =>
    rw [hplace] at hfound
    exact h.of_at? (Except.ok.inj hfound)

/-- **Going through a folder from any paths** is carrying out a directive for each trail. -/
theorem applyFolder_eq_along (hordinary : tree.Ordinary) (disc path : String) :
    applyFolder (External.shelf tree roots) executable directive disc path =
      ((Shelf.trails tree roots.trimmed directive.recursive path).map
        (directive.along disc path)).mapM
        (directive.carryOut (External.shelf tree roots) executable) := by
  -- a path that leads to no folder has no entries
  have hnone (h : Shelf.entries tree roots.trimmed path = []) :
      applyFolder (External.shelf tree roots) executable directive disc path = pure [] := by
    have hentries : (Edit.fromFallible ((External.shelf tree roots).entries path) :
        Edit Disc (List Listed)) = pure [] := by
      rw [← h]
      rfl
    rw [applyFolder, applyFolderAt, hentries, pure_bind, List.mapM_nil, pure_bind]
    rfl
  rw [Shelf.trails]
  rcases hfound : Shelf.find tree roots.trimmed path with cause | _ | data | entries
  · exact hnone (by rw [Shelf.entries, hfound])
  · exact hnone (by rw [Shelf.entries, hfound])
  · exact hnone (by rw [Shelf.entries, hfound])
  · obtain ⟨hfolder, hdepth⟩ := Shelf.ordinary_of_find hordinary hfound
    exact applyFolderAt_eq _ _ rfl hfound hfolder hdepth

/-- **A folder directive is its expansion.** -/
theorem applyFolder_eq (hordinary : tree.Ordinary) :
    applyFolder (External.shelf tree roots) executable directive directive.disc directive.external =
      (directive.expansion tree roots).mapM
        (directive.carryOut (External.shelf tree roots) executable) := by
  rw [applyFolder_eq_along hordinary, directive.expansion_eq]

/-! ## Patches with files kept in memory -/

/-- A patch whose external files are kept in memory, under ordinary names. -/
structure ShelfPatch extends Patch where
  /-- the external files -/
  tree : FileTree
  /-- where their paths start -/
  roots : Roots
  /-- these are the files that the patch takes its bytes from -/
  kept : toPatch.external = some (External.shelf tree roots)
  /-- their names are ordinary -/
  ordinary : tree.Ordinary

/-- A file directive together with the files kept in memory that it refers to. -/
structure Order where
  /-- the external files -/
  tree : FileTree
  /-- where their paths start -/
  roots : Roots
  /-- what to do -/
  directive : FileDirective

/-- Carry out an order. -/
def Order.apply (executable : String) (order : Order) : Edit Disc FileReport :=
  applyFile (External.shelf order.tree order.roots) executable order.directive

/-- Carry out an order, unless an error stands in its place. -/
def carryStep (executable : String) (step : Except Error Order) : Edit Disc FileReport := do
  (← ExceptT.mk (pure step)).apply executable

namespace ShelfPatch

/-- No folder directive has a negative length. -/
def NaturalFolders (patch : ShelfPatch) : Prop :=
  ∀ directive ∈ patch.folders, 0 ≤ directive.length

/-- The file directives of a patch, and then those that its folder directives stand for. -/
def orders (patch : ShelfPatch) : List Order :=
  (patch.files ++ patch.folders.flatMap (·.expansion patch.tree patch.roots)).map
    (Order.mk patch.tree patch.roots)

/-- The orders of a patch, where a folder directive of negative length has errors in their place. -/
def steps (patch : ShelfPatch) : List (Except Error Order) :=
  patch.files.map (fun directive => .ok ⟨patch.tree, patch.roots, directive⟩) ++
    patch.folders.flatMap fun directive =>
      (directive.expansion patch.tree patch.roots).map fun single =>
        (directive.checked single).map (Order.mk patch.tree patch.roots)

/-- A patch is its steps. -/
theorem applyPatch_eq (patch : ShelfPatch) :
    applyPatch executable patch.toPatch = patch.steps.mapM (carryStep executable) := by
  have hrequired : (ExceptT.mk (pure patch.required) : Edit Disc External) =
      pure (External.shelf patch.tree patch.roots) := by
    rw [Patch.required, patch.kept]
    rfl
  have hfiles : patch.files.mapM (applyFile (External.shelf patch.tree patch.roots) executable) =
      (patch.files.map fun directive => .ok ⟨patch.tree, patch.roots, directive⟩).mapM
        (carryStep executable) := by
    rw [List.mapM_map]
    rfl
  have hfolders : (do return (← patch.folders.mapM fun directive =>
        applyFolder (External.shelf patch.tree patch.roots) executable directive directive.disc
          directive.external).flatten) =
      (patch.folders.flatMap fun directive =>
        (directive.expansion patch.tree patch.roots).map fun single =>
          (directive.checked single).map (Order.mk patch.tree patch.roots)).mapM
        (carryStep executable) := by
    refine mapM_flatten fun directive _ => ?_
    have hstep : carryStep executable ∘ (fun single =>
        (directive.checked single).map (Order.mk patch.tree patch.roots)) =
        directive.carryOut (External.shelf patch.tree patch.roots) executable := by
      funext single
      rw [Function.comp_apply, carryStep, FolderDirective.carryOut]
      cases directive.checked single <;> rfl
    rw [applyFolder_eq patch.ordinary, List.mapM_map, hstep]
  rw [applyPatch, hrequired, pure_bind, steps, List.mapM_append, ← hfiles, ← hfolders]
  simp

/-- Without refused lengths, the steps of a patch are its orders. -/
theorem steps_eq_orders {patch : ShelfPatch}
    (h : ∀ directive ∈ patch.folders, directive.length < 0 →
      directive.expansion patch.tree patch.roots = []) :
    patch.steps = patch.orders.map .ok := by
  have hfolders : ∀ directive ∈ patch.folders,
      (directive.expansion patch.tree patch.roots).map (fun single =>
        (directive.checked single).map (Order.mk patch.tree patch.roots)) =
      (directive.expansion patch.tree patch.roots).map fun single =>
        .ok ⟨patch.tree, patch.roots, single⟩ := by
    intro directive hdirective
    by_cases hlength : directive.length < 0
    · rw [h directive hdirective hlength]
      rfl
    · simp only [FolderDirective.checked, if_neg hlength]
      rfl
  rw [steps, orders, List.flatMap_congr hfolders]
  simp [List.map_flatMap, Function.comp_def]

end ShelfPatch

/-- **Patches are their steps in turn**, apart from the event at the end. -/
theorem applyPatches_eq_steps (patches : List ShelfPatch) :
    applyPatches executable (patches.map (·.toPatch)) = do
      let reports ← (patches.flatMap (·.steps)).mapM (carryStep executable)
      Edit.note (.batchDone (reports.countP (·.outcome == .applied)) reports.length)
      return reports := by
  have hsteps : (do return (← (patches.map (·.toPatch)).mapM (applyPatch executable)).flatten) =
      (patches.flatMap (·.steps)).mapM (carryStep executable) := by
    rw [List.mapM_map]
    exact mapM_flatten fun patch _ => patch.applyPatch_eq
  rw [applyPatches, ← hsteps]
  simp

/-- Patches are their orders in turn if no length is negative. -/
theorem applyPatches_eq {patches : List ShelfPatch} (h : ∀ patch ∈ patches, patch.NaturalFolders) :
    applyPatches executable (patches.map (·.toPatch)) = do
      let reports ← (patches.flatMap (·.orders)).mapM (Order.apply executable)
      Edit.note (.batchDone (reports.countP (·.outcome == .applied)) reports.length)
      return reports := by
  have horders : (patches.flatMap (·.orders)).mapM (Order.apply executable) =
      (patches.flatMap (·.steps)).mapM (carryStep executable) := by
    have hsteps : patches.flatMap (·.steps) = (patches.flatMap (·.orders)).map .ok := by
      rw [List.map_flatMap]
      exact List.flatMap_congr fun patch hpatch => ShelfPatch.steps_eq_orders
        fun directive hdirective hlength =>
          absurd (h patch hpatch directive hdirective) (Int.not_le.mpr hlength)
    rw [hsteps, List.mapM_map]
    rfl
  rw [horders]
  exact applyPatches_eq_steps patches

end DiscPatch
