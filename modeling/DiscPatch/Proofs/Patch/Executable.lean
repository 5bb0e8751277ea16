import DiscPatch.Proofs.Disc.Proper
import DiscPatch.Proofs.Patch.Errands

/-!
# The executable is taken out and put back

While patches are applied, the executable is not in the tree. A directive for its name goes to it
directly, but a path that starts at the top does not find it, and may make a file or a folder of the
same name.

* `HasTop` — some node at the top has a name;
* `FileDirective.MakesTop` — a directive makes such a node if there is none;
* `Reaching.hasTop_iff`, `Carried.hasTop_iff` — what one path and one directive do about it;
* `Folder.detach_some` — taking out the executable leaves no node of its name;
* `attach_distinct_iff` — the tree with the executable put back has two children of the same name
  exactly if some directive has made one; otherwise no path is listed or written twice.
-/

namespace DiscPatch

open DiscPatch.Host (WrittenPath)
open DiscPatch.Text (split join joinChars_splitChars)
open Edit

/-! ## Names at the top -/

/-- Some of the nodes has the name. -/
def HasTop (name : String) (nodes : List Node) : Prop :=
  ∃ node ∈ nodes, sameName node.name name

/-- The path starts with the name. -/
def StartsWith (name : String) (parts : List String) : Prop :=
  ∃ first rest, parts = first :: rest ∧ first ≠ "" ∧ sameName first name

theorem hasTop_append {name : String} {front back : List Node} :
    HasTop name (front ++ back) ↔ HasTop name front ∨ HasTop name back := by
  simp [HasTop, or_and_right, exists_or]

theorem hasTop_cons {name : String} {node : Node} {rest : List Node} :
    HasTop name (node :: rest) ↔ sameName node.name name ∨ HasTop name rest := by
  simp [HasTop]

theorem hasTop_nil {name : String} : ¬ HasTop name [] := by
  simp [HasTop]

theorem hasTop_congr {name other : String} (h : sameName name other) (nodes : List Node) :
    HasTop name nodes ↔ HasTop other nodes :=
  exists_congr fun _ => and_congr_right fun _ =>
    ⟨(sameName_trans · h), (sameName_trans · (sameName_symm h))⟩

theorem startsWith_cons {name first : String} {rest : List String} :
    StartsWith name (first :: rest) ↔ first ≠ "" ∧ sameName first name := by
  simp [StartsWith]

theorem hasTop_modifyAt {place : Location} {nodes : List Node} {file new : File}
    (hfile : fileAt? place nodes = some file) (hname : new.name = file.name) (name : String) :
    HasTop name (modifyAt new place nodes) ↔ HasTop name nodes := by
  cases place with
  | nil => cases hfile
  | cons index place =>
    rcases fileAt?_cases hfile with ⟨front, back, hplace, rfl⟩ |
      ⟨front, back, folder, below, rest, hplace, rfl, hbelow⟩
    · rw [hplace, modifyAt_here]
      simp [hasTop_append, hasTop_cons, Node.name, hname]
    · rw [hplace, modifyAt_below]
      simp [hasTop_append, hasTop_cons, Node.name]

/-- A path that starts with a name of the top brings nothing new there. -/
theorem hasTop_or_startsWith {front back : List Node} (node : Node) {name part : String}
    (hnode : sameName node.name part) (create : Bool) (rest : List String) :
    HasTop name (front ++ node :: back) ∨ create = true ∧ StartsWith name (part :: rest) ↔
      HasTop name (front ++ node :: back) := by
  refine or_iff_left_of_imp ?_
  rintro ⟨-, hstarts⟩
  have hname := sameName_trans hnode (startsWith_cons.mp hstarts).2
  exact hasTop_append.mpr (.inr (hasTop_cons.mpr (.inl hname)))

/-- **A path brings a name to the top exactly if it starts with it and may create.** -/
theorem Reaching.hasTop_iff {create : Bool} {parts : List String} {nodes after : List Node}
    {answer : Except LookupFault Location} (h : Reaching create parts nodes after answer)
    (name : String) :
    HasTop name after ↔ HasTop name nodes ∨ create = true ∧ StartsWith name parts := by
  cases h with
  | done => simp [StartsWith]
  | empty => simp [startsWith_cons]
  | file _ _ hfile => exact (hasTop_or_startsWith (.file _) hfile create _).symm
  | notFolder _ _ hfile => exact (hasTop_or_startsWith (.file _) hfile create _).symm
  | notFile _ _ hfound => exact (hasTop_or_startsWith (.folder _ _) hfound create _).symm
  | folder _ _ hfound =>
    rw [hasTop_or_startsWith (.folder _ _) hfound create _]
    simp [hasTop_append, hasTop_cons, Node.name]
  | missing _ hcreate => simp [hcreate]
  | newFile hname hcreate =>
    simp [hasTop_append, hasTop_cons, hasTop_nil, startsWith_cons, hcreate, hname, Node.name,
      File.empty]
  | newFolder hname hcreate =>
    simp [hasTop_append, hasTop_cons, hasTop_nil, startsWith_cons, hcreate, hname, Node.name]

/-- The directive makes a node of the name at the top if there is none. -/
def FileDirective.MakesTop (name : String) (directive : FileDirective) : Prop :=
  directive.Natural ∧ directive.disc.toList.head? = some '/' ∧ directive.create = true ∧
    StartsWith name directive.parts

theorem Targeting.hasTop_iff {executable : String} {directive : FileDirective} {disc after : Disc}
    {answer : Except Outcome Target} (h : Targeting executable directive disc answer after)
    (name : String) :
    HasTop name after.root.children ↔ HasTop name disc.root.children ∨
      directive.disc.toList.head? = some '/' ∧ directive.create = true ∧
        StartsWith name directive.parts := by
  cases h with
  | path hpath hnodes =>
    rw [and_iff_right hpath]
    exact hnodes.hasTop_iff name
  | noPath hpath hnodes =>
    rw [and_iff_right hpath]
    exact hnodes.hasTop_iff name
  | main hpath => simp [hpath]
  | noMain hpath => simp [hpath]
  | name hpath => simp [hpath]
  | noName hpath => simp [hpath]

/-- **A directive brings a name to the top exactly if it makes it.** -/
theorem Carried.hasTop_iff {external : External} {executable : String} {directive : FileDirective}
    {disc after : Disc} {answer : Except Error FileReport}
    (h : Carried external executable directive disc answer after) (name : String) :
    HasTop name after.root.children ↔
      HasTop name disc.root.children ∨ directive.MakesTop name := by
  rw [FileDirective.MakesTop]
  cases h with
  | refused hnumbers => simp [hnumbers]
  | untargeted hnumbers htarget =>
    rw [and_iff_right hnumbers]
    exact htarget.hasTop_iff name
  | @changed target after file new answer hnumbers htarget hfile hchanged =>
    have hname : new.name = file.name := by
      rw [← File.name_applyDirective external directive file, hchanged]
    rw [and_iff_right hnumbers, ← htarget.hasTop_iff name]
    cases target with
    | main => rfl
    | place place => exact hasTop_modifyAt hfile hname name

/-- What a batch that returns brings to the top. -/
theorem hasTop_applyPatches {executable : String} {patches : List Patch} {disc after : Disc}
    {reports : List FileReport}
    (h : (applyPatches executable patches).outcome disc = (.ok reports, after)) (name : String) :
    HasTop name after.root.children ↔ HasTop name disc.root.children ∨
      ∃ errand, .ok errand ∈ patches.flatMap (·.errands) ∧ errand.directive.MakesTop name := by
  rw [outcome_applyPatches_errands] at h
  exact holds_errands_iff (fun hcarried => hcarried.hasTop_iff name) h

/-! ## The executable -/

/-- A file that is taken out has the name, and all other nodes are left. -/
theorem split_of_detachFrom {name : String} {nodes others : List Node} {file : File}
    (h : detachFrom name nodes = some (file, others)) :
    ∃ front back, nodes = front ++ .file file :: back ∧ others = front ++ back ∧
      sameName file.name name := by
  induction nodes generalizing others with
  | nil => cases h
  | cons node rest ih =>
    have hlater (hrest : (detachFrom name rest).map (fun found => (found.1, node :: found.2)) =
        some (file, others)) : ∃ front back, node :: rest = front ++ .file file :: back ∧
          others = front ++ back ∧ sameName file.name name := by
      obtain ⟨⟨found, remaining⟩, hfound, hsame⟩ := Option.map_eq_some_iff.mp hrest
      cases hsame
      obtain ⟨front, back, rfl, rfl, hname⟩ := ih hfound
      exact ⟨node :: front, back, rfl, rfl, hname⟩
    cases node with
    | folder => exact hlater h
    | file first =>
      rw [detachFrom] at h
      split at h
      · next hname =>
        cases h
        exact ⟨[], rest, rfl, rfl, hname⟩
      · exact hlater h

/-- What is left when the executable is taken out of a folder. -/
theorem Folder.detach_some {folder rest : Folder} {name : String} {file : File}
    (h : folder.detach name = (some file, rest)) (hfolder : Distinct folder.children) :
    sameName file.name name ∧ Distinct rest.children ∧ ¬ HasTop name rest.children ∧
      ∀ P, Named P folder.children → P file.name ∧ Named P rest.children := by
  rw [Folder.detach] at h
  split at h
  · next found others hfound =>
    cases h
    obtain ⟨front, back, hnodes, rfl, hname⟩ := split_of_detachFrom hfound
    rw [hnodes] at hfolder ⊢
    obtain ⟨hfront, ⟨hbeside, -, hback⟩, hacross⟩ := distinct_append.mp hfolder
    refine ⟨hname, distinct_append.mpr ⟨hfront, hback, fun first hfirst => ?_⟩, ?_, ?_⟩
    · exact (List.forall_mem_cons.mp (hacross first hfirst)).2
    · rw [hasTop_append]
      rintro (⟨node, hnode, hsame⟩ | ⟨node, hnode, hsame⟩)
      · exact hfolder.front hname node hnode hsame
      · exact hbeside node hnode (sameName_trans hname (sameName_symm hsame))
    · simp only [named_append, Named, Node.Named]
      rintro P ⟨hbefore, hfile, hafter⟩
      exact ⟨hfile, hbefore, hafter⟩
  · cases h

theorem Folder.detach_none {folder rest : Folder} {name : String}
    (h : folder.detach name = (none, rest)) : rest = folder := by
  rw [Folder.detach] at h
  split at h <;> cases h
  rfl

theorem distinct_attach {folder : Folder} {file : File} (h : Distinct folder.children) :
    Distinct (folder.attach (some file)).children ↔ ¬ HasTop file.name folder.children := by
  constructor
  · rintro ⟨hbeside, -⟩ ⟨node, hnode, hsame⟩
    exact hbeside node hnode (sameName_symm hsame)
  · intro hnone
    exact ⟨fun node hnode hsame => hnone ⟨node, hnode, sameName_symm hsame⟩, trivial, h⟩

/-! ## Paths that are written -/

theorem join_split (path : String) : join '/' (split '/' path) = path := by
  rw [join, split, List.map_map]
  simp [Function.comp_def, joinChars_splitChars]

/-- Safe paths that differ are written to different places. -/
theorem nodup_map_append {paths : List String} (h : paths.Nodup)
    (hsafe : ∀ path ∈ paths, SafePath path) (output : WrittenPath) :
    (paths.map output.append).Nodup := by
  refine h.map_on fun path hpath other hother hsame => ?_
  rw [append_of_safePath output (hsafe path hpath), append_of_safePath output (hsafe other hother)]
    at hsame
  have hsplit : split '/' path = split '/' other :=
    List.append_cancel_left (WrittenPath.mk.inj hsame).2
  rw [← join_split path, hsplit, join_split]

/-- No path of a proper tree is listed twice, and safe paths are written to different places. -/
theorem Proper.nodup_written {nodes : List Node} (h : Proper nodes) :
    let paths := (listing "" nodes).map (·.1)
    paths.Nodup ∧ ∀ output : WrittenPath, (∀ path ∈ paths, SafePath path) →
      (paths.map output.append).Nodup :=
  ⟨h.nodup_paths, fun output hsafe => nodup_map_append h.nodup_paths hsafe output⟩

/-- **When the tree with the executable put back has a name twice.** Children stay apart while the
executable is out. If the batch returns, then putting it back leaves two children of the same name
exactly if some directive, or one that a folder directive stands for, has made a node of its name at
the top. Otherwise no path is listed twice, and safe paths are written to different places. -/
theorem attach_distinct_iff {folder : Folder} (h : Distinct folder.children) (executable : String)
    (patches : List Patch) :
    let detached := folder.detach executable
    let result := (applyPatches executable patches).outcome ⟨detached.2, detached.1⟩
    let composed := result.2.root.attach result.2.main
    let paths := (listing "" composed.children).map (·.1)
    Distinct result.2.root.children ∧
    (∀ reports, result.1 = .ok reports → (Distinct composed.children ↔ detached.1 = none ∨
      ∀ errand, .ok errand ∈ patches.flatMap (·.errands) →
        ¬ errand.directive.MakesTop executable)) ∧
    (Named IsComponent folder.children → Distinct composed.children → paths.Nodup ∧
      ∀ output : WrittenPath, (∀ path ∈ paths, SafePath path) →
        (paths.map output.append).Nodup) := by
  rcases hdetached : folder.detach executable with ⟨_ | file, rest⟩
  · obtain rfl := Folder.detach_none hdetached
    intro detached result composed paths
    obtain ⟨hapart, hmain⟩ := follows_apartLedger executable patches ⟨rest, none⟩
    have hdistinct : Distinct result.2.root.children := hapart h
    -- nothing is taken out, so nothing is put back
    have hcomposed : composed = result.2.root :=
      congrArg result.2.root.attach (Option.map_eq_none_iff.mp hmain)
    have hnamed (hproper : Named IsComponent rest.children) :
        Named IsComponent composed.children := by
      rw [hcomposed]
      exact (follows_strayLedger executable patches ⟨rest, none⟩).1 hproper
    refine ⟨hdistinct, fun _ _ => iff_of_true ?_ (.inl rfl), fun hproper hcomposed =>
      Proper.nodup_written ⟨hnamed hproper, hcomposed⟩⟩
    rwa [hcomposed]
  · obtain ⟨hname, hrest, htop, hparts⟩ := Folder.detach_some hdetached h
    intro detached result composed paths
    obtain ⟨hapart, hmain⟩ := follows_apartLedger executable patches ⟨rest, some file⟩
    have hdistinct : Distinct result.2.root.children := hapart hrest
    obtain ⟨new, hnew, hkept : new.name = file.name⟩ := Option.map_eq_some_iff.mp hmain
    have hcomposed : composed = result.2.root.attach (some new) :=
      congrArg result.2.root.attach hnew
    have hnamed (hproper : Named IsComponent folder.children) :
        Named IsComponent composed.children := by
      obtain ⟨hfile, hothers⟩ := hparts _ hproper
      rw [hcomposed]
      exact ⟨by rwa [Node.Named, hkept],
        (follows_strayLedger executable patches ⟨rest, some file⟩).1 hothers⟩
    refine ⟨hdistinct, fun reports hreports => ?_, fun hproper hcomposed =>
      Proper.nodup_written ⟨hnamed hproper, hcomposed⟩⟩
    have hrun : (applyPatches executable patches).outcome ⟨rest, some file⟩ =
        (.ok reports, result.2) := Prod.ext hreports rfl
    rw [hcomposed, distinct_attach hdistinct, hkept, hasTop_congr hname,
      hasTop_applyPatches hrun executable]
    simp [detached, htop]

/-- A path to the executable makes a second file of its name, which is listed and written like the
first. -/
theorem attach_distinct_iff_twice :
    let folder : Folder := ⟨"", [.file ⟨"main.dol", 8, [⟨0, 8, .fill 0⟩]⟩]⟩
    let patch : Patch := ⟨"p", [⟨"/main.dol", "a", 0, 0, 0, true, true⟩], [], [], [],
      some (External.shelf (.folder [("a", .file [255])]) ⟨"", ""⟩)⟩
    let detached := folder.detach "main.dol"
    let result := (applyPatches "main.dol" [patch]).outcome ⟨detached.2, detached.1⟩
    let composed := result.2.root.attach result.2.main
    Distinct folder.children ∧ result.1 = .ok [⟨"/main.dol", "a", .applied⟩] ∧
      ¬ Distinct composed.children ∧
      (listing "" composed.children).map (fun entry => (entry.1, entry.2.size)) =
        [("main.dol", 8), ("main.dol", 1)] := by
  intro folder patch detached
  have hfolder : Distinct folder.children := ⟨by simp, trivial, trivial⟩
  have hsome : detached.1 ≠ none := by decide +kernel
  have hreports : ((applyPatches "main.dol" [patch]).outcome ⟨detached.2, detached.1⟩).1 =
      .ok [⟨"/main.dol", "a", .applied⟩] := by decide +kernel
  have hlisting : (listing "" (((applyPatches "main.dol" [patch]).outcome
      ⟨detached.2, detached.1⟩).2.root.attach ((applyPatches "main.dol" [patch]).outcome
        ⟨detached.2, detached.1⟩).2.main).children).map (fun entry => (entry.1, entry.2.size)) =
      [("main.dol", 8), ("main.dol", 1)] := by decide +kernel
  obtain ⟨-, hiff, -⟩ := attach_distinct_iff hfolder "main.dol" [patch]
  -- from here on the result is only known by its reports and its paths
  change ∀ reports, ((applyPatches "main.dol" [patch]).outcome ⟨detached.2, detached.1⟩).1 =
    .ok reports → _ at hiff
  generalize (applyPatches "main.dol" [patch]).outcome ⟨detached.2, detached.1⟩ = result
    at hiff hreports hlisting ⊢
  refine ⟨hfolder, hreports, fun hdistinct => ?_, hlisting⟩
  rcases (hiff _ hreports).mp hdistinct with hnone | hmakes
  · exact hsome hnone
  · refine hmakes ⟨_, ⟨"/main.dol", "a", 0, 0, 0, true, true⟩⟩ (List.mem_singleton.mpr rfl) ?_
    exact ⟨⟨by decide, by decide, by decide⟩, by decide, rfl, "main.dol", [], by decide, by decide,
      by decide⟩
end DiscPatch
