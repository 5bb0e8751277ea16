import DiscPatch.Host.RealPath
import DiscPatch.Proofs.Content.WellFormed
import DiscPatch.Proofs.External.Isolation
import DiscPatch.Proofs.Host.Linkless
import DiscPatch.Proofs.Patch.FolderFiles

/-!
# The host and the shelf agree

The same files can be kept on the host or in memory. As long as there are no links, external paths
get the same answers from both: the host walks down the names of the path, the shelf looks them up
one by one, and the two meet the same things.

* `Mirrors` — a host entry and a tree in memory hold the same, whatever the order in folders;
* `Mirrors.at?` — names lead to the same in both;
* `HostName`, `RootNames` — names that the host can keep, and roots made of them;
* `exists_trail_of_locate` — external paths lead below the top, by names that can be walked;
* `FoundAlike`, `foundAlike` — the host and the shelf find the same at the end of such names;
* `Segment.readBack`, `External.stretch` — the bytes behind a segment, and behind one that is handed
  out for a stretch of a file;
* `values_agree`, `stretches_agree` — what is found alike has the same answers and the same bytes;
* `host_agrees_shelf` — all answers are the same, for paths that are not too long for the host.
-/

namespace DiscPatch

open DiscPatch.Host
open DiscPatch.Text (split join splitChars joinChars joinChars_splitChars dropEnd)

/-! ## The same tree -/

/-- A host entry holds what a tree in memory holds. There are neither links nor pipes, the names in
a folder are told apart, and folders may keep their entries in any order. -/
inductive Mirrors : Entry → FileTree → Prop where
  /-- the same bytes -/
  | file (data : Bytes) : Mirrors (.file data) (.file data)
  /-- the same names, and the same under each of them -/
  | folder {entries : List (String × Entry)} {items : List (String × FileTree)}
    (hnames : (entries.map (·.1)).Perm (items.map (·.1))) (hdistinct : (entries.map (·.1)).Nodup)
    (hbelow : ∀ name entry item, (name, entry) ∈ entries → (name, item) ∈ items →
      Mirrors entry item) : Mirrors (.folder entries) (.folder items)

/-- Folders with one entry each hold the same if their entries do. -/
theorem Mirrors.single {entry : Entry} {item : FileTree} (name : String) (h : Mirrors entry item) :
    Mirrors (.folder [(name, entry)]) (.folder [(name, item)]) := by
  refine .folder .rfl (List.nodup_singleton name) fun _ _ _ hentry hitem => ?_
  obtain ⟨-, rfl⟩ := Prod.mk.inj (List.mem_singleton.mp hentry)
  obtain ⟨-, rfl⟩ := Prod.mk.inj (List.mem_singleton.mp hitem)
  exact h

theorem Mirrors.child? {entry : Entry} {tree : FileTree} (h : Mirrors entry tree) (name : String) :
    Option.Rel Mirrors (entry.child? name) (tree.child? name) := by
  cases h with
  | file data => exact .none
  | @folder entries items hnames _ hbelow =>
    rcases hentry : (Entry.folder entries).child? name with _ | entry
    · have habsent : name ∉ items.map (·.1) :=
        fun hmem => lookup_eq_none_iff_notMem.mp hentry (hnames.mem_iff.mpr hmem)
      have hitem : (FileTree.folder items).child? name = none :=
        lookup_eq_none_iff_notMem.mpr habsent
      rw [hitem]
      exact .none
    · rcases hitem : (FileTree.folder items).child? name with _ | item
      · have hmem : name ∈ entries.map (·.1) := List.mem_map_of_mem (mem_of_lookup hentry)
        exact absurd (hnames.mem_iff.mp hmem) (lookup_eq_none_iff_notMem.mp hitem)
      · exact .some (hbelow name entry item (mem_of_lookup hentry) (mem_of_lookup hitem))

/-- **Names lead to the same.** -/
theorem Mirrors.at? {entry : Entry} {tree : FileTree} (h : Mirrors entry tree)
    {names : List String} (hnames : ∀ name ∈ names, name ≠ "") :
    Option.Rel Mirrors (entry.at? names) (tree.at? names) := by
  induction names generalizing entry tree with
  | nil => exact .some h
  | cons name rest ih =>
    obtain ⟨hname, hrest⟩ := List.forall_mem_cons.mp hnames
    have hchild := h.child? name
    rw [Entry.at?, FileTree.at?, if_neg hname]
    generalize entry.child? name = found at hchild
    generalize tree.child? name = item at hchild
    cases hchild with
    | none => exact .none
    | some hnext => exact ih hnext hrest

/-- All that names lead to is mirrored. -/
theorem Mirrors.of_at? {entry found : Entry} {tree : FileTree} (h : Mirrors entry tree)
    {names : List String} (hfound : entry.at? names = some found) : ∃ item, Mirrors found item := by
  induction names generalizing entry tree with
  | nil =>
    cases hfound
    exact ⟨tree, h⟩
  | cons name rest ih =>
    have hchild := h.child? name
    rw [Entry.at?] at hfound
    generalize entry.child? name = next at hchild hfound
    generalize tree.child? name = item at hchild
    cases hchild with
    | none => cases hfound
    | some hnext => exact ih hnext hfound

theorem Mirrors.linkless {fs : FileSystem} {tree : FileTree} (h : Mirrors fs.top tree) :
    fs.Linkless := by
  intro trail target hlink
  obtain ⟨item, hitem⟩ := h.of_at? hlink
  cases hitem

/-! ## Roots and paths -/

/-- A name that a walk on the host can go down by. -/
structure Walkable (name : String) : Prop where
  /-- it is not empty -/
  nonempty : name ≠ ""
  /-- it is a single component -/
  single : '/' ∉ name.toList
  /-- it holds no NUL -/
  noNul : hasNul name = false
  /-- it stands for itself -/
  descends : Descends name

/-- A name that the host can keep. -/
structure HostName (name : String) : Prop extends Walkable name where
  /-- it is not too long -/
  fits : isLongName name = false

instance (name : String) : Decidable (HostName name) :=
  decidable_of_iff (name ≠ "" ∧ '/' ∉ name.toList ∧ hasNul name = false ∧ Descends name ∧
      isLongName name = false)
    ⟨fun ⟨hsome, hsingle, hnul, hdescends, hfits⟩ => ⟨⟨hsome, hsingle, hnul, hdescends⟩, hfits⟩,
      fun h => ⟨h.nonempty, h.single, h.noNul, h.descends, h.fits⟩⟩

/-- One name or more that the host can keep. -/
structure RootNames (names : List String) : Prop where
  /-- there is a name -/
  some : names ≠ []
  /-- the host can keep all of them -/
  names : ∀ name ∈ names, HostName name

theorem hasNul_eq_false_iff {path : String} :
    hasNul path = false ↔ Char.ofNat 0 ∉ path.toList := by
  simp [hasNul]

theorem hasNul_append {front back : String} :
    hasNul (front ++ back) = false ↔ hasNul front = false ∧ hasNul back = false := by
  simp [hasNul_eq_false_iff]

theorem hasNul_below_iff {root : String} {names : List String} :
    hasNul (below root names) = false ↔
      hasNul root = false ∧ ∀ name ∈ names, hasNul name = false := by
  induction names generalizing root with
  | nil => simp [below]
  | cons name rest ih =>
    have hnext : below root (name :: rest) = below (root ++ "/" ++ name) rest := rfl
    have hseparator : hasNul "/" = false := by decide
    rw [hnext, ih, hasNul_append, hasNul_append, List.forall_mem_cons]
    simp only [hseparator, and_true, and_assoc]

theorem hasNul_below {root : String} {names : List String} (hroot : hasNul root = false)
    (hnames : ∀ name ∈ names, hasNul name = false) : hasNul (below root names) = false :=
  hasNul_below_iff.mpr ⟨hroot, hnames⟩

/-- A root is written like a path below nothing. -/
theorem absolute_eq_below {names : List String} (h : names ≠ []) :
    absolute names = below "" names := by
  have hjoin : ∀ name rest,
      "/" ++ join '/' (name :: rest) = String.join ((name :: rest).map ("/" ++ ·)) := by
    intro name rest
    induction rest generalizing name with
    | nil => simp [join, joinChars]
    | cons next others ih =>
      rw [join_cons_cons, ih next, ← String.append_assoc]
      exact String.join_cons.symm
  obtain ⟨name, rest, rfl⟩ := List.exists_cons_of_ne_nil h
  rw [below_eq, absolute, hjoin, String.empty_append]

section Trails

variable {trail : List String} (hsome : trail ≠ []) (htrail : ∀ name ∈ trail, Walkable name)

include htrail in
theorem split_below_top : split '/' (below "" trail) = "" :: trail :=
  split_below fun name hname => (htrail name hname).single

include hsome htrail in
/-- A path from the top has no separator at its end. -/
theorem getLast?_below_top : (below "" trail).toList.getLast? ≠ some '/' := by
  rcases List.eq_nil_or_concat trail with rfl | ⟨front, last, rfl⟩
  · exact absurd rfl hsome
  · rw [List.concat_eq_append] at htrail ⊢
    have hlast := htrail last (by simp)
    have hne : last.toList ≠ [] := mt String.toList_eq_nil_iff.mp hlast.nonempty
    have hconcat : below "" (front ++ [last]) = below "" front ++ "/" ++ last := List.foldl_append
    rw [hconcat, String.toList_append, List.getLast?_append_of_ne_nil _ hne]
    exact fun hsep => hlast.single (List.mem_of_getLast? hsep)

include hsome htrail in
theorem pathParts_below_top : pathParts (below "" trail) = trail := by
  have hnames : trail.filter (· ≠ "") = trail :=
    List.filter_eq_self.mpr fun name hname => by simp [(htrail name hname).nonempty]
  rw [pathParts, split_below_top htrail, if_neg (getLast?_below_top hsome htrail)]
  exact hnames

include hsome htrail in
theorem dropEnd_below_top : dropEnd (· = '/') (below "" trail) = below "" trail := by
  have hlast := getLast?_below_top hsome htrail
  have hkept : (below "" trail).toList.rdropWhile (· = '/') = (below "" trail).toList := by
    refine List.rdropWhile_eq_self_iff.mpr fun hne hsep => hlast ?_
    rw [List.getLast?_eq_getLast_of_ne_nil hne]
    exact congrArg some (of_decide_eq_true hsep)
  rw [dropEnd, ← List.rdropWhile, hkept, String.ofList_toList]

end Trails

/-- A component has no NUL unless the path has one. -/
theorem hasNul_of_mem_split {path part : String} (h : hasNul path = false)
    (hpart : part ∈ split '/' path) : hasNul part = false := by
  obtain ⟨chars, hchars, rfl⟩ := List.mem_map.mp hpart
  rw [hasNul_eq_false_iff, String.toList_ofList]
  intro hmem
  have hpath : Char.ofNat 0 ∈ joinChars '/' (splitChars '/' path.toList) :=
    mem_joinChars_of_mem hchars hmem
  rw [joinChars_splitChars] at hpath
  exact hasNul_eq_false_iff.mp h hpath

/-- What remains of a path is among its components. -/
theorem mem_of_mem_remaining {components : List String} {name : String}
    (h : name ∈ remaining components) : name ∈ components := by
  have hstack : ∀ stack, name ∈ components.foldl pushed stack →
      name ∈ stack ∨ name ∈ components := by
    clear h
    induction components with
    | nil => exact fun _ => .inl
    | cons component rest ih =>
      intro stack hmem
      rcases ih _ hmem with hpushed | hrest
      · rw [pushed] at hpushed
        split at hpushed
        · exact .inl ((List.dropLast_sublist _).subset hpushed)
        split at hpushed
        · rcases List.mem_append.mp hpushed with hold | hnew
          · exact .inl hold
          · exact .inr (List.mem_singleton.mp hnew ▸ List.mem_cons_self ..)
        · exact .inl hpushed
      · exact .inr (List.mem_cons_of_mem _ hrest)
  exact (hstack [] h).resolve_left (by simp)

/-- **Where external paths lead**: below the top, by names that can be walked. -/
theorem exists_trail_of_locate {card patch : List String} (hcard : RootNames card)
    (hpatch : RootNames patch) {path located : String} (hnul : hasNul path = false)
    (h : (Roots.trimmed ⟨absolute card, absolute patch⟩).locate path = .ok located) :
    ∃ trail, trail ≠ [] ∧ (∀ name ∈ trail, Walkable name) ∧ located = below "" trail := by
  obtain ⟨rfl, hnames⟩ := Roots.eq_below_of_locateWithout h
  obtain ⟨root, hroot, hstart⟩ : ∃ root, RootNames root ∧
      (Roots.trimmed ⟨absolute card, absolute patch⟩).start path = below "" root := by
    have htrimmed {root : List String} (hroot : RootNames root) :
        dropEnd (· = '/') (absolute root) = below "" root := by
      rw [absolute_eq_below hroot.some, dropEnd_below_top hroot.some fun name hname =>
        (hroot.names name hname).toWalkable]
    rw [Roots.start]
    cases isAbsolute path with
    | true => exact ⟨card, hcard, htrimmed hcard⟩
    | false => exact ⟨patch, hpatch, htrimmed hpatch⟩
  refine ⟨root ++ remaining (split '/' path), by simp [hroot.some], ?_, ?_⟩
  · refine List.forall_mem_append.mpr ⟨fun name hname => (hroot.names name hname).toWalkable, ?_⟩
    intro name hname
    have hname' := hnames name hname
    exact ⟨hname'.nonempty, hname'.single, hasNul_of_mem_split hnul (mem_of_mem_remaining hname),
      hname'.descends⟩
  · rw [hstart]
    exact List.foldl_append.symm

/-! ## What is found -/

/-- The host and the shelf find the same at a path, or both find nothing. -/
inductive FoundAlike (fs : FileSystem) (tree : FileTree) (located : String) : Prop where
  /-- there is nothing -/
  | missing {fault : OsFault} (hhost : fs.find true located = .error (.refused fault))
    (hshelf : tree.at? (split '/' located) = none) : FoundAlike fs tree located
  /-- there is something -/
  | there {entry : Entry} {item : FileTree} (hhost : fs.find true located = .ok entry)
    (hshelf : tree.at? (split '/' located) = some item) (hsame : Mirrors entry item) :
    FoundAlike fs tree located

theorem foundAlike {fs : FileSystem} {tree : FileTree} (h : Mirrors fs.top tree)
    (hfs : fs.Named HostName) {trail : List String} (hsome : trail ≠ [])
    (htrail : ∀ name ∈ trail, Walkable name) (hshort : (below "" trail).utf8ByteSize < maxPath) :
    FoundAlike fs tree (below "" trail) := by
  have habsolute : isAbsolute (below "" trail) = true := by
    rw [isAbsolute_below, if_pos rfl]
    simpa using hsome
  have hnul : hasNul (below "" trail) = false :=
    hasNul_below (by decide) fun name hname => (htrail name hname).noNul
  have hshelf : tree.at? (split '/' (below "" trail)) = tree.at? trail := by
    rw [split_below_top htrail]
    exact if_pos rfl
  have hsame : Option.Rel Mirrors (fs.at? trail) (tree.at? trail) :=
    h.at? fun name hname => (htrail name hname).nonempty
  rcases find_linkless true h.linkless hfs (fun _ => HostName.fits) habsolute
    (pathParts_below_top hsome htrail) (fun name hname => (htrail name hname).descends) hnul hshort
    with ⟨entry, hentry, hfind⟩ | ⟨hnone, fault, hfind⟩
  · rw [hentry] at hsame
    generalize hitem : tree.at? trail = item at hsame
    cases hsame with
    | some hsame => exact .there hfind (hshelf.trans hitem) hsame
  · rw [hnone] at hsame
    generalize hitem : tree.at? trail = item at hsame
    cases hsame
    exact .missing hfind (hshelf.trans hitem)

/-! ## Answers -/

theorem linkBelow_linkless {fs : FileSystem} (h : fs.Linkless) (root : String)
    (parts : List String) : Mount.linkBelow fs root parts = none := by
  induction parts generalizing root with
  | nil => rfl
  | cons part rest ih =>
    rw [Mount.linkBelow]
    split
    · exact ih root
    · dsimp only
      rw [isLink_linkless h, if_neg Bool.false_ne_true]
      exact ih _

/-- Without links, paths are resolved by their components alone. -/
theorem resolve_linkless {fs : FileSystem} (h : fs.Linkless) (roots : Roots) (path : String) :
    (Mount.resolve fs roots path).value = (roots.locate path).toOption := by
  rw [Mount.resolve]
  rcases roots.locate path with cause | located
  · rfl
  · dsimp only
    rw [linkBelow_linkless h]
    rfl

/-- Folders that hold the same are listed the same. -/
theorem Mirrors.sortListed_eq {entries : List (String × Entry)} {items : List (String × FileTree)}
    (h : Mirrors (.folder entries) (.folder items)) :
    sortListed (visible entries) =
      sortListed (items.map fun item => ⟨item.1, item.2.isFolder⟩) := by
  obtain ⟨hnames, hdistinct⟩ : (entries.map (·.1)).Perm (items.map (·.1)) ∧
      (entries.map (·.1)).Nodup := by
    cases h with
    | folder hnames hdistinct => exact ⟨hnames, hdistinct⟩
  have hitems : (items.map (·.1)).Nodup := hnames.nodup_iff.mp hdistinct
  have hlisted : ((items.map fun item => Listed.mk item.1 item.2.isFolder).map (·.name)).Nodup := by
    rwa [List.map_map]
  have hkind {entry : Entry} {item : FileTree} (hsame : Mirrors entry item) :
      entry.isLink = false ∧ entry.isFolder = item.isFolder := by
    cases hsame <;> exact ⟨rfl, rfl⟩
  refine sortListed_eq_of_perm ?_ (nodup_names_visible hdistinct)
  rw [List.perm_ext_iff_of_nodup (.of_map _ (nodup_names_visible hdistinct)) (.of_map _ hlisted)]
  intro listed
  have hchild : Option.Rel Mirrors (entries.lookup listed.name)
      ((FileTree.folder items).child? listed.name) := h.child? listed.name
  rw [mem_visible_iff hdistinct, List.mem_map]
  constructor
  · rintro ⟨entry, hentry, -, hfolder⟩
    rw [hentry] at hchild
    generalize hitem : (FileTree.folder items).child? listed.name = item at hchild
    cases hchild with
    | some hsame =>
      exact ⟨_, mem_of_lookup hitem, by rw [← (hkind hsame).2, hfolder]⟩
  · rintro ⟨item, hmem, rfl⟩
    rw [FileTree.child?, (lookup_eq_some_iff_mem hitems).mpr hmem] at hchild
    generalize entries.lookup item.1 = entry at hchild ⊢
    cases hchild with
    | some hsame => exact ⟨_, rfl, (hkind hsame).1, (hkind hsame).2⟩

section Answers

variable {fs : FileSystem} {tree : FileTree} {roots : Roots} {path located : String}

theorem resolve_located (hlinks : fs.Linkless) (hlocated : roots.locate path = .ok located) :
    (Mount.resolve fs roots path).value = some located := by
  rw [resolve_linkless hlinks, hlocated]
  rfl

theorem Shelf.value_file? (hlocated : roots.locate path = .ok located) :
    (Shelf.file? tree roots path).value = match tree.at? (split '/' located) with
      | some (.file data) => some data
      | _ => none := by
  rw [Shelf.file?, Shelf.find, hlocated, Except.map]
  rcases tree.at? (split '/' located) with _ | data | items <;> rfl

/-- A file of the shelf is found where its path leads. -/
theorem Shelf.exists_located {data : Bytes} (h : (Shelf.file? tree roots path).value = some data) :
    ∃ located, roots.locate path = .ok located ∧
      tree.at? (split '/' located) = some (.file data) := by
  rcases hlocated : roots.locate path with cause | located
  · rw [Shelf.file?, Shelf.find, hlocated] at h
    cases h
  · rw [Shelf.value_file? hlocated] at h
    refine ⟨located, rfl, ?_⟩
    rcases hfound : tree.at? (split '/' located) with _ | found | items
    · rw [hfound] at h
      cases h
    · rw [hfound] at h
      cases h
      rfl
    · rw [hfound] at h
      cases h

/-- A path that the host refuses has the answers of a missing one. -/
theorem values_of_refused (hlinks : fs.Linkless) (hlocated : roots.locate path = .ok located)
    {fault : OsFault} (hfind : fs.find true located = .error (.refused fault)) :
    (Mount.size? fs roots path).value = none ∧ (Mount.contents fs roots path).value = .ok [] ∧
      (Mount.entries fs roots path).value = .ok [] := by
  refine ⟨?_, ?_, ?_⟩
  · rw [Mount.size?, Logged.value_bind, resolve_located hlinks hlocated]
    dsimp only
    rw [FileSystem.stat?, hfind]
    rfl
  · rw [Mount.contents, Logged.value_bind, resolve_located hlinks hlocated]
    dsimp only
    rw [FileSystem.readFile, hfind]
    rfl
  · rw [Mount.entries, Logged.value_bind, resolve_located hlinks hlocated]
    dsimp only
    rw [FileSystem.list, hfind]
    rfl

/-- What the host and the shelf find to be the same gets the same answers. -/
theorem values_of_mirrors (hlinks : fs.Linkless) (hlocated : roots.locate path = .ok located)
    {entry : Entry} {item : FileTree} (hfind : fs.find true located = .ok entry)
    (hitem : tree.at? (split '/' located) = some item) (hsame : Mirrors entry item) :
    (Mount.size? fs roots path).value = (Shelf.file? tree roots path).value.map List.length ∧
      (Mount.contents fs roots path).value =
        .ok ((Shelf.file? tree roots path).value.getD []) ∧
      (Mount.entries fs roots path).value = .ok (Shelf.entries tree roots path) := by
  rw [Shelf.value_file? hlocated, hitem]
  refine ⟨?_, ?_, ?_⟩
  · rw [Mount.size?, Logged.value_bind, resolve_located hlinks hlocated]
    dsimp only
    rw [FileSystem.stat?, hfind]
    cases hsame <;> rfl
  · rw [Mount.contents, Logged.value_bind, resolve_located hlinks hlocated]
    dsimp only
    rw [FileSystem.readFile, hfind]
    cases hsame <;> rfl
  · rw [Mount.entries, Logged.value_bind, resolve_located hlinks hlocated, Shelf.entries,
      Shelf.find, hlocated, Except.map, hitem]
    dsimp only
    rw [FileSystem.list, hfind]
    cases hsame with
    | file => rfl
    | folder hnames hdistinct hbelow =>
      exact congrArg Except.ok (Mirrors.folder hnames hdistinct hbelow).sortListed_eq

/-- A path to nothing has no file and no entries on the shelf. -/
theorem Shelf.values_of_missing (hlocated : roots.locate path = .ok located)
    (hitem : tree.at? (split '/' located) = none) :
    (Shelf.file? tree roots path).value = none ∧ Shelf.entries tree roots path = [] := by
  rw [Shelf.value_file? hlocated, Shelf.entries, Shelf.find, hlocated, Except.map, hitem]
  exact ⟨rfl, rfl⟩

/-- A path that leaves its root has the answers of a missing one. -/
theorem values_of_escape {cause : Escape} (hlocated : roots.locate path = .error cause) :
    (Mount.size? fs roots path).value = (Shelf.file? tree roots path).value.map List.length ∧
      (Mount.contents fs roots path).value =
        .ok ((Shelf.file? tree roots path).value.getD []) ∧
      (Mount.entries fs roots path).value = .ok (Shelf.entries tree roots path) := by
  rw [Mount.size?, Mount.contents, Mount.entries, Mount.resolve, Shelf.file?, Shelf.entries,
    Shelf.find, hlocated]
  exact ⟨rfl, rfl, rfl⟩

/-- A file on the shelf is on the host. -/
theorem FoundAlike.readFile (h : FoundAlike fs tree located) {data : Bytes}
    (hdata : tree.at? (split '/' located) = some (.file data)) :
    fs.readFile located = .ok data := by
  cases h with
  | missing _ hshelf =>
    rw [hdata] at hshelf
    cases hshelf
  | there hhost hshelf hsame =>
    rw [hdata] at hshelf
    cases hshelf
    cases hsame
    rw [FileSystem.readFile, hhost]

end Answers

/-! ## Bytes behind segments -/

/-- The bytes of a segment: it is laid out alone and read from end to end. -/
def Segment.readBack (fs : FileSystem) (segment : Segment) : Except Error Bytes := do
  let layout ← Layout.ofSegments [segment]
  (layout.read fs segment.offset segment.size).mapError .read

/-- A segment gives the bytes of its source. -/
theorem Segment.readBack_of_read {fs : FileSystem} {segment : Segment} {bytes : Bytes}
    (hlength : bytes.length = segment.size) (hnear : isFar segment.size = false)
    (hread : 0 < segment.size → segment.source.read fs 0 segment.size = .ok bytes) :
    segment.readBack fs = .ok bytes := by
  obtain ⟨layout, hlayout, hsegments⟩ := Layout.ofSegments_of_pairwise
    (List.pairwise_singleton (fun a b : Segment => a.stop ≤ b.offset) segment)
  have hrun : layout.read fs segment.offset segment.size = .ok bytes := by
    rw [Layout.read, if_neg (by omega), hsegments]
    rcases Nat.eq_zero_or_pos segment.size with hzero | hpositive
    · rw [hzero] at hlength ⊢
      rw [List.length_eq_zero_iff.mp hlength]
      exact readRun_zero ..
    · have hstop : segment.stop = segment.offset + segment.size := rfl
      rw [List.filter_cons_of_pos (by simpa using hpositive), List.filter_nil, Int.toNat_natCast,
        Int.toNat_natCast, readRun_cons hpositive, if_neg (by omega), if_neg (by omega),
        show min segment.size (segment.stop - segment.offset) = segment.size by omega, Int.sub_self,
        hread hpositive, (joinable_self hnear).isFar_part (Nat.le_refl _), Nat.sub_self,
        readRun_zero]
      exact congrArg Except.ok (List.append_nil bytes)
  rw [Segment.readBack, hlayout]
  change (layout.read fs segment.offset segment.size).mapError Error.read = _
  rw [hrun]
  rfl

/-- A stretch of a host file is read back. -/
theorem readBack_host {fs : FileSystem} {located : String} {data : Bytes}
    (hfile : fs.readFile located = .ok data) (hfar : isFar data.length = false)
    {offset count : Nat} (hwithin : offset + count ≤ data.length) (target : Nat) :
    Segment.readBack fs ⟨target, count, .file located offset⟩ =
      .ok ((data.drop offset).take count) := by
  have hlength : ((data.drop offset).take count).length = count := by
    rw [List.length_take, List.length_drop]
    omega
  have hcount : isFar count = false := isFar_of_le (by omega) hfar
  refine Segment.readBack_of_read hlength hcount fun _ => ?_
  rw [Source.read, Int.add_zero]
  exact readHostFile_eq_ok_iff.mpr ⟨data, hfile, isFar_of_le (by omega) hfar, by omega, hcount,
    hlength, rfl⟩

/-- A stretch of a buffer is read back. -/
theorem readBack_buffer (fs : FileSystem) {data : Bytes} {offset count : Nat}
    (hcount : isFar count = false) (hwithin : offset + count ≤ data.length) (target : Nat) :
    Segment.readBack fs ⟨target, count, .buffer data offset⟩ =
      .ok ((data.drop offset).take count) := by
  have hlength : ((data.drop offset).take count).length = count := by
    rw [List.length_take, List.length_drop]
    omega
  refine Segment.readBack_of_read hlength hcount fun hpositive => ?_
  rw [Source.read, Int.add_zero]
  exact (readBuffer_eq_ok_iff hpositive).mpr ⟨hlength, offset, .inl rfl, rfl⟩

/-- What a source that is handed out for a stretch of a file gives back. -/
def External.stretch (external : External) (fs : FileSystem) (path : String)
    (offset count target : Int) : Except Error Bytes := do
  (← (external.segment path offset count target).value).readBack fs

theorem stretch_of_source {external : External} {path : String} {offset : Int} {source : Source}
    {count target : Nat} (hsource : (external.source path offset count target).value = source)
    (fs : FileSystem) :
    external.stretch fs path offset count target =
      Segment.readBack fs ⟨target, count, source⟩ := by
  rw [External.stretch, External.segment, Logged.value_bind, hsource, Logged.value_pure,
    Segment.checked_natCast]
  rfl

theorem stretch_host {fs : FileSystem} {given : Roots} {path located : String} {data : Bytes}
    (hresolved : (Mount.resolve fs given.trimmed path).value = some located)
    (hfile : fs.readFile located = .ok data) (hfar : isFar data.length = false)
    {offset count : Nat} (hwithin : offset + count ≤ data.length) (target : Nat) :
    (External.host fs given).stretch fs path offset count target =
      .ok ((data.drop offset).take count) := by
  have hsource : ((External.host fs given).source path offset count target).value =
      .file located offset := by
    refine (Logged.value_bind _ _).trans ?_
    rw [hresolved]
    rfl
  rw [stretch_of_source hsource]
  exact readBack_host hfile hfar hwithin target

theorem stretch_shelf (fs : FileSystem) {tree : FileTree} {given : Roots} {path : String}
    {data : Bytes} (hfile : (Shelf.file? tree given.trimmed path).value = some data)
    {offset count : Nat} (hcount : isFar count = false) (hwithin : offset + count ≤ data.length)
    (target : Nat) :
    (External.shelf tree given).stretch fs path offset count target =
      .ok ((data.drop offset).take count) := by
  have hsource : ((External.shelf tree given).source path offset count target).value =
      .buffer data offset := by
    refine (Logged.value_bind _ _).trans ?_
    rw [hfile]
    rfl
  rw [stretch_of_source hsource]
  exact readBack_buffer fs hcount hwithin target

/-- A negative place or number of bytes is refused, whatever the source. -/
theorem stretch_negative (external : External) (fs : FileSystem) (path : String) (offset : Int)
    {count target : Int} (h : count < 0 ∨ target < 0) :
    external.stretch fs path offset count target = .error
      (.invalid (Segment.negativeFlaw "offset" target ++ Segment.negativeFlaw "size" count)) := by
  rw [External.stretch, External.segment, Logged.value_bind, Logged.value_pure, Segment.checked]
  split
  · next hflaws =>
    obtain ⟨htarget, hcount⟩ := List.append_eq_nil_iff.mp hflaws
    simp only [Segment.negativeFlaw, ite_eq_right_iff, List.cons_ne_nil, imp_false]
      at htarget hcount
    exact absurd h (not_or.mpr ⟨hcount, htarget⟩)
  · rfl

/-! ## Agreement -/

section Agreement

variable {fs : FileSystem} {tree : FileTree} {given : Roots} {path : String}

theorem savegame_shelf (tree : FileTree) (given : Roots) (path : String) :
    ((External.shelf tree given).savegame? path).value = (given.trimmed.locate path).toOption := by
  simp only [External.shelf]
  rcases given.trimmed.locate path with cause | located <;> rfl

theorem savegame_shelf_eq_some {located : String} :
    ((External.shelf tree given).savegame? path).value = some located ↔
      given.trimmed.locate path = .ok located := by
  rw [savegame_shelf]
  rcases given.trimmed.locate path with cause | found <;> simp [Except.toOption]

/-- Where both find the same, all values are the same. -/
theorem values_agree (hlinks : fs.Linkless)
    (h : ∀ located, given.trimmed.locate path = .ok located → FoundAlike fs tree located) :
    ((External.host fs given).size? path).value = ((External.shelf tree given).size? path).value ∧
      ((External.host fs given).contents path).value =
        ((External.shelf tree given).contents path).value ∧
      ((External.host fs given).entries path).value =
        ((External.shelf tree given).entries path).value := by
  rcases hlocated : given.trimmed.locate path with cause | located
  · exact values_of_escape hlocated
  · cases h located hlocated with
    | missing hhost hshelf =>
      obtain ⟨hfile, hentries⟩ := Shelf.values_of_missing hlocated hshelf
      change _ = (Shelf.file? tree given.trimmed path).value.map List.length ∧
        _ = Except.ok ((Shelf.file? tree given.trimmed path).value.getD []) ∧
        _ = Except.ok (Shelf.entries tree given.trimmed path)
      rw [hfile, hentries]
      exact values_of_refused hlinks hlocated hhost
    | there hhost hshelf hsame => exact values_of_mirrors hlinks hlocated hhost hshelf hsame

/-- Where both find the same, the bytes of a file can be read back from both. -/
theorem stretches_agree (hlinks : fs.Linkless)
    (h : ∀ located, given.trimmed.locate path = .ok located → FoundAlike fs tree located)
    {size : Nat} (hsize : ((External.shelf tree given).size? path).value = some size) :
    ∃ data, data.length = size ∧ ((External.shelf tree given).contents path).value = .ok data ∧
      (isFar size = false → ∀ (offset : Nat) (count target : Int), offset + count ≤ size →
        (External.host fs given).stretch fs path offset count target =
            (External.shelf tree given).stretch fs path offset count target ∧
          (0 ≤ count → 0 ≤ target →
            (External.shelf tree given).stretch fs path offset count target =
              .ok ((data.drop offset).take count.toNat))) := by
  have hfile : (Shelf.file? tree given.trimmed path).value.map List.length = some size := hsize
  obtain ⟨data, hdata, rfl⟩ := Option.map_eq_some_iff.mp hfile
  refine ⟨data, rfl, ?_, fun hfar offset count target hwithin => ?_⟩
  · change Except.ok ((Shelf.file? tree given.trimmed path).value.getD []) = _
    rw [hdata]
    rfl
  by_cases hnatural : 0 ≤ count ∧ 0 ≤ target
  · obtain ⟨count, rfl⟩ := Int.eq_ofNat_of_zero_le hnatural.1
    obtain ⟨target, rfl⟩ := Int.eq_ofNat_of_zero_le hnatural.2
    have hwithin : offset + count ≤ data.length := by omega
    have hshelf := stretch_shelf fs hdata (isFar_of_le (by omega) hfar) hwithin target
    obtain ⟨located, hlocated, hitem⟩ := Shelf.exists_located hdata
    have hhost := stretch_host (resolve_located hlinks hlocated)
      ((h located hlocated).readFile hitem) hfar hwithin target
    exact ⟨hhost.trans hshelf.symm, fun _ _ => hshelf⟩
  · have hnegative : count < 0 ∨ target < 0 := by omega
    refine ⟨?_, fun hcount htarget => absurd ⟨hcount, htarget⟩ hnatural⟩
    rw [stretch_negative _ _ _ _ hnegative, stretch_negative _ _ _ _ hnegative]

end Agreement

/-- **The host and the shelf agree.** For the same files kept on the host and in memory, and roots
made of names that the host can keep, every path without NUL is located alike. Unless it leads to a
path that is too long for the host, which finds nothing there, it has the same size, bytes and
entries. Any stretch of a file that is less than 2^63 bytes long is read back alike from both, as
long as it does not begin in front of the file. -/
theorem host_agrees_shelf {fs : FileSystem} {tree : FileTree} (h : Mirrors fs.top tree)
    (hfs : fs.Named HostName) {card patch : List String} (hcard : RootNames card)
    (hpatch : RootNames patch) {path : String} (hnul : hasNul path = false) :
    let host := External.host fs ⟨absolute card, absolute patch⟩
    let shelf := External.shelf tree ⟨absolute card, absolute patch⟩
    (host.savegame? path).value = (shelf.savegame? path).value ∧
    ((∀ located, (shelf.savegame? path).value = some located → located.utf8ByteSize < maxPath) →
      (host.size? path).value = (shelf.size? path).value ∧
      (host.contents path).value = (shelf.contents path).value ∧
      (host.entries path).value = (shelf.entries path).value ∧
      ∀ size, (shelf.size? path).value = some size → ∃ data, data.length = size ∧
        (shelf.contents path).value = .ok data ∧
        (isFar size = false → ∀ (offset : Nat) (count target : Int), offset + count ≤ size →
          host.stretch fs path offset count target = shelf.stretch fs path offset count target ∧
          (0 ≤ count → 0 ≤ target → shelf.stretch fs path offset count target =
            .ok ((data.drop offset).take count.toNat)))) ∧
    ∀ located, (shelf.savegame? path).value = some located → maxPath ≤ located.utf8ByteSize →
      (host.size? path).value = none ∧ (host.contents path).value = .ok [] ∧
        (host.entries path).value = .ok [] := by
  have hlinks := h.linkless
  have htrails : ∀ located, (Roots.trimmed ⟨absolute card, absolute patch⟩).locate path =
      .ok located → ∃ trail, trail ≠ [] ∧ (∀ name ∈ trail, Walkable name) ∧
        located = below "" trail :=
    fun located => exists_trail_of_locate hcard hpatch hnul
  -- from here on the roots matter only through the trails their paths lead to
  generalize (⟨absolute card, absolute patch⟩ : Roots) = given at htrails ⊢
  refine ⟨?_, fun hshort => ?_, fun located hsavegame hlong => ?_⟩
  · rw [savegame_shelf]
    exact resolve_linkless hlinks given.trimmed path
  · have hfound : ∀ located, given.trimmed.locate path = .ok located →
        FoundAlike fs tree located := by
      intro located hlocated
      have hlength := hshort located (savegame_shelf_eq_some.mpr hlocated)
      obtain ⟨trail, hsome, htrail, rfl⟩ := htrails located hlocated
      exact foundAlike h hfs hsome htrail hlength
    obtain ⟨hsize, hcontents, hentries⟩ := values_agree hlinks hfound
    exact ⟨hsize, hcontents, hentries, fun size => stretches_agree hlinks hfound⟩
  · have hlocated := savegame_shelf_eq_some.mp hsavegame
    obtain ⟨trail, -, htrail, rfl⟩ := htrails located hlocated
    obtain ⟨fault, hfind⟩ : ∃ fault, fs.find true (below "" trail) = .error (.refused fault) :=
      find_of_long (hasNul_below (by decide) fun name hname => (htrail name hname).noNul) hlong
    exact values_of_refused hlinks hlocated hfind

/-- The entries stand in another order on the host, and the file is read back all the same. -/
theorem host_agrees_shelf_card :
    let fs : FileSystem := ⟨[("sd", .folder [("b", .file [5, 6, 7]), ("a", .folder [])])], []⟩
    let tree : FileTree := .folder [("sd", .folder [("a", .folder []), ("b", .file [5, 6, 7])])]
    let given : Roots := ⟨absolute ["sd"], absolute ["sd", "a"]⟩
    Mirrors fs.top tree ∧ fs.Named HostName ∧ RootNames ["sd"] ∧ RootNames ["sd", "a"] ∧
      ((External.shelf tree given).savegame? "/./b").value = some "/sd/b" ∧
      ((External.host fs given).size? "/./b").value = some 3 ∧
      (External.host fs given).stretch fs "/./b" 1 2 0 = .ok [6, 7] := by
  intro fs tree given
  have hnames : ∀ name ∈ ["sd", "a", "b"], HostName name := by decide
  have hinner : Mirrors (.folder [("b", .file [5, 6, 7]), ("a", .folder [])])
      (.folder [("a", .folder []), ("b", .file [5, 6, 7])]) := by
    refine .folder (.swap _ _ _) (by decide) ?_
    simp only [List.mem_cons, Prod.mk.injEq, List.not_mem_nil, or_false]
    rintro name entry item (⟨rfl, rfl⟩ | ⟨rfl, rfl⟩) (⟨hname, rfl⟩ | ⟨hname, rfl⟩)
    · exact absurd hname (by decide)
    · exact .file _
    · exact .folder .nil .nil fun _ _ _ hentry => absurd hentry List.not_mem_nil
    · exact absurd hname (by decide)
  have hmirrors : Mirrors fs.top tree := hinner.single "sd"
  have hnamed : fs.Named HostName :=
    ⟨hnames _ (by decide), ⟨hnames _ (by decide), trivial, hnames _ (by decide), trivial, trivial⟩,
      trivial⟩
  have hcard : RootNames ["sd"] := ⟨by decide, by decide⟩
  have hpatch : RootNames ["sd", "a"] := ⟨by decide, by decide⟩
  have hlocated : ((External.shelf tree given).savegame? "/./b").value = some "/sd/b" := by
    decide +kernel
  have hsize : ((External.shelf tree given).size? "/./b").value = some 3 := by decide +kernel
  obtain ⟨-, hshort, -⟩ := host_agrees_shelf hmirrors hnamed hcard hpatch
    (show hasNul "/./b" = false by decide)
  obtain ⟨hagree, -, -, hstretch⟩ := hshort fun located h => by
    obtain rfl := Option.some.inj (hlocated.symm.trans h)
    decide
  obtain ⟨data, -, hdata, hread⟩ := hstretch 3 hsize
  obtain rfl : [5, 6, 7] = data := by
    have hcontents : ((External.shelf tree given).contents "/./b").value = .ok [5, 6, 7] := by
      decide +kernel
    exact Except.ok.inj (hcontents.symm.trans hdata)
  obtain ⟨hhost, hshelf⟩ := hread (by decide) 1 2 0 (by decide)
  exact ⟨hmirrors, hnamed, hcard, hpatch, hlocated, hagree.trans hsize,
    hhost.trans (hshelf (by decide) (by decide))⟩

/-- A negative offset is counted from the end of bytes in memory, and the host refuses it. -/
theorem host_agrees_shelf_negative :
    let fs : FileSystem := ⟨[("sd", .folder [("f", .file [0, 1, 2, 3, 4, 5])])], []⟩
    let tree : FileTree := .folder [("sd", .folder [("f", .file [0, 1, 2, 3, 4, 5])])]
    let given : Roots := ⟨absolute ["sd"], absolute ["sd"]⟩
    Mirrors fs.top tree ∧ fs.Named HostName ∧ RootNames ["sd"] ∧
      ((External.shelf tree given).size? "/f").value = some 6 ∧ (-3 : Int) + 2 ≤ 6 ∧
      (External.shelf tree given).stretch fs "/f" (-3) 2 0 = .ok [3, 4] ∧
      (External.host fs given).stretch fs "/f" (-3) 2 0 ≠ .ok [3, 4] := by
  intro fs tree given
  have hmirrors : Mirrors fs.top tree := ((Mirrors.file _).single "f").single "sd"
  have hnamed : fs.Named HostName := ⟨by decide, ⟨by decide, trivial, trivial⟩, trivial⟩
  refine ⟨hmirrors, hnamed, ⟨by decide, by decide⟩, ?_, ?_, ?_, ?_⟩ <;> decide +kernel

end DiscPatch
