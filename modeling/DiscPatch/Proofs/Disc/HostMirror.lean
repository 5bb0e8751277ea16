import DiscPatch.Proofs.Content.HostContent
import DiscPatch.Proofs.Disc.Proper
import DiscPatch.Proofs.Host.Onward
import DiscPatch.Proofs.Host.Unambiguous
import DiscPatch.Proofs.Patch.Executable

/-!
# The tree of a host folder mirrors the folder

* `bytesInReach` — what the tree has of a host file: nothing, if the path that it is listed under is
  too long to be opened;
* `FoundFolder` — the host finds a folder at a path, and names lead on from there;
* `exists_nodesOfEntry`, `short_of_nodesOfEntry` — a host folder can be described exactly if the
  paths of the folders below it are not too long, and its description lists the files below it;
* `frozen_ofHost` — the frozen description has one entry for each regular file below the folder, and
  that has the bytes of the file.
-/

namespace DiscPatch

open DiscPatch.Host
open DiscPatch.Text (split join)

variable {fs : FileSystem}

/-! ## Folders that are found -/

/-- The host finds a folder at the path. It has names that the host can keep, each only once, there
and below. -/
structure FoundFolder (fs : FileSystem) (path : String) (entries : List (String × Entry)) :
    Prop where
  /-- it is found -/
  found : fs.find true path = .ok (.folder entries)
  /-- the names can be kept -/
  named : (Entry.folder entries).Named HostName
  /-- each name stands for one entry -/
  unambiguous : (Entry.folder entries).Unambiguous

namespace FoundFolder

variable {path name : String} {entries : List (String × Entry)}

theorem hostName (h : FoundFolder fs path entries) {entry : Entry}
    (hentry : (name, entry) ∈ entries) : HostName name :=
  (entriesNamed_iff.mp h.named _ hentry).1

theorem list_eq (h : FoundFolder fs path entries) : fs.list path = .ok entries := by
  rw [FileSystem.list, h.found]

/-- The path of an entry leads to it. -/
theorem find_entry (h : FoundFolder fs path entries) {entry : Entry}
    (hentry : (name, entry) ∈ entries) (hlink : entry.isLink = false)
    (hshort : (entryPath path name).utf8ByteSize < maxPath) :
    fs.find true (entryPath path name) = .ok entry :=
  find_entryPath h.found (h.hostName hentry) ((lookup_eq_some_iff_mem h.unambiguous.1).mpr hentry)
    hlink
    hshort

/-- A folder in the folder is found as well. -/
theorem inner (h : FoundFolder fs path entries) {below : List (String × Entry)}
    (hentry : (name, .folder below) ∈ entries)
    (hshort : (entryPath path name).utf8ByteSize < maxPath) :
    FoundFolder fs (entryPath path name) below where
  found := h.find_entry hentry rfl hshort
  named := (entriesNamed_iff.mp h.named _ hentry).2
  unambiguous := entriesUnambiguous_iff.mp h.unambiguous.2 _ hentry

end FoundFolder

theorem size_le_foldl_entryPath (path : String) (names : List String) :
    path.utf8ByteSize ≤ (names.foldl entryPath path).utf8ByteSize := by
  induction names generalizing path with
  | nil => exact Nat.le_refl _
  | cons name rest ih =>
    refine Nat.le_trans ?_ (ih (entryPath path name))
    rw [entryPath]
    split <;> simp only [String.utf8ByteSize_append] <;> omega

/-- Names lead on from a folder to what is below it. -/
theorem FoundFolder.find_below {path : String} {entries : List (String × Entry)}
    (h : FoundFolder fs path entries) {names : List String} {entry : Entry}
    (hat : (Entry.folder entries).at? names = some entry) (hlink : entry.isLink = false)
    (hshort : (names.foldl entryPath path).utf8ByteSize < maxPath) :
    fs.find true (names.foldl entryPath path) = .ok entry := by
  induction names generalizing path entries with
  | nil =>
    obtain rfl := Option.some.inj hat
    exact h.found
  | cons name rest ih =>
    obtain ⟨next, hnext, hrest⟩ := at?_folder_cons.mp hat
    have hmem := mem_of_lookup hnext
    -- the way to an entry is no longer than the path of what is below it
    have hway := Nat.lt_of_le_of_lt (size_le_foldl_entryPath (entryPath path name) rest) hshort
    cases next with
    | folder below => exact ih (h.inner hmem hway) hrest hshort
    | file data | link target | pipe =>
      cases rest with
      | nil =>
        obtain rfl := Option.some.inj hrest
        exact h.find_entry hmem hlink hway
      | cons _ _ => cases hrest

/-- The bytes of a host file that the tree of the folder at `root` has: none, if the path of the
file is too long for the host. -/
def bytesInReach (root : String) (names : List String) (data : Bytes) : Bytes :=
  if (names.foldl entryPath root).utf8ByteSize < maxPath then data else []

/-- What the tree of the folder at `root` has for a host file. -/
def mirrored (root : String) (file : List String × Bytes) : String × File :=
  (file.1.foldl childPath "", hostFile (file.1.foldl entryPath root) (file.1.getLastD "")
    (bytesInReach root file.1 file.2).length)

/-- A file of a folder becomes a file of the disc, of which there is as much as is in reach. -/
theorem FoundFolder.ofHost_file {root : String} {front : List String} {name : String}
    {entries : List (String × Entry)} {data : Bytes}
    (h : FoundFolder fs (front.foldl entryPath root) entries)
    (hentry : (name, .file data) ∈ entries) :
    (File.ofHost fs (entryPath (front.foldl entryPath root) name) (some name)).value =
      .ok (mirrored root (front ++ [name], data)).2 := by
  have hpath : (front ++ [name]).foldl entryPath root =
      entryPath (front.foldl entryPath root) name := List.foldl_concat ..
  have hlast : (front ++ [name]).getLastD "" = name := by simp
  rw [mirrored, bytesInReach, hpath, hlast]
  by_cases hshort : (entryPath (front.foldl entryPath root) name).utf8ByteSize < maxPath
  · have hfind := h.find_entry hentry rfl hshort
    rw [if_pos hshort]
    exact value_ofHost_of_size (by rw [FileSystem.size, hfind]; rfl) name
  · have hnul : hasNul (entryPath (front.foldl entryPath root) name) = false :=
      hasNul_entryPath (find_eq_ok_iff.mp h.found).1 (h.hostName hentry).noNul
    obtain ⟨fault, hfind⟩ : ∃ fault, fs.find true _ = .error (.refused fault) :=
      find_of_long hnul (Nat.not_lt.mp hshort)
    rw [if_neg hshort]
    exact value_ofHost_of_refused (by rw [FileSystem.size, hfind]; rfl) name

/-! ## Describing -/

theorem perm_listing (above : String) {nodes moved : List Node} (h : nodes.Perm moved) :
    (listing above nodes).Perm (listing above moved) := by
  induction h with
  | nil => exact .refl _
  | cons node _ ih => exact ih.append_left (node.listing above)
  | swap first second rest =>
    rw [listing, listing, listing, listing, ← List.append_assoc, ← List.append_assoc]
    exact List.perm_append_comm.append_right _
  | trans _ _ ih₁ ih₂ => exact ih₁.trans ih₂

mutual
/-- An entry of a folder that is found can be described, if the folders in it have paths that are not
too long. The description lists the files in the entry. -/
theorem exists_nodesOfEntry (root : String) (front : List String) (name : String)
    {whole : List (String × Entry)} (h : FoundFolder fs (front.foldl entryPath root) whole) :
    ∀ entry : Entry, (name, entry) ∈ whole →
      (∀ names below, entry.at? names = some (.folder below) →
        ((front ++ name :: names).foldl entryPath root).utf8ByteSize < maxPath) →
      ∃ nodes,
        (nodesOfEntry fs (entryPath (front.foldl entryPath root) name) name entry).value =
          .ok nodes ∧
        (listing (front.foldl childPath "") nodes).Perm
          ((entry.filesFrom (front ++ [name])).map (mirrored root))
  | .file data => by
    intro hentry _
    refine ⟨_, nodesOfEntry_file_eq_ok_iff.mpr ⟨_, h.ofHost_file hentry, rfl⟩, ?_⟩
    have hname : (mirrored root (front ++ [name], data)).2.name = name := by
      simp [mirrored, hostFile]
    have hpath : (mirrored root (front ++ [name], data)).1 =
        childPath (front.foldl childPath "") name := List.foldl_concat ..
    rw [listing_file, hname, ← hpath]
    exact .refl _
  | .folder entries => by
    intro hentry hshort
    have hpath : (front ++ [name]).foldl entryPath root =
        entryPath (front.foldl entryPath root) name := List.foldl_concat ..
    have habove : (front ++ [name]).foldl childPath "" =
        childPath (front.foldl childPath "") name := List.foldl_concat ..
    have hfolder := h.inner hentry (by rw [← hpath]; exact hshort [] entries rfl)
    have hbelow : ∀ entry ∈ entries, ∀ names below, entry.2.at? names = some (.folder below) →
        ((front ++ [name] ++ entry.1 :: names).foldl entryPath root).utf8ByteSize < maxPath := by
      intro entry hmem names below hat
      rw [List.append_assoc]
      exact hshort (entry.1 :: names) below (at?_folder_cons.mpr
        ⟨entry.2, (lookup_eq_some_iff_mem hfolder.unambiguous.1).mpr hmem, hat⟩)
    rw [← hpath] at hfolder ⊢
    obtain ⟨plain, hplain, hlisting⟩ :=
      exists_nodesOfEntries root (front ++ [name]) hfolder entries (fun _ => id) hbelow
    obtain ⟨children, hchildren, hperm⟩ := exists_inOrder_of_inTurn hplain
    refine ⟨[.folder name children],
      nodesOfEntry_folder_eq_ok_iff.mpr ⟨⟨entries, hfolder.list_eq⟩, children, hchildren, rfl⟩, ?_⟩
    rw [listing_folder, ← habove, listing, List.append_nil]
    exact (perm_listing _ hperm).trans hlisting
  | .link _ => fun _ _ => ⟨[], rfl, .refl _⟩
  | .pipe => fun _ _ => ⟨[], rfl, .refl _⟩

/-- The entries of a folder that is found can be described, one after the other. -/
theorem exists_nodesOfEntries (root : String) (front : List String)
    {whole : List (String × Entry)} (h : FoundFolder fs (front.foldl entryPath root) whole) :
    ∀ entries : List (String × Entry), (∀ entry ∈ entries, entry ∈ whole) →
      (∀ entry ∈ entries, ∀ names below, entry.2.at? names = some (.folder below) →
        ((front ++ entry.1 :: names).foldl entryPath root).utf8ByteSize < maxPath) →
      ∃ nodes,
        (inTurn ((nodesOfEntries fs (front.foldl entryPath root) entries).map (·.2))).value =
          .ok nodes ∧
        (listing (front.foldl childPath "") nodes).Perm
          ((entriesFilesFrom front entries).map (mirrored root))
  | [] => fun _ _ => ⟨[], rfl, .refl _⟩
  | (name, entry) :: rest => by
    intro hwhole hshort
    obtain ⟨hentry, hrest⟩ := List.forall_mem_cons.mp hwhole
    obtain ⟨hfirstShort, hrestShort⟩ := List.forall_mem_cons.mp hshort
    obtain ⟨first, hfirst, hfirstFiles⟩ :=
      exists_nodesOfEntry root front name h entry hentry hfirstShort
    obtain ⟨others, hothers, hothersFiles⟩ := exists_nodesOfEntries root front h rest hrest hrestShort
    refine ⟨first ++ others, ?_, ?_⟩
    · rw [nodesOfEntries, List.map_cons]
      exact inTurn_cons_eq_ok_iff.mpr ⟨first, others, hfirst, hothers, rfl⟩
    · rw [listing_append, entriesFilesFrom, List.map_append]
      exact hfirstFiles.append hothersFiles
end

theorem isFolder_of_at? {entry : Entry} {names : List String} {below : List (String × Entry)}
    (h : entry.at? names = some (.folder below)) : entry.isFolder = true := by
  cases names with
  | nil =>
    obtain rfl := Option.some.inj h
    rfl
  | cons name rest =>
    cases entry with
    | folder entries => rfl
    | file data => cases h
    | link target => cases h
    | pipe => cases h

theorem short_of_list {path : String} {entries : List (String × Entry)}
    (h : fs.list path = .ok entries) : path.utf8ByteSize < maxPath :=
  (find_eq_ok_iff.mp (find_of_list h)).2.2.1

mutual
/-- What can be described has no folder in it whose path is too long. -/
theorem short_of_nodesOfEntry (path name : String) :
    ∀ (entry : Entry) (nodes : List Node), (nodesOfEntry fs path name entry).value = .ok nodes →
      ∀ names below, entry.at? names = some (.folder below) →
        (names.foldl entryPath path).utf8ByteSize < maxPath
  | .folder entries => by
    intro nodes hnodes names below hat
    obtain ⟨⟨listed, hlisted⟩, children, hchildren, -⟩ := nodesOfEntry_folder_eq_ok_iff.mp hnodes
    cases names with
    | nil => exact short_of_list hlisted
    | cons next rest =>
      obtain ⟨plain, hplain, -⟩ := exists_inTurn_of_inOrder hchildren
      obtain ⟨entry, hentry, hrest⟩ := at?_folder_cons.mp hat
      exact short_of_nodesOfEntries path entries plain hplain _ (mem_of_lookup hentry) rest below
        hrest
  | .file _ => fun _ _ _ _ hat => absurd (isFolder_of_at? hat) Bool.false_ne_true
  | .link _ => fun _ _ _ _ hat => absurd (isFolder_of_at? hat) Bool.false_ne_true
  | .pipe => fun _ _ _ _ hat => absurd (isFolder_of_at? hat) Bool.false_ne_true

theorem short_of_nodesOfEntries (folder : String) :
    ∀ (entries : List (String × Entry)) (nodes : List Node),
      (inTurn ((nodesOfEntries fs folder entries).map (·.2))).value = .ok nodes →
      ∀ entry ∈ entries, ∀ names below, entry.2.at? names = some (.folder below) →
        (names.foldl entryPath (entryPath folder entry.1)).utf8ByteSize < maxPath
  | [] => fun _ _ _ hentry => absurd hentry List.not_mem_nil
  | (name, first) :: rest => by
    intro nodes hnodes
    rw [nodesOfEntries, List.map_cons] at hnodes
    obtain ⟨front, others, hfront, hothers, -⟩ := inTurn_cons_eq_ok_iff.mp hnodes
    exact List.forall_mem_cons.mpr ⟨short_of_nodesOfEntry _ name first front hfront,
      short_of_nodesOfEntries folder rest others hothers⟩
end

section Mirror

variable {path name : String} {entries : List (String × Entry)} {tree : Folder}

theorem FoundFolder.short_of_ofHost (h : FoundFolder fs path entries)
    (htree : Folder.ofHost fs path name = .ok tree) :
    ∀ names below, (Entry.folder entries).at? names = some (.folder below) →
      (names.foldl entryPath path).utf8ByteSize < maxPath := by
  obtain ⟨listed, hlisted, children, hchildren, -⟩ := Folder.ofHost_eq_ok_iff.mp htree
  obtain rfl : entries = listed := Except.ok.inj (h.list_eq.symm.trans hlisted)
  obtain ⟨plain, hplain, -⟩ := exists_inTurn_of_inOrder hchildren
  intro names below hat
  cases names with
  | nil => exact short_of_list hlisted
  | cons next rest =>
    obtain ⟨entry, hentry, hrest⟩ := at?_folder_cons.mp hat
    exact short_of_nodesOfEntries path entries plain hplain _ (mem_of_lookup hentry) rest below hrest

theorem FoundFolder.exists_ofHost (h : FoundFolder fs path entries)
    (hshort : ∀ names below, (Entry.folder entries).at? names = some (.folder below) →
      (names.foldl entryPath path).utf8ByteSize < maxPath) (name : String) :
    ∃ tree, Folder.ofHost fs path name = .ok tree ∧ (listing "" tree.children).Perm
      (((Entry.folder entries).filesFrom []).map (mirrored path)) := by
  have hbelow : ∀ entry ∈ entries, ∀ names below, entry.2.at? names = some (.folder below) →
      (([] ++ entry.1 :: names).foldl entryPath path).utf8ByteSize < maxPath :=
    fun entry hmem names below hat => hshort (entry.1 :: names) below
      (at?_folder_cons.mpr ⟨entry.2, (lookup_eq_some_iff_mem h.unambiguous.1).mpr hmem, hat⟩)
  obtain ⟨plain, hplain, hlisting⟩ := exists_nodesOfEntries path [] h entries (fun _ => id) hbelow
  obtain ⟨children, hchildren, hperm⟩ := exists_inOrder_of_inTurn hplain
  exact ⟨⟨name, children⟩,
    Folder.ofHost_eq_ok_iff.mpr ⟨entries, h.list_eq, children, hchildren, rfl⟩,
    (perm_listing "" hperm).trans hlisting⟩

/-- **The description of a folder lists the files below it.** -/
theorem FoundFolder.listing_ofHost (h : FoundFolder fs path entries)
    (htree : Folder.ofHost fs path name = .ok tree) :
    (listing "" tree.children).Perm (((Entry.folder entries).filesFrom []).map (mirrored path)) := by
  obtain ⟨other, hother, hlisting⟩ := h.exists_ofHost (h.short_of_ofHost htree) name
  obtain rfl : tree = other := Except.ok.inj (htree.symm.trans hother)
  exact hlisting

end Mirror

/-! ## Freezing -/

/-- Files that can be frozen are frozen one by one, each under its path. -/
theorem exists_mapM_freeze {items : List (String × File)}
    (h : ∀ item ∈ items, ∃ layout, item.2.freeze 0 = .ok layout) :
    ∃ frozen : Frozen, (items.mapM fun item => (item.2.freeze 0).map (item.1, ·)) = .ok frozen ∧
      frozen.map (·.1) = items.map (·.1) ∧
      ∀ item ∈ items, ∀ layout, item.2.freeze 0 = .ok layout → (item.1, layout) ∈ frozen := by
  induction items with
  | nil => exact ⟨[], rfl, rfl, fun _ hitem => absurd hitem List.not_mem_nil⟩
  | cons item rest ih =>
    obtain ⟨⟨layout, hlayout⟩, hrest⟩ := List.forall_mem_cons.mp h
    obtain ⟨frozen, hfrozen, hkeys, hall⟩ := ih hrest
    refine ⟨(item.1, layout) :: frozen, ?_, congrArg (item.1 :: ·) hkeys,
      List.forall_mem_cons.mpr ⟨?_, fun other hother found hfound => ?_⟩⟩
    · rw [List.mapM_cons, hlayout, hfrozen]
      rfl
    · intro found hfound
      obtain rfl : layout = found := Except.ok.inj (hlayout.symm.trans hfound)
      exact List.mem_cons_self ..
    · exact List.mem_cons_of_mem _ (hall other hother found hfound)

theorem forall_name_of_at? {P : String → Prop} {entry found : Entry} (h : entry.Named P)
    {names : List String} (hat : entry.at? names = some found) : ∀ name ∈ names, P name := by
  induction names generalizing entry with
  | nil => simp
  | cons name rest ih =>
    cases entry with
    | folder entries =>
      obtain ⟨next, hnext, hrest⟩ := at?_folder_cons.mp hat
      obtain ⟨hname, hnamed⟩ := entriesNamed_iff.mp h _ (mem_of_lookup hnext)
      exact List.forall_mem_cons.mpr ⟨hname, ih hnamed hrest⟩
    | file data => cases hat
    | link target => cases hat
    | pipe => cases hat

section Freezing

variable {path name : String} {entries : List (String × Entry)} {tree : Folder}

/-- The path of a file below a folder, with a separator between any two names, splits into the
names. -/
theorem FoundFolder.split_path (h : FoundFolder fs path entries) {names : List String}
    {data : Bytes} (hat : (Entry.folder entries).at? names = some (.file data)) :
    split '/' (names.foldl childPath "") = names ∧ names.foldl childPath "" = join '/' names := by
  have hne : names ≠ [] := by
    rintro rfl
    cases hat
  have hsplit : split '/' (names.foldl childPath "") = names :=
    split_foldl_childPath hne fun name hname =>
      have hhost := forall_name_of_at? h.named hat name hname
      ⟨hhost.nonempty, hhost.single⟩
  refine ⟨hsplit, ?_⟩
  rw [← join_split (names.foldl childPath ""), hsplit]

/-- The files below a folder have different paths. -/
theorem FoundFolder.nodup_paths (h : FoundFolder fs path entries) :
    (((Entry.folder entries).filesFrom []).map fun file => (mirrored path file).1).Nodup := by
  have htrails := nodup_trails [] (.folder entries) h.unambiguous
  have hpaths : ((Entry.folder entries).filesFrom []).map (fun file => (mirrored path file).1) =
      (((Entry.folder entries).filesFrom []).map (·.1)).map (·.foldl childPath "") := by
    rw [List.map_map]
    rfl
  rw [hpaths]
  refine htrails.map_on fun first hfirst second hsecond hsame => ?_
  obtain ⟨⟨_, data⟩, hfile, rfl⟩ := List.mem_map.mp hfirst
  obtain ⟨⟨_, other⟩, hother, rfl⟩ := List.mem_map.mp hsecond
  have hone := (h.split_path ((mem_filesFrom_iff h.unambiguous).mp hfile)).1
  have htwo := (h.split_path ((mem_filesFrom_iff h.unambiguous).mp hother)).1
  rw [← hone, hsame, htwo]

/-- A file below a folder is frozen to a layout with the bytes in reach. -/
theorem FoundFolder.exists_carries (h : FoundFolder fs path entries) (hfs : fs.Addressable)
    {names : List String} {data : Bytes}
    (hat : (Entry.folder entries).at? names = some (.file data)) :
    ∃ layout, (mirrored path (names, data)).2.freeze 0 = .ok layout ∧
      layout.Carries fs (bytesInReach path names data) := by
  refine exists_carries_hostFile hfs (fun hne => ?_) _
  rw [bytesInReach] at hne ⊢
  split at hne
  · next hshort =>
    rw [if_pos hshort, FileSystem.readFile, h.find_below hat rfl hshort]
  · exact absurd rfl hne

/-- The description of a folder is frozen file by file. -/
theorem FoundFolder.exists_frozen (h : FoundFolder fs path entries) (hfs : fs.Addressable)
    (htree : Folder.ofHost fs path name = .ok tree) :
    ∃ frozen, tree.freeze = .ok frozen ∧
      (frozen.map (·.1)).Perm
        (((Entry.folder entries).filesFrom []).map fun file => (mirrored path file).1) ∧
      ∀ names data, (Entry.folder entries).at? names = some (.file data) →
        ∃ layout, (names.foldl childPath "", layout) ∈ frozen ∧
          layout.Carries fs (bytesInReach path names data) := by
  have hlisting := h.listing_ofHost htree
  have hpaths : ((listing "" tree.children).map (·.1)).Perm
      (((Entry.folder entries).filesFrom []).map fun file => (mirrored path file).1) := by
    have hmapped := hlisting.map (·.1)
    rwa [List.map_map] at hmapped
  have hfreeze : ∀ item ∈ listing "" tree.children, ∃ layout, item.2.freeze 0 = .ok layout := by
    intro item hitem
    obtain ⟨⟨names, data⟩, hfile, rfl⟩ := List.mem_map.mp (hlisting.subset hitem)
    obtain ⟨layout, hlayout, -⟩ :=
      h.exists_carries hfs ((mem_filesFrom_iff h.unambiguous).mp hfile)
    exact ⟨layout, hlayout⟩
  obtain ⟨frozen, hfrozen, hkeys, hall⟩ := exists_mapM_freeze hfreeze
  refine ⟨frozen, (Folder.freeze_eq (hpaths.nodup_iff.mpr h.nodup_paths)).trans hfrozen,
    hkeys ▸ hpaths, fun names data hat => ?_⟩
  obtain ⟨layout, hlayout, hcarries⟩ := h.exists_carries hfs hat
  have hitem : mirrored path (names, data) ∈ listing "" tree.children :=
    hlisting.mem_iff.mpr (List.mem_map_of_mem ((mem_filesFrom_iff h.unambiguous).mpr hat))
  exact ⟨layout, hall _ hitem layout hlayout, hcarries⟩

end Freezing

/-- A folder that is listed is found. -/
theorem foundFolder_of_list (hnamed : fs.Named HostName) (hclear : fs.top.Unambiguous)
    {path : String} {entries : List (String × Entry)} (h : fs.list path = .ok entries) :
    FoundFolder fs path entries := by
  obtain ⟨trail, hat⟩ := at?_of_list h
  exact ⟨find_of_list h, hnamed.of_at? hat, hclear.of_at? hat⟩

/-- **The tree of a host folder mirrors the folder.** It can be described exactly if the paths of
the folders below it are not too long for the host. Then its description is frozen to one entry for
each regular file that names lead to without going through a link: the names make up the path of the
entry, with a separator between any two, and can be read off it, and the entry carries the bytes of
the file. Only a file whose own path is too long counts as empty. -/
theorem frozen_ofHost (hnamed : fs.Named HostName) (hclear : fs.top.Unambiguous)
    (hfs : fs.Addressable) {path : String} {entries : List (String × Entry)}
    (hlist : fs.list path = .ok entries) (name : String) :
    ((∃ tree, Folder.ofHost fs path name = .ok tree) ↔
      ∀ names below, (Entry.folder entries).at? names = some (.folder below) →
        (names.foldl entryPath path).utf8ByteSize < maxPath) ∧
    ∀ tree, Folder.ofHost fs path name = .ok tree →
      ∃ frozen, tree.freeze = .ok frozen ∧ (frozen.map (·.1)).Nodup ∧
        (∀ key ∈ frozen.map (·.1), ∃ names data,
          (Entry.folder entries).at? names = some (.file data) ∧ key = join '/' names) ∧
        ∀ names data, (Entry.folder entries).at? names = some (.file data) →
          split '/' (join '/' names) = names ∧
            ∃ layout, (join '/' names, layout) ∈ frozen ∧
              layout.Carries fs (bytesInReach path names data) := by
  have hfound := foundFolder_of_list hnamed hclear hlist
  refine ⟨⟨?_, fun hshort => ?_⟩, fun tree htree => ?_⟩
  · rintro ⟨tree, htree⟩
    exact hfound.short_of_ofHost htree
  · obtain ⟨tree, htree, -⟩ := hfound.exists_ofHost hshort name
    exact ⟨tree, htree⟩
  obtain ⟨frozen, hfrozen, hkeys, hcarries⟩ := hfound.exists_frozen hfs htree
  refine ⟨frozen, hfrozen, hkeys.nodup_iff.mpr hfound.nodup_paths, fun key hkey => ?_,
    fun names data hat => ?_⟩
  · obtain ⟨⟨names, data⟩, hfile, rfl⟩ := List.mem_map.mp (hkeys.subset hkey)
    have hat := (mem_filesFrom_iff hfound.unambiguous).mp hfile
    exact ⟨names, data, hat, (hfound.split_path hat).2⟩
  · obtain ⟨hsplit, hjoin⟩ := hfound.split_path hat
    rw [← hjoin]
    exact ⟨hsplit, hcarries names data hat⟩

/-- A folder with a file, a folder that has an empty file and a link, and another link. -/
theorem frozen_ofHost_links :
    let fs : FileSystem := ⟨[("disc", .folder [("B.bin", .file [1, 2]),
      ("a", .folder [("c", .file []), ("up", .link "..")]), ("l", .link "B.bin")])], []⟩
    fs.Named HostName ∧ fs.top.Unambiguous ∧ fs.Addressable ∧
      ∃ tree frozen, Folder.ofHost fs "disc" "" = .ok tree ∧ tree.freeze = .ok frozen ∧
        (∃ layout, ("B.bin", layout) ∈ frozen ∧ layout.Carries fs [1, 2]) ∧
        ∃ layout, ("a/c", layout) ∈ frozen ∧ layout.Carries fs [] := by
  intro fs
  have hnames : ∀ name ∈ ["disc", "B.bin", "a", "c", "up", "l"], HostName name := by decide
  have hnamed : fs.Named HostName := by
    refine ⟨hnames _ (by decide), ⟨hnames _ (by decide), trivial, hnames _ (by decide), ?_,
      hnames _ (by decide), trivial, trivial⟩, trivial⟩
    exact ⟨hnames _ (by decide), trivial, hnames _ (by decide), trivial, trivial⟩
  have hclear : fs.top.Unambiguous :=
    ⟨by decide, ⟨by decide, trivial, ⟨by decide, trivial, trivial, trivial⟩, trivial, trivial⟩,
      trivial⟩
  have hfs : fs.Addressable := by decide
  have hlist : fs.list "disc" = .ok _ := rfl
  obtain ⟨-, hmirror⟩ := frozen_ofHost hnamed hclear hfs hlist ""
  obtain ⟨frozen, hfrozen, -, -, hcarries⟩ := hmirror _ rfl
  exact ⟨hnamed, hclear, hfs, _, frozen, rfl, hfrozen, (hcarries ["B.bin"] [1, 2] rfl).2,
    (hcarries ["a", "c"] [] rfl).2⟩

/-! ## A path that is too long -/

/-- The description of a folder whose only file has too long a path. -/
theorem ofHost_of_long {path name : String} {data : Bytes}
    (hlist : fs.list path = .ok [(name, .file data)]) (hname : hasNul name = false)
    (hlong : maxPath ≤ (entryPath path name).utf8ByteSize) (top : String) :
    Folder.ofHost fs path top = .ok ⟨top, [.file (hostFile (entryPath path name) name 0)]⟩ := by
  have hnul : hasNul path = false := (find_eq_ok_iff.mp (find_of_list hlist)).1
  obtain ⟨fault, hfind⟩ : ∃ fault, fs.find true (entryPath path name) = .error (.refused fault) :=
    find_of_long (hasNul_entryPath hnul hname) hlong
  have hfile : (File.ofHost fs (entryPath path name) (some name)).value =
      .ok (hostFile (entryPath path name) name 0) :=
    value_ofHost_of_refused (by rw [FileSystem.size, hfind]; rfl) name
  have hnode : (nodesOfEntry fs (entryPath path name) name (.file data)).value =
      .ok [.file (hostFile (entryPath path name) name 0)] :=
    nodesOfEntry_file_eq_ok_iff.mpr ⟨_, hfile, rfl⟩
  have hchildren : (inOrder (nodesOfEntries fs path [(name, .file data)])).value =
      .ok [.file (hostFile (entryPath path name) name 0)] :=
    inTurn_cons_eq_ok_iff.mpr ⟨_, [], hnode, rfl, rfl⟩
  exact Folder.ofHost_eq_ok_iff.mpr ⟨_, hlist, _, hchildren, rfl⟩

/-- A path to the folder `d` that enters and leaves it first, time after time. -/
def detour : Nat → String
  | 0 => "d"
  | times + 1 => "d/../" ++ detour times

theorem size_detour (times : Nat) : (detour times).utf8ByteSize = 5 * times + 1 := by
  induction times with
  | zero => rfl
  | succ times ih =>
    have hloop : "d/../".utf8ByteSize = 5 := rfl
    rw [detour, String.utf8ByteSize_append, ih, hloop]
    omega

theorem getLast?_detour (times : Nat) : (detour times).toList.getLast? = some 'd' := by
  induction times with
  | zero => rfl
  | succ times ih =>
    have hne : (detour times).toList ≠ [] := fun hnil => by simp [hnil] at ih
    rw [detour, String.toList_append, List.getLast?_append_of_ne_nil _ hne, ih]

theorem pathParts_detour (times : Nat) :
    pathParts (detour (times + 1)) = "d" :: ".." :: pathParts (detour times) := by
  have hloop : detour (times + 1) = "d" ++ "/" ++ (".." ++ "/" ++ detour times) := by
    rw [detour, ← String.toList_inj]
    simp
  have hsplit : split '/' (detour (times + 1)) = "d" :: ".." :: split '/' (detour times) := by
    rw [hloop, Text.split_append, Text.split_append]
    rfl
  rw [pathParts, pathParts, if_neg (by simp [getLast?_detour]), if_neg (by simp [getLast?_detour]),
    hsplit]
  rfl

section Detour

variable {entries : List (String × Entry)}

theorem stride_detour (onLink : List String → String → List String → Except OsCode Place)
    (times : Nat) :
    FileSystem.stride ⟨[("d", .folder entries)], []⟩ true onLink [] (pathParts (detour times)) =
      .ok ⟨["d"], some (.folder entries)⟩ := by
  induction times with
  | zero => rfl
  | succ times ih =>
    rw [pathParts_detour]
    exact ih

theorem hasNul_detour (times : Nat) : hasNul (detour times) = false := by
  induction times with
  | zero => rfl
  | succ times ih => exact hasNul_append.mpr ⟨by decide, ih⟩

theorem find_detour {times : Nat} (hshort : 5 * times + 1 < maxPath) :
    FileSystem.find ⟨[("d", .folder entries)], []⟩ true (detour times) = .ok (.folder entries) := by
  have hne : detour times ≠ "" := fun hempty => by
    have hlast := getLast?_detour times
    rw [hempty] at hlast
    cases hlast
  obtain ⟨onLink, hstride⟩ : ∃ onLink, FileSystem.walkFrom ⟨[("d", .folder entries)], []⟩ true
      maxLinks = FileSystem.stride ⟨[("d", .folder entries)], []⟩ true onLink :=
    exists_walkFrom_eq maxLinks
  refine find_eq_ok_iff.mpr ⟨hasNul_detour times, hne, size_detour times ▸ hshort, ["d"], ?_⟩
  rw [ite_self, hstride]
  exact stride_detour onLink times

/-- A file in `d` counts as empty if the detour is just short enough to lead to `d`. -/
theorem freeze_detour {data : Bytes} {times : Nat} (hshort : 5 * times + 1 < maxPath)
    (hlong : maxPath ≤ 5 * times + 7) :
    let fs : FileSystem := ⟨[("d", .folder [("a.bin", .file data)])], []⟩
    fs.list (detour times) = .ok [("a.bin", .file data)] ∧
      ∃ tree, Folder.ofHost fs (detour times) "" = .ok tree ∧
        tree.freeze = .ok [("a.bin", Layout.empty)] := by
  intro fs
  have hlist : fs.list (detour times) = .ok [("a.bin", .file data)] := by
    rw [FileSystem.list, find_detour hshort]
  have hpath : entryPath (detour times) "a.bin" = detour times ++ "/" ++ "a.bin" :=
    if_neg (by simp [getLast?_detour])
  have hsize : (entryPath (detour times) "a.bin").utf8ByteSize = 5 * times + 7 := by
    rw [hpath, String.utf8ByteSize_append, String.utf8ByteSize_append, size_detour]
    rfl
  exact ⟨hlist, _, ofHost_of_long hlist (by decide) (hsize ▸ hlong) "", rfl⟩

end Detour

/-- A path of 4091 bytes leads to a folder, and the path of the file in it has 4097: the file counts
as empty, and its byte cannot be read. -/
theorem frozen_ofHost_detour :
    let fs : FileSystem := ⟨[("d", .folder [("a.bin", .file [0])])], []⟩
    fs.list (detour 818) = .ok [("a.bin", .file [0])] ∧
      ∃ tree layout, Folder.ofHost fs (detour 818) "" = .ok tree ∧
        tree.freeze = .ok [("a.bin", layout)] ∧ layout.size = 0 ∧
        ∃ fault, layout.read fs 0 1 = .error fault := by
  intro fs
  obtain ⟨hlist, tree, htree, hfreeze⟩ := freeze_detour (show 5 * 818 + 1 < maxPath by decide)
    (show maxPath ≤ 5 * 818 + 7 by decide)
  exact ⟨hlist, tree, Layout.empty, htree, hfreeze, rfl, _, rfl⟩

end DiscPatch
