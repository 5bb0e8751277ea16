import DiscPatch.Proofs.Content.Fetches
import DiscPatch.Proofs.Host.Extension

/-!
# Which host files a read depends on

All that a read finds out from the host it finds out through the files that the layout names, at any
depth.

* `Source.hostPaths`, `Layout.hostPaths` — the host files that are named;
* `Layout.read_congr` — reads are the same where these files are;
* `Layout.read_put` — so they do not notice a write to another file.
-/

namespace DiscPatch

open DiscPatch.Host (FileSystem)

/-! ## Host files of a layout -/

mutual
/-- The host files that a source is read from. -/
def Source.hostPaths : Source → List String
  | .file path _ => [path]
  | .nested layout _ _ => hostPathsOf layout
  | .buffer _ _ | .fill _ => []

/-- The host files that segments are read from. -/
def hostPathsOf : List (Placed Source) → List String
  | [] => []
  | ⟨_, _, source⟩ :: rest => source.hostPaths ++ hostPathsOf rest
end

/-- The host files that a layout is read from. -/
def Layout.hostPaths (layout : Layout) : List String :=
  hostPathsOf layout.segments

mutual
/-- A source fetches from its own host files only. -/
theorem Source.mem_hostPaths_of_fetches {path : String} {position : Int} {n : Nat} :
    ∀ (source : Source) (delta : Int) (count : Nat),
    .file path position n ∈ source.fetches delta count → path ∈ source.hostPaths
  | .file name offset => by
    intro delta count h
    rw [Source.fetches, List.mem_singleton] at h
    rw [Source.hostPaths, List.mem_singleton]
    exact (Fetch.file.inj h).1
  | .buffer data start => by
    intro delta count h
    rw [Source.fetches, List.mem_singleton] at h
    cases h
  | .nested layout offset tag => by
    intro delta count h
    rw [Source.fetches] at h
    split at h
    · rw [List.mem_singleton] at h
      cases h
    · exact mem_hostPathsOf_of_runFetches layout _ _ _ _ h
  | .fill byte => by
    intro delta count h
    rw [Source.fetches, List.mem_singleton] at h
    cases h

/-- A run fetches from the host files of its segments only. -/
theorem mem_hostPathsOf_of_runFetches {path : String} {place : Int} {n : Nat} :
    ∀ (segments : List Segment) (length offset : Int) (position count : Nat),
    .file path place n ∈ runFetches length offset segments position count →
      path ∈ hostPathsOf segments
  | [] => by
    intro length offset position count h
    rw [runFetches] at h
    split at h
    · cases h
    · rw [List.mem_singleton] at h
      cases h
  | ⟨start, size, source⟩ :: others => by
    intro length offset position count h
    rw [hostPathsOf, List.mem_append]
    rw [runFetches] at h
    split at h
    · cases h
    split at h
    · exact .inr (mem_hostPathsOf_of_runFetches others _ _ _ _ h)
    split at h
    · rw [List.mem_singleton] at h
      cases h
    · rcases List.mem_append.mp h with hsource | hothers
      · exact .inl (Source.mem_hostPaths_of_fetches source _ _ hsource)
      · have hrest := (List.mem_cons.mp hothers).resolve_left nofun
        exact .inr (mem_hostPathsOf_of_runFetches others _ _ _ _ hrest)
end

theorem Layout.mem_hostPaths_of_fetches {layout : Layout} {offset length : Int} {path : String}
    {position : Int} {count : Nat}
    (h : .file path position count ∈ layout.fetches offset length) : path ∈ layout.hostPaths := by
  rw [Layout.fetches] at h
  split at h
  · rw [List.mem_singleton] at h
    cases h
  · exact mem_hostPathsOf_of_runFetches layout.segments _ _ _ _ h

section Reads

variable {fs fs₁ fs₂ : FileSystem} {layout : Layout}

/-! ## The same host files -/

theorem Fetch.answer_congr {fetch : Fetch}
    (h : ∀ path position count, fetch = .file path position count →
      fs₁.readFile path = fs₂.readFile path) : fetch.answer fs₁ = fetch.answer fs₂ := by
  cases fetch with
  | file path position count =>
    rw [answer, answer, readHostFile, readHostFile, h path position count rfl]
  | buffer | fill | gap | outside | join => rfl

theorem carryOut_congr {fetches : List Fetch}
    (h : ∀ fetch ∈ fetches, fetch.answer fs₁ = fetch.answer fs₂) :
    carryOut fs₁ fetches = carryOut fs₂ fetches := by
  induction fetches with
  | nil => rfl
  | cons fetch rest ih =>
    obtain ⟨hfetch, hrest⟩ := List.forall_mem_cons.mp h
    rw [carryOut_cons, carryOut_cons, hfetch, ih hrest]

/-- **Reads are the same where the host files of the layout are.** -/
theorem Layout.read_congr
    (h : ∀ path ∈ layout.hostPaths, fs₁.readFile path = fs₂.readFile path) :
    layout.read fs₁ = layout.read fs₂ := by
  funext offset length
  rw [Layout.read_eq_carryOut, Layout.read_eq_carryOut]
  refine carryOut_congr fun fetch hfetch => Fetch.answer_congr ?_
  rintro path position count rfl
  exact h path (Layout.mem_hostPaths_of_fetches hfetch)

/-- A layout without that file is read as before after a write to the file. -/
theorem Layout.read_put {trail : List String} {old : Bytes}
    (h : fs.at? trail = some (.file old)) (hpaths : ∀ path ∈ layout.hostPaths,
      fs.end? path ≠ some trail) (new : Bytes) :
    layout.read (fs.put trail (.file new)) = layout.read fs :=
  Layout.read_congr fun path hpath => FileSystem.readFile_put_of_ne h new (hpaths path hpath)

end Reads

end DiscPatch
