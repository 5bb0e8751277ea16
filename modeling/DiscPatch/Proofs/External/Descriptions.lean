import DiscPatch.Proofs.Content.Pointwise
import DiscPatch.Proofs.External.Degrading

/-!
# The answers about an external file describe one file

An overwrite asks how long an external file is, and then for a source, which is read only when the
disc is; other directives ask for the bytes at once. Every request looks for the file anew, and all
of them have to mean the same bytes.

* `External.Describes` — the size, the bytes and the sources that are handed out fit together;
* `describes_shelf` — for files kept in memory they always do;
* `describes_host` — for files on the host they do as long as no accepted path holds a NUL, and
  `values_of_nul` says what becomes of such a path: it has no size, and its bytes are refused;
* `externals_describe` — a path that is free of NULs itself is described unless its root has one.
-/

namespace DiscPatch

open DiscPatch.Host
open DiscPatch.Text (split)

/-- The answers about a path describe the bytes of one file, or a file that is missing. Sources are
read in the file system `fs`. -/
structure External.Describes (external : External) (fs : FileSystem) (path : String) : Prop where
  /-- a file that has a size has as many bytes, and a source for a stretch of it gives that stretch,
  wherever it is placed, if a read can give that many bytes -/
  sized : ∀ size, (external.size? path).value = some size →
    ∃ data, (external.contents path).value = .ok data ∧ data.length = size ∧
      ∀ offset count target : Nat, offset + count ≤ size → count < 0x8000000000000000 →
        external.stretch fs path offset count target = .ok ((data.drop offset).take count)
  /-- a file that has no size has no bytes -/
  missing : (external.size? path).value = none → (external.contents path).value = .ok []

section Answers

variable {external : External} {fs : FileSystem} {path : String}

theorem External.describes_of_file {data : Bytes}
    (hsize : (external.size? path).value = some data.length)
    (hcontents : (external.contents path).value = .ok data)
    (hstretch : ∀ offset count target : Nat, offset + count ≤ data.length →
      count < 0x8000000000000000 →
      external.stretch fs path offset count target = .ok ((data.drop offset).take count)) :
    external.Describes fs path where
  sized size h := by
    obtain rfl : data.length = size := Option.some.inj (hsize.symm.trans h)
    exact ⟨data, hcontents, rfl, hstretch⟩
  missing h := by
    rw [hsize] at h
    cases h

theorem External.describes_of_missing (hsize : (external.size? path).value = none)
    (hcontents : (external.contents path).value = .ok []) : external.Describes fs path where
  sized size h := by
    rw [hsize] at h
    cases h
  missing _ := hcontents

end Answers

/-! ## Files kept in memory -/

/-- **Files kept in memory** are described, whatever the path. -/
theorem describes_shelf (tree : FileTree) (given : Roots) (fs : FileSystem) (path : String) :
    (External.shelf tree given).Describes fs path := by
  have hsize : ((External.shelf tree given).size? path).value =
      (Shelf.file? tree given.trimmed path).value.map List.length := rfl
  have hcontents : ((External.shelf tree given).contents path).value =
      .ok ((Shelf.file? tree given.trimmed path).value.getD []) := rfl
  rcases hfile : (Shelf.file? tree given.trimmed path).value with _ | data
  · rw [hfile] at hsize hcontents
    exact External.describes_of_missing hsize hcontents
  · rw [hfile] at hsize hcontents
    exact External.describes_of_file hsize hcontents fun offset count target hwithin hcount =>
      stretch_shelf fs hfile ((isFar_eq_false_iff (Int.natCast_nonneg _)).mpr (by omega)) hwithin
        target

/-! ## Files on the host -/

section Hosts

variable {fs : FileSystem} {given : Roots} {path : String}

/-- A path that leads to a file is read. -/
theorem readFile_of_stat? {place : String} {data : Bytes}
    (h : (fs.stat? place).bind Entry.bytes? = some data) : fs.readFile place = .ok data := by
  rw [FileSystem.stat?] at h
  rw [FileSystem.readFile]
  generalize fs.find true place = found at h ⊢
  rcases found with fault | (_ | _ | _ | _)
  · cases h
  · exact congrArg Except.ok (Option.some.inj h)
  · cases h
  · cases h
  · cases h

/-- **Files on the host** are described unless the path they lie at holds a NUL. -/
theorem describes_host (hfs : fs.Addressable)
    (hclean : ∀ place, (Mount.resolve fs given.trimmed path).value = some place →
      hasNul place = false) : (External.host fs given).Describes fs path := by
  rcases hlocated : (Mount.resolve fs given.trimmed path).value with _ | place
  · obtain ⟨hsize, hcontents, -⟩ := values_of_unresolved hlocated
    exact External.describes_of_missing hsize hcontents
  · have hsize := size?_of_resolved hlocated
    obtain ⟨hcontents, -⟩ := values_of_resolved hlocated (hclean place hlocated)
    rcases hfile : (fs.stat? place).bind Entry.bytes? with _ | data
    · rw [hfile] at hsize hcontents
      exact External.describes_of_missing hsize hcontents
    · rw [hfile] at hsize hcontents
      have hread := readFile_of_stat? hfile
      exact External.describes_of_file hsize hcontents fun offset count target hwithin _ =>
        stretch_host hlocated hread (hfs.of_readFile hread) hwithin target

/-- A path that is accepted with a NUL in it has no size, and its bytes are refused. -/
theorem values_of_nul {place : String}
    (hlocated : (Mount.resolve fs given.trimmed path).value = some place)
    (hnul : hasNul place = true) :
    ((External.host fs given).size? path).value = none ∧
      ((External.host fs given).contents path).value = .error (.host .nulInPath) := by
  refine ⟨?_, (values_of_resolved_nul hlocated hnul).1⟩
  have hsize := size?_of_resolved hlocated
  rw [FileSystem.stat?, find_of_nul fs true hnul] at hsize
  exact hsize

/-- A path without NULs lies at one without NULs exactly if its root has none. -/
theorem hasNul_resolved {place : String} (hpath : hasNul path = false)
    (hlocated : (Mount.resolve fs given.trimmed path).value = some place) :
    hasNul place = hasNul (given.start path) := by
  obtain ⟨-, -, rfl⟩ := (resolve_eq_some_iff fs given path place).mp hlocated
  rw [Bool.eq_iff_iff, ← Bool.not_eq_false, ← Bool.not_eq_false, not_iff_not, hasNul_pathBelow]
  refine and_iff_left fun name hname => ?_
  exact hasNul_of_mem_split hpath (mem_of_mem_remaining hname)

end Hosts

/-- **Size, bytes and sources describe one file.** Files kept in memory are described whatever the
path. On the host a path without NULs is described exactly if it is not accepted or its root has no
NUL either. With a NUL in the root an accepted path has no size, and yet it is not taken for a
missing file: its bytes are refused. -/
theorem externals_describe (tree : FileTree) (given : Roots) (fs : FileSystem) (path : String) :
    (External.shelf tree given).Describes fs path ∧
    (fs.Addressable → hasNul path = false →
      let host := External.host fs given
      let accepted := (host.savegame? path).value.isSome
      (host.Describes fs path ↔ accepted = false ∨ hasNul (given.start path) = false) ∧
      (accepted = true → hasNul (given.start path) = true →
        (host.size? path).value = none ∧
          (host.contents path).value = .error (.host .nulInPath))) := by
  refine ⟨describes_shelf tree given fs path, fun hfs hpath => ?_⟩
  intro host accepted
  have haccepted : accepted = (Mount.resolve fs given.trimmed path).value.isSome := rfl
  have hrefused (hsome : accepted = true) (hroot : hasNul (given.start path) = true) :
      (host.size? path).value = none ∧
        (host.contents path).value = .error (.host .nulInPath) := by
    rw [haccepted] at hsome
    obtain ⟨place, hlocated⟩ := Option.isSome_iff_exists.mp hsome
    exact values_of_nul hlocated ((hasNul_resolved hpath hlocated).trans hroot)
  refine ⟨⟨fun h => ?_, fun h => ?_⟩, hrefused⟩
  · -- bytes that are refused are not those of a missing file
    cases hsome : accepted with
    | false => exact .inl rfl
    | true =>
      refine .inr (Bool.eq_false_iff.mpr fun hroot => ?_)
      obtain ⟨hsize, hcontents⟩ := hrefused hsome hroot
      have hempty := h.missing hsize
      rw [hcontents] at hempty
      cases hempty
  · refine describes_host hfs fun place hlocated => ?_
    have hsome : accepted = true := by rw [haccepted, hlocated]; rfl
    rw [hasNul_resolved hpath hlocated]
    exact h.resolve_left (by simp [hsome])

/-- A file beside a link to it, and the same request under a root with a NUL. -/
theorem externals_describe_card :
    let fs : FileSystem := ⟨[("sd", .folder [("a", .link "b"), ("b", .file [5, 6, 7])])], []⟩
    let given : Roots := ⟨"/sd", "/sd\x00"⟩
    let host := External.host fs given
    fs.Addressable ∧ host.Describes fs "/./b" ∧ (host.size? "/./b").value = some 3 ∧
      (host.stretch fs "/./b" 1 2 0x10 = .ok [6, 7]) ∧ host.Describes fs "/a" ∧
      (host.contents "/a").value = .ok [] ∧ ¬ host.Describes fs "b" := by
  intro fs given host
  have hfs : fs.Addressable := by decide +kernel
  have hhost (path : String) (hpath : hasNul path = false) :=
    ((externals_describe (.folder []) given fs path).2 hfs hpath).1
  have hfile : host.Describes fs "/./b" := (hhost "/./b" (by decide)).mpr (.inr (by decide))
  have hlink : host.Describes fs "/a" := (hhost "/a" (by decide)).mpr (.inr (by decide))
  have hnul : ¬ host.Describes fs "b" := by
    rw [hhost "b" (by decide)]
    decide +kernel
  have hsize : (host.size? "/./b").value = some 3 := by decide +kernel
  have hcontents : (host.contents "/./b").value = .ok [5, 6, 7] := by decide +kernel
  obtain ⟨data, hdata, -, hstretch⟩ := hfile.sized 3 hsize
  obtain rfl := Except.ok.inj (hcontents.symm.trans hdata)
  exact ⟨hfs, hfile, hsize, hstretch 1 2 0x10 (by decide) (by decide), hlink,
    hlink.missing (by decide +kernel), hnul⟩

end DiscPatch
