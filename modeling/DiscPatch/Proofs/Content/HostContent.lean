import DiscPatch.Proofs.Content.Pointwise
import DiscPatch.Proofs.Content.WellFormed

/-!
# The content of host files

A host file becomes a file of the disc with at most one segment, which covers all of it.

* `Layout.Carries` — a layout has the given bytes and nothing after them;
* `Layout.stop_le_size_of_read` — no read goes past the end of a layout;
* `hostFile` — the file of the disc for a host file of some size. `value_ofHost_of_size` and
  `value_ofHost_of_refused` say that this is what a measured host file becomes, and one that cannot
  be measured is taken to be empty;
* `exists_carries_hostFile` — it is frozen to a layout that carries the bytes of the host file.
-/

namespace DiscPatch

open DiscPatch.Host (FileSystem)

variable {fs : FileSystem}

/-- The layout has these bytes, at the positions from 0 on, and nothing after them. -/
structure Layout.Carries (layout : Layout) (fs : FileSystem) (bytes : Bytes) : Prop where
  /-- it ends where the bytes end -/
  size : layout.size = bytes.length
  /-- a stretch of the bytes is read back -/
  within : ∀ offset count : Nat, offset + count ≤ bytes.length →
    layout.read fs offset count = .ok ((bytes.drop offset).take count)
  /-- a read of anything else fails -/
  beyond : ∀ offset count : Int, 0 < count → offset < 0 ∨ bytes.length < offset + count →
    ∃ fault, layout.read fs offset count = .error fault

/-! ## The end of a layout -/

theorem Layout.stop_le_size (layout : Layout) {segment : Segment}
    (h : segment ∈ layout.segments) : segment.stop ≤ layout.size := by
  rcases List.eq_nil_or_concat layout.segments with hnil | ⟨front, last, hconcat⟩
  · rw [hnil] at h
    cases h
  rw [List.concat_eq_append] at hconcat
  have hsize : layout.size = last.stop := by simp [Layout.size, hconcat]
  have hordered := layout.ordered
  rw [hconcat, List.pairwise_append] at hordered
  rw [hconcat, List.mem_append, List.mem_singleton] at h
  rw [hsize]
  rcases h with hfront | rfl
  · have hbefore := hordered.2.2 segment hfront last (List.mem_singleton_self last)
    exact Nat.le_trans hbefore (Nat.le_add_right ..)
  · exact Nat.le_refl _

/-- A read of something ends in front of the end of the layout, and does not begin in front of its
start. -/
theorem Layout.stop_le_size_of_read {layout : Layout} {offset count : Int} {bytes : Bytes}
    (h : layout.read fs offset count = .ok bytes) (hcount : 0 < count) :
    0 ≤ offset ∧ offset + count ≤ layout.size := by
  obtain ⟨hoffset, -, hrun⟩ := Layout.read_eq_ok_iff.mp h
  have hend := stop_le_of_readRun (by omega) hrun fun _ => layout.stop_le_size
  omega

/-! ## Host files as files of the disc -/

/-- The file of the disc for a host file of that size. -/
def hostFile (path name : String) (size : Nat) : File :=
  ⟨name, size, if size = 0 then [] else [⟨0, size, .file path 0⟩]⟩

theorem value_ofHost_of_segment {path : String} {size : Nat}
    (h : (hostSegment fs 0 path none).value = .ok ⟨0, size, .file path 0⟩) (name : String) :
    (File.ofHost fs path (some name)).value = .ok (hostFile path name size) := by
  rw [File.ofHost, Logged.value_bind, h]
  rfl

theorem value_ofHost_of_size {path : String} {size : Nat} (h : fs.size path = .ok size)
    (name : String) : (File.ofHost fs path (some name)).value = .ok (hostFile path name size) := by
  refine value_ofHost_of_segment ?_ name
  rw [hostSegment, h]
  exact Segment.checked_natCast 0 size (.file path 0)

theorem value_ofHost_of_refused {path : String} {fault : OsFault}
    (h : fs.size path = .error (.refused fault)) (name : String) :
    (File.ofHost fs path (some name)).value = .ok (hostFile path name 0) := by
  refine value_ofHost_of_segment ?_ name
  rw [hostSegment, h]
  exact Segment.checked_natCast 0 0 (.file path 0)

theorem exists_freeze_hostFile (path name : String) (size : Nat) :
    ∃ layout, (hostFile path name size).freeze 0 = .ok layout ∧
      layout.segments = if size = 0 then [] else [⟨0, size, .file path 0⟩] := by
  have hline : LinedUp (· ≤ ·) 0 (hostFile path name size).segments
      (hostFile path name size).size.toNat := by
    simp only [hostFile, Int.toNat_natCast]
    split
    · exact Nat.zero_le size
    · exact ⟨Nat.le_refl 0, by simp [LinedUp, Placed.stop]⟩
  obtain ⟨layout, hlayout, hsegments⟩ := File.freeze_of_linedUp (Int.natCast_nonneg size) hline
  refine ⟨layout, hlayout, hsegments.trans ?_⟩
  simp only [hostFile]
  split
  · rfl
  · simp; omega

/-- A stretch of a host file stands in the layout that covers it. -/
theorem bytesAt_hostFile {layout : Layout} {path : String} {data : Bytes}
    (hsegments : layout.segments = [⟨0, data.length, .file path 0⟩])
    (hdata : fs.readFile path = .ok data) (hnear : isFar data.length = false)
    (offset count : Nat) : layout.BytesAt fs offset ((data.drop offset).take count) := by
  intro i byte hbyte
  have hat : data[offset + i]? = some byte := by
    rw [List.getElem?_take, List.getElem?_drop] at hbyte
    split at hbyte
    · exact hbyte
    · cases hbyte
  have hbefore := (List.getElem?_eq_some_iff.mp hat).1
  refine ⟨⟨0, data.length, .file path 0⟩, ?_, ?_⟩
  · rw [Layout.segmentAt?, hsegments]
    simp [Placed.stop]
    omega
  · have hplace : 0 + ((offset : Int) + i - (0 : Nat)) = (offset + i : Nat) := by omega
    change readHostFile fs path (0 + (offset + i - (0 : Nat))) 1 = .ok [byte]
    rw [hplace]
    exact readHostFile_eq_ok_iff.mpr ⟨data, hdata, isFar_of_le (by omega) hnear, by omega, rfl, rfl,
      take_one_drop.mpr hat⟩

/-- **A host file is carried over whole**, and one that is taken to be empty is not read. -/
theorem exists_carries_hostFile (hfs : fs.Addressable) {path : String} {data : Bytes}
    (hdata : data ≠ [] → fs.readFile path = .ok data) (name : String) :
    ∃ layout, (hostFile path name data.length).freeze 0 = .ok layout ∧ layout.Carries fs data := by
  obtain ⟨layout, hlayout, hsegments⟩ := exists_freeze_hostFile path name data.length
  have hsize : layout.size = data.length := by
    rw [Layout.size, hsegments]
    split
    · next hzero => exact hzero.symm
    · simp [Placed.stop]
  refine ⟨layout, hlayout, hsize, fun offset count hwithin => ?_, fun offset count hcount hout => ?_⟩
  · by_cases hempty : data = []
    · subst hempty
      obtain rfl : count = 0 := by simp at hwithin; omega
      exact Layout.read_eq_ok_iff.mpr ⟨by omega, by omega, readRun_zero ..⟩
    · have hnear := hfs.of_readFile (hdata hempty)
      rw [if_neg (by simpa using hempty)] at hsegments
      have hcount := (isFar_eq_false_iff (Int.natCast_nonneg _)).mp
        (isFar_of_le (show count ≤ data.length by omega) hnear)
      refine (Layout.read_iff_bytesAt hfs).mpr ⟨by omega, hcount, ?_,
        bytesAt_hostFile hsegments (hdata hempty) hnear offset count⟩
      rw [List.length_take, List.length_drop]
      omega
  · rcases hread : layout.read fs offset count with fault | bytes
    · exact ⟨fault, rfl⟩
    · have hends := Layout.stop_le_size_of_read hread hcount
      omega

end DiscPatch
