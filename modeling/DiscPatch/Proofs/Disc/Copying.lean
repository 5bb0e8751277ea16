import DiscPatch.Disc.Export
import DiscPatch.Proofs.Content.Dependence
import DiscPatch.Proofs.Edit
import Mathlib.Order.Bounds.Basic

/-!
# Copying in chunks

A layout is copied to a host file chunk by chunk. The chunks are cut wherever they end, in the
middle of segments and of the layouts in them, and the writer passes them on when it likes.

* `Chunked` — what is written and answered, chunk by chunk, if all chunks are read in one state;
* `exists_chunked` — every run is like that, however much the writer holds back, if the layout is not
  read from the file that is written;
* `Copied` — what is written and answered, compared with one read of the whole;
* `Chunked.copied_whole` — chunk by chunk comes to the same as the whole;
* `copyChunks_whole` — so this holds of every run.

A layout that is read from the file that is written may find there what has just been copied:
`copyChunks_own`.
-/

namespace DiscPatch

open DiscPatch.Host (FileSystem)
open Edit

/-! ## Stretches of a layout -/

section Stretches

variable {fs : FileSystem} {layout : Layout}

theorem Layout.length_of_read {offset : Int} {count : Nat} {bytes : Bytes}
    (h : layout.read fs offset count = .ok bytes) : bytes.length = count := by
  obtain ⟨-, -, hrun⟩ := Layout.read_eq_ok_iff.mp h
  exact length_of_readRun fs _ _ _ _ _ _ hrun

/-- If something can be read, every stretch of it can. -/
theorem Layout.exists_read_within (hfs : fs.Addressable) {count position part : Nat} {bytes : Bytes}
    (h : layout.read fs 0 count = .ok bytes) (hwithin : position + part ≤ count) :
    ∃ stretch, layout.read fs position part = .ok stretch := by
  have hlength := Layout.length_of_read h
  obtain ⟨-, hnear, -, hbytes⟩ := (Layout.read_iff_bytesAt hfs).mp h
  have hfront : (bytes.take position).length = position := by
    rw [List.length_take]
    omega
  have hpart : ((bytes.drop position).take part).length = part := by
    rw [List.length_take, List.length_drop]
    omega
  rw [← List.take_append_drop position bytes, Layout.bytesAt_append, hfront,
    ← List.take_append_drop part (bytes.drop position), Layout.bytesAt_append] at hbytes
  obtain ⟨-, hstretch, -⟩ := hbytes
  rw [Int.zero_add] at hstretch
  exact ⟨_, (Layout.read_iff_bytesAt hfs).mpr
    ⟨Int.natCast_nonneg _, by omega, Int.natCast_inj.mpr hpart, hstretch⟩⟩

end Stretches

/-! ## Chunk by chunk -/

/-- What is written from `position` on, and what is answered, if every chunk is read in the state
`view`. -/
inductive Chunked (layout : Layout) (view : FileSystem) (chunk size : Nat) :
    (position : Nat) → (written : Bytes) → (answer : Except Error Unit) → Prop where
  /-- nothing is left to copy -/
  | done {position : Nat} (h : size ≤ position) :
    Chunked layout view chunk size position [] (.ok ())
  /-- the next chunk cannot be read -/
  | failed {position : Nat} {fault : ReadFault} (h : position < size)
    (hread : layout.read view position ↑(min chunk (size - position)) = .error fault) :
    Chunked layout view chunk size position [] (.error (.read fault))
  /-- the next chunk is copied, and then those after it -/
  | copied {position : Nat} {bytes more : Bytes} {answer : Except Error Unit} (h : position < size)
    (hread : layout.read view position ↑(min chunk (size - position)) = .ok bytes)
    (hrest : Chunked layout view chunk size (position + min chunk (size - position)) more answer) :
    Chunked layout view chunk size position (bytes ++ more) answer

section Runs

variable {layout : Layout} {chunk size position : Nat} {keep : Nat → Nat → Nat}
  {trail : List String} {fs : FileSystem}

/-- One round of copying. -/
theorem outcome_copyChunks_succ (h : position < size) (fuel : Nat) (held : Bytes) :
    (copyChunks layout chunk keep trail size (fuel + 1) position held).outcome fs =
      match layout.read fs position ↑(min chunk (size - position)) with
      | .error fault => (.error (.read fault), fs.extend trail held)
      | .ok bytes =>
        let passed := (held ++ bytes).length - keep held.length bytes.length
        (copyChunks layout chunk keep trail size fuel (position + min chunk (size - position))
            ((held ++ bytes).drop passed)).outcome
          (fs.extend trail ((held ++ bytes).take passed)) := by
  rw [copyChunks, outcome_bind_ok (outcome_get fs), if_neg (Nat.not_le.mpr h)]
  dsimp only
  rcases layout.read fs position ↑(min chunk (size - position)) with fault | bytes
  · exact outcome_bind_ok (outcome_set _ fs)
  · exact outcome_bind_ok (outcome_set _ fs)

theorem outcome_copyChunks_of_le (h : size ≤ position) (fuel : Nat) (held : Bytes) :
    (copyChunks layout chunk keep trail size fuel position held).outcome fs =
      (.ok (), fs.extend trail held) := by
  cases fuel with
  | zero =>
    rw [copyChunks, outcome_bind_ok (outcome_get fs)]
    rfl
  | succ fuel =>
    rw [copyChunks, outcome_bind_ok (outcome_get fs), if_pos h]
    rfl

/-- **Runs go chunk by chunk.** What they write comes to the end of the file, behind what was passed
on and what was held back before. The chunks might as well have been read in the state before any of
it was passed on, if the file that is written makes no difference to the reads. -/
theorem exists_chunked (hchunk : 0 < chunk)
    (hsame : ∀ bytes, layout.read (fs.extend trail bytes) = layout.read fs) {fuel : Nat}
    (hfuel : size - position ≤ fuel) (passed held : Bytes) :
    let run := (copyChunks layout chunk keep trail size fuel position held).outcome
      (fs.extend trail passed)
    ∃ written, run.2 = fs.extend trail (passed ++ (held ++ written)) ∧
      Chunked layout fs chunk size position written run.1 := by
  -- each round brings the position nearer to the size
  induction fuel generalizing position passed held with
  | zero =>
    rw [outcome_copyChunks_of_le (by omega), FileSystem.extend_extend]
    exact ⟨[], by rw [List.append_nil], .done (by omega)⟩
  | succ fuel ih =>
    rcases Nat.lt_or_ge position size with hbefore | hpast
    · rw [outcome_copyChunks_succ hbefore, hsame]
      rcases hread : layout.read fs position ↑(min chunk (size - position)) with fault | bytes
      · dsimp only
        rw [FileSystem.extend_extend]
        exact ⟨[], by rw [List.append_nil], .failed hbefore hread⟩
      · dsimp only
        generalize (held ++ bytes).length - keep held.length bytes.length = count
        obtain ⟨more, hleft, hrest⟩ := @ih (position + min chunk (size - position)) (by omega)
          (passed ++ (held ++ bytes).take count) ((held ++ bytes).drop count)
        rw [FileSystem.extend_extend]
        refine ⟨bytes ++ more, hleft.trans ?_, .copied hbefore hread hrest⟩
        rw [List.append_assoc, ← List.append_assoc (List.take ..), List.take_append_drop,
          List.append_assoc]
    · rw [outcome_copyChunks_of_le hpast, FileSystem.extend_extend]
      exact ⟨[], by rw [List.append_nil], .done hpast⟩

end Runs

/-! ## All at once -/

/-- What is written and answered is what one read of the whole says. -/
structure Copied (read : Int → Int → Except ReadFault Bytes) (chunk : Nat) (size : Int)
    (answer : Except Error Unit) (written : Bytes) : Prop where
  /-- copying is completed exactly if all of it can be read at once, or there is nothing to copy -/
  completed_iff : answer = .ok () ↔ size ≤ 0 ∨ ∃ bytes, read 0 size = .ok bytes
  /-- then what is read at once is what is written -/
  whole : ∀ bytes, read 0 size = .ok bytes → written = bytes
  /-- nothing is written if there is nothing to copy -/
  nothing : size ≤ 0 → written = []
  /-- copying that fails has written as many whole chunks as can be read at once, short of the
  size -/
  stopped : answer ≠ .ok () → ∃ count : Nat,
    IsGreatest {n : Nat | chunk ∣ n ∧ (n : Int) < size ∧ ∃ bytes, read 0 n = .ok bytes} count ∧
      read 0 count = .ok written

namespace Chunked

variable {layout : Layout} {view : FileSystem} {chunk size position : Nat} {written : Bytes}
  {answer : Except Error Unit}

theorem length_of_ok (h : Chunked layout view chunk size position written answer)
    (hok : answer = .ok ()) (hposition : position ≤ size) : position + written.length = size := by
  induction h with
  | done hpast => exact Nat.le_antisymm hposition hpast
  | failed => cases hok
  | copied hbefore hread hrest ih =>
    have hlength := Layout.length_of_read hread
    have hend := ih hok (by omega)
    rw [List.length_append]
    omega

/-- Copying that fails has written whole chunks, and the next one cannot be read. -/
theorem next_of_failed (h : Chunked layout view chunk size position written answer)
    (hfailed : answer ≠ .ok ()) :
    chunk ∣ written.length ∧ position + written.length < size ∧ ∃ fault,
      layout.read view ↑(position + written.length)
        ↑(min chunk (size - (position + written.length))) = .error fault := by
  induction h with
  | done => exact absurd rfl hfailed
  | failed hbefore hread => exact ⟨Nat.dvd_zero chunk, hbefore, _, hread⟩
  | @copied position bytes more answer hbefore hread hrest ih =>
    obtain ⟨hchunks, hend, hnext⟩ := ih hfailed
    have hlength := Layout.length_of_read hread
    -- it was not the last chunk, so it was a whole one
    have hwhole : min chunk (size - position) = chunk := by omega
    rw [hwhole] at hlength hend hnext
    rw [List.length_append, hlength, ← Nat.add_assoc]
    exact ⟨(Nat.dvd_add_right (Nat.dvd_refl chunk)).mpr hchunks, hend, hnext⟩

theorem length_le (h : Chunked layout view chunk size 0 written answer) :
    written.length ≤ size := by
  by_cases hok : answer = .ok ()
  · have hend := h.length_of_ok hok (Nat.zero_le size)
    omega
  · obtain ⟨-, hend, -⟩ := h.next_of_failed hok
    omega

section Near

variable (hview : view.Addressable)
include hview

theorem bytesAt (h : Chunked layout view chunk size position written answer) :
    layout.BytesAt view position written := by
  induction h with
  | done | failed =>
    intro i byte hbyte
    cases hbyte
  | @copied position bytes more answer hbefore hread hrest ih =>
    have hlength := Layout.length_of_read hread
    obtain ⟨-, -, -, hbytes⟩ := (Layout.read_iff_bytesAt hview).mp hread
    refine Layout.bytesAt_append.mpr ⟨hbytes, ?_⟩
    rw [hlength, ← Int.natCast_add]
    exact ih

/-- Whatever is written can be read at once. -/
theorem read_written (h : Chunked layout view chunk size 0 written answer)
    (hnear : written.length < 0x8000000000000000) :
    layout.read view 0 written.length = .ok written :=
  (Layout.read_iff_bytesAt hview).mpr ⟨Int.le_refl 0, by omega, rfl, h.bytesAt hview⟩

/-- If copying fails, no read goes as far as the end of the next chunk. -/
theorem lt_of_read (h : Chunked layout view chunk size 0 written answer)
    (hfailed : answer ≠ .ok ()) {count : Nat} {bytes : Bytes}
    (hread : layout.read view 0 count = .ok bytes) :
    count < written.length + min chunk (size - written.length) := by
  obtain ⟨-, -, fault, hnext⟩ := h.next_of_failed hfailed
  rw [Nat.zero_add] at hnext
  refine Nat.lt_of_not_le fun hwithin => ?_
  obtain ⟨stretch, hstretch⟩ := Layout.exists_read_within hview hread hwithin
  rw [hnext] at hstretch
  cases hstretch

theorem read_of_ok (h : Chunked layout view chunk size 0 written answer)
    (hnear : written.length < 0x8000000000000000) (hok : answer = .ok ()) :
    layout.read view 0 size = .ok written := by
  have hend := h.length_of_ok hok (Nat.zero_le size)
  rw [Nat.zero_add] at hend
  rw [← hend]
  exact h.read_written hview hnear

theorem ok_of_read (h : Chunked layout view chunk size 0 written answer) {bytes : Bytes}
    (hread : layout.read view 0 size = .ok bytes) : answer = .ok () := by
  by_contra hfailed
  have hnext := h.lt_of_read hview hfailed hread
  have hlength := h.length_le
  omega

end Near

/-- **Chunk by chunk comes to the same as the whole.** -/
theorem copied_whole {size : Int} (hview : view.Addressable)
    (h : Chunked layout view chunk size.toNat 0 written answer)
    (hnear : written.length < 0x8000000000000000) :
    Copied (layout.read view) chunk size answer written := by
  have hnatural : ∀ bytes, layout.read view 0 size = .ok bytes → (size.toNat : Int) = size :=
    fun _ hread => Int.toNat_of_nonneg (Layout.read_eq_ok_iff.mp hread).2.1
  constructor
  case completed_iff =>
    constructor
    · intro hok
      rcases Int.lt_or_le 0 size with hpositive | hnone
      · have hread := h.read_of_ok hview hnear hok
        rw [Int.toNat_of_nonneg (Int.le_of_lt hpositive)] at hread
        exact .inr ⟨written, hread⟩
      · exact .inl hnone
    · rintro (hnone | ⟨bytes, hread⟩)
      · by_contra hfailed
        obtain ⟨-, hend, -⟩ := h.next_of_failed hfailed
        omega
      · rw [← hnatural bytes hread] at hread
        exact h.ok_of_read hview hread
  case whole =>
    intro bytes hread
    rw [← hnatural bytes hread] at hread
    have hall := h.read_of_ok hview hnear (h.ok_of_read hview hread)
    exact Except.ok.inj (hall.symm.trans hread)
  case nothing =>
    intro hnone
    have hlength := h.length_le
    exact List.eq_nil_of_length_eq_zero (by omega)
  case stopped =>
    intro hfailed
    obtain ⟨hchunks, hend, -⟩ := h.next_of_failed hfailed
    have hwritten := h.read_written hview hnear
    refine ⟨written.length, ⟨⟨hchunks, by omega, written, hwritten⟩, ?_⟩, hwritten⟩
    -- a longer read of whole chunks would have the next chunk in it
    rintro count ⟨hcount, hlt, bytes, hread⟩
    have hnext := h.lt_of_read hview hfailed hread
    exact Nat.le_of_lt_add_of_dvd (Nat.lt_of_lt_of_le hnext (by omega)) hcount hchunks

end Chunked

/-! ## Copying to a file -/

/-- **Copying in chunks is copying the whole.** The bytes of a layout are copied to an empty file, and
nothing else is changed. If the layout is not read from that file, they are what one read gives,
however much the writer holds back on the way. -/
theorem copyChunks_whole (layout : Layout) (fs : FileSystem) (trail : List String) (chunk : Nat)
    (keep : Nat → Nat → Nat) (size : Int) (hchunk : 0 < chunk) (hfs : fs.Addressable)
    (htarget : fs.at? trail = some (.file []))
    (hpaths : ∀ path ∈ layout.hostPaths, fs.end? path ≠ some trail) :
    let run := (copyChunks layout chunk keep trail size.toNat size.toNat 0 []).outcome fs
    ∃ written, run.2 = fs.put trail (.file written) ∧ run.2.at? trail = some (.file written) ∧
      (written.length < 0x8000000000000000 → Copied (layout.read fs) chunk size run.1 written) := by
  intro run
  have hsame (bytes : Bytes) : layout.read (fs.extend trail bytes) = layout.read fs := by
    rw [FileSystem.extend_of_file htarget, Layout.read_put htarget hpaths]
  obtain ⟨written, hleft, hchunked⟩ :=
    @exists_chunked layout chunk size.toNat 0 keep trail fs hchunk hsame _ (Nat.le_refl _) [] []
  rw [fs.extend_nil trail] at hleft hchunked
  rw [FileSystem.extend_of_file htarget, List.nil_append, List.nil_append, List.nil_append] at hleft
  exact ⟨written, hleft, hleft ▸ FileSystem.at?_put htarget _, hchunked.copied_whole hfs⟩

/-- A host file and a buffer behind it, cut into chunks of two bytes, which the writer holds back. The
third chunk goes past the end of the layout, so that the byte in front of the end is not written. -/
theorem copyChunks_whole_cut :
    let fs : FileSystem := ⟨[("in", .file [1, 2, 3]), ("out", .file [])], []⟩
    let layout : Layout := ⟨[⟨0, 3, .file "/in" 0⟩,
      ⟨3, 2, .nested [⟨0, 2, .buffer [8, 9] 0⟩] 0 0⟩], by decide, by decide⟩
    let run := (copyChunks layout 2 (heldBack writerRoom) ["out"] (7 : Int).toNat (7 : Int).toNat
      0 []).outcome fs
    fs.Addressable ∧ (∀ path ∈ layout.hostPaths, fs.end? path ≠ some ["out"]) ∧
      (∃ written, run.2.at? ["out"] = some (.file written) ∧
        Copied (layout.read fs) 2 7 run.1 written) ∧
      run.1 ≠ .ok () ∧ run.2.readFile "/out" = .ok [1, 2, 3, 8] := by
  intro fs layout run
  have hfs : fs.Addressable := by decide +kernel
  have hpaths : ∀ path ∈ layout.hostPaths, fs.end? path ≠ some ["out"] := by decide +kernel
  obtain ⟨written, -, hwritten, hcopied⟩ :=
    copyChunks_whole layout fs ["out"] 2 (heldBack writerRoom) 7 (by decide) hfs rfl hpaths
  have hout : run.2.at? ["out"] = some (.file [1, 2, 3, 8]) := by rfl
  obtain rfl : [1, 2, 3, 8] = written :=
    Host.Entry.file.inj (Option.some.inj (hout.symm.trans hwritten))
  exact ⟨hfs, hpaths, ⟨_, hwritten, hcopied (by decide)⟩, by decide +kernel, by decide +kernel⟩

/-! ## Reading what has just been written -/

section Own

variable {layout : Layout} {n : Nat} {fs : FileSystem}
  (hlayout : layout.segments = [⟨0, n, .fill 7⟩, ⟨n, 1, .file "/a" 0⟩])
include hlayout

theorem Layout.read_own_fill (hn : 0 < n) (hnear : isFar n = false) :
    layout.read fs 0 n = .ok (List.replicate n 7) := by
  refine Layout.read_eq_ok_iff.mpr ⟨Int.le_refl 0, Int.natCast_nonneg n, ?_⟩
  have hstop : min n (Placed.stop ⟨0, n, Source.fill 7⟩ - 0) = n := by simp [Placed.stop]
  rw [hlayout, Int.toNat_zero, Int.toNat_natCast]
  refine (readRun_cons_eq_ok_iff hn).mpr (.inr ⟨Nat.le_refl 0, by simpa [Placed.stop] using hn,
    List.replicate n 7, [], ?_, ?_, ?_, List.append_nil _⟩)
  · rw [hstop, Source.read, hnear, if_neg Bool.false_ne_true, Int.toNat_natCast]
  · rwa [hstop, Int.sub_add_cancel]
  · rw [hstop, Nat.sub_self, readRun_zero]

theorem Layout.read_own_last : layout.read fs n 1 = readHostFile fs "/a" 0 1 := by
  rw [Layout.read, if_neg (by omega), hlayout, Int.toNat_natCast]
  change readRun fs 1 n _ n 1 = _
  rw [readRun_skip (by simp [Placed.stop]), readRun_enter (Nat.le_refl n) (by simp [Placed.stop]),
    Int.sub_self, Source.read, Int.add_zero]

theorem Layout.read_own_whole (hn : 0 < n) (hnear : isFar n = false) {fault : ReadFault}
    (hlast : readHostFile fs "/a" 0 1 = .error fault) :
    layout.read fs 0 ↑(n + 1) = .error fault := by
  have hstop : min (n + 1) (Placed.stop ⟨0, n, Source.fill 7⟩ - 0) = n := by simp [Placed.stop]
  have hend : min 1 (Placed.stop ⟨n, 1, Source.file "/a" 0⟩ - n) = 1 := by simp [Placed.stop]
  rw [Layout.read, if_neg (by omega), hlayout, Int.toNat_zero, Int.toNat_natCast,
    readRun_cons (by omega), if_neg (by simp [Placed.stop]; omega), if_neg (by simp), hstop,
    Source.read, hnear, if_neg Bool.false_ne_true, Int.sub_self, Int.zero_add, hnear,
    Nat.zero_add, Nat.add_sub_cancel_left, readRun_cons Nat.one_pos,
    if_neg (by simp [Placed.stop]), if_neg (by simp), hend, Int.sub_self, Source.read, Int.add_zero,
    Int.natCast_one, hlast]
  rfl

/-- Once the writer has passed the fill on, the byte behind it can be read, and copying ends well. -/
theorem copyChunks_own_fill {keep : Nat → Nat → Nat} (hn : 0 < n) (hnear : isFar n = false)
    (hkeep : keep 0 n = 0) (hlast : readHostFile (fs.extend ["a"] (List.replicate n 7)) "/a" 0 1 =
      .ok [7]) (fuel : Nat) :
    ((copyChunks layout n keep ["a"] (n + 1) (fuel + 2) 0 []).outcome fs).1 = .ok () := by
  have hfirst : min n (n + 1 - 0) = n := by omega
  have hsecond : min n (n + 1 - n) = 1 := by omega
  rw [outcome_copyChunks_succ (by omega), hfirst, Int.natCast_zero,
    Layout.read_own_fill hlayout hn hnear]
  dsimp only
  rw [List.nil_append, List.length_replicate, List.length_nil, hkeep, Nat.sub_zero, Nat.zero_add,
    List.take_of_length_le (by rw [List.length_replicate]), outcome_copyChunks_succ (by omega),
    hsecond, Int.natCast_one, Layout.read_own_last hlayout, hlast]
  exact congrArg Prod.fst (outcome_copyChunks_of_le (Nat.le_refl _) _ _)

end Own

/-- A chunk of a fill, and behind it the first byte of the file that is written: copying ends well,
though the byte was not there at the start. -/
theorem copyChunks_own :
    let fs : FileSystem := ⟨[("a", .file [])], []⟩
    let size : Nat := exportChunk + 1
    let own : Layout := ⟨[⟨0, exportChunk, .fill 7⟩, ⟨exportChunk, 1, .file "/a" 0⟩],
      by decide, by decide⟩
    ((copyChunks own exportChunk (heldBack writerRoom) ["a"] size size 0 []).outcome fs).1 =
        .ok () ∧
      own.read fs 0 size = .error (.shortFile "/a" 1 0) := by
  intro fs size own
  have hown : own.segments = [⟨0, exportChunk, .fill 7⟩, ⟨exportChunk, 1, .file "/a" 0⟩] := rfl
  have hgot (bytes : Bytes) : (fs.extend ["a"] bytes).readFile "/a" = .ok bytes := rfl
  refine ⟨copyChunks_own_fill hown (by decide) (by decide) (by decide) ?_ (exportChunk - 1),
    Layout.read_own_whole hown (by decide) (by decide) rfl⟩
  refine readHostFile_eq_ok_iff.mpr ⟨_, hgot _, by decide, by decide, by decide, rfl, ?_⟩
  exact take_one_drop.mpr (List.getElem?_replicate_of_lt (by decide))

end DiscPatch
