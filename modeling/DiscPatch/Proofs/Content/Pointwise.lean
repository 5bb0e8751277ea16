import DiscPatch.Proofs.Content.Reading
import DiscPatch.Proofs.Host.Walk

/-!
# What a read of a layout gives

A layout can be read byte by byte: a segment serves the position, and its source is read there. A
read of many bytes gives just those, and so it may be cut anywhere.

* `FileSystem.Addressable` — every host file has few enough bytes for its positions to have a 64-bit
  form, as on every host there is;
* `Source.yields_of_read`, `readRun_yields` — what one read gives, single reads give;
* `readRun_one` — a single read asks the segment that serves the position;
* `Layout.read_pointwise` — a read of fewer than 2^63 bytes succeeds exactly if the single reads do,
  and gives their bytes. A read in two parts gives what one read gives.

A longer read fails: `Layout.read_far` is one that fails for no other reason.
-/

namespace DiscPatch

/-! ## Host files -/

namespace Host

variable {fs : FileSystem}

/-- The number of bytes of every regular file has a 64-bit form. -/
def FileSystem.Addressable (fs : FileSystem) : Prop :=
  ∀ file ∈ fs.top.filesFrom [], isFar file.2.length = false

instance (fs : FileSystem) : Decidable fs.Addressable :=
  inferInstanceAs (Decidable (∀ file ∈ fs.top.filesFrom [], isFar file.2.length = false))

theorem mem_entriesFilesFrom {trail : List String} {entries : List (String × Entry)}
    {name : String} {entry : Entry} {file : List String × Bytes} (hentry : (name, entry) ∈ entries)
    (hfile : file ∈ entry.filesFrom (trail ++ [name])) : file ∈ entriesFilesFrom trail entries := by
  induction entries with
  | nil => cases hentry
  | cons head rest ih =>
    rw [entriesFilesFrom, List.mem_append]
    rcases List.mem_cons.mp hentry with rfl | hrest
    · exact .inl hfile
    · exact .inr (ih hrest)

/-- A file that names lead to is one of the files of the tree. -/
theorem mem_filesFrom_of_at? {data : Bytes} {names : List String} {entry : Entry}
    (trail : List String) (h : entry.at? names = some (.file data)) :
    (trail ++ names, data) ∈ entry.filesFrom trail := by
  induction names generalizing entry trail with
  | nil =>
    obtain rfl := Option.some.inj h
    simp [Entry.filesFrom]
  | cons name rest ih =>
    obtain ⟨entries, next, rfl, hnext, hrest⟩ := Entry.exists_of_at?_cons h
    rw [Entry.filesFrom, List.append_cons]
    exact mem_entriesFilesFrom (mem_of_lookup hnext) (ih (trail ++ [name]) hrest)

theorem FileSystem.Addressable.of_readFile (h : fs.Addressable) {path : String} {data : Bytes}
    (hdata : fs.readFile path = .ok data) : isFar data.length = false := by
  rw [FileSystem.readFile] at hdata
  split at hdata
  · cases hdata
  · next hfind =>
    cases hdata
    obtain ⟨trail, hfile⟩ := at?_of_find hfind
    exact h _ (mem_filesFrom_of_at? [] hfile)
  · cases hdata
  · cases hdata
    rfl

end Host

open DiscPatch.Host (FileSystem)

variable {fs : FileSystem}

/-! ## Single reads from one read -/

theorem readHostFile_ones (hfs : fs.Addressable) {path : String} {position : Int} {count : Nat}
    {bytes : Bytes} (h : readHostFile fs path position count = .ok bytes) {i : Nat} {byte : UInt8}
    (hbyte : bytes[i]? = some byte) : readHostFile fs path (position + i) 1 = .ok [byte] := by
  obtain ⟨data, hdata, -, hnatural, -, -, rfl⟩ := readHostFile_eq_ok_iff.mp h
  have hat : data[(position + i).toNat]? = some byte := by
    rw [List.getElem?_take, List.getElem?_drop] at hbyte
    split at hbyte
    · rw [← hbyte]
      congr 1
      omega
    · cases hbyte
  -- the byte is one of the file's, so its position is no farther than the file is long
  have hnear : isFar (position + i) = false := by
    have hlt := (List.getElem?_eq_some_iff.mp hat).1
    have hle := isFar_of_le (Nat.le_of_lt hlt) (hfs.of_readFile hdata)
    rwa [Int.toNat_of_nonneg (by omega)] at hle
  exact readHostFile_eq_ok_iff.mpr
    ⟨data, hdata, hnear, by omega, by decide, rfl, take_one_drop.mpr hat⟩

theorem readBuffer_ones {data bytes : Bytes} {position : Int} {count : Nat}
    (h : readBuffer data position count = .ok bytes) {i : Nat} {byte : UInt8}
    (hbyte : bytes[i]? = some byte) : readBuffer data (position + i) 1 = .ok [byte] := by
  have hlength : bytes.length = count := (full_eq_ok_iff.mp h).1
  have hi := (List.getElem?_eq_some_iff.mp hbyte).1
  obtain ⟨-, place, hplace, rfl⟩ := (readBuffer_eq_ok_iff (by omega)).mp h
  refine (readBuffer_eq_ok_iff Nat.one_pos).mpr ⟨rfl, place + i, ?_, take_one_drop.mpr ?_⟩
  · unfold StartsAt at hplace ⊢
    omega
  · rw [List.getElem?_take, List.getElem?_drop] at hbyte
    split at hbyte
    · exact hbyte
    · cases hbyte

/-- What one run gives through the first segment and the others, reads of one byte give, if that
holds of the source of the first segment and of the others. -/
theorem readRun_cons_yields {segment : Segment} {others : List Segment}
    (hsource : ∀ (position : Int) (count : Nat) (bytes : Bytes),
      segment.source.read fs position count = .ok bytes →
      segment.source.Yields fs position bytes)
    (hothers : ∀ (length offset : Int) (position count : Nat) (bytes : Bytes),
      readRun fs length offset others position count = .ok bytes →
      ∀ (i : Nat) (byte : UInt8), bytes[i]? = some byte →
        ∀ offset : Int, readRun fs 1 offset others (position + i) 1 = .ok [byte])
    {length offset : Int} {position count : Nat} {bytes : Bytes}
    (h : readRun fs length offset (segment :: others) position count = .ok bytes)
    (i : Nat) (byte : UInt8) (hbyte : bytes[i]? = some byte) (o : Int) :
    readRun fs 1 o (segment :: others) (position + i) 1 = .ok [byte] := by
  rcases Nat.eq_zero_or_pos count with rfl | hcount
  · rw [readRun_zero] at h
    cases h
    cases hbyte
  rcases (readRun_cons_eq_ok_iff hcount).mp h with
    ⟨hpast, hrun⟩ | ⟨hin, hbefore, front, back, hfront, -, hback, rfl⟩
  · rw [readRun_skip (by omega)]
    exact hothers _ _ _ _ _ hrun i byte hbyte o
  · have hfrontLength := segment.source.length_of_read fs _ _ _ hfront
    have hbackLength := length_of_readRun fs others _ _ _ _ _ hback
    -- a byte of the front is the first segment's, the others lie past it
    rcases Nat.lt_or_ge i front.length with hi | hi
    · rw [List.getElem?_append_left hi] at hbyte
      rw [readRun_enter (by omega) (by omega), ← hsource _ _ _ hfront i byte hbyte]
      congr 1
      omega
    · rw [List.getElem?_append_right hi] at hbyte
      have hlt := (List.getElem?_eq_some_iff.mp hbyte).1
      rw [readRun_skip (by omega), ← hothers _ _ _ _ _ hback _ byte hbyte o]
      congr 1
      omega

mutual
/-- **Single reads give what one read gives.** -/
theorem Source.yields_of_read (hfs : fs.Addressable) : ∀ (source : Source) (position : Int)
    (count : Nat) (bytes : Bytes), source.read fs position count = .ok bytes →
    source.Yields fs position bytes
  | .file path offset => by
    intro position count bytes h i byte hbyte
    rw [Source.read, ← Int.add_assoc]
    exact readHostFile_ones hfs h hbyte
  | .buffer data start => by
    intro position count bytes h i byte hbyte
    rw [Source.read, ← Int.add_assoc]
    exact readBuffer_ones h hbyte
  | .nested layout offset tag => by
    intro position count bytes h i byte hbyte
    rw [Source.read] at h
    split at h
    · cases h
    · have hones := readRun_yields hfs layout _ _ _ _ _ h i byte hbyte
      rw [Source.read, if_neg (by omega), ← hones (offset + (position + i))]
      congr 1
      omega
  | .fill filler => by
    intro position count bytes h i byte hbyte
    rw [Source.read] at h
    split at h
    · cases h
    · obtain rfl : List.replicate count filler = bytes := Except.ok.inj h
      obtain rfl := List.eq_of_mem_replicate (List.mem_of_getElem? hbyte)
      rfl

/-- Reads of one byte give what one run gives, whatever read it is part of. -/
theorem readRun_yields (hfs : fs.Addressable) : ∀ (segments : List Segment) (length offset : Int)
    (position count : Nat) (bytes : Bytes),
    readRun fs length offset segments position count = .ok bytes →
    ∀ (i : Nat) (byte : UInt8), bytes[i]? = some byte →
      ∀ offset : Int, readRun fs 1 offset segments (position + i) 1 = .ok [byte]
  | [] => by
    intro length offset position count bytes h i byte hbyte
    rw [readRun] at h
    split at h
    · cases h
      cases hbyte
    · cases h
  | ⟨start, size, source⟩ :: others => by
    intro length offset position count bytes h
    exact readRun_cons_yields (Source.yields_of_read hfs source) (readRun_yields hfs others) h
end

/-! ## Layouts -/

/-- A read of one byte asks the first segment that ends past the position, if it has the position. -/
theorem readRun_one (segments : List Segment) (offset : Int) (position : Nat) :
    readRun fs 1 offset segments position 1 =
      match (segments.find? ((position : Int) < ·.stop)).filter (·.offset ≤ (position : Int)) with
      | some segment => segment.source.read fs (position - segment.offset) 1
      | none => .error (.noContent position 1 offset) := by
  induction segments with
  | nil => rfl
  | cons segment others ih =>
    rcases Nat.lt_or_ge position segment.stop with hbefore | hpast
    · rw [List.find?_cons_of_pos (by simpa using hbefore)]
      rcases Nat.lt_or_ge position segment.offset with hgap | hin
      · rw [readRun_gap hgap, Option.filter_some_neg (by simpa using hgap)]
      · rw [readRun_enter hin hbefore, Option.filter_some_pos (by simpa using hin)]
    · rw [List.find?_cons_of_neg (by simpa using hpast), readRun_skip hpast, ih]

/-- The bytes at positions from `offset` on: a segment serves the position, and its source has the
byte there. -/
def Layout.BytesAt (layout : Layout) (fs : FileSystem) (offset : Int) (bytes : Bytes) : Prop :=
  ∀ (i : Nat) (byte : UInt8), bytes[i]? = some byte →
    ∃ segment, layout.segmentAt? (offset + i) = some segment ∧
      segment.source.read fs (offset + i - segment.offset) 1 = .ok [byte]

theorem Layout.readRun_one_iff {layout : Layout} {position : Nat} {byte : UInt8} (offset : Int) :
    readRun fs 1 offset layout.segments position 1 = .ok [byte] ↔
      ∃ segment, layout.segmentAt? position = some segment ∧
        segment.source.read fs (position - segment.offset) 1 = .ok [byte] := by
  rw [readRun_one, Layout.segmentAt?]
  rcases (layout.segments.find? _).filter _ with _ | segment
  · simp
  · simp

/-- A read of a layout is a run, unless a number is negative. -/
theorem Layout.read_eq_ok_iff {layout : Layout} {offset length : Int} {bytes : Bytes} :
    layout.read fs offset length = .ok bytes ↔ 0 ≤ offset ∧ 0 ≤ length ∧
      readRun fs length offset layout.segments offset.toNat length.toNat = .ok bytes := by
  rw [Layout.read]
  split
  · next hbad =>
    constructor
    · intro h
      cases h
    · rintro ⟨hoffset, hlength, -⟩
      omega
  · next hgood => exact ⟨fun h => ⟨by omega, by omega, h⟩, fun h => h.2.2⟩

/-- No read gives as many bytes as have no 64-bit number. -/
theorem Layout.lt_of_read {layout : Layout} {offset length : Int} {bytes : Bytes}
    (h : layout.read fs offset length = .ok bytes) : length < 0x8000000000000000 := by
  obtain ⟨-, hlength, hrun⟩ := Layout.read_eq_ok_iff.mp h
  rcases Nat.eq_zero_or_pos length.toNat with hzero | hpositive
  · omega
  · exact (isFar_eq_false_iff hlength).mp (joinable_of_readRun hpositive (by omega) hrun).2

/-- **A read gives the bytes at its positions.** -/
theorem Layout.read_iff_bytesAt (hfs : fs.Addressable) {layout : Layout} {offset length : Int}
    {bytes : Bytes} :
    layout.read fs offset length = .ok bytes ↔ 0 ≤ offset ∧ length < 0x8000000000000000 ∧
      (bytes.length : Int) = length ∧ layout.BytesAt fs offset bytes := by
  constructor
  · intro h
    obtain ⟨hoffset, hlength, hrun⟩ := Layout.read_eq_ok_iff.mp h
    have hbytes := length_of_readRun fs _ _ _ _ _ _ hrun
    have hones := readRun_yields hfs _ _ _ _ _ _ hrun
    refine ⟨hoffset, Layout.lt_of_read h, by omega, fun i byte hbyte => ?_⟩
    rw [show offset + i = (offset.toNat + i : Nat) by omega]
    exact (Layout.readRun_one_iff offset).mp (hones i byte hbyte offset)
  · rintro ⟨hoffset, hnear, rfl, hbytes⟩
    rw [← isFar_eq_false_iff (Int.natCast_nonneg _)] at hnear
    refine Layout.read_eq_ok_iff.mpr ⟨hoffset, by omega, ?_⟩
    rw [Int.toNat_natCast]
    refine readRun_of_yields fs _ _ _ (fun i byte hbyte => ⟨0, ?_⟩) _ _ (joinable_self hnear)
    have hat := hbytes i byte hbyte
    rw [show offset + i = (offset.toNat + i : Nat) by omega] at hat
    exact (Layout.readRun_one_iff 0).mpr hat

theorem Layout.bytesAt_append {layout : Layout} {offset : Int} {front back : Bytes} :
    layout.BytesAt fs offset (front ++ back) ↔
      layout.BytesAt fs offset front ∧ layout.BytesAt fs (offset + front.length) back := by
  constructor
  · refine fun h => ⟨fun i byte hbyte => ?_, fun i byte hbyte => ?_⟩
    · have hi := (List.getElem?_eq_some_iff.mp hbyte).1
      exact h i byte (by rwa [List.getElem?_append_left hi])
    · have hat := h (front.length + i) byte
        (by rwa [List.getElem?_append_right (by omega), Nat.add_sub_cancel_left])
      rwa [Int.natCast_add, ← Int.add_assoc] at hat
  · rintro ⟨hfront, hback⟩ i byte hbyte
    rcases Nat.lt_or_ge i front.length with hi | hi
    · rw [List.getElem?_append_left hi] at hbyte
      exact hfront i byte hbyte
    · rw [List.getElem?_append_right hi] at hbyte
      have hat := hback _ byte hbyte
      rwa [show offset + front.length + (i - front.length : Nat) = offset + i by omega] at hat

/-- **A read is pointwise.** It succeeds exactly if it asks for fewer than 2^63 bytes and every
position has a byte, and gives those bytes. Two reads that follow each other and ask for fewer than
2^63 bytes together succeed exactly if one read does, and give the same. -/
theorem Layout.read_pointwise (layout : Layout) (fs : FileSystem) (hfs : fs.Addressable) :
    (∀ (offset length : Int) (bytes : Bytes),
      layout.read fs offset length = .ok bytes ↔
        0 ≤ offset ∧ 0 ≤ length ∧ length < 0x8000000000000000 ∧ (bytes.length : Int) = length ∧
          layout.BytesAt fs offset bytes) ∧
    ∀ (offset first second : Nat) (bytes : Bytes),
      layout.read fs offset (first + second : Nat) = .ok bytes ↔
        first + second < 0x8000000000000000 ∧
          ∃ front back, layout.read fs offset first = .ok front ∧
            layout.read fs (offset + first) second = .ok back ∧ bytes = front ++ back := by
  refine ⟨fun offset length bytes => ?_, fun offset first second bytes => ?_⟩
  · rw [Layout.read_iff_bytesAt hfs]
    refine and_congr_right fun _ => (and_iff_right_of_imp ?_).symm
    rintro ⟨-, hlength, -⟩
    omega
  simp only [Layout.read_iff_bytesAt hfs, Int.natCast_inj]
  constructor
  · rintro ⟨hoffset, hnear, hlength, hbytes⟩
    have hfront : (bytes.take first).length = first := by
      rw [List.length_take]
      omega
    have hback : (bytes.drop first).length = second := by
      rw [List.length_drop]
      omega
    rw [← List.take_append_drop first bytes, Layout.bytesAt_append, hfront] at hbytes
    exact ⟨by omega, bytes.take first, bytes.drop first, ⟨hoffset, by omega, hfront, hbytes.1⟩,
      ⟨by omega, by omega, hback, hbytes.2⟩, (List.take_append_drop first bytes).symm⟩
  · rintro ⟨hnear, front, back, ⟨hoffset, -, rfl, hfront⟩, ⟨-, -, rfl, hback⟩, rfl⟩
    exact ⟨hoffset, by omega, List.length_append, Layout.bytesAt_append.mpr ⟨hfront, hback⟩⟩

/-- A buffer counted from its end and a host file seen through another layout, read in two parts. -/
theorem Layout.read_pointwise_mixed :
    let fs : FileSystem := ⟨[("f", .file [1, 2, 3])], []⟩
    let layout : Layout := ⟨[⟨1, 1, .buffer [7, 8] (-2)⟩,
      ⟨2, 2, .nested [⟨0, 2, .file "/f" 1⟩] 0 0⟩], by decide, by decide⟩
    fs.Addressable ∧ layout.read fs 1 3 = .ok [7, 2, 3] ∧ layout.BytesAt fs 1 [7, 2, 3] := by
  intro fs layout
  have hfs : fs.Addressable := by decide +kernel
  have hread : layout.read fs 1 3 = .ok [7, 2, 3] :=
    ((Layout.read_pointwise layout fs hfs).2 1 1 2 [7, 2, 3]).mpr
      ⟨by decide, [7], [2, 3], by decide +kernel, by decide +kernel, rfl⟩
  exact ⟨hfs, hread,
    (((Layout.read_pointwise layout fs hfs).1 1 3 [7, 2, 3]).mp hread).2.2.2.2⟩

/-! ## Reads that are too long -/

section Zeros

variable {layout : Layout} {size : Nat}

theorem Layout.bytesAt_zeros (hlayout : layout.segments = [⟨0, size, .zeros⟩]) (offset count : Nat)
    (h : offset + count ≤ size) : layout.BytesAt fs offset (List.replicate count 0) := by
  intro i byte hbyte
  rw [List.getElem?_replicate] at hbyte
  split at hbyte
  · cases hbyte
    refine ⟨⟨0, size, .zeros⟩, ?_, rfl⟩
    rw [Layout.segmentAt?, hlayout, List.find?_cons_of_pos (by simp [Placed.stop]; omega),
      Option.filter_some_pos (by simp; omega)]
  · cases hbyte

theorem Layout.read_zeros_far (hlayout : layout.segments = [⟨0, size, .zeros⟩])
    (h : isFar size = true) : layout.read fs 0 size = .error .farCount := by
  have hpositive : 0 < size := by
    refine Nat.pos_of_ne_zero fun hzero => ?_
    rw [hzero] at h
    cases h
  have hchunk : min size (Placed.stop ⟨0, size, Source.zeros⟩ - 0) = size := by simp [Placed.stop]
  rw [Layout.read, if_neg (by omega), hlayout, Int.toNat_natCast, Int.toNat_zero,
    readRun_cons hpositive, if_neg (by simp [Placed.stop]; omega), if_neg (by simp), hchunk,
    Source.zeros, Source.read, if_pos h]
  rfl

end Zeros

/-- As many zeros as have no 64-bit number can be read one by one, and in two halves, but not by one
read. -/
theorem Layout.read_far :
    let fs : FileSystem := ⟨[], []⟩
    let whole : Nat := 0x8000000000000000
    let half : Nat := 0x4000000000000000
    let layout : Layout := ⟨[⟨0, whole, .zeros⟩], by decide, by decide⟩
    let zeros (count : Nat) : Bytes := List.replicate count 0
    fs.Addressable ∧ (zeros whole).length = whole ∧ layout.BytesAt fs 0 (zeros whole) ∧
      layout.read fs 0 whole = .error .farCount ∧ half + half = whole ∧
      layout.read fs 0 half = .ok (zeros half) ∧ layout.read fs half half = .ok (zeros half) := by
  intro fs whole half layout zeros
  have hfs : fs.Addressable := by decide
  have hlayout : layout.segments = [⟨0, whole, .zeros⟩] := rfl
  have hparts : half + half = whole := by decide
  have hlength : ((zeros half).length : Int) = half := by rw [List.length_replicate]
  have hhalf : (half : Int) < 0x8000000000000000 := by decide
  refine ⟨hfs, List.length_replicate, Layout.bytesAt_zeros hlayout 0 whole (by omega),
    Layout.read_zeros_far hlayout (by decide), hparts, ?_, ?_⟩
  · exact (Layout.read_iff_bytesAt hfs).mpr
      ⟨Int.le_refl _, hhalf, hlength, Layout.bytesAt_zeros hlayout 0 half (by omega)⟩
  · exact (Layout.read_iff_bytesAt hfs).mpr
      ⟨Int.natCast_nonneg _, hhalf, hlength, Layout.bytesAt_zeros hlayout half half (by omega)⟩

end DiscPatch
