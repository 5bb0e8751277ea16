import DiscPatch.Proofs.Content.Reading
import DiscPatch.Proofs.Content.WellFormed

/-!
# Files as byte strings

Segments only describe content. Here a file is compared with the plain byte string it stands for,
and an overwrite with what it does to that string.

* `Segment.bytes`, `bytesOf`, `File.bytes` — the bytes that single reads give;
* `Bytes.body`, `Bytes.overwritten` — the plain model: external bytes cut or padded to a length, and
  a string overwritten with them;
* `bytesOf_lay` — laying a range over segments overwrites their bytes;
* `File.Complete`, `File.Complete.contents_eq` — a complete file reads as its bytes;
* `Request` — one overwrite with a file kept in memory, on files and on byte strings;
* `contents_afterCalls` — a run of them on a file is the same run on its bytes.
-/

namespace DiscPatch

open DiscPatch.Host (FileSystem)

/-! ## The bytes of segments -/

/-- The byte that a single read gives, zero where it fails. -/
def Source.byteAt (fs : FileSystem) (source : Source) (position : Int) : UInt8 :=
  match source.read fs position 1 with
  | .ok [byte] => byte
  | _ => 0

namespace Segment

/-- The bytes of a segment. -/
def bytes (fs : FileSystem) (segment : Segment) : Bytes :=
  (List.range segment.size).map fun i : Nat => segment.source.byteAt fs i

/-- Every position of the segment can be read. -/
def Readable (fs : FileSystem) (segment : Segment) : Prop :=
  ∀ i : Nat, i < segment.size → ∃ byte, segment.source.read fs i 1 = .ok [byte]

end Segment

/-- The bytes of segments, one after the other. -/
def bytesOf (fs : FileSystem) (segments : List Segment) : Bytes :=
  segments.flatMap (Segment.bytes fs)

variable {fs : FileSystem}

theorem Source.read_advance (source : Source) (delta position length : Int) :
    (source.advance delta).read fs position length = source.read fs (delta + position) length := by
  cases source <;> simp only [Source.advance, Source.read, Int.add_assoc]

theorem Source.byteAt_advance (source : Source) (delta position : Int) :
    (source.advance delta).byteAt fs position = source.byteAt fs (delta + position) := by
  simp only [Source.byteAt, Source.read_advance]

theorem Source.byteAt_of_read {source : Source} {position : Int} {byte : UInt8}
    (h : source.read fs position 1 = .ok [byte]) : source.byteAt fs position = byte := by
  rw [Source.byteAt, h]

@[simp] theorem Segment.length_bytes (segment : Segment) :
    (segment.bytes fs).length = segment.size := by
  simp [Segment.bytes]

theorem Segment.bytes_of_size_zero {segment : Segment} (h : segment.size = 0) :
    segment.bytes fs = [] :=
  List.eq_nil_of_length_eq_zero (by rw [length_bytes, h])

@[simp] theorem bytesOf_nil : bytesOf fs [] = [] := rfl

@[simp] theorem bytesOf_cons (segment : Segment) (rest : List Segment) :
    bytesOf fs (segment :: rest) = segment.bytes fs ++ bytesOf fs rest :=
  List.flatMap_cons

@[simp] theorem bytesOf_append (xs ys : List Segment) :
    bytesOf fs (xs ++ ys) = bytesOf fs xs ++ bytesOf fs ys :=
  List.flatMap_append

/-- The first bytes of a segment are those of its shorter form. -/
theorem Segment.bytes_shorter (offset : Nat) (source : Source) {size less : Nat} (h : less ≤ size) :
    Segment.bytes fs ⟨offset, less, source⟩ =
      (Segment.bytes fs ⟨offset, size, source⟩).take less := by
  simp only [Segment.bytes, ← List.map_take, List.take_range, Nat.min_eq_left h]

/-- The two parts of a segment have its bytes between them. -/
theorem Segment.bytes_before_append_after {segment : Segment} {point : Nat}
    (hlo : segment.offset < point) (hhi : point < segment.stop) :
    (segment.before point).bytes fs ++ (segment.after point).bytes fs = segment.bytes fs := by
  have hsize : segment.size = (point - segment.offset) + (segment.stop - point) := by
    simp only [Placed.stop] at *
    omega
  simp only [Segment.bytes, Segment.before, Segment.after]
  rw [hsize, List.range_add, List.map_append, List.map_map]
  congr 1
  refine List.map_congr_left fun i _ => ?_
  rw [Source.byteAt_advance]
  rfl

theorem bytesOf_cut (point : Nat) (segment : Segment) :
    bytesOf fs (cut point segment) = segment.bytes fs := by
  rcases cut_cases point segment with ⟨hlo, hhi, hcut⟩ | ⟨-, hcut⟩
  · simp only [hcut, bytesOf_cons, bytesOf_nil, List.append_nil]
    exact Segment.bytes_before_append_after hlo hhi
  · simp [hcut]

theorem bytesOf_flatMap_cut (point : Nat) (segments : List Segment) :
    bytesOf fs (segments.flatMap (cut point)) = bytesOf fs segments := by
  induction segments with
  | nil => rfl
  | cons segment rest ih =>
    rw [List.flatMap_cons, bytesOf_append, bytesOf_cut, ih, bytesOf_cons]

theorem bytesOf_cutAtBounds (start stop : Nat) (segments : List Segment) :
    bytesOf fs (cutAtBounds start stop segments) = bytesOf fs segments := by
  rw [cutAtBounds, bytesOf_flatMap_cut, bytesOf_flatMap_cut]

theorem bytesOf_filter_positive (segments : List Segment) :
    bytesOf fs (segments.filter (0 < ·.size)) = bytesOf fs segments := by
  induction segments with
  | nil => rfl
  | cons segment rest ih =>
    rcases Nat.eq_zero_or_pos segment.size with hzero | hpositive
    · rw [List.filter_cons_of_neg (by simp [hzero]), ih, bytesOf_cons,
        Segment.bytes_of_size_zero hzero, List.nil_append]
    · rw [List.filter_cons_of_pos (by simpa using hpositive), bytesOf_cons, bytesOf_cons, ih]

theorem Source.byteAt_zeros (position : Int) : Source.zeros.byteAt fs position = 0 := rfl

theorem Segment.bytes_zeros (offset size : Nat) :
    Segment.bytes fs ⟨offset, size, Source.zeros⟩ = List.replicate size 0 := by
  rw [Segment.bytes]
  simp [Source.byteAt_zeros]

theorem bytesOf_leadingZeros (size start : Nat) :
    bytesOf fs (leadingZeros size start) = List.replicate (start - size) 0 := by
  rw [leadingZeros]
  split
  · rw [bytesOf_cons, bytesOf_nil, List.append_nil, Segment.bytes_zeros]
  · next hnone =>
    rw [Nat.sub_eq_zero_of_le (Nat.not_lt.mp hnone)]
    rfl

/-! ## Lines without gaps -/

namespace LinedUp

variable {lo mid hi : Nat} {segments : List Segment}

/-- A line without gaps has as many bytes as positions. -/
theorem length_bytesOf (h : LinedUp (· = ·) lo segments hi) :
    (bytesOf fs segments).length = hi - lo := by
  induction segments generalizing lo with
  | nil =>
    have heq : lo = hi := h
    rw [heq, Nat.sub_self]
    rfl
  | cons segment rest ih =>
    obtain ⟨hlo, hrest⟩ := h
    have hle := hrest.le spacing_eq
    rw [bytesOf_cons, List.length_append, Segment.length_bytes, ih hrest]
    simp only [Placed.stop] at *
    omega

theorem filter_positive (h : LinedUp (· = ·) lo segments hi) :
    LinedUp (· = ·) lo (segments.filter (0 < ·.size)) hi := by
  induction segments generalizing lo with
  | nil => exact h
  | cons segment rest ih =>
    obtain ⟨hlo, hrest⟩ := h
    rcases Nat.eq_zero_or_pos segment.size with hzero | hpositive
    · rw [List.filter_cons_of_neg (by simp [hzero])]
      refine (ih hrest).from_left spacing_eq ?_
      simp only [Placed.stop, hlo, hzero, Nat.add_zero]
    · rw [List.filter_cons_of_pos (by simpa using hpositive)]
      exact ⟨hlo, ih hrest⟩

/-- Trimming a line keeps its first bytes. -/
theorem bytesOf_trimTo (h : LinedUp (· = ·) lo segments hi) (hlo : lo ≤ mid) :
    bytesOf fs (DiscPatch.trimTo mid segments) = (bytesOf fs segments).take (mid - lo) := by
  induction segments generalizing lo with
  | nil => simp [DiscPatch.trimTo]
  | cons segment rest ih =>
    obtain ⟨rfl, hrest⟩ := h
    have hsegment : segment.stop = segment.offset + segment.size := rfl
    rw [bytesOf_cons]
    rcases Nat.lt_or_ge mid segment.stop with hlt | hge
    · rw [trimTo_cons_of_lt spacing_eq hrest hlt,
        List.take_append_of_le_length (by rw [Segment.length_bytes]; omega)]
      split
      · next hout => rw [Nat.sub_eq_zero_of_le hout, List.take_zero, bytesOf_nil]
      · rw [bytesOf_cons, bytesOf_nil, List.append_nil]
        exact Segment.bytes_shorter segment.offset segment.source (by omega)
    · have hrest : bytesOf fs (DiscPatch.trimTo mid rest) =
          (bytesOf fs rest).take (mid - segment.stop) := ih hrest hge
      rw [List.take_append, List.take_of_length_le (by rw [Segment.length_bytes]; omega),
        Segment.length_bytes, Nat.sub_sub, ← hsegment, ← hrest]
      rcases trimTo_cons_of_le hge with hkept | ⟨-, hempty, hnil, hall⟩
      · rw [hkept, bytesOf_cons]
      · rw [hall, hnil, Segment.bytes_of_size_zero hempty]
        rfl

/-- Splitting a line at a point between two segments splits its bytes there. -/
theorem bytesOf_front {front : List Segment} (hfront : LinedUp (· = ·) 0 front mid)
    (back : List Segment) : bytesOf fs front = (bytesOf fs (front ++ back)).take mid := by
  rw [bytesOf_append, List.take_left' (by rw [hfront.length_bytesOf, Nat.sub_zero])]

theorem bytesOf_back {front back : List Segment} (hall : LinedUp (· = ·) 0 (front ++ back) hi)
    (hback : LinedUp (· = ·) mid back hi) :
    bytesOf fs back = (bytesOf fs (front ++ back)).drop mid := by
  have hlength : (bytesOf fs (front ++ back)).length = hi - 0 := hall.length_bytesOf
  have hlength' : (bytesOf fs back).length = hi - mid := hback.length_bytesOf
  have hmid := hback.le spacing_eq
  rw [bytesOf_append, List.length_append] at hlength
  rw [bytesOf_append, List.drop_left' (by omega)]

/-- The segments in front of a range have the bytes in front of it, with zeros up to it. -/
theorem bytesOf_around_front {size start stop : Nat} (h : LinedUp (· = ·) 0 segments size) :
    bytesOf fs (DiscPatch.around size start stop segments).1 =
      (bytesOf fs segments ++ List.replicate (start - size) 0).take start := by
  have hlength : (bytesOf fs segments).length = size - 0 := h.length_bytesOf
  rcases Nat.lt_or_ge start size with hinside | hpast
  · obtain ⟨hfront, -⟩ := (h.cutAtBounds spacing_eq start stop).part_front spacing_eq
      (fun s hs => parted_start_of_mem_cutAtBounds hs) (Nat.zero_le start) (Nat.le_of_lt hinside)
    rw [around_of_lt hinside, List.take_append_of_le_length (by omega),
      ← bytesOf_cutAtBounds start stop segments]
    refine (hfront.bytesOf_front
      ((DiscPatch.cutAtBounds start stop segments).dropWhile (·.offset < start))).trans ?_
    rw [List.takeWhile_append_dropWhile]
  · have hall : (bytesOf fs segments ++ List.replicate (start - size) 0).length ≤ start := by
      rw [List.length_append, List.length_replicate]
      omega
    rw [around_of_le hpast, List.take_of_length_le hall, bytesOf_append, bytesOf_leadingZeros]

/-- The segments behind a range have the bytes behind it. -/
theorem bytesOf_around_back {size start stop : Nat} (h : LinedUp (· = ·) 0 segments size)
    (hrange : start ≤ stop) :
    bytesOf fs (DiscPatch.around size start stop segments).2 = (bytesOf fs segments).drop stop := by
  have hlength : (bytesOf fs segments).length = size - 0 := h.length_bytesOf
  rcases Nat.lt_or_ge start size with hinside | hpast
  · have hcut := h.cutAtBounds spacing_eq start stop
    obtain ⟨-, hrest⟩ := hcut.part_front spacing_eq
      (fun s hs => parted_start_of_mem_cutAtBounds hs) (Nat.zero_le start) (Nat.le_of_lt hinside)
    rw [around_of_lt hinside]
    rcases Nat.le_total stop size with hle | hge
    · have hback := hrest.dropWhile_stop spacing_eq (fun s hs =>
        parted_stop_of_mem_cutAtBounds ((List.dropWhile_suffix _).subset hs)) hrange hle
      obtain ⟨covered, hcovered⟩ := (List.dropWhile_suffix (·.stop ≤ stop)).trans
        (List.dropWhile_suffix (·.offset < start) (l := DiscPatch.cutAtBounds start stop segments))
      rw [← hcovered] at hcut
      refine (hcut.bytesOf_back hback).trans ?_
      rw [hcovered, bytesOf_cutAtBounds]
    · simp only [clear, hrest.dropWhile_stop_eq_nil spacing_eq hge, bytesOf_nil]
      exact (List.drop_of_length_le (by omega)).symm
  · rw [around_of_le hpast]
    exact (List.drop_of_length_le (by omega)).symm

end LinedUp

/-! ## The plain model -/

namespace Bytes

/-- What a directive lays over a file: the external bytes from `externalOffset` on, all of them or
cut and padded with zeros to `length`. -/
def body (external : Bytes) (externalOffset length : Nat) : Bytes :=
  let data := external.drop (min externalOffset external.length)
  if length = 0 then data else data.take length ++ List.replicate (length - data.length) 0

/-- A string overwritten with `body` from `offset` on, as long as it needs to be for that, and cut
where the body ends if `resize` says so. -/
def overwritten (current body : Bytes) (offset : Nat) (resize : Bool) : Bytes :=
  let stop := offset + body.length
  let extended := current ++ List.replicate (stop - current.length) 0
  (extended.take offset ++ body ++ extended.drop stop).take
    (if resize then stop else max current.length stop)

end Bytes

theorem Source.read_buffer_one {data : Bytes} {start i : Nat} {byte : UInt8}
    (h : data[start + i]? = some byte) :
    (Source.buffer data start).read fs i 1 = .ok [byte] := by
  have hwindow : data.window (start + i : Int) (start + i + 1) = [byte] := by
    have hcount : data.window (start + i : Int) (start + i + (1 : Nat)) =
        (data.drop (start + i)).take 1 := window_eq_take_drop (.inl (by omega))
    refine hcount.trans (List.ext_getElem? fun j => ?_)
    rw [List.getElem?_take, List.getElem?_drop]
    rcases j with _ | j
    · simpa using h
    · simp
  rw [Source.read]
  simp only [readBuffer, hwindow]
  rfl

/-- A stretch of a buffer has the bytes of that stretch. -/
theorem Segment.bytes_buffer (offset : Nat) {data : Bytes} {start size : Nat}
    (h : start + size ≤ data.length) :
    Segment.bytes fs ⟨offset, size, .buffer data start⟩ = (data.drop start).take size := by
  refine List.ext_getElem? fun i => ?_
  rw [Segment.bytes, List.getElem?_map, List.getElem?_take, List.getElem?_drop]
  rcases Nat.lt_or_ge i size with hi | hi
  · rw [if_pos hi, List.getElem?_range hi, Option.map_some,
      List.getElem?_eq_getElem (show start + i < data.length by omega)]
    exact congrArg some (Source.byteAt_of_read
      (Source.read_buffer_one (List.getElem?_eq_getElem (by omega))))
  · rw [if_neg (Nat.not_lt.mpr hi), List.getElem?_eq_none (by simpa using hi)]
    rfl

/-- What is laid over a range of `count` positions has the external bytes from `start` on, cut or
padded with zeros to `count`. -/
theorem bytesOf_laidOver (external : Bytes) (offset count : Nat) {start : Nat}
    (h : start ≤ external.length) :
    bytesOf fs (laidOver (.buffer external start) offset count (external.length - start)) =
      (external.drop start).take count ++
        List.replicate (count - (external.length - start)) 0 := by
  rw [laidOver, bytesOf_append]
  congr 1
  · split
    · rw [bytesOf_cons, bytesOf_nil, List.append_nil, Segment.bytes_buffer offset (by omega)]
      refine List.take_eq_take_iff.mpr ?_
      rw [List.length_drop]
      omega
    · next hnone =>
      refine (List.eq_nil_of_length_eq_zero ?_).symm
      rw [List.length_take, List.length_drop]
      omega
  · split
    · rw [bytesOf_cons, bytesOf_nil, List.append_nil, Segment.bytes_zeros]
    · next hnone => rw [Nat.sub_eq_zero_of_le (Nat.not_lt.mp hnone)]; rfl

/-- What a directive lays over a range has the bytes of the plain model's body. -/
theorem bytesOf_laidOver_ofDirective (external : Bytes) (offset externalOffset length : Nat) :
    let span := Span.ofDirective offset externalOffset length external.length
    bytesOf fs (laidOver (.buffer external span.externalStart) span.start span.count
      span.available) = external.body externalOffset length := by
  simp only [Span.ofDirective]
  rw [bytesOf_laidOver external _ _ (Nat.min_le_right externalOffset external.length)]
  simp only [Bytes.body]
  split
  · rw [List.take_of_length_le (Nat.le_of_eq List.length_drop), Nat.sub_self]
    exact List.append_nil _
  · rw [List.length_drop]

/-- **Laying a range over segments overwrites their bytes.** -/
theorem bytesOf_lay {span : Span} {source : Source} {resize : Bool} {size : Nat}
    {segments : List Segment} {body : Bytes} (h : LinedUp (· = ·) 0 segments size)
    (hbody : bytesOf fs (laidOver source span.start span.count span.available) = body) :
    bytesOf fs (span.lay source resize size segments) =
      (bytesOf fs segments).overwritten body span.start resize := by
  have hlaid : LinedUp (· = ·) span.start
      (laidOver source span.start span.count span.available) span.stop :=
    LinedUp.laidOver spacing_eq source span.start span.count span.available
  have hlength : (bytesOf fs segments).length = size - 0 := h.length_bytesOf
  have hcount : body.length = span.count := by
    rw [← hbody, hlaid.length_bytesOf, Span.stop]
    omega
  have hstop : span.start + body.length = span.stop := by rw [hcount]; rfl
  have hrange : span.start ≤ span.stop := Nat.le_add_right _ _
  -- the zeros that lead up to the range are the first of those that lengthen the string
  have hfront : (bytesOf fs segments ++ List.replicate (span.start - size) 0).take span.start =
      (bytesOf fs segments ++ List.replicate (span.stop - size) 0).take span.start := by
    rw [List.take_append, List.take_append, List.take_replicate, List.take_replicate, hlength,
      Nat.sub_zero, Nat.min_self, Nat.min_eq_left (by omega)]
  have hback : (bytesOf fs segments).drop span.stop =
      (bytesOf fs segments ++ List.replicate (span.stop - size) 0).drop span.stop := by
    rw [List.drop_append, List.drop_replicate, hlength, Nat.sub_zero, Nat.sub_self]
    exact (List.append_nil _).symm
  rw [span.lay_eq, (h.around spacing_eq hlaid).bytesOf_trimTo (Nat.zero_le _), bytesOf_append,
    bytesOf_append, h.bytesOf_around_front, h.bytesOf_around_back hrange, hbody, hfront, hback]
  simp only [Bytes.overwritten, hstop, hlength, Nat.sub_zero, Span.newSize]

/-! ## Complete files -/

/-- The segments of a file fill it from the first position to the last without a gap, and each can
be read. -/
structure File.Complete (fs : FileSystem) (file : File) : Prop where
  /-- the size is natural -/
  natural : 0 ≤ file.size
  /-- each segment starts where the one before it ends, and the last ends at the size -/
  lined : LinedUp (· = ·) 0 file.segments file.size.toNat
  /-- every position can be read -/
  readable : ∀ segment ∈ file.segments, segment.Readable fs

/-- The bytes of a file. -/
def File.bytes (fs : FileSystem) (file : File) : Bytes :=
  bytesOf fs file.segments

theorem File.Complete.length_bytes {file : File} (h : file.Complete fs) :
    ((file.bytes fs).length : Int) = file.size := by
  rw [File.bytes, h.lined.length_bytesOf, Nat.sub_zero]
  exact Int.toNat_of_nonneg h.natural

/-- A read of one byte through a line of readable segments gives the byte there. -/
theorem readRun_one_of_linedUp {segments : List Segment} {lo hi position : Nat} {byte : UInt8}
    (h : LinedUp (· = ·) lo segments hi) (hreadable : ∀ s ∈ segments, s.Readable fs)
    (hlo : lo ≤ position) (hbyte : (bytesOf fs segments)[position - lo]? = some byte)
    (offset : Int) : readRun fs 1 offset segments position 1 = .ok [byte] := by
  induction segments generalizing lo with
  | nil => simp at hbyte
  | cons segment rest ih =>
    obtain ⟨rfl, hrest⟩ := h
    have hsegment : segment.stop = segment.offset + segment.size := rfl
    rw [bytesOf_cons, List.getElem?_append, Segment.length_bytes] at hbyte
    split at hbyte
    · next hin =>
      obtain ⟨read, hread⟩ := hreadable segment (List.mem_cons_self ..) _ hin
      rw [Segment.bytes, List.getElem?_map, List.getElem?_range hin, Option.map_some,
        Source.byteAt_of_read hread] at hbyte
      rw [readRun_enter hlo (by omega), ← Option.some.inj hbyte, ← hread]
      congr 1
      omega
    · next hout =>
      rw [readRun_skip (by omega)]
      refine ih hrest (fun s hs => hreadable s (List.mem_cons_of_mem _ hs)) (by omega) ?_
      rwa [Nat.sub_sub, ← hsegment] at hbyte

/-- **A complete file reads as its bytes**, if their number has a 64-bit form. -/
theorem File.Complete.contents_eq {file : File} (h : file.Complete fs)
    (hlength : isFar (file.bytes fs).length = false) : file.contents fs = .ok (file.bytes fs) := by
  obtain ⟨layout, hlayout, hsegments⟩ := File.freeze_of_linedUp h.natural h.lined.of_eq
  have hsize : file.size.toNat = (file.bytes fs).length := by
    rw [← h.length_bytes]
    rfl
  have hread : layout.read fs 0 file.size = .ok (file.bytes fs) := by
    rw [Layout.read, if_neg (by have := h.natural; omega), hsize, hsegments, Int.toNat_zero]
    refine readRun_of_yields fs _ 0 (file.bytes fs) (fun i byte hbyte => ?_) _ _
      (h.length_bytes ▸ joinable_self hlength)
    refine ⟨0, readRun_one_of_linedUp h.lined.filter_positive ?_ (Nat.zero_le _) ?_ 0⟩
    · exact fun s hs => h.readable s (List.mem_of_mem_filter hs)
    · rw [bytesOf_filter_positive, Nat.zero_add, Nat.sub_zero]
      exact hbyte
  rw [File.contents, hlayout]
  change (layout.read fs 0 file.size).mapError Error.read = _
  rw [hread]
  rfl

/-! ## Overwriting a complete file -/

theorem Segment.IsPart.readable {part whole : Segment} (hpart : part.IsPart whole)
    (h : whole.Readable fs) : part.Readable fs := by
  intro i hi
  have hstart := hpart.start
  have hstop := hpart.stop
  simp only [Placed.stop] at hstop
  obtain ⟨byte, hbyte⟩ := h (part.offset - whole.offset + i) (by omega)
  refine ⟨byte, ?_⟩
  rw [hpart.source, Source.read_advance, ← hbyte]
  rfl

theorem Segment.readable_fill (offset size : Nat) (byte : UInt8) :
    Segment.Readable fs ⟨offset, size, .fill byte⟩ :=
  fun _ _ => ⟨byte, rfl⟩

theorem Segment.readable_buffer (offset : Nat) {size start : Nat} {data : Bytes}
    (h : start + size ≤ data.length) : Segment.Readable fs ⟨offset, size, .buffer data start⟩ := by
  intro i hi
  have hin : start + i < data.length := Nat.lt_of_lt_of_le (Nat.add_lt_add_left hi start) h
  exact ⟨_, Source.read_buffer_one (List.getElem?_eq_getElem hin)⟩

theorem readable_of_mem_leadingZeros {size start : Nat} {s : Segment}
    (h : s ∈ leadingZeros size start) : s.Readable fs := by
  rw [leadingZeros] at h
  split at h
  · obtain rfl := List.mem_singleton.mp h
    exact Segment.readable_fill _ _ 0
  · cases h

theorem readable_of_mem_laidOver {external : Bytes} {offset count start : Nat} {s : Segment}
    (h : s ∈ laidOver (.buffer external start) offset count (external.length - start)) :
    s.Readable fs := by
  rcases List.mem_append.mp h with h | h
  · split at h
    · next htakes =>
      obtain rfl := List.mem_singleton.mp h
      exact Segment.readable_buffer offset (by omega)
    · cases h
  · split at h
    · obtain rfl := List.mem_singleton.mp h
      exact Segment.readable_fill _ _ 0
    · cases h

/-- Laying part of an external file over a complete file leaves a complete file. -/
theorem File.Complete.laid {file : File} (h : file.Complete fs) (external : Bytes)
    (offset externalOffset length : Nat) (resize : Bool) :
    let span := Span.ofDirective offset externalOffset length external.length
    (file.laid span (.buffer external span.externalStart) resize).Complete fs where
  natural := Int.natCast_nonneg _
  lined := h.lined.lay spacing_eq ..
  readable := by
    intro segment hsegment
    obtain ⟨s, hs, hpart⟩ := isPart_of_mem_lay hsegment
    refine hpart.readable ?_
    simp only [List.mem_append] at hs
    rcases hs with (hold | hzeros) | hlaid
    · exact h.readable s hold
    · exact readable_of_mem_leadingZeros hzeros
    · exact readable_of_mem_laidOver hlaid

/-- Its bytes are those of the plain model. -/
theorem File.Complete.bytes_laid {file : File} (h : file.Complete fs) (external : Bytes)
    (offset externalOffset length : Nat) (resize : Bool) :
    let span := Span.ofDirective offset externalOffset length external.length
    (file.laid span (.buffer external span.externalStart) resize).bytes fs =
      (file.bytes fs).overwritten (external.body externalOffset length) offset resize :=
  bytesOf_lay h.lined (bytesOf_laidOver_ofDirective external offset externalOffset length)

/-! ## Overwrites with files kept in memory -/

/-- The bytes of a file on the shelf; `none` if the path is refused or leads to no file. -/
def Shelf.bytes? (tree : FileTree) (roots : Roots) (path : String) : Option Bytes :=
  (Shelf.file? tree roots.trimmed path).value

/-- A source is asked for only where some of its bytes are used. -/
theorem Span.lay_source (span : Span) (external : External) (path : String) (resize : Bool)
    (size : Nat) (segments : List Segment) :
    span.lay (span.source external path).value resize size segments =
      span.lay (external.source path span.externalStart ↑(min span.count span.available)
        span.start).value resize size segments := by
  by_cases htakes : span.takes
  · rw [Span.source, if_pos htakes]
  · have hnone : ¬ (0 < span.count ∧ 0 < span.available) := by simpa [Span.takes] using htakes
    simp only [Span.lay_eq, laidOver, if_neg hnone]

/-- What an overwrite with a file kept in memory answers and leaves. -/
theorem outcome_overwrite_shelf {tree : FileTree} {roots : Roots} {path : String}
    {offset externalOffset length : Nat} {resize : Bool} {file : File} (hsize : 0 ≤ file.size) :
    (File.overwrite (External.shelf tree roots) path offset externalOffset length resize).outcome
        file =
      match Shelf.bytes? tree roots path with
      | none => (.ok false, file)
      | some data =>
        let span := Span.ofDirective offset externalOffset length data.length
        (.ok true, file.laid span (.buffer data span.externalStart) resize) := by
  have hfound : ((External.shelf tree roots).size? path).value =
      (Shelf.bytes? tree roots path).map List.length := rfl
  have hsource (start size target : Int) :
      ((External.shelf tree roots).source path start size target).value =
      match Shelf.bytes? tree roots path with
      | none => Source.zeros
      | some data => .buffer data start := by
    change (Logged.value (match Shelf.bytes? tree roots path with
      | none => (pure Source.zeros : Logged Source)
      | some data => pure (.buffer data start))) = _
    cases Shelf.bytes? tree roots path <;> rfl
  rw [outcome_overwrite hsize, hfound]
  simp only [File.laid, Span.lay_source, hsource]
  rcases Shelf.bytes? tree roots path with _ | data <;> rfl

/-- A request to overwrite a file with an external one; its numbers are natural. -/
structure Request where
  /-- the external file -/
  path : String
  /-- where the overwrite starts -/
  offset : Nat
  /-- where it starts to read -/
  externalOffset : Nat
  /-- how much it overwrites, zero for all there is -/
  length : Nat
  /-- whether the file ends where the overwrite does -/
  resize : Bool

namespace Request

/-- The request as an overwrite of a file. -/
def call (request : Request) (external : External) : Call :=
  .overwrite external request.path request.offset request.externalOffset request.length
    request.resize

/-- The request as an overwrite of a byte string. -/
def onBytes (tree : FileTree) (roots : Roots) (current : Bytes) (request : Request) : Bytes :=
  match Shelf.bytes? tree roots request.path with
  | none => current
  | some external =>
    current.overwritten (external.body request.externalOffset request.length) request.offset
      request.resize

/-- One request on a complete file is the same request on its bytes. -/
theorem bytes_after (request : Request) (tree : FileTree) (roots : Roots) {file : File}
    (h : file.Complete fs) :
    ((request.call (External.shelf tree roots)).after file).Complete fs ∧
      ((request.call (External.shelf tree roots)).after file).bytes fs =
        request.onBytes tree roots (file.bytes fs) := by
  rw [Call.after, call, Call.edit, outcome_overwrite_shelf h.natural, onBytes]
  rcases Shelf.bytes? tree roots request.path with _ | external
  · exact ⟨h, rfl⟩
  · exact ⟨h.laid external .., h.bytes_laid external ..⟩

end Request

/-- A run of requests on a complete file is the same run on its bytes. -/
theorem bytes_afterCalls (tree : FileTree) (roots : Roots) (requests : List Request) {file : File}
    (h : file.Complete fs) :
    (afterCalls file (requests.map (·.call (External.shelf tree roots)))).Complete fs ∧
      (afterCalls file (requests.map (·.call (External.shelf tree roots)))).bytes fs =
        requests.foldl (Request.onBytes tree roots) (file.bytes fs) := by
  induction requests generalizing file with
  | nil => exact ⟨h, rfl⟩
  | cons request rest ih =>
    obtain ⟨hcomplete, hbytes⟩ := request.bytes_after tree roots h
    rw [List.foldl_cons, ← hbytes]
    exact ih hcomplete

/-- **A run of overwrites does to a file what it does to its bytes**: the size is the number of
bytes, and reading the file gives them, unless there are too many for a 64-bit count. -/
theorem contents_afterCalls {file : File} (h : file.Complete fs) (tree : FileTree) (roots : Roots)
    (requests : List Request) :
    let after := afterCalls file (requests.map (·.call (External.shelf tree roots)))
    let bytes := requests.foldl (Request.onBytes tree roots) (file.bytes fs)
    after.size = bytes.length ∧ (isFar bytes.length = false → after.contents fs = .ok bytes) := by
  obtain ⟨hcomplete, hbytes⟩ := bytes_afterCalls tree roots requests h
  dsimp only
  rw [← hbytes]
  exact ⟨hcomplete.length_bytes.symm, hcomplete.contents_eq⟩

/-- A file of two segments, after an overwrite across both, one past the end, one with a missing
file and one that pads with zeros and shortens the file. -/
theorem contents_afterCalls_two_segments :
    let tree := FileTree.folder [("a", .file [1, 2, 3])]
    let file : File := ⟨"f", 6, [⟨0, 4, .buffer [9, 8, 7, 6] 0⟩, ⟨4, 2, .fill 5⟩]⟩
    let requests : List Request := [⟨"a", 3, 1, 0, false⟩, ⟨"a", 8, 0, 0, false⟩,
      ⟨"b", 0, 0, 9, true⟩, ⟨"a", 2, 2, 3, true⟩]
    let after := afterCalls file (requests.map (·.call (External.shelf tree ⟨"", ""⟩)))
    file.Complete ⟨[], []⟩ ∧ after.size = 5 ∧ after.contents ⟨[], []⟩ = .ok [9, 8, 3, 0, 0] := by
  intro tree file requests after
  have hcomplete : file.Complete ⟨[], []⟩ := by
    refine ⟨by decide, by decide, fun segment hsegment => ?_⟩
    rcases List.mem_cons.mp hsegment with rfl | hfill
    · exact Segment.readable_buffer 0 (by decide)
    · obtain rfl := List.mem_singleton.mp hfill
      exact Segment.readable_fill 4 2 5
  have hbytes : requests.foldl (Request.onBytes tree ⟨"", ""⟩) (file.bytes ⟨[], []⟩) =
      [9, 8, 3, 0, 0] := by decide +kernel
  have h := contents_afterCalls hcomplete tree ⟨"", ""⟩ requests
  dsimp only at h
  rw [hbytes] at h
  exact ⟨hcomplete, h.1, h.2 (by decide)⟩

/-- Zeros of more than a 64-bit count can be laid but not read. And a segment that ends past the
size is in the way of what is laid behind the size. -/
theorem contents_afterCalls_far_or_reaching :
    let far : File := ⟨"f", 0, []⟩
    let farTree := FileTree.folder [("a", .file [120])]
    let farRequest : Request := ⟨"a", 0x8000000000000000, 0, 0, false⟩
    let farAfter := afterCalls far [farRequest.call (External.shelf farTree ⟨"", ""⟩)]
    let reaching : File := ⟨"f", 4, [⟨0, 10, .buffer [0, 1, 2, 3, 4, 5, 6, 7, 8, 9] 0⟩]⟩
    let tree := FileTree.folder [("a", .file [120, 121])]
    let request : Request := ⟨"a", 6, 0, 0, false⟩
    let after := afterCalls reaching [request.call (External.shelf tree ⟨"", ""⟩)]
    (far.Complete ⟨[], []⟩ ∧ farAfter.size = 0x8000000000000001 ∧
      farAfter.contents ⟨[], []⟩ = .error (.read .farCount)) ∧
    LinedUp (· = ·) 0 reaching.segments 10 ∧
      (∀ segment ∈ reaching.segments, segment.Readable ⟨[], []⟩) ∧
      reaching.contents ⟨[], []⟩ = .ok [0, 1, 2, 3] ∧ after.size = 8 ∧
      after.contents ⟨[], []⟩ = .error (.overlap 0 8 4 6) := by
  refine ⟨⟨⟨by decide, by decide, by simp⟩, by decide +kernel, by decide +kernel⟩, by decide, ?_,
    by decide +kernel, by decide +kernel, by decide +kernel⟩
  intro segment hsegment
  obtain rfl := List.mem_singleton.mp hsegment
  exact Segment.readable_buffer 0 (by decide)

end DiscPatch
