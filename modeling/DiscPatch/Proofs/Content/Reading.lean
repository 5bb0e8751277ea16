import DiscPatch.Proofs.Content.Spacing

/-!
# Reading byte by byte

A read of many bytes gives what reads of one byte each would give, through host files, buffers,
other composed files and fills alike.

* `readHostFile_eq_ok_iff`, `readBuffer_eq_ok_iff` — a read of a host file or of a buffer gives a
  stretch of it;
* `Joinable` — the number of bytes of a read has a 64-bit form, so what it gives fits in one piece;
* `readRun_cons_eq_ok_iff` — the two ways in which a run through segments succeeds;
* `Source.length_of_read`, `length_of_readRun` — what is asked for is given in full;
* `joinable_of_readRun` — a run that gives something does not belong to a read of too many bytes;
* `Source.Yields` — the bytes that single reads give from a position on;
* `Source.read_of_yields`, `readRun_of_yields` — one read gives them all, unless it asks for so many
  that their number has no 64-bit form.
-/

namespace DiscPatch

open DiscPatch.Host (FileSystem)

/-- Single reads of the source from `position` on give the bytes, one after the other. -/
def Source.Yields (fs : FileSystem) (source : Source) (position : Int) (bytes : Bytes) : Prop :=
  ∀ (i : Nat) (byte : UInt8), bytes[i]? = some byte → source.read fs (position + i) 1 = .ok [byte]

/-- Bytes that a string holds from position `start` on, one by one, are a stretch of it. -/
theorem take_drop_eq {data bytes : Bytes} {start : Nat}
    (h : ∀ i, i < bytes.length → data[start + i]? = bytes[i]?) :
    (data.drop start).take bytes.length = bytes := by
  refine List.ext_getElem? fun i => ?_
  rw [List.getElem?_take, List.getElem?_drop]
  split
  · next hi => exact h i hi
  · next hi => exact (List.getElem?_eq_none (by omega)).symm

/-- A natural number has a 64-bit form if it is small enough. -/
theorem isFar_eq_false_iff {n : Int} (h : 0 ≤ n) : isFar n = false ↔ n < 0x8000000000000000 := by
  simp only [isFar, Bool.or_eq_false_iff, decide_eq_false_iff_not]
  omega

theorem isFar_of_le {m n : Nat} (hle : m ≤ n) (h : isFar n = false) : isFar m = false := by
  rw [isFar_eq_false_iff (Int.natCast_nonneg _)] at h ⊢
  omega

theorem take_one_drop {data : Bytes} {place : Nat} {byte : UInt8} :
    (data.drop place).take 1 = [byte] ↔ data[place]? = some byte := by
  rw [List.take_one, List.head?_drop]
  cases data[place]? with
  | none => simp
  | some other => simp

/-- A read that gets fewer bytes than it asked for fails. -/
theorem full_eq_ok_iff {got bytes : Bytes} {count : Nat} {fault : ReadFault} :
    (if (got.length : Int) = count then Except.ok got else .error fault) = .ok bytes ↔
      bytes.length = count ∧ got = bytes := by
  constructor
  · intro h
    split at h
    · next hlength =>
      obtain rfl := Except.ok.inj h
      exact ⟨Int.natCast_inj.mp hlength, rfl⟩
    · cases h
  · rintro ⟨hlength, rfl⟩
    rw [if_pos (Int.natCast_inj.mpr hlength)]

/-! ## Host files -/

/-- A read of a host file gives a stretch of it. Neither the position nor the number of bytes may be
one that has no 64-bit form. -/
theorem readHostFile_eq_ok_iff {fs : FileSystem} {path : String} {position : Int} {count : Nat}
    {bytes : Bytes} :
    readHostFile fs path position count = .ok bytes ↔
      ∃ data, fs.readFile path = .ok data ∧ isFar position = false ∧ 0 ≤ position ∧
        isFar count = false ∧ bytes.length = count ∧
        (data.drop position.toNat).take count = bytes := by
  unfold readHostFile
  rcases fs.readFile path with fault | data
  · cases fault <;> simp
  simp only [Except.ok.injEq, exists_eq_left']
  cases hposition : isFar position with
  | true => simp
  | false =>
    rcases Int.lt_or_le position 0 with hnegative | hnatural
    · simp [hnegative, Int.not_le.mpr hnegative]
    cases hcount : isFar count with
    | true => simp [Int.not_lt.mpr hnatural]
    | false =>
      simp only [Bool.false_eq_true, if_false, if_neg (Int.not_lt.mpr hnatural),
        if_neg (show ¬ (count : Int) < -1 by omega), if_neg (show ¬ (count : Int) = -1 by omega),
        Int.toNat_natCast, full_eq_ok_iff, hnatural, true_and]

theorem readHostFile_of_ones {fs : FileSystem} {path : String} {position : Int} {bytes : Bytes}
    (hne : bytes ≠ []) (hlength : isFar bytes.length = false)
    (h : ∀ (i : Nat) (byte : UInt8), bytes[i]? = some byte →
      readHostFile fs path (position + i) 1 = .ok [byte]) :
    readHostFile fs path position bytes.length = .ok bytes := by
  have hone : ∀ (i : Nat) (byte : UInt8), bytes[i]? = some byte → ∃ data,
      fs.readFile path = .ok data ∧ isFar (position + i) = false ∧ 0 ≤ position + i ∧
        data[(position + i).toNat]? = some byte := by
    intro i byte hbyte
    obtain ⟨data, hdata, hnear, hnatural, -, -, htake⟩ :=
      readHostFile_eq_ok_iff.mp (h i byte hbyte)
    exact ⟨data, hdata, hnear, hnatural, take_one_drop.mp htake⟩
  obtain ⟨first, rest, rfl⟩ := List.exists_cons_of_ne_nil hne
  obtain ⟨data, hdata, hnear, hnatural, -⟩ := hone 0 first rfl
  rw [Int.natCast_zero, Int.add_zero] at hnear hnatural
  refine readHostFile_eq_ok_iff.mpr ⟨data, hdata, hnear, hnatural, hlength, rfl,
    take_drop_eq fun i hi => ?_⟩
  obtain ⟨data', hdata', -, -, hbyte⟩ := hone i _ (List.getElem?_eq_getElem hi)
  obtain rfl : data = data' := Except.ok.inj (hdata.symm.trans hdata')
  rw [List.getElem?_eq_getElem hi, ← hbyte]
  congr 1
  omega

/-! ## Buffers

A negative position counts from the end, but a run may not go from the end of a buffer on to its
start: position `-1` on its own already reads nothing. -/

theorem clamp_of_nonneg {n : Nat} {i : Int} (h : 0 ≤ i) : Bytes.clamp n i = min i.toNat n :=
  if_neg (Int.not_lt.mpr h)

theorem clamp_of_neg {n : Nat} {i : Int} (h : i < 0) : Bytes.clamp n i = (i + n).toNat :=
  if_pos h

theorem getElem?_window (data : Bytes) (start stop : Int) (i : Nat) :
    (data.window start stop)[i]? =
      if Bytes.clamp data.length start + i < Bytes.clamp data.length stop then
        data[Bytes.clamp data.length start + i]?
      else none := by
  rw [Bytes.window, List.getElem?_drop, List.getElem?_take]

/-- Where a stretch of `count` bytes of a buffer of `size` bytes starts that is asked for at
`position`. -/
def StartsAt (size : Nat) (position : Int) (count place : Nat) : Prop :=
  (place : Int) = position ∨ (place : Int) = position + size ∧ position + count < 0

/-- Reading from a position of a buffer, given as it is or counted from the end, gives the stretch
there. -/
theorem window_eq_take_drop {data : Bytes} {start : Int} {place count : Nat}
    (h : StartsAt data.length start count place) :
    data.window start (start + count) = (data.drop place).take count := by
  refine List.ext_getElem? fun i => ?_
  rw [getElem?_window, List.getElem?_take, List.getElem?_drop]
  rcases h with h | ⟨h, hnegative⟩
  · rw [clamp_of_nonneg (by omega), clamp_of_nonneg (by omega)]
    rcases Nat.lt_or_ge (place + i) data.length with hin | hout
    · rw [show min start.toNat data.length = place by omega]
      exact if_congr (by omega) rfl rfl
    · rw [if_neg (by omega), List.getElem?_eq_none hout, ite_self]
  · rw [clamp_of_neg (by omega), clamp_of_neg hnegative,
      show (start + data.length).toNat = place by omega]
    exact if_congr (by omega) rfl rfl

/-- A read of a buffer gives the stretch at its position, given as it is or counted from the end,
unless it asks for nothing. -/
theorem readBuffer_eq_ok_iff {data bytes : Bytes} {position : Int} {count : Nat}
    (hcount : 0 < count) :
    readBuffer data position count = .ok bytes ↔ bytes.length = count ∧
      ∃ place, StartsAt data.length position count place ∧
        (data.drop place).take count = bytes := by
  rw [readBuffer, full_eq_ok_iff]
  refine and_congr_right fun hlength => ⟨fun hwindow => ?_, ?_⟩
  · -- the window is as long as it was asked to be, so it has not been cut at either end
    have hsize : Bytes.clamp data.length (position + count) - Bytes.clamp data.length position =
        count := by
      have := congrArg List.length hwindow
      have := Bytes.clamp_le data.length (position + count)
      simp only [Bytes.window, List.length_drop, List.length_take] at *
      omega
    obtain ⟨place, hplace⟩ : ∃ place, StartsAt data.length position count place := by
      rcases Int.lt_or_le position 0 with hnegative | hnatural
      · rw [clamp_of_neg hnegative] at hsize
        rcases Int.lt_or_le (position + count) 0 with hend | hend
        · rw [clamp_of_neg hend] at hsize
          exact ⟨(position + data.length).toNat, .inr ⟨by omega, hend⟩⟩
        · rw [clamp_of_nonneg hend] at hsize
          omega
      · exact ⟨position.toNat, .inl (by omega)⟩
    exact ⟨place, hplace, (window_eq_take_drop hplace).symm.trans hwindow⟩
  · rintro ⟨place, hplace, rfl⟩
    exact window_eq_take_drop hplace

theorem readBuffer_of_ones {data bytes : Bytes} {position : Int} (hne : bytes ≠ [])
    (h : ∀ (i : Nat) (byte : UInt8), bytes[i]? = some byte →
      readBuffer data (position + i) 1 = .ok [byte]) :
    readBuffer data position bytes.length = .ok bytes := by
  have hpositive := List.length_pos_iff.mpr hne
  have hone : ∀ i (hi : i < bytes.length), ∃ place : Nat, data[place]? = bytes[i]? ∧
      ((place : Int) = position + i ∨
        (place : Int) = position + i + data.length ∧ position + i + 1 < 0) := by
    intro i hi
    obtain ⟨-, place, hplace, htake⟩ :=
      (readBuffer_eq_ok_iff Nat.one_pos).mp (h i _ (List.getElem?_eq_getElem hi))
    exact ⟨place, by rw [take_one_drop.mp htake, List.getElem?_eq_getElem hi], hplace⟩
  -- a run that starts in front of position `-1` ends there: that position reads nothing
  have hside : 0 ≤ position ∨ position + bytes.length < 0 := by
    rcases Int.lt_or_le position 0 with hnegative | hnatural
    · refine .inr (Int.not_le.mp fun hcross => ?_)
      obtain ⟨other, -, hother⟩ := hone (-1 - position).toNat (by omega)
      omega
    · exact .inl hnatural
  obtain ⟨place, -, hplace⟩ := hone 0 hpositive
  have hstart : StartsAt data.length position bytes.length place := by
    unfold StartsAt
    omega
  refine (readBuffer_eq_ok_iff hpositive).mpr ⟨rfl, place, hstart, take_drop_eq fun i hi => ?_⟩
  obtain ⟨other, hother, hwhere⟩ := hone i hi
  rw [← hother]
  congr 1
  omega

/-! ## Runs through segments -/

/-- A read of `length` bytes, of which `count` are still to come, gives no more than fits in one
piece. -/
def Joinable (length : Int) (count : Nat) : Prop :=
  count ≤ length ∧ isFar length = false

theorem joinable_self {count : Nat} (h : isFar count = false) : Joinable count count :=
  ⟨Int.le_refl _, h⟩

theorem Joinable.of_le {length : Int} {count less : Nat} (h : Joinable length count)
    (hle : less ≤ count) : Joinable length less :=
  ⟨Int.le_trans (Int.ofNat_le.mpr hle) h.1, h.2⟩

theorem Joinable.near {length : Int} {count : Nat} (h : Joinable length count) :
    isFar count = false := by
  obtain ⟨hle, hnear⟩ := h
  rw [isFar_eq_false_iff (by omega)] at hnear ⊢
  omega

/-- What has been read of such a read fits in one piece at every step. -/
theorem Joinable.isFar_part {length : Int} {count chunk : Nat} (h : Joinable length count)
    (hchunk : chunk ≤ count) : isFar (length - count + chunk) = false := by
  obtain ⟨hle, hnear⟩ := h
  rw [isFar_eq_false_iff (by omega)] at hnear ⊢
  omega

theorem readRun_zero (fs : FileSystem) (length offset : Int) (segments : List Segment)
    (position : Nat) : readRun fs length offset segments position 0 = .ok [] := by
  cases segments with
  | nil => rw [readRun, if_pos rfl]
  | cons segment rest => rw [readRun, if_pos rfl]

theorem readRun_cons {fs : FileSystem} {length offset : Int} {segment : Segment}
    {others : List Segment} {position count : Nat} (hcount : 0 < count) :
    readRun fs length offset (segment :: others) position count =
      if segment.stop ≤ position then readRun fs length offset others position count
      else if position < segment.offset then .error (.noContent position length offset)
      else do
        let bytes ← segment.source.read fs (position - segment.offset)
          ↑(min count (segment.stop - position))
        if isFar (length - count + ↑(min count (segment.stop - position))) then .error .tooLong
        else do
          let more ← readRun fs length offset others
            (position + min count (segment.stop - position))
            (count - min count (segment.stop - position))
          return bytes ++ more := by
  rw [readRun, if_neg (by omega)]
  rfl

/-- A run succeeds in one of two ways: it passes the first segment over, or it takes what it can get
from it and goes on with the others. -/
theorem readRun_cons_eq_ok_iff {fs : FileSystem} {length offset : Int} {segment : Segment}
    {others : List Segment} {position count : Nat} {bytes : Bytes} (hcount : 0 < count) :
    readRun fs length offset (segment :: others) position count = .ok bytes ↔
      segment.stop ≤ position ∧ readRun fs length offset others position count = .ok bytes ∨
      segment.offset ≤ position ∧ position < segment.stop ∧ ∃ front back,
        segment.source.read fs (position - segment.offset)
          ↑(min count (segment.stop - position)) = .ok front ∧
        isFar (length - count + ↑(min count (segment.stop - position))) = false ∧
        readRun fs length offset others (position + min count (segment.stop - position))
          (count - min count (segment.stop - position)) = .ok back ∧
        front ++ back = bytes := by
  rw [readRun_cons hcount]
  generalize min count (segment.stop - position) = chunk
  rcases Nat.lt_or_ge position segment.stop with hbefore | hpast
  · rcases Nat.lt_or_ge position segment.offset with hgap | hin
    · simp [hgap, Nat.not_le.mpr hbefore, Nat.not_le.mpr hgap]
    · simp only [Nat.not_le.mpr hbefore, Nat.not_lt.mpr hin, hin, hbefore, if_false, false_and,
        true_and, false_or]
      rcases segment.source.read fs (position - segment.offset) chunk with fault | front
      · simp [bind, Except.bind]
      cases isFar (length - count + chunk) with
      | true => simp [bind, Except.bind]
      | false =>
        rcases readRun fs length offset others (position + chunk) (count - chunk) with fault | back
        · simp [bind, Except.bind]
        · simp [bind, Except.bind, pure, Except.pure]
  · simp [hpast, Nat.not_lt.mpr hpast]

/-- A run of something ends no later than the last segment. -/
theorem stop_le_of_readRun {fs : FileSystem} {length offset : Int} {segments : List Segment}
    {position count hi : Nat} {bytes : Bytes} (hcount : 0 < count)
    (h : readRun fs length offset segments position count = .ok bytes)
    (hsegments : ∀ s ∈ segments, s.stop ≤ hi) : position + count ≤ hi := by
  induction segments generalizing position count bytes with
  | nil =>
    rw [readRun, if_neg (Nat.ne_of_gt hcount)] at h
    cases h
  | cons segment others ih =>
    obtain ⟨hsegment, hothers⟩ := List.forall_mem_cons.mp hsegments
    rcases (readRun_cons_eq_ok_iff hcount).mp h with ⟨-, hrun⟩ | ⟨-, hbefore, _, _, -, -, hrun, -⟩
    · exact ih hcount hrun hothers
    · rcases Nat.le_total count (segment.stop - position) with hwithin | hbeyond
      · omega
      · rw [Nat.min_eq_right hbeyond] at hrun
        rcases Nat.eq_or_lt_of_le hbeyond with heq | hlt
        · omega
        · have hend := ih (Nat.sub_pos_of_lt hlt) hrun hothers
          omega

mutual
/-- A read that succeeds gives as many bytes as were asked for. -/
theorem Source.length_of_read (fs : FileSystem) : ∀ (source : Source) (position : Int)
    (count : Nat) (bytes : Bytes), source.read fs position count = .ok bytes →
    bytes.length = count
  | .file path offset => by
    intro position count bytes h
    obtain ⟨-, -, -, -, -, hlength, -⟩ := readHostFile_eq_ok_iff.mp h
    exact hlength
  | .buffer data start => by
    intro position count bytes h
    exact (full_eq_ok_iff.mp h).1
  | .nested layout offset tag => by
    intro position count bytes h
    rw [Source.read] at h
    split at h
    · cases h
    · exact length_of_readRun fs layout _ _ _ _ _ h
  | .fill filler => by
    intro position count bytes h
    rw [Source.read] at h
    split at h
    · cases h
    · cases h
      exact List.length_replicate

/-- A run that succeeds gives as many bytes as were asked for. -/
theorem length_of_readRun (fs : FileSystem) : ∀ (segments : List Segment) (length offset : Int)
    (position count : Nat) (bytes : Bytes),
    readRun fs length offset segments position count = .ok bytes → bytes.length = count
  | [] => by
    intro length offset position count bytes h
    rw [readRun] at h
    split at h
    · next hzero =>
      cases h
      exact hzero.symm
    · cases h
  | ⟨start, size, source⟩ :: others => by
    intro length offset position count bytes h
    rcases Nat.eq_zero_or_pos count with rfl | hcount
    · rw [readRun_zero] at h
      cases h
      rfl
    rcases (readRun_cons_eq_ok_iff hcount).mp h with
      ⟨-, hrun⟩ | ⟨-, -, front, back, hfront, -, hback, rfl⟩
    · exact length_of_readRun fs others _ _ _ _ _ hrun
    · have hfrontLength := Source.length_of_read fs source _ _ _ hfront
      have hbackLength := length_of_readRun fs others _ _ _ _ _ hback
      rw [List.length_append, hfrontLength, hbackLength]
      omega
end

/-- **A run that gives something is joinable**: the last piece that it takes brings the bytes read to
the length of the whole read. -/
theorem joinable_of_readRun {fs : FileSystem} {length offset : Int} {segments : List Segment}
    {position count : Nat} {bytes : Bytes} (hcount : 0 < count) (hle : count ≤ length)
    (h : readRun fs length offset segments position count = .ok bytes) : Joinable length count := by
  induction segments generalizing position count bytes with
  | nil =>
    rw [readRun, if_neg (Nat.ne_of_gt hcount)] at h
    cases h
  | cons segment others ih =>
    rcases (readRun_cons_eq_ok_iff hcount).mp h with
      ⟨-, hrun⟩ | ⟨-, hbefore, _, _, -, hnear, hrun, -⟩
    · exact ih hcount hle hrun
    · refine ⟨hle, ?_⟩
      rcases Nat.lt_or_ge (segment.stop - position) count with hmore | hlast
      · rw [Nat.min_eq_right (Nat.le_of_lt hmore)] at hrun
        exact (ih (Nat.sub_pos_of_lt hmore) (by omega) hrun).2
      · rwa [Nat.min_eq_left hlast, Int.sub_add_cancel] at hnear

/-- A run of one byte past the first segment goes on with the others. -/
theorem readRun_skip {fs : FileSystem} {length offset : Int} {segment : Segment}
    {others : List Segment} {position : Nat} (h : segment.stop ≤ position) :
    readRun fs length offset (segment :: others) position 1 =
      readRun fs length offset others position 1 := by
  rw [readRun_cons Nat.one_pos, if_pos h]

/-- A run of one byte fails in front of the first segment. -/
theorem readRun_gap {fs : FileSystem} {length offset : Int} {segment : Segment}
    {others : List Segment} {position : Nat} (h : position < segment.offset) :
    readRun fs length offset (segment :: others) position 1 =
      .error (.noContent position length offset) := by
  have hstop := segment.offset_le_stop
  rw [readRun_cons Nat.one_pos, if_neg (by omega), if_pos h]

/-- A read of one byte at a position of the first segment reads that segment. -/
theorem readRun_enter {fs : FileSystem} {offset : Int} {segment : Segment}
    {others : List Segment} {position : Nat} (hlo : segment.offset ≤ position)
    (hhi : position < segment.stop) :
    readRun fs 1 offset (segment :: others) position 1 =
      segment.source.read fs (position - segment.offset) 1 := by
  rw [readRun_cons Nat.one_pos, if_neg (by omega), if_neg (by omega),
    show min 1 (segment.stop - position) = 1 by omega, Nat.sub_self, readRun_zero]
  change (segment.source.read fs (position - segment.offset) 1 >>= fun bytes => .ok (bytes ++ []))
    = _
  rcases segment.source.read fs (position - segment.offset) 1 with fault | bytes
  · rfl
  · exact congrArg Except.ok (List.append_nil bytes)

/-- What single reads give through the first segment and the others, one run gives, if that holds of
the source of the first segment and of the others. -/
theorem readRun_cons_of_yields {fs : FileSystem} {segment : Segment} {others : List Segment}
    (hsource : ∀ (position : Int) (bytes : Bytes), bytes ≠ [] → isFar bytes.length = false →
      segment.source.Yields fs position bytes →
      segment.source.read fs position bytes.length = .ok bytes)
    (hothers : ∀ (position : Nat) (bytes : Bytes),
      (∀ (i : Nat) (byte : UInt8), bytes[i]? = some byte →
        ∃ offset, readRun fs 1 offset others (position + i) 1 = .ok [byte]) →
      ∀ length offset : Int, Joinable length bytes.length →
        readRun fs length offset others position bytes.length = .ok bytes)
    (position : Nat) (bytes : Bytes)
    (h : ∀ (i : Nat) (byte : UInt8), bytes[i]? = some byte →
      ∃ offset, readRun fs 1 offset (segment :: others) (position + i) 1 = .ok [byte])
    (length offset : Int) (hlength : Joinable length bytes.length) :
    readRun fs length offset (segment :: others) position bytes.length = .ok bytes := by
  rcases Nat.eq_zero_or_pos bytes.length with hzero | hpositive
  · rw [List.eq_nil_of_length_eq_zero hzero]
    exact readRun_zero ..
  rw [readRun_cons hpositive]
  rcases Nat.lt_or_ge position segment.stop with hbefore | hpast
  · rw [if_neg (Nat.not_le.mpr hbefore)]
    -- in a gap the first byte alone would fail
    have hlo : segment.offset ≤ position := by
      refine Nat.le_of_not_lt fun hgap => ?_
      obtain ⟨o, hfirst⟩ := h 0 _ (List.getElem?_eq_getElem hpositive)
      rw [Nat.add_zero, readRun_gap hgap] at hfirst
      cases hfirst
    rw [if_neg (Nat.not_lt.mpr hlo)]
    -- the run takes `chunk` bytes from the first segment and the others from what follows it
    generalize hchunk : min bytes.length (segment.stop - position) = chunk
    have htake : (bytes.take chunk).length = chunk := by
      rw [List.length_take]
      omega
    have hdrop : (bytes.drop chunk).length = bytes.length - chunk := List.length_drop
    have hfront : segment.source.read fs (position - segment.offset) chunk =
        .ok (bytes.take chunk) := by
      have hread := hsource (position - segment.offset) (bytes.take chunk)
        (List.ne_nil_of_length_pos (by omega))
        (hlength.of_le (by omega)).near ?_
      · rwa [htake] at hread
      intro i byte hbyte
      rw [List.getElem?_take] at hbyte
      split at hbyte
      · obtain ⟨o, hone⟩ := h i byte hbyte
        rw [readRun_enter (by omega) (by omega)] at hone
        rw [← hone]
        congr 1
        omega
      · cases hbyte
    have hback : readRun fs length offset others (position + chunk) (bytes.length - chunk) =
        .ok (bytes.drop chunk) := by
      rw [← hdrop]
      refine hothers _ _ (fun i byte hbyte => ?_) length offset (hlength.of_le (by omega))
      have hi : i < (bytes.drop chunk).length := (List.getElem?_eq_some_iff.mp hbyte).1
      rw [List.getElem?_drop] at hbyte
      obtain ⟨o, hone⟩ := h (chunk + i) byte hbyte
      rw [readRun_skip (by omega), ← Nat.add_assoc] at hone
      exact ⟨o, hone⟩
    rw [hfront, hback, hlength.isFar_part (by omega)]
    exact congrArg Except.ok (List.take_append_drop chunk bytes)
  · rw [if_pos hpast]
    refine hothers _ _ (fun i byte hbyte => ?_) length offset hlength
    obtain ⟨o, hone⟩ := h i byte hbyte
    rw [readRun_skip (by omega)] at hone
    exact ⟨o, hone⟩

mutual
/-- **One read gives what single reads give.** -/
theorem Source.read_of_yields (fs : FileSystem) : ∀ (source : Source) (position : Int)
    (bytes : Bytes), bytes ≠ [] → isFar bytes.length = false →
    source.Yields fs position bytes → source.read fs position bytes.length = .ok bytes
  | .file path offset => by
    intro position bytes hne hlength h
    refine readHostFile_of_ones hne hlength fun i byte hbyte => ?_
    have hone := h i byte hbyte
    rwa [Source.read, ← Int.add_assoc] at hone
  | .buffer data start => by
    intro position bytes hne _ h
    refine readBuffer_of_ones hne fun i byte hbyte => ?_
    have hone := h i byte hbyte
    rwa [Source.read, ← Int.add_assoc] at hone
  | .nested layout offset tag => by
    intro position bytes hne hlength h
    obtain ⟨first, rest, rfl⟩ := List.exists_cons_of_ne_nil hne
    -- a run that starts in front of the inner file fails at its first byte
    have hnatural : 0 ≤ offset + position := by
      refine Int.not_lt.mp fun hneg => ?_
      have hfirst := h 0 first rfl
      rw [Source.read, if_pos (.inl (by simpa using hneg))] at hfirst
      cases hfirst
    rw [Source.read, if_neg (by omega), Int.toNat_natCast]
    refine readRun_of_yields fs layout _ _ (fun i byte hbyte => ?_) _ _ (joinable_self hlength)
    have hone := h i byte hbyte
    rw [Source.read, if_neg (by omega)] at hone
    rw [show (offset + position).toNat + i = (offset + (position + i)).toNat by omega]
    exact ⟨_, hone⟩
  | .fill filler => by
    intro position bytes _ hlength h
    rw [Source.read, hlength, if_neg Bool.false_ne_true, Int.toNat_natCast]
    refine congrArg Except.ok (List.eq_replicate_iff.mpr ⟨rfl, fun byte hbyte => ?_⟩).symm
    obtain ⟨i, hi⟩ := List.getElem?_of_mem hbyte
    have hone : [filler] = [byte] := Except.ok.inj (h i byte hi)
    exact (List.cons.inj hone).1.symm

/-- One run gives what reads of one byte give, whatever read it is part of. -/
theorem readRun_of_yields (fs : FileSystem) : ∀ (segments : List Segment) (position : Nat)
    (bytes : Bytes), (∀ (i : Nat) (byte : UInt8), bytes[i]? = some byte →
      ∃ offset, readRun fs 1 offset segments (position + i) 1 = .ok [byte]) →
    ∀ length offset : Int, Joinable length bytes.length →
      readRun fs length offset segments position bytes.length = .ok bytes
  | [] => by
    intro position bytes h length offset _
    rcases bytes with _ | ⟨first, rest⟩
    · exact readRun_zero ..
    · obtain ⟨o, hfirst⟩ := h 0 first rfl
      rw [readRun, if_neg (by decide)] at hfirst
      cases hfirst
  | ⟨start, size, source⟩ :: others => by
    exact readRun_cons_of_yields (Source.read_of_yields fs source) (readRun_of_yields fs others)
end

end DiscPatch
