import DiscPatch.Command.Run
import DiscPatch.Proofs.Content.Pointwise

/-!
# How a read fails

A read of a layout goes down through other layouts until it comes to something that has bytes of its
own. What it asks for there is settled before any host file is opened: it is a list of fetches, which
are carried out one after the other. The first that fails is what the read fails with.

* `Fetch`, `Fetch.answer` — what is asked for in one place, and what comes of it;
* `Source.fetches`, `runFetches`, `Layout.fetches` — all that a read asks for, in order;
* `carryOut`, `Layout.read_eq_carryOut` — a read carries out its fetches;
* `carryOut_eq_error_iff` — fetches fail with the first that fails;
* `Fetch.Balks` — the host path holds a NUL, a number that is handed on has no 64-bit form, or there
  are too many bytes to be kept in one piece;
* `Layout.read_fails_iff` — a read gives all bytes or fails, and a failure is one of content unless
  the first fetch that fails balks.
-/

namespace DiscPatch

open DiscPatch.Host (FileSystem hasNul)
open Command (isContentError)

/-- What a read asks for in one place. -/
inductive Fetch where
  /-- a stretch of a host file -/
  | file (path : String) (position : Int) (count : Nat)
  /-- a stretch of a buffer -/
  | buffer (data : Bytes) (position : Int) (count : Nat)
  /-- the same byte over and over -/
  | fill (byte : UInt8) (count : Nat)
  /-- a position that no segment serves, as part of a read of `length` bytes at `offset` -/
  | gap (position : Nat) (length offset : Int)
  /-- a read in front of the start, or of a negative number of bytes -/
  | outside (length offset : Int)
  /-- no bytes, but that the `count` bytes so far are kept in one piece -/
  | join (count : Int)

/-- What comes of a fetch. -/
def Fetch.answer (fs : FileSystem) : Fetch → Except ReadFault Bytes
  | .file path position count => readHostFile fs path position count
  | .buffer data position count => readBuffer data position count
  | .fill byte count =>
    if isFar count then .error .farCount else .ok (List.replicate count byte)
  | .gap position length offset => .error (.noContent position length offset)
  | .outside length offset => .error (.badRange length offset)
  | .join count => if isFar count then .error .tooLong else .ok []

/-- Fetches one after the other, up to the first that fails. -/
def carryOut (fs : FileSystem) : List Fetch → Except ReadFault Bytes
  | [] => .ok []
  | fetch :: rest => do
    let bytes ← fetch.answer fs
    let others ← carryOut fs rest
    return bytes ++ others

mutual
/-- What a read of `count` bytes asks for, starting `delta` positions into a source. -/
def Source.fetches : Source → Int → Nat → List Fetch
  | .file path offset, delta, count => [.file path (offset + delta) count]
  | .buffer data start, delta, count => [.buffer data (start + delta) count]
  | .nested layout offset _, delta, count =>
    if offset + delta < 0 then [.outside count (offset + delta)]
    else runFetches count (offset + delta) layout (offset + delta).toNat count
  | .fill byte, _, count => [.fill byte count]

/-- What a run of `remaining` bytes from `position` on asks for. It ends at the first gap. -/
def runFetches (length offset : Int) : List (Placed Source) → Nat → Nat → List Fetch
  | [], position, remaining => if remaining = 0 then [] else [.gap position length offset]
  | ⟨start, size, source⟩ :: rest, position, remaining =>
    if remaining = 0 then []
    else if start + size ≤ position then runFetches length offset rest position remaining
    else if position < start then [.gap position length offset]
    else
      let chunk := min remaining (start + size - position)
      source.fetches (position - start) chunk ++ .join (length - remaining + chunk) ::
        runFetches length offset rest (position + chunk) (remaining - chunk)
end

/-- What a read of a layout asks for. -/
def Layout.fetches (layout : Layout) (offset length : Int) : List Fetch :=
  if offset < 0 ∨ length < 0 then [.outside length offset]
  else runFetches length offset layout.segments offset.toNat length.toNat

/-! ## Reads carry out their fetches -/

section CarryOut

variable {fs : FileSystem}

@[simp] theorem carryOut_nil : carryOut fs [] = .ok [] := rfl

theorem carryOut_cons (fetch : Fetch) (rest : List Fetch) :
    carryOut fs (fetch :: rest) = do
      let bytes ← fetch.answer fs
      let others ← carryOut fs rest
      return bytes ++ others := rfl

@[simp] theorem carryOut_singleton (fetch : Fetch) : carryOut fs [fetch] = fetch.answer fs := by
  rw [carryOut_cons]
  rcases fetch.answer fs with fault | bytes
  · rfl
  · exact congrArg Except.ok (List.append_nil bytes)

theorem carryOut_join (count : Int) (rest : List Fetch) :
    carryOut fs (.join count :: rest) =
      if isFar count then .error .tooLong else carryOut fs rest := by
  rw [carryOut_cons, Fetch.answer]
  split
  · rfl
  · rcases carryOut fs rest with fault | bytes <;> rfl

theorem carryOut_append (front back : List Fetch) :
    carryOut fs (front ++ back) = do
      let bytes ← carryOut fs front
      let others ← carryOut fs back
      return bytes ++ others := by
  induction front with
  | nil =>
    rw [List.nil_append]
    rcases carryOut fs back with fault | others <;> rfl
  | cons fetch rest ih =>
    rw [List.cons_append, carryOut_cons, carryOut_cons, ih]
    rcases fetch.answer fs with fault | first
    · rfl
    rcases carryOut fs rest with fault | more
    · rfl
    rcases carryOut fs back with fault | others
    · rfl
    · exact congrArg Except.ok (List.append_assoc first more others).symm

mutual
/-- A read of a source carries out its fetches. -/
theorem Source.read_eq_carryOut (fs : FileSystem) : ∀ (source : Source) (delta : Int) (count : Nat),
    source.read fs delta count = carryOut fs (source.fetches delta count)
  | .file path offset => fun delta count => by
    rw [Source.fetches, carryOut_singleton, Source.read, Fetch.answer]
  | .buffer data start => fun delta count => by
    rw [Source.fetches, carryOut_singleton, Source.read, Fetch.answer]
  | .nested layout offset tag => fun delta count => by
    rw [Source.read, Source.fetches]
    rcases Int.lt_or_le (offset + delta) 0 with hnegative | hnatural
    · rw [if_pos (.inl hnegative), if_pos hnegative, carryOut_singleton, Fetch.answer]
    · rw [if_neg (by omega), if_neg (by omega), Int.toNat_natCast]
      exact readRun_eq_carryOut fs layout _ _ _ _
  | .fill byte => fun delta count => by
    rw [Source.fetches, carryOut_singleton, Source.read, Fetch.answer, Int.toNat_natCast]

/-- A run carries out its fetches. -/
theorem readRun_eq_carryOut (fs : FileSystem) : ∀ (segments : List Segment) (length offset : Int)
    (position count : Nat), readRun fs length offset segments position count =
      carryOut fs (runFetches length offset segments position count)
  | [] => fun length offset position count => by
    rw [readRun, runFetches]
    split
    · rfl
    · rw [carryOut_singleton, Fetch.answer]
  | ⟨start, size, source⟩ :: others => fun length offset position count => by
    rw [readRun, runFetches]
    split
    · rfl
    split
    · exact readRun_eq_carryOut fs others _ _ _ _
    split
    · rw [carryOut_singleton, Fetch.answer]
    · rw [carryOut_append, carryOut_join, ← Source.read_eq_carryOut fs source,
        ← readRun_eq_carryOut fs others]
      dsimp only
      generalize min count (start + size - position) = chunk
      rcases source.read fs (position - start) chunk with fault | bytes
      · rfl
      · cases isFar (length - count + chunk) <;> rfl
end

/-- **A read carries out its fetches.** -/
theorem Layout.read_eq_carryOut (layout : Layout) (fs : FileSystem) (offset length : Int) :
    layout.read fs offset length = carryOut fs (layout.fetches offset length) := by
  rw [Layout.read, Layout.fetches]
  split
  · rw [carryOut_singleton, Fetch.answer]
  · exact readRun_eq_carryOut fs ..

/-- **Fetches fail with the first that fails.** -/
theorem carryOut_eq_error_iff {fetches : List Fetch} {fault : ReadFault} :
    carryOut fs fetches = .error fault ↔ ∃ front fetch back, fetches = front ++ fetch :: back ∧
      (∀ earlier ∈ front, ∃ bytes, earlier.answer fs = .ok bytes) ∧
      fetch.answer fs = .error fault := by
  constructor
  · intro h
    induction fetches with
    | nil => cases h
    | cons fetch rest ih =>
      rw [carryOut_cons] at h
      rcases hfetch : fetch.answer fs with other | bytes
      · rw [hfetch] at h
        cases h
        exact ⟨[], fetch, rest, rfl, by simp, hfetch⟩
      · rcases hrest : carryOut fs rest with other | others
        · rw [hfetch, hrest] at h
          cases h
          obtain ⟨front, failed, back, rfl, hfront, hfailed⟩ := ih hrest
          exact ⟨fetch :: front, failed, back, rfl,
            List.forall_mem_cons.mpr ⟨⟨bytes, hfetch⟩, hfront⟩, hfailed⟩
        · rw [hfetch, hrest] at h
          cases h
  · rintro ⟨front, fetch, back, rfl, hfront, hfetch⟩
    induction front with
    | nil =>
      rw [List.nil_append, carryOut_cons, hfetch]
      rfl
    | cons first rest ih =>
      obtain ⟨⟨bytes, hfirst⟩, hrest⟩ := List.forall_mem_cons.mp hfront
      rw [List.cons_append, carryOut_cons, hfirst, ih hrest]
      rfl

end CarryOut

/-! ## Failures that are not about content -/

/-- A fetch fails without anything being wrong with the content: the host path holds a NUL, a
position or a number of bytes that has no 64-bit form is handed on, or there are too many bytes to be
kept in one piece. -/
inductive Fetch.Balks (fs : FileSystem) : Fetch → ReadFault → Prop where
  /-- no host file can be opened under that path -/
  | nul {path : String} {position : Int} {count : Nat} (hpath : hasNul path = true) :
    Balks fs (.file path position count) .nulInPath
  /-- the file is open, and cannot be positioned there -/
  | position {path : String} {position : Int} {count : Nat} {data : Bytes}
    (hdata : fs.readFile path = .ok data) (hposition : isFar position = true) :
    Balks fs (.file path position count) .farPosition
  /-- the file is open and positioned, and cannot be asked for that many bytes -/
  | count {path : String} {position : Int} {count : Nat} {data : Bytes}
    (hdata : fs.readFile path = .ok data) (hposition : isFar position = false)
    (hnatural : 0 ≤ position) (hcount : isFar count = true) :
    Balks fs (.file path position count) .farCount
  /-- a byte cannot be repeated that many times -/
  | repeats {byte : UInt8} {count : Nat} (hcount : isFar count = true) :
    Balks fs (.fill byte count) .farCount
  /-- that many bytes cannot be kept in one piece -/
  | joins {count : Int} (hcount : isFar count = true) : Balks fs (.join count) .tooLong

section Balks

variable {fs : FileSystem}

theorem readFile_eq_nulInPath_iff {path : String} :
    fs.readFile path = .error .nulInPath ↔ hasNul path = true := by
  unfold FileSystem.readFile FileSystem.find
  cases hasNul path with
  | true => simp
  | false =>
    rcases fs.walk true path with code | ⟨trail, _ | entry⟩
    · simp
    · simp
    · cases entry <;> simp

/-- A read of a host file balks, or what it fails with is a failure of content. -/
theorem readHostFile_balks_iff {path : String} {position : Int} {count : Nat} {fault : ReadFault} :
    readHostFile fs path position count = .error fault ∧ isContentError (.read fault) = false ↔
      Fetch.Balks fs (.file path position count) fault := by
  constructor
  · rintro ⟨hread, hcontent⟩
    unfold readHostFile at hread
    split at hread
    · next hnul =>
      cases hread
      exact .nul (readFile_eq_nulInPath_iff.mp hnul)
    · cases hread
      cases hcontent
    · next data hdata =>
      split at hread
      · next hposition =>
        cases hread
        exact .position hdata hposition
      split at hread
      · cases hread
        cases hcontent
      split at hread
      · next hposition hnatural hcount =>
        cases hread
        exact .count hdata (Bool.eq_false_iff.mpr hposition) (Int.not_lt.mp hnatural) hcount
      split at hread
      · omega
      dsimp only at hread
      -- the file was asked in earnest, and is too short
      generalize (if (count : Int) = -1 then _ else _ : Bytes) = got at hread
      split at hread
      · cases hread
      · cases hread
        cases hcontent
  · intro h
    cases h with
    | nul hpath =>
      rw [readHostFile, readFile_eq_nulInPath_iff.mpr hpath]
      exact ⟨rfl, rfl⟩
    | position hdata hposition =>
      rw [readHostFile, hdata]
      dsimp only
      rw [if_pos hposition]
      exact ⟨rfl, rfl⟩
    | count hdata hposition hnatural hcount =>
      rw [readHostFile, hdata]
      dsimp only
      rw [if_neg (Bool.eq_false_iff.mp hposition), if_neg (Int.not_lt.mpr hnatural), if_pos hcount]
      exact ⟨rfl, rfl⟩

/-- A fetch balks, or what it fails with is a failure of content. -/
theorem Fetch.balks_iff {fetch : Fetch} {fault : ReadFault} :
    fetch.answer fs = .error fault ∧ isContentError (.read fault) = false ↔ fetch.Balks fs fault := by
  cases fetch with
  | file path position count => exact readHostFile_balks_iff
  | fill byte count =>
    rw [answer]
    constructor
    · rintro ⟨hanswer, -⟩
      split at hanswer
      · next hcount =>
        cases hanswer
        exact .repeats hcount
      · cases hanswer
    · intro h
      cases h with
      | repeats hcount =>
        rw [if_pos hcount]
        exact ⟨rfl, rfl⟩
  | buffer data position count =>
    constructor
    · rintro ⟨hanswer, hcontent⟩
      rw [answer, readBuffer] at hanswer
      split at hanswer
      · cases hanswer
      · cases hanswer
        cases hcontent
    · intro h
      cases h
  | gap position length offset =>
    constructor
    · rintro ⟨⟨⟩, ⟨⟩⟩
    · intro h
      cases h
  | outside length offset =>
    constructor
    · rintro ⟨⟨⟩, ⟨⟩⟩
    · intro h
      cases h
  | join count =>
    rw [answer]
    constructor
    · rintro ⟨hanswer, -⟩
      split at hanswer
      · next hcount =>
        cases hanswer
        exact .joins hcount
      · cases hanswer
    · intro h
      cases h with
      | joins hcount =>
        rw [if_pos hcount]
        exact ⟨rfl, rfl⟩

end Balks

/-- **How a read ends.** A read that succeeds gives exactly as many bytes as it was asked for. It
fails in a way that is not about content exactly if one of its fetches balks, all fetches in front of
it having been answered; any other failure is one of content. -/
theorem Layout.read_fails_iff (layout : Layout) (fs : FileSystem) (offset length : Int) :
    (∀ bytes, layout.read fs offset length = .ok bytes → (bytes.length : Int) = length) ∧
    ∀ fault, layout.read fs offset length = .error fault ∧ isContentError (.read fault) = false ↔
      ∃ front fetch back, layout.fetches offset length = front ++ fetch :: back ∧
        (∀ earlier ∈ front, ∃ bytes, earlier.answer fs = .ok bytes) ∧ fetch.Balks fs fault := by
  refine ⟨fun bytes h => ?_, fun fault => ?_⟩
  · obtain ⟨-, hlength, hrun⟩ := Layout.read_eq_ok_iff.mp h
    have hbytes := length_of_readRun fs _ _ _ _ _ _ hrun
    omega
  · rw [Layout.read_eq_carryOut, carryOut_eq_error_iff]
    simp only [← Fetch.balks_iff]
    constructor
    · rintro ⟨⟨front, fetch, back, hfetches, hfront, hfetch⟩, hcontent⟩
      exact ⟨front, fetch, back, hfetches, hfront, hfetch, hcontent⟩
    · rintro ⟨front, fetch, back, hfetches, hfront, hfetch, hcontent⟩
      exact ⟨⟨front, fetch, back, hfetches, hfront, hfetch⟩, hcontent⟩

/-- Two bytes that can be had, and behind them a layout over a host path with a NUL in it: the read
fails, and not in a way that is about content. -/
theorem Layout.read_fails_iff_nul :
    let fs : FileSystem := ⟨[], []⟩
    let layout : Layout := ⟨[⟨0, 2, .fill 7⟩, ⟨2, 1, .nested [⟨0, 1, .file "a\x00" 0⟩] 0 0⟩],
      by decide, by decide⟩
    layout.read fs 0 3 = .error .nulInPath ∧ isContentError (.read .nulInPath) = false := by
  intro fs layout
  refine ((Layout.read_fails_iff layout fs 0 3).2 .nulInPath).mpr
    ⟨[.fill 7 2, .join 2], .file "a\x00" 0 1, [.join 1, .join 3], rfl, ?_, .nul (by decide +kernel)⟩
  exact List.forall_mem_cons.mpr ⟨⟨[7, 7], rfl⟩, List.forall_mem_singleton.mpr ⟨[], rfl⟩⟩

end DiscPatch
