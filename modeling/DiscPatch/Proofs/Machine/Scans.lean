import DiscPatch.Proofs.Machine.Addresses
import Mathlib.Order.Bounds.Basic

/-!
# What a scan of memory finds

A search tries places that are a stride apart, a branch looks for its pattern and for a return
instruction word by word. Both take the first place that serves, and the second scan of a branch
starts where the first one ended and never goes back.

* `strideMatches`, `wordMatches` — the places in a range where bytes stand;
* `searching` — all that a search can come to; `writeFound_exact` says what it writes;
* `Branching` — all that placing a branch can come to; `placeBranch_exact` says when it succeeds,
  and that nothing is missed by not going back.
-/

namespace DiscPatch.Machine

open Edit

/-! ## The first number that passes a test -/

theorem isLeast_of_firstFrom {test : Nat → Bool} {count start k : Nat}
    (h : firstFrom test count start = some k) :
    IsLeast {k | start ≤ k ∧ k < start + count ∧ test k = true} k := by
  induction count generalizing start with
  | zero => cases h
  | succ count ih =>
    rw [firstFrom] at h
    split at h
    · next hpasses =>
      cases h
      exact ⟨⟨le_refl _, by omega, hpasses⟩, fun other hother => hother.1⟩
    · next hfails =>
      obtain ⟨⟨hlo, hhi, hpasses⟩, hleast⟩ := ih h
      refine ⟨⟨by omega, by omega, hpasses⟩, ?_⟩
      rintro other ⟨hother, hlt, hpassed⟩
      -- the first number fails, so that another one that passes comes after it
      have hne : other ≠ start := by
        rintro rfl
        exact hfails hpassed
      exact hleast ⟨by omega, by omega, hpassed⟩

theorem firstFrom_eq_none {test : Nat → Bool} {count start : Nat}
    (h : firstFrom test count start = none) {k : Nat} (hlo : start ≤ k) (hhi : k < start + count) :
    ¬ test k = true := by
  induction count generalizing start with
  | zero => omega
  | succ count ih =>
    rw [firstFrom] at h
    split at h
    · cases h
    · next hfails =>
      rcases Nat.eq_or_lt_of_le hlo with rfl | hlt
      · exact hfails
      · exact ih h hlt (by omega)

/-! ## Searches -/

section Searches

variable {μ : Type} [Image μ]

/-- How many strides from `start` the bytes stand, where the next stride still lies in the range. -/
def strideMatches (image : μ) (bytes : Bytes) (stride start length : Int) : Set Nat :=
  {k | (k + 1) * stride ≤ length ∧ Stands image (start + k * stride) bytes}

theorem lt_toNat_ediv_iff {length stride : Int} (hstride : 0 < stride) {k : Nat} :
    k < (length / stride).toNat ↔ ((k : Int) + 1) * stride ≤ length := by
  rw [Int.lt_toNat, ← Int.add_one_le_iff, Int.le_ediv_iff_mul_le hstride]

/-- The outcome of a search: that of a plain write at the first place where the bytes stand, apart
from the manner, or nothing if there is none. -/
theorem searching (value : Bytes) {expected : Bytes} {stride : Int} (start length : Int)
    (hexpected : expected ≠ []) (hstride : 0 < stride) (machine : Machine μ) :
    (∃ k, IsLeast (strideMatches machine.image expected stride start length) k ∧
      (writeFound value expected stride start length).outcome machine =
        (((writeDirect (start + k * stride) value []).outcome machine).1.map
            fun report => { report with manner := .search },
          ((writeDirect (start + k * stride) value []).outcome machine).2)) ∨
    strideMatches machine.image expected stride start length = ∅ ∧
      (writeFound value expected stride start length).outcome machine =
        (.ok (.idle .search .patternNotFound none), machine) := by
  have hmem (k : Nat) : k ∈ strideMatches machine.image expected stride start length ↔
      0 ≤ k ∧ k < 0 + (length / stride).toNat ∧
        matchesAt machine.image (start + k * stride) expected = true := by
    rw [Nat.zero_add, lt_toNat_ediv_iff hstride, matchesAt_iff]
    exact ⟨fun h => ⟨Nat.zero_le k, h⟩, fun h => h.2⟩
  rw [outcome_writeFound, if_neg (by rintro (h | h); exacts [hexpected h, by omega])]
  rcases hfound : firstFrom (fun k => matchesAt machine.image (start + k * stride) expected)
    (length / stride).toNat 0 with _ | k
  · refine .inr ⟨?_, rfl⟩
    apply Set.eq_empty_of_forall_notMem
    intro k hk
    obtain ⟨hlo, hhi, hmatches⟩ := (hmem k).mp hk
    exact firstFrom_eq_none hfound hlo hhi hmatches
  · refine .inl ⟨k, ?_, rfl⟩
    rw [show strideMatches machine.image expected stride start length = _ from Set.ext hmem]
    exact isLeast_of_firstFrom hfound

end Searches

/-- A plain write changes nothing outside the range it is asked to write. -/
theorem sameOutside_writeDirect (address : Int) (value expected : Bytes)
    (machine : Machine Region) :
    Region.SameOutside address (address + value.length) machine.image
      ((writeDirect address value expected).outcome machine).2.image := by
  rw [outcome_writeDirect]
  split
  · exact .refl ..
  split
  · exact .refl ..
  · exact sameOutside_writeBytes machine.image address value

/-- **A search writes over the first occurrence, and only there.** If there is an occurrence at a
place that is tried, then the search does what a plain write at the first such place does, apart
from the manner it reports; without a value it changes nothing. If there is none, it changes nothing
and reports no address. -/
theorem writeFound_exact (value expected : Bytes) (stride start length : Int)
    (machine : Machine Region) (hexpected : expected ≠ []) (hstride : 0 < stride) :
    let run := (writeFound value expected stride start length).outcome machine
    let places := strideMatches machine.image expected stride start length
    (places.Nonempty → ∃ k, IsLeast places k ∧
      let address := start + k * stride
      let direct := (writeDirect address value []).outcome machine
      run = (direct.1.map fun report => { report with manner := .search }, direct.2) ∧
        (value = [] → run = (.ok (.idle .search .skipped (some address)), machine)) ∧
        Region.SameOutside address (address + value.length) machine.image run.2.image) ∧
    (places = ∅ → run = (.ok (.idle .search .patternNotFound none), machine)) := by
  intro run places
  rcases searching value start length hexpected hstride machine with
    ⟨k, hleast, hrun⟩ | ⟨hnone, hrun⟩
  · constructor
    · intro _
      refine ⟨k, hleast, hrun, ?_, ?_⟩
      · rintro rfl
        rw [show run = _ from hrun, outcome_writeDirect, if_pos rfl]
        rfl
      · rw [show run = _ from hrun]
        exact sameOutside_writeDirect _ value [] machine
    · intro hempty
      exact absurd hleast.1 (Set.eq_empty_iff_forall_notMem.mp hempty k)
  · constructor
    · intro hsome
      exact absurd hnone hsome.ne_empty
    · intro _
      exact hrun

/-- The bytes stand at the addresses 2, 4 and 6; the search tries 0, which is not mapped, and 4. -/
theorem writeFound_exact_unaligned :
    let machine : Machine Region := ⟨⟨2, #[0x11, 0x22, 0x11, 0x22, 0x11, 0x22]⟩, [⟨4, 6, "a"⟩]⟩
    IsLeast (strideMatches machine.image [0x11, 0x22] 4 0 8) 1 ∧
      ((writeFound [0xAA] [0x11, 0x22] 4 0 8).outcome machine).1 =
        .ok ⟨.search, .applied, some 4, 1, 1⟩ := by
  intro machine
  have hplace : 1 ∈ strideMatches machine.image [0x11, 0x22] 4 0 8 :=
    ⟨by decide, matchesAt_iff.mp (by decide)⟩
  have hunmapped : 0 ∉ strideMatches machine.image [0x11, 0x22] 4 0 8 := by
    rintro ⟨-, hstands⟩
    exact absurd (matchesAt_iff.mpr hstands) (by decide)
  obtain ⟨k, hleast, hrun, -⟩ :=
    (writeFound_exact [0xAA] [0x11, 0x22] 4 0 8 machine (by decide) (by decide)).1 ⟨1, hplace⟩
  have hle : k ≤ 1 := hleast.2 hplace
  have hne : k ≠ 0 := by
    rintro rfl
    exact hunmapped hleast.1
  obtain rfl : k = 1 := by omega
  refine ⟨hleast, ?_⟩
  rw [hrun]
  decide

/-! ## Branches -/

section Branches

variable {μ : Type} [Image μ]

/-- How far into the range, in whole words, the bytes stand. -/
def wordMatches (image : μ) (bytes : Bytes) (start length : Int) : Set Int :=
  {i | 0 ≤ i ∧ i < length ∧ (wordSize : Int) ∣ i ∧ Stands image (start + i) bytes}

theorem lt_countSteps_iff {length : Int} {k : Nat} :
    k < countSteps length wordSize ↔ (k : Int) * wordSize < length := by
  simp only [countSteps, wordSize]
  omega

theorem mem_wordMatches_iff {image : μ} {bytes : Bytes} {start length i : Int} :
    i ∈ wordMatches image bytes start length ↔
      ∃ k : Nat, i = k * wordSize ∧ k < countSteps length wordSize ∧
        Stands image (start + k * wordSize) bytes := by
  constructor
  · rintro ⟨hlo, hhi, ⟨k, rfl⟩, hstands⟩
    have hk : 0 ≤ k := by
      simp only [wordSize] at hlo
      omega
    obtain ⟨n, rfl⟩ := Int.eq_ofNat_of_zero_le hk
    rw [Int.mul_comm] at hhi hstands
    exact ⟨n, Int.mul_comm .., lt_countSteps_iff.mpr hhi, hstands⟩
  · rintro ⟨k, rfl, hk, hstands⟩
    exact ⟨Int.natCast_nonneg (k * wordSize), lt_countSteps_iff.mp hk, Int.dvd_mul_left .., hstands⟩

section Scan

variable {image : μ} {bytes : Bytes} {start length : Int} {test : Nat → Bool}
  (htest : ∀ k : Nat, test k = true ↔ Stands image (start + k * wordSize) bytes)

include htest

/-- A scan from the word `first` on finds the first place from there on. -/
theorem isLeast_wordMatches (first : Nat) {k : Nat}
    (h : firstFrom test (countSteps length wordSize - first) first = some k) :
    IsLeast {j ∈ wordMatches image bytes start length | (first : Int) * wordSize ≤ j}
      (k * wordSize) := by
  obtain ⟨⟨hlo, hhi, hpasses⟩, hleast⟩ := isLeast_of_firstFrom h
  refine ⟨⟨mem_wordMatches_iff.mpr ⟨k, rfl, by omega, (htest k).mp hpasses⟩, ?_⟩, ?_⟩
  · simp only [wordSize]
    omega
  · rintro j ⟨hj, hfrom⟩
    obtain ⟨n, rfl, hn, hstands⟩ := mem_wordMatches_iff.mp hj
    simp only [wordSize] at hfrom ⊢
    have hle : k ≤ n := hleast ⟨by omega, by omega, (htest n).mpr hstands⟩
    omega

/-- A scan from the word `first` on that finds nothing leaves no place from there on. -/
theorem lt_of_mem_wordMatches (first : Nat)
    (h : firstFrom test (countSteps length wordSize - first) first = none) {j : Int}
    (hj : j ∈ wordMatches image bytes start length) : j < (first : Int) * wordSize := by
  obtain ⟨n, rfl, hn, hstands⟩ := mem_wordMatches_iff.mp hj
  by_contra hfrom
  simp only [wordSize] at hfrom
  exact firstFrom_eq_none h (by omega) (by omega) ((htest n).mpr hstands)

end Scan

/-- Placing a branch gives an answer, and leaves the machine `after`. -/
inductive Branching (machine : Machine μ) (pattern : Bytes) (target start length : Int)
    (strict : Bool) : Except Error Report → (after : Machine μ) → Prop where
  /-- the pattern does not stand in the range -/
  | missing (hnone : wordMatches machine.image pattern start length = ∅) :
    Branching machine pattern target start length strict
      (.ok (.idle .hook .patternNotFound none)) machine
  /-- it stands there first at `i`, and no return instruction stands there or after it -/
  | endless {i : Int} (hfirst : IsLeast (wordMatches machine.image pattern start length) i)
    (hnone : ∀ j ∈ wordMatches machine.image (wordBytes returnWord) start length, j < i) :
    Branching machine pattern target start length strict
      (if strict then .error (.noReturn (start + i))
        else .ok (.idle .hook .patternNotFound (some (start + i)))) machine
  /-- it stands there first at `i`, and the first return instruction from there on at `j` -/
  | placed {i j : Int} (hfirst : IsLeast (wordMatches machine.image pattern start length) i)
    (hreturn : IsLeast
      {j ∈ wordMatches machine.image (wordBytes returnWord) start length | i ≤ j} j) :
    Branching machine pattern target start length strict
      (.ok (applied .hook machine (start + j) (wordBytes (branchWord target (start + j)).toNat)))
      (machine.rewritten (start + j) (wordBytes (branchWord target (start + j)).toNat))

/-- Placing a branch goes one of these ways. -/
theorem branching (pattern : Bytes) (target start length : Int) (strict : Bool)
    (hpattern : pattern ≠ []) (machine : Machine μ) :
    Branching machine pattern target start length strict
      ((placeBranch pattern target start length strict).outcome machine).1
      ((placeBranch pattern target start length strict).outcome machine).2 := by
  have hmatches (k : Nat) : matchesAt machine.image (start + k * wordSize) pattern = true ↔
      Stands machine.image (start + k * wordSize) pattern := matchesAt_iff
  have hreturns (k : Nat) :
      (readWord? machine.image (start + k * wordSize) == some returnWord) = true ↔
        Stands machine.image (start + k * wordSize) (wordBytes returnWord) := by
    rw [beq_iff_eq]
    exact readWord?_eq_some_iff (by decide)
  rw [outcome_placeBranch, if_neg hpattern]
  rcases hfound : firstFrom (fun k => matchesAt machine.image (start + k * wordSize) pattern)
    (countSteps length wordSize) 0 with _ | first
  · apply Branching.missing
    apply Set.eq_empty_of_forall_notMem
    intro i hi
    have hlt := lt_of_mem_wordMatches hmatches 0 hfound hi
    obtain ⟨hlo, -⟩ := hi
    omega
  have hfirst : IsLeast (wordMatches machine.image pattern start length) (first * wordSize) := by
    obtain ⟨⟨hmem, -⟩, hleast⟩ := isLeast_wordMatches hmatches 0 hfound
    refine ⟨hmem, fun i hi => hleast ⟨hi, ?_⟩⟩
    obtain ⟨hlo, -⟩ := hi
    omega
  dsimp only
  rcases hreturn : firstFrom
    (fun k => readWord? machine.image (start + k * wordSize) == some returnWord)
    (countSteps length wordSize - first) first with _ | k
  · have hnone (j : Int) := lt_of_mem_wordMatches hreturns first hreturn (j := j)
    cases strict
    · exact .endless hfirst hnone
    · exact .endless hfirst hnone
  · exact .placed hfirst (isLeast_wordMatches hreturns first hreturn)

end Branches

/-- A branch to `target` stands at `site`, and nothing else is changed. -/
structure Branched (before : Machine Region) (target site : Int) (report : Report)
    (after : Machine Region) : Prop where
  /-- it is reported where the branch stands, that it takes four bytes, and how many hooks are gone
  -/
  reported : report = ⟨.hook, .applied, some site, wordSize,
    before.hooks.countP fun hook => hook.Overlaps site (site + wordSize)⟩
  /-- the word at the site is the branch -/
  word : (readWord? after.image site).map Int.ofNat = some (branchWord target site)
  /-- no other byte is changed -/
  image : Region.SameOutside site (site + wordSize) before.image after.image
  /-- the hooks that overlap the word are gone, and no others -/
  hooks : after.hooks = before.hooks.filter fun hook => ¬ hook.Overlaps site (site + wordSize)

/-- Where four bytes stand, a branch can be written over them. -/
theorem branched_rewritten {machine : Machine Region} {site : Int} {word : Nat}
    (h : Stands machine.image site (wordBytes word)) (target : Int) :
    Branched machine target site
      (applied .hook machine site (wordBytes (branchWord target site).toNat))
      (machine.rewritten site (wordBytes (branchWord target site).toNat)) := by
  have hfits := branchWord_fits target site
  have hlength : (wordBytes (branchWord target site).toNat).length = (wordBytes word).length := by
    rw [length_wordBytes, length_wordBytes]
  refine ⟨?_, ?_, ?_, ?_⟩
  · simp only [applied, count_writeBytes_of_stands h hlength, dropHooks_eq, length_wordBytes]
  · have hread := (readWord?_eq_some_iff (by omega)).mpr (stands_writeBytes h hlength)
    simp only [rewritten, hread, Option.map_some, Option.some.injEq, Int.ofNat_eq_natCast]
    omega
  · have hsame := sameOutside_writeBytes machine.image site
      (wordBytes (branchWord target site).toNat)
    rwa [length_wordBytes] at hsame
  · simp only [rewritten, dropHooks_eq, length_wordBytes]

section Outcomes

variable {machine after : Machine Region} {pattern : Bytes} {target start length : Int}
  {strict : Bool} {answer : Except Error Report}

/-- Where a return instruction stands at an occurrence of the pattern or later, the first one from
the first occurrence on is taken. -/
theorem Branching.branched
    (h : Branching machine pattern target start length strict answer after)
    (hthere : ∃ i ∈ wordMatches machine.image pattern start length,
      ∃ j ∈ wordMatches machine.image (wordBytes returnWord) start length, i ≤ j) :
    ∃ i j report, IsLeast (wordMatches machine.image pattern start length) i ∧
      IsLeast {j ∈ wordMatches machine.image (wordBytes returnWord) start length | i ≤ j} j ∧
      answer = .ok report ∧ Branched machine target (start + j) report after := by
  obtain ⟨other, hother, last, hlast, hle⟩ := hthere
  cases h with
  | missing hnone => exact absurd hother (Set.eq_empty_iff_forall_notMem.mp hnone other)
  | @endless i hfirst hnone =>
    -- every occurrence comes after the first one, and all return instructions before it
    have hafter : i ≤ other := hfirst.2 hother
    have hbefore := hnone last hlast
    omega
  | @placed i j hfirst hreturn =>
    obtain ⟨-, -, -, hstands⟩ := hreturn.1.1
    exact ⟨i, j, _, hfirst, hreturn, rfl, branched_rewritten hstands target⟩

/-- Where none does, nothing is changed, and there is a failure exactly if strictness asks for one.
-/
theorem Branching.unchanged
    (h : Branching machine pattern target start length strict answer after)
    (hnowhere : ¬ ∃ i ∈ wordMatches machine.image pattern start length,
      ∃ j ∈ wordMatches machine.image (wordBytes returnWord) start length, i ≤ j) :
    after = machine ∧ (∀ report, answer = .ok report → report.outcome ≠ .applied) ∧
      ((∃ error, answer = .error error) ↔
        strict = true ∧ (wordMatches machine.image pattern start length).Nonempty) ∧
      ∀ error, answer = .error error →
        ∃ i, IsLeast (wordMatches machine.image pattern start length) i ∧
          error = .noReturn (start + i) := by
  cases h with
  | missing hnone =>
    refine ⟨rfl, ?_, ⟨?_, ?_⟩, ?_⟩
    · rintro report ⟨⟩ ⟨⟩
    · rintro ⟨error, ⟨⟩⟩
    · rintro ⟨-, hsome⟩
      exact absurd hnone hsome.ne_empty
    · rintro error ⟨⟩
  | @endless i hfirst hnone =>
    cases strict with
    | false =>
      refine ⟨rfl, ?_, ⟨?_, ?_⟩, ?_⟩
      · rintro report ⟨⟩ ⟨⟩
      · rintro ⟨error, ⟨⟩⟩
      · rintro ⟨⟨⟩, -⟩
      · rintro error ⟨⟩
    | true =>
      refine ⟨rfl, ?_, ⟨fun _ => ⟨rfl, i, hfirst.1⟩, fun _ => ⟨_, rfl⟩⟩, ?_⟩
      · rintro report ⟨⟩
      · rintro error ⟨⟩
        exact ⟨i, hfirst, rfl⟩
  | @placed i j hfirst hreturn =>
    obtain ⟨⟨hj, hle⟩, -⟩ := hreturn
    exact absurd ⟨i, hfirst.1, j, hj, hle⟩ hnowhere

theorem Branching.there
    (h : Branching machine pattern target start length strict answer after) {report : Report}
    (hanswer : answer = .ok report) (happlied : report.outcome = .applied) :
    ∃ i ∈ wordMatches machine.image pattern start length,
      ∃ j ∈ wordMatches machine.image (wordBytes returnWord) start length, i ≤ j := by
  by_contra hnowhere
  obtain ⟨-, hidle, -⟩ := h.unchanged hnowhere
  exact hidle report hanswer happlied

end Outcomes

/-- **Placing a branch misses nothing and touches nothing else.** It succeeds exactly if the pattern
stands somewhere in the range and a return instruction at the same place or later. It then takes the
first such instruction from the first occurrence of the pattern on. Otherwise nothing is changed,
and it fails exactly if it is told to be strict and the pattern does stand in the range. -/
theorem placeBranch_exact (pattern : Bytes) (target start length : Int) (strict : Bool)
    (machine : Machine Region) (hpattern : pattern ≠ []) :
    let run := (placeBranch pattern target start length strict).outcome machine
    let found := wordMatches machine.image pattern start length
    let returns := wordMatches machine.image (wordBytes returnWord) start length
    ((∃ report, run.1 = .ok report ∧ report.outcome = .applied) ↔
      ∃ i ∈ found, ∃ j ∈ returns, i ≤ j) ∧
    ((∃ i ∈ found, ∃ j ∈ returns, i ≤ j) →
      ∃ i j report, IsLeast found i ∧ IsLeast {j ∈ returns | i ≤ j} j ∧
        run.1 = .ok report ∧ Branched machine target (start + j) report run.2) ∧
    ((¬ ∃ i ∈ found, ∃ j ∈ returns, i ≤ j) →
      run.2 = machine ∧
      ((∃ error, run.1 = .error error) ↔ strict = true ∧ found.Nonempty) ∧
      ∀ error, run.1 = .error error → ∃ i, IsLeast found i ∧ error = .noReturn (start + i)) := by
  intro run found returns
  have hways : Branching machine pattern target start length strict run.1 run.2 :=
    branching pattern target start length strict hpattern machine
  refine ⟨⟨?_, ?_⟩, hways.branched, ?_⟩
  · rintro ⟨report, hanswer, happlied⟩
    exact hways.there hanswer happlied
  · intro hthere
    obtain ⟨i, j, report, -, -, hanswer, hbranched⟩ := hways.branched hthere
    refine ⟨report, hanswer, ?_⟩
    rw [hbranched.reported]
  · intro hnowhere
    obtain ⟨hsame, -, hfails, herror⟩ := hways.unchanged hnowhere
    exact ⟨hsame, hfails, herror⟩

/-- A return instruction before the pattern, and two behind it; the scan starts at an address that
is not mapped, and two hooks overlap the word that becomes a branch. -/
theorem placeBranch_exact_second_return :
    let machine : Machine Region :=
      ⟨⟨0x10, #[0x4E, 0x80, 0, 0x20, 0x7C, 8, 0, 0, 0x4E, 0x80, 0, 0x20, 0x4E, 0x80, 0, 0x20]⟩,
        [⟨0x18, 0x1C, "a"⟩, ⟨0x1A, 0x1E, "b"⟩, ⟨0x1C, 0x20, "c"⟩]⟩
    let run := (placeBranch [0x7C, 8] 0x100 0xC 0x14 true).outcome machine
    ∃ i j report, IsLeast (wordMatches machine.image [0x7C, 8] 0xC 0x14) i ∧
      IsLeast {j ∈ wordMatches machine.image (wordBytes returnWord) 0xC 0x14 | i ≤ j} j ∧
      run.1 = .ok report ∧ Branched machine 0x100 (0xC + j) report run.2 := by
  intro machine run
  have hpattern : 8 ∈ wordMatches machine.image [0x7C, 8] 0xC 0x14 :=
    ⟨by decide, by decide, by decide, matchesAt_iff.mp (by decide)⟩
  have hreturn : 12 ∈ wordMatches machine.image (wordBytes returnWord) 0xC 0x14 :=
    ⟨by decide, by decide, by decide, matchesAt_iff.mp (by decide)⟩
  exact (placeBranch_exact [0x7C, 8] 0x100 0xC 0x14 true machine (by decide)).2.1
    ⟨8, hpattern, 12, hreturn, by decide⟩

end DiscPatch.Machine
