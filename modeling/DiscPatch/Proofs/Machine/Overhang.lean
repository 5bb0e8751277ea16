import DiscPatch.Proofs.Machine.Scans

/-!
# How far a scan reaches past its range

The bounds of a scan are said in strides and in words, not in bytes of what is looked for. What is
found therefore starts inside the range, but need not end there.

* `Inside` — bytes that lie wholly in a range;
* `FindsAt`, `BranchesAt` — a search or a branch that is carried out, and the places it takes;
* `matched_inside_iff` — which strides and lengths keep all that is matched inside the range.
-/

namespace DiscPatch.Machine

open Edit

/-- The addresses from `address` on, `size` of them, lie in the range of `length` addresses from
`start` on. -/
def Inside (start length address : Int) (size : Nat) : Prop :=
  start ≤ address ∧ address + size ≤ start + length

/-- The answer reports bytes written at `address`. -/
def Applies (answer : Except Error Report) (address : Int) : Prop :=
  ∃ report, answer = .ok report ∧ report.outcome = .applied ∧ report.address = some address

/-- The search is carried out, and the occurrence it takes is at `address`. -/
def FindsAt (machine : Machine Region) (value expected : Bytes)
    (stride start length address : Int) : Prop :=
  Applies ((writeFound value expected stride start length).outcome machine).1 address

/-- A branch is placed at `site`, and the occurrence of the pattern that it was looked for from is
at `place`. -/
structure BranchesAt (machine : Machine Region) (pattern : Bytes) (target start length : Int)
    (strict : Bool) (place site : Int) : Prop where
  /-- the branch is reported -/
  applies : Applies ((placeBranch pattern target start length strict).outcome machine).1 site
  /-- the pattern stands at the place, and nowhere in front of it -/
  first : IsLeast (wordMatches machine.image pattern start length) (place - start)

/-! ## Searches -/

section Searches

variable {machine : Machine Region} {value expected : Bytes} {stride start length address : Int}

theorem not_findsAt_of_nothing (h : expected = [] ∨ stride ≤ 0) :
    ¬ FindsAt machine value expected stride start length address := by
  rw [FindsAt, outcome_writeFound, if_pos h]
  rintro ⟨report, ⟨⟩, ⟨⟩, -⟩

theorem findsAt_iff (hexpected : expected ≠ []) (hstride : 0 < stride) :
    FindsAt machine value expected stride start length address ↔
      value ≠ [] ∧ ∃ k, IsLeast (strideMatches machine.image expected stride start length) k ∧
        address = start + k * stride := by
  rcases searching value start length hexpected hstride machine with
    ⟨k, hleast, hrun⟩ | ⟨hnone, hrun⟩
  · rw [FindsAt, hrun, outcome_writeDirect]
    by_cases hvalue : value = []
    · simp [hvalue, Applies, Report.idle, Except.map]
    · rw [if_neg hvalue, if_neg (by simp)]
      constructor
      · rintro ⟨report, ⟨⟩, -, ⟨⟩⟩
        exact ⟨hvalue, k, hleast, rfl⟩
      · rintro ⟨-, other, hother, rfl⟩
        rw [hother.unique hleast]
        exact ⟨_, rfl, rfl, rfl⟩
  · rw [FindsAt, hrun]
    constructor
    · rintro ⟨report, ⟨⟩, ⟨⟩, -⟩
    · rintro ⟨-, k, hleast, -⟩
      exact absurd hleast.1 (Set.eq_empty_iff_forall_notMem.mp hnone k)

/-- What a search takes starts in the range, at least as far from its end as the last place tried: a
stride, and what is left of the range over whole strides. -/
theorem FindsAt.starts_inside (h : FindsAt machine value expected stride start length address) :
    Stands machine.image address expected ∧ start ≤ address ∧
      address + (stride + length % stride) ≤ start + length := by
  have hsearched : ¬ (expected = [] ∨ stride ≤ 0) :=
    fun hnothing => not_findsAt_of_nothing hnothing h
  have hstride : 0 < stride := by omega
  obtain ⟨-, k, ⟨⟨hlast, hstands⟩, -⟩, rfl⟩ := (findsAt_iff (by tauto) hstride).mp h
  have hplace : 0 ≤ (k : Int) * stride := Int.mul_nonneg (Int.natCast_nonneg k) hstride.le
  have hstrides : (k + 1) * stride ≤ length / stride * stride :=
    Int.mul_le_mul_of_nonneg_right (Int.le_ediv_of_mul_le hstride hlast) hstride.le
  have hrest := Int.ediv_mul_add_emod length stride
  rw [Int.add_mul, Int.one_mul] at hstrides
  exact ⟨hstands, by omega, by omega⟩

end Searches

/-! ## Branches -/

section Branches

variable {machine : Machine Region} {pattern : Bytes} {target start length : Int} {strict : Bool}
  {place site : Int}

theorem not_branchesAt_of_nil :
    ¬ BranchesAt machine [] target start length strict place site := by
  rintro ⟨happlies, -⟩
  rw [outcome_placeBranch, if_pos rfl] at happlies
  obtain ⟨report, ⟨⟩, ⟨⟩, -⟩ := happlies

theorem branchesAt_iff (hpattern : pattern ≠ []) :
    BranchesAt machine pattern target start length strict place site ↔
      IsLeast (wordMatches machine.image pattern start length) (place - start) ∧
        IsLeast {j ∈ wordMatches machine.image (wordBytes returnWord) start length |
          place - start ≤ j} (site - start) := by
  have hways := branching pattern target start length strict hpattern machine
  constructor
  · rintro ⟨⟨report, hanswer, happlied, hsite⟩, hfirst⟩
    obtain ⟨i, j, other, hother, hreturn, hsame, hbranched⟩ :=
      hways.branched (hways.there hanswer happlied)
    cases hanswer.symm.trans hsame
    rw [hbranched.reported, Option.some.injEq] at hsite
    rw [hfirst.unique hother, show site - start = j by omega]
    exact ⟨hother, hreturn⟩
  · rintro ⟨hfirst, hreturn⟩
    obtain ⟨hmem, hle⟩ := hreturn.1
    obtain ⟨i, j, report, hother, hfound, hanswer, hbranched⟩ :=
      hways.branched ⟨_, hfirst.1, _, hmem, hle⟩
    rw [hfirst.unique hother] at hreturn
    have hsite := hreturn.unique hfound
    refine ⟨⟨report, hanswer, ?_, ?_⟩, hfirst⟩
    · rw [hbranched.reported]
    · rw [hbranched.reported, Option.some.injEq]
      omega

/-- The pattern that a branch is looked for from and the return instruction that it takes both start
in the range, on whole words, and the pattern does not come after the instruction. -/
theorem BranchesAt.starts_inside
    (h : BranchesAt machine pattern target start length strict place site) :
    Stands machine.image place pattern ∧ Stands machine.image site (wordBytes returnWord) ∧
      (wordSize : Int) ∣ place - start ∧ (wordSize : Int) ∣ site - start ∧
      start ≤ place ∧ place ≤ site ∧ site < start + length := by
  have hpattern : pattern ≠ [] := by
    rintro rfl
    exact not_branchesAt_of_nil h
  obtain ⟨⟨⟨hlo, -, hdvd, hstands⟩, -⟩, ⟨⟨⟨-, hhi, hdvdSite, hreturn⟩, hle⟩, -⟩⟩ :=
    (branchesAt_iff hpattern).mp h
  rw [show start + (place - start) = place by omega] at hstands
  rw [show start + (site - start) = site by omega] at hreturn
  exact ⟨hstands, hreturn, hdvd, hdvdSite, by omega, by omega, by omega⟩

end Branches

/-! ## Machines that make a scan reach furthest -/

/-- A region holds its own bytes, however many of them are asked for. -/
theorem stands_take (base : Int) (bytes : Bytes) (n : Nat) :
    Stands (⟨base, bytes.toArray⟩ : Region) base (bytes.take n) := by
  intro i byte hbyte
  obtain ⟨hi, hget⟩ := List.getElem?_eq_some_iff.mp hbyte
  rw [List.length_take] at hi
  rw [List.getElem_take] at hget
  have hindex : Region.index? ⟨base, bytes.toArray⟩ (base + i) = some i := by
    simp only [Region.index?, List.size_toArray]
    rw [if_pos (by omega), show base + (i : Int) - base = i by omega, Int.toNat_natCast]
  have hbytes : bytes.toArray[i]? = some byte := by
    rw [List.getElem?_toArray, List.getElem?_eq_some_iff]
    exact ⟨by omega, hget⟩
  change Region.read? _ _ = _
  rw [Region.read?, hindex, Option.bind_some]
  exact hbytes

/-- Nothing stands in front of a region. -/
theorem Stands.base_le {region : Region} {address : Int} {bytes : Bytes}
    (h : Stands region address bytes) (hbytes : bytes ≠ []) : region.base ≤ address := by
  obtain ⟨hle, -⟩ := h.maps (List.length_pos_iff.mpr hbytes)
  simpa using hle

/-- Memory that starts where the last stride of a range does makes a search take that place. -/
theorem findsAt_last (expected : Bytes) {stride length : Int} (hexpected : expected ≠ [])
    (hstride : 0 < stride) (hlength : stride ≤ length) :
    FindsAt ⟨⟨(length / stride - 1) * stride, expected.toArray⟩, []⟩ [0] expected stride 0 length
      ((length / stride - 1) * stride) := by
  have hone : 1 ≤ length / stride := Int.le_ediv_of_mul_le hstride (by omega)
  obtain ⟨k, hk⟩ := Int.eq_ofNat_of_zero_le (show 0 ≤ length / stride - 1 by omega)
  rw [hk]
  apply (findsAt_iff hexpected hstride).mpr
  refine ⟨by decide, k, ⟨⟨?_, ?_⟩, ?_⟩, by omega⟩
  · rw [← hk]
    have hle := Int.ediv_mul_le length hstride.ne'
    simpa using hle
  · have hstands := stands_take (k * stride) expected expected.length
    rw [List.take_length] at hstands
    rw [Int.zero_add]
    exact hstands
  · rintro other ⟨-, hstands⟩
    have hle := hstands.base_le hexpected
    rw [Int.zero_add] at hle
    exact Int.ofNat_le.mp (Int.le_of_mul_le_mul_right hle hstride)

/-- Memory that starts with a return instruction, where the last word of a range does, makes a
branch take that place for a pattern of any size. -/
theorem branchesAt_last {size : Nat} {length : Int} (hsize : size ≠ 0) (hlength : 0 < length) :
    let bytes := wordBytes returnWord ++ List.replicate size 0
    BranchesAt ⟨⟨(length - 1) / 4 * 4, bytes.toArray⟩, []⟩ (bytes.take size) 0 0 length false
      ((length - 1) / 4 * 4) ((length - 1) / 4 * 4) := by
  intro bytes
  have hplace : 0 ≤ (length - 1) / 4 * 4 ∧ (length - 1) / 4 * 4 < length := by omega
  generalize hlast : (length - 1) / 4 * 4 = place at hplace ⊢
  have hnonempty (n : Nat) (hn : n ≠ 0) : bytes.take n ≠ [] := by
    simp [bytes, wordBytes, hn]
  have hleast (n : Nat) (hn : n ≠ 0) :
      IsLeast (wordMatches (⟨place, bytes.toArray⟩ : Region) (bytes.take n) 0 length) place := by
    refine ⟨⟨hplace.1, hplace.2, ⟨(length - 1) / 4, ?_⟩, ?_⟩, ?_⟩
    · rw [← hlast, Int.mul_comm]
      rfl
    · rw [Int.zero_add]
      exact stands_take place bytes n
    · rintro other ⟨-, -, -, hstands⟩
      have hle := hstands.base_le (hnonempty n hn)
      rwa [Int.zero_add] at hle
  apply (branchesAt_iff (hnonempty size hsize)).mpr
  rw [Int.sub_zero]
  refine ⟨hleast size hsize, ?_⟩
  -- the return instruction is the first four of the bytes
  obtain ⟨hmem, hlower⟩ := hleast wordSize (by decide)
  exact ⟨⟨hmem, le_refl place⟩, fun other hother => hlower hother.1⟩

/-! ## Inside the range -/

/-- All searches for `size` bytes with this stride, over this many addresses, stay inside the range.
-/
def SearchesInside (stride length : Int) (size : Nat) : Prop :=
  ∀ (machine : Machine Region) (value expected : Bytes) (start address : Int),
    expected.length = size → FindsAt machine value expected stride start length address →
      Inside start length address size

/-- All branches behind patterns of `size` bytes, over this many addresses, stay inside the range,
with the pattern and with the return instruction that is written over. -/
def BranchesInside (length : Int) (size : Nat) : Prop :=
  ∀ (machine : Machine Region) (pattern : Bytes) (target start : Int) (strict : Bool)
    (place site : Int), pattern.length = size →
      BranchesAt machine pattern target start length strict place site →
        Inside start length place size ∧ Inside start length site wordSize

theorem searchesInside_iff (stride length : Int) (size : Nat) :
    SearchesInside stride length size ↔
      size = 0 ∨ stride ≤ 0 ∨ length < stride ∨ size ≤ stride + length % stride := by
  constructor
  · intro h
    by_contra hleft
    simp only [not_or, not_le, not_lt] at hleft
    obtain ⟨hsize, hstride, hlength, hlong⟩ := hleft
    have hfinds := findsAt_last (List.replicate size 0) (by simpa using hsize) hstride hlength
    obtain ⟨-, hend⟩ := h _ _ _ _ _ List.length_replicate hfinds
    have hrest := Int.ediv_mul_add_emod length stride
    rw [Int.sub_mul, Int.one_mul] at hend
    omega
  · rintro hcases machine value expected start address rfl hfinds
    obtain ⟨-, hlo, hhi⟩ := hfinds.starts_inside
    have hsearched : ¬ (expected = [] ∨ stride ≤ 0) :=
      fun hnothing => not_findsAt_of_nothing hnothing hfinds
    rw [← List.length_eq_zero_iff] at hsearched
    have hrest := Int.emod_nonneg length (show stride ≠ 0 by omega)
    exact ⟨hlo, by omega⟩

theorem branchesInside_iff (length : Int) (size : Nat) :
    BranchesInside length size ↔
      size = 0 ∨ length ≤ 0 ∨ size ≤ wordSize ∧ (wordSize : Int) ∣ length := by
  constructor
  · intro h
    by_contra hleft
    simp only [not_or, not_le] at hleft
    obtain ⟨hsize, hlength, hlong⟩ := hleft
    have hbranches := branchesAt_last hsize hlength
    obtain ⟨⟨-, hpattern⟩, -, hreturn⟩ := h _ _ _ _ _ _ _ (by simp) hbranches
    simp only [wordSize] at hlong hreturn
    omega
  · rintro hcases machine pattern target start strict place site rfl hbranches
    obtain ⟨-, -, hplace, hsite, hlo, hle, hhi⟩ := hbranches.starts_inside
    have hpattern : pattern.length ≠ 0 := by
      intro hempty
      rw [List.length_eq_zero_iff.mp hempty] at hbranches
      exact not_branchesAt_of_nil hbranches
    simp only [wordSize, Inside] at hcases hplace hsite ⊢
    omega

/-- **What is matched starts inside the range, and need not end there.** A search takes an
occurrence that starts at least a stride before the end, a branch takes a pattern and a return
instruction that start before the end. All that searches match stays inside exactly if what they
look for is no longer than the room behind the last place they try, and all that branches match does
exactly if the range is of whole words and the pattern is no longer than one. -/
theorem matched_inside_iff (stride length : Int) (size : Nat) :
    (∀ (machine : Machine Region) (value expected : Bytes) (start address : Int),
      FindsAt machine value expected stride start length address →
        Stands machine.image address expected ∧ start ≤ address ∧
          address + (stride + length % stride) ≤ start + length) ∧
    (∀ (machine : Machine Region) (pattern : Bytes) (target start : Int) (strict : Bool)
      (place site : Int), BranchesAt machine pattern target start length strict place site →
        Stands machine.image place pattern ∧ Stands machine.image site (wordBytes returnWord) ∧
          (wordSize : Int) ∣ place - start ∧ (wordSize : Int) ∣ site - start ∧
          start ≤ place ∧ place ≤ site ∧ site < start + length) ∧
    (SearchesInside stride length size ↔
      size = 0 ∨ stride ≤ 0 ∨ length < stride ∨ size ≤ stride + length % stride) ∧
    (BranchesInside length size ↔
      size = 0 ∨ length ≤ 0 ∨ size ≤ wordSize ∧ (wordSize : Int) ∣ length) := by
  refine ⟨?_, ?_, searchesInside_iff stride length size, branchesInside_iff length size⟩
  · intro machine value expected start address h
    exact h.starts_inside
  · intro machine pattern target start strict place site h
    exact h.starts_inside

/-- Two bytes are found in a range of one, and four are written over in a range of two. -/
example :
    let machine : Machine Region := ⟨⟨0, #[0x11, 0x22, 0x4E, 0x80, 0, 0x20]⟩, []⟩
    ((writeFound [0xAA] [0x11, 0x22] 1 0 1).outcome machine).1 =
        .ok ⟨.search, .applied, some 0, 1, 0⟩ ∧
      ((placeBranch [0x4E, 0x80] 0x100 2 2 true).outcome machine).1 =
        .ok ⟨.hook, .applied, some 2, 4, 0⟩ := by
  decide

end DiscPatch.Machine
