import DiscPatch.Proofs.Machine.Changes
import Mathlib.Data.Int.Bitwise
import Mathlib.Data.Int.ModEq

/-!
# What a branch word says

The word for a branch is put together by arithmetic. Taken apart bit by bit it is a branch, and the
displacement it spells leads to the target wherever a branch can reach.

* `branchMask` — the bits of a word that hold the displacement;
* `branchWord_eq_lor_land` — the word is the displacement under that mask, with the operation code;
* `displacement` — the displacement read back from a word, as a signed number;
* `branchWord_decodes` — what is read back, and when it leads to the target.
-/

namespace DiscPatch.Machine

/-- The bits of a branch that hold its displacement: 26 bits less the two lowest. -/
def branchMask : Nat := 0x03FFFFFC

/-! ## Bits -/

theorem testBit_branchMask (i : Nat) :
    branchMask.testBit i = (decide (2 ≤ i) && decide (i < 26)) := by
  rw [show branchMask = (2 ^ 24 - 1) <<< 2 from rfl, Nat.testBit_shiftLeft,
    Nat.testBit_two_pow_sub_one]
  grind

/-- To round down to whole words within 26 bits is to mask. -/
theorem testBit_field (n i : Nat) :
    (n % 0x4000000 / 4 * 4).testBit i = (branchMask.testBit i && n.testBit i) := by
  have hshift : n % 0x4000000 / 4 * 4 = (n % 2 ^ 26 / 2 ^ 2) <<< 2 := by
    simp [Nat.shiftLeft_eq]
  rw [hshift, Nat.testBit_shiftLeft, Nat.testBit_div_two_pow, Nat.testBit_mod_two_pow,
    testBit_branchMask]
  grind

theorem land_branchMask (n : Nat) : n &&& branchMask = n % 0x4000000 / 4 * 4 := by
  apply Nat.eq_of_testBit_eq
  intro i
  rw [testBit_field, Nat.testBit_and, Bool.and_comm]

theorem ldiff_branchMask (n : Nat) :
    branchMask.ldiff n = (0x4000000 - (n % 0x4000000 + 1)) % 0x4000000 / 4 * 4 := by
  apply Nat.eq_of_testBit_eq
  intro i
  have hlt : n % 0x4000000 < 2 ^ 26 := Nat.mod_lt n (by decide)
  have hflipped : (0x4000000 - (n % 0x4000000 + 1)).testBit i =
      (decide (i < 26) && !(n % 0x4000000).testBit i) := Nat.testBit_two_pow_sub_succ hlt i
  have hlow : (n % 0x4000000).testBit i = (decide (i < 26) && n.testBit i) :=
    Nat.testBit_mod_two_pow n 26 i
  rw [testBit_field, Nat.testBit_ldiff, hflipped, hlow, testBit_branchMask]
  grind

/-- Masking takes a number of any size and sign modulo `branchField`, as two's complement has it. -/
theorem land_branchMask_int (x : Int) : Int.land x branchMask = x % branchField / 4 * 4 := by
  cases x with
  | ofNat n =>
    rw [show Int.land (Int.ofNat n) branchMask = ((n &&& branchMask : Nat) : Int) from rfl,
      land_branchMask, branchField, Int.ofNat_eq_natCast]
    omega
  | negSucc n =>
    rw [show Int.land (Int.negSucc n) branchMask = (branchMask.ldiff n : Int) from rfl,
      ldiff_branchMask, branchField]
    omega

/-- **A branch word bit by bit**: the displacement under the mask, and the operation code. -/
theorem branchWord_eq_lor_land (target site : Int) :
    branchWord target site = Int.lor (Int.land (target - site) branchMask) branchCode := by
  rw [land_branchMask_int, branchWord]
  have hfield : 0 ≤ (target - site) % branchField / 4 * 4 ∧
      (target - site) % branchField / 4 * 4 < 0x4000000 := by
    rw [branchField]
    omega
  obtain ⟨n, hn⟩ := Int.eq_ofNat_of_zero_le hfield.1
  rw [hn] at hfield ⊢
  -- the field is below the lowest bit of the operation code
  have hor : 18 <<< 26 + n = 18 <<< 26 ||| n := Nat.shiftLeft_add_eq_or_of_lt (by omega) 18
  rw [show Int.lor (n : Int) branchCode = ((n ||| 18 <<< 26 : Nat) : Int) from rfl, Nat.or_comm,
    ← hor]
  rfl

/-! ## Reading a branch -/

/-- The displacement that a branch spells: the bits under the mask as a signed number of 26 bits. -/
def displacement (word : Nat) : Int :=
  (BitVec.ofNat 26 (word &&& branchMask)).toInt

/-- What is read back is the displacement in whole words, as far as 26 bits tell. -/
theorem displacement_branchWord (target site : Int) :
    displacement (branchWord target site).toNat = ((target - site) / 4 * 4).bmod 0x4000000 := by
  have hbits : (BitVec.ofNat 26 ((branchWord target site).toNat &&& branchMask)).toInt =
      (((branchWord target site).toNat &&& branchMask : Nat) : Int).bmod 0x4000000 :=
    BitVec.toInt_ofNat ..
  have hsame : (((branchWord target site).toNat &&& branchMask : Nat) : Int) % 0x4000000 =
      (target - site) / 4 * 4 % 0x4000000 := by
    rw [land_branchMask, branchWord, branchCode, branchField]
    omega
  rw [displacement, hbits, Int.bmod, Int.bmod]
  push_cast
  rw [hsame]

/-- **A branch word reads back as the branch it was made for.** It is the displacement under the
mask with the operation code, fits into a word, has the operation code in its six highest bits and
zeros in its two lowest; the displacement read back agrees with the one asked for, rounded down to
whole words, as far as 26 bits tell; and it leads to the target exactly if the target is a number of
whole words away that a signed field of 26 bits can hold. -/
theorem branchWord_decodes (target site : Int) :
    branchWord target site = Int.lor (Int.land (target - site) branchMask) branchCode ∧
    (0 ≤ branchWord target site ∧ branchWord target site < 0x100000000) ∧
    (∀ (image : Region) (address : Int),
      writeNumber image address (branchWord target site) =
        .ok (writeWord image address (branchWord target site).toNat)) ∧
    (branchWord target site).toNat >>> 26 = 18 ∧
    (branchWord target site).toNat &&& 3 = 0 ∧
    displacement (branchWord target site).toNat ≡ (target - site) / 4 * 4 [ZMOD 0x4000000] ∧
    (site + displacement (branchWord target site).toNat = target ↔
      4 ∣ target - site ∧ -0x2000000 ≤ target - site ∧ target - site < 0x2000000) := by
  have hfits := branchWord_fits target site
  have hword : branchWord target site = 0x48000000 + (target - site) % 0x4000000 / 4 * 4 := rfl
  refine ⟨branchWord_eq_lor_land target site, by omega, fun image address => if_neg hfits,
    ?_, ?_, ?_, ?_⟩
  · rw [Nat.shiftRight_eq_div_pow]
    omega
  · have hlow := Nat.and_two_pow_sub_one_eq_mod (branchWord target site).toNat 2
    rw [show (3 : Nat) = 2 ^ 2 - 1 from rfl, hlow]
    omega
  · rw [displacement_branchWord]
    exact Int.bmod_emod
  · rw [displacement_branchWord, Int.bmod]
    push_cast
    split <;> omega

/-- The field ends between the two: half of it back can be told, and as much forward reads as back.
-/
example : displacement (branchWord 0 0x2000000).toNat = -0x2000000 ∧
    displacement (branchWord 0x2000000 0).toNat = -0x2000000 := by
  decide

end DiscPatch.Machine
