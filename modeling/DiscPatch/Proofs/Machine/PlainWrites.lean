import DiscPatch.Proofs.Machine.Addresses
import Mathlib.Data.Int.Interval
import Mathlib.Data.Set.Card

/-!
# Plain writes are all or nothing

A plain write looks at the expected bytes before it writes the first of its own. After that it
writes as far as memory is mapped, even if its range sticks out of the mapped addresses at either
end, or at both.

* `Withheld` — the reasons to write nothing; `withheld_iff` says that these are the ones that are
  looked for;
* `Written` — all that a write does to memory, to the hooks and in its report, address by address;
* `written_rewritten` — writing bytes and dropping the hooks they touch does just that;
* `writeDirect_exact` — a plain write does one or the other.
-/

namespace DiscPatch.Machine

open Edit

/-- There are no bytes to write, or one of the expected bytes is missing: its address is not mapped
or holds another byte. -/
def Withheld (image : Region) (address : Int) (value expected : Bytes) : Prop :=
  value = [] ∨ ∃ (n : Nat) (byte : UInt8), expected[n]? = some byte ∧
    image.read? (address + n) ≠ some byte

/-- Bytes are compared only if some are expected; where none are, none is missing. -/
theorem withheld_iff {image : Region} {address : Int} {value expected : Bytes} :
    Withheld image address value expected ↔
      value = [] ∨ expected ≠ [] ∧ matchesAt image address expected = false := by
  have hmissing : (∃ (n : Nat) (byte : UInt8), expected[n]? = some byte ∧
      image.read? (address + n) ≠ some byte) ↔ ¬ Stands image address expected := by
    simp only [Stands, Classical.not_forall, exists_prop]
    rfl
  rw [Withheld, hmissing, ← matchesAt_iff, Bool.not_eq_true]
  refine or_congr_right ⟨fun hdiffers => ⟨?_, hdiffers⟩, And.right⟩
  rintro rfl
  cases hdiffers

/-- Bytes stand in memory from an address on, as far as it is mapped, and nothing else is changed.
-/
structure Written (before : Machine Region) (address : Int) (value : Bytes) (report : Report)
    (after : Machine Region) : Prop where
  /-- every mapped address of the range holds its byte of the value -/
  bytes : ∀ x, address ≤ x → x < address + value.length → before.image.Maps x →
    after.image.read? x = value[(x - address).toNat]?
  /-- the same addresses are mapped, and those outside of the range hold what they held -/
  image : Region.SameOutside address (address + value.length) before.image after.image
  /-- it is reported how many addresses of the range are mapped -/
  count : report.written =
    {x | address ≤ x ∧ x < address + value.length ∧ before.image.Maps x}.ncard
  /-- the hooks that overlap the range are gone, and the others keep their order -/
  hooks : after.hooks =
    before.hooks.filter fun hook => ¬ hook.Overlaps address (address + value.length)
  /-- it is reported how many hooks are gone -/
  dropped : report.dropped =
    before.hooks.countP fun hook => hook.Overlaps address (address + value.length)

/-- The mapped addresses of a range are those between the later start and the earlier end. -/
theorem ncard_mapped (region : Region) (lo hi : Int) :
    {x | lo ≤ x ∧ x < hi ∧ region.Maps x}.ncard =
      (min hi (region.base + region.data.size) - max lo region.base).toNat := by
  have hbetween : {x | lo ≤ x ∧ x < hi ∧ region.Maps x} =
      ↑(Finset.Ico (max lo region.base) (min hi (region.base + region.data.size))) := by
    ext x
    rw [Finset.mem_coe, Finset.mem_Ico, Set.mem_ofPred_eq, Region.Maps]
    omega
  rw [hbetween, Set.ncard_coe_finset, Int.card_Ico]

/-- **Writing bytes and dropping the hooks they touch** changes the range and nothing else. -/
theorem written_rewritten (manner : Manner) (machine : Machine Region) (address : Int)
    (value : Bytes) :
    Written machine address value (applied manner machine address value)
      (machine.rewritten address value) where
  bytes x hlo hhi hmapped := by
    have hn : (x - address).toNat < value.length := by omega
    have hplace : address + (x - address).toNat = x := by omega
    obtain ⟨old, hold⟩ := Region.exists_read?_iff.mpr hmapped
    have hread := read?_writeBytes machine.image address (List.getElem?_eq_getElem hn)
    rw [hplace, hold] at hread
    exact hread.trans (List.getElem?_eq_getElem hn).symm
  image := sameOutside_writeBytes machine.image address value
  count := by
    rw [ncard_mapped]
    exact congrArg Int.ofNat (count_writeBytes machine.image address value)
  hooks := by rw [rewritten, dropHooks_eq]
  dropped := by rw [applied, dropHooks_eq]

/-- **A plain write is all or nothing.** It always reports, under its own address. Without bytes to
write, or if an expected byte is missing, image and hooks stay as they are and both counts are zero.
Otherwise every mapped address of the range holds its byte of the value, no other address is
changed, the hooks that overlap the range are gone, and the counts are exact. -/
theorem writeDirect_exact (address : Int) (value expected : Bytes) (machine : Machine Region) :
    let run := (writeDirect address value expected).outcome machine
    ∃ report, run.1 = .ok report ∧ report.manner = .direct ∧ report.address = some address ∧
      (report.outcome = .applied ↔ ¬ Withheld machine.image address value expected) ∧
      (Withheld machine.image address value expected →
        run.2 = machine ∧ report.written = 0 ∧ report.dropped = 0) ∧
      (¬ Withheld machine.image address value expected →
        Written machine address value report run.2) := by
  rw [withheld_iff, outcome_writeDirect]
  by_cases hvalue : value = []
  · rw [if_pos hvalue]
    simp [hvalue, Report.idle]
  rw [if_neg hvalue]
  by_cases hdiffers : expected ≠ [] ∧ matchesAt machine.image address expected = false
  · rw [if_pos hdiffers]
    simp [hdiffers, Report.idle]
  · rw [if_neg hdiffers]
    have hwritten := written_rewritten .direct machine address value
    have hcarried : ¬ (value = [] ∨
        expected ≠ [] ∧ matchesAt machine.image address expected = false) :=
      not_or.mpr ⟨hvalue, hdiffers⟩
    exact ⟨_, rfl, rfl, rfl, ⟨fun _ => hcarried, fun _ => rfl⟩, fun h => absurd h hcarried,
      fun _ => hwritten⟩

/-- Four bytes around a region of two addresses: the two in the middle are written, and of three
hooks the two go that overlap the range of the write, one of them over an unmapped address. -/
theorem writeDirect_exact_overhang :
    let machine : Machine Region := ⟨⟨0x10, #[1, 2]⟩,
      [⟨0xF, 0x10, "a"⟩, ⟨0x8, 0xF, "b"⟩, ⟨0x11, 0x20, "c"⟩]⟩
    let run := (writeDirect 0xF [7, 8, 9, 10] [] : Edit (Machine Region) Report).outcome machine
    ∃ report, run.1 = .ok report ∧ Written machine 0xF [7, 8, 9, 10] report run.2 ∧
      report.written = 2 ∧ report.dropped = 2 ∧ run.2.image.data = #[8, 9] ∧
      run.2.hooks.map (·.name) = ["b"] := by
  intro machine run
  have hcarried : ¬ Withheld machine.image 0xF [7, 8, 9, 10] [] := by
    rw [withheld_iff]
    decide
  obtain ⟨report, hreport, -, -, -, -, hwritten⟩ :=
    writeDirect_exact 0xF [7, 8, 9, 10] [] machine
  have hanswer : run.1 = .ok ⟨.direct, .applied, some 0xF, 2, 2⟩ := by decide
  obtain rfl := Except.ok.inj (hanswer.symm.trans hreport)
  exact ⟨_, hreport, hwritten hcarried, rfl, rfl, by decide, by decide⟩

end DiscPatch.Machine
