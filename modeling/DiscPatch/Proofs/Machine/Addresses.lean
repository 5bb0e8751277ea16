import DiscPatch.Proofs.Machine.Intercepts

/-!
# Memory, address by address

What is in memory is said one address at a time, without the loops that look for it or put it there.

* `Stands` — bytes in a row, all of them mapped; `matchesAt_iff` and `readWord?_eq_some_iff` say
  that this is what patterns and words are compared with;
* `read?_writeBytes`, `count_writeBytes` — what a write leaves in its range, and how much of the
  range is mapped; that it leaves the rest alone is `sameOutside_writeBytes`;
* `Hook.Overlaps` — a hook that reaches into a range; `dropHooks_eq` says that these are dropped.
-/

namespace DiscPatch.Machine

/-! ## Bytes in a row -/

section Standing

variable {μ : Type} [Image μ]

/-- The bytes stand in memory from an address on, all of them mapped. -/
def Stands (image : μ) (address : Int) (bytes : Bytes) : Prop :=
  ∀ (n : Nat) (byte : UInt8), bytes[n]? = some byte →
    Image.read? image (address + n) = some byte

theorem stands_nil (image : μ) (address : Int) : Stands image address [] := by
  intro n byte hbyte
  simp at hbyte

theorem stands_cons {image : μ} {address : Int} {byte : UInt8} {rest : Bytes} :
    Stands image address (byte :: rest) ↔
      Image.read? image address = some byte ∧ Stands image (address + 1) rest := by
  constructor
  · intro h
    refine ⟨by simpa using h 0 byte rfl, ?_⟩
    intro n next hnext
    have hread := h (n + 1) next (by simpa using hnext)
    rwa [show address + ((n + 1 : Nat) : Int) = address + 1 + n by omega] at hread
  · rintro ⟨hfirst, hrest⟩ n next hnext
    cases n with
    | zero =>
      simp only [List.getElem?_cons_zero, Option.some.injEq] at hnext
      simpa [hnext] using hfirst
    | succ n =>
      have hread := hrest n next (by simpa using hnext)
      rwa [show address + 1 + (n : Int) = address + ((n + 1 : Nat) : Int) by omega] at hread

/-- A pattern is compared with what stands in memory. -/
theorem matchesAt_iff {image : μ} {address : Int} {bytes : Bytes} :
    matchesAt image address bytes = true ↔ Stands image address bytes := by
  induction bytes generalizing address with
  | nil => simp [matchesAt, stands_nil]
  | cons byte rest ih => simp [matchesAt, stands_cons, ih]

theorem stands_four {image : μ} {address : Int} {a b c d : UInt8} :
    Stands image address [a, b, c, d] ↔
      Image.read? image address = some a ∧ Image.read? image (address + 1) = some b ∧
        Image.read? image (address + 2) = some c ∧ Image.read? image (address + 3) = some d := by
  simp [stands_cons, stands_nil, Int.add_assoc]

/-! ## Words -/

theorem length_wordBytes (word : Nat) : (wordBytes word).length = wordSize := rfl

theorem wordOf_four (a b c d : UInt8) :
    wordOf [a, b, c, d] = ((a.toNat * 256 + b.toNat) * 256 + c.toNat) * 256 + d.toNat := by
  simp [wordOf]

/-- The bytes of the number that four bytes spell are these four. -/
theorem wordBytes_wordOf (a b c d : UInt8) : wordBytes (wordOf [a, b, c, d]) = [a, b, c, d] := by
  have ha := a.toNat_lt
  have hb := b.toNat_lt
  have hc := c.toNat_lt
  have hd := d.toNat_lt
  rw [wordOf_four]
  simp only [wordBytes, Nat.shiftRight_eq_div_pow, List.cons.injEq, and_true]
  refine ⟨?_, ?_, ?_, ?_⟩ <;> apply UInt8.toNat.inj <;> rw [UInt8.toNat_ofNat'] <;> omega

/-- Four bytes have room for every number that fits into a word. -/
theorem wordOf_wordBytes {word : Nat} (h : word < 0x100000000) :
    wordOf (wordBytes word) = word := by
  rw [wordBytes, wordOf_four]
  simp only [UInt8.toNat_ofNat', Nat.shiftRight_eq_div_pow]
  omega

/-- A word is read where its four bytes stand. -/
theorem readWord?_eq_some_iff {image : μ} {address : Int} {word : Nat} (h : word < 0x100000000) :
    readWord? image address = some word ↔ Stands image address (wordBytes word) := by
  constructor
  · intro hread
    simp only [readWord?, Option.bind_eq_bind, Option.bind_eq_some_iff, Option.pure_def,
      Option.some.injEq] at hread
    obtain ⟨a, ha, b, hb, c, hc, d, hd, rfl⟩ := hread
    rw [wordBytes_wordOf, stands_four]
    exact ⟨ha, hb, hc, hd⟩
  · intro hstands
    obtain ⟨ha, hb, hc, hd⟩ := stands_four.mp hstands
    have hword := wordOf_wordBytes h
    rw [wordBytes] at hword
    simp [readWord?, ha, hb, hc, hd, hword]

end Standing

/-! ## Writing to a region -/

namespace Region

/-- The region answers for the address. -/
def Maps (region : Region) (address : Int) : Prop :=
  region.base ≤ address ∧ address < region.base + region.data.size

instance (region : Region) (address : Int) : Decidable (region.Maps address) :=
  inferInstanceAs (Decidable (_ ∧ _))

theorem index?_eq_none_iff {region : Region} {address : Int} :
    region.index? address = none ↔ ¬ region.Maps address := by
  simp only [index?, Maps]
  split <;> simp <;> omega

theorem read?_eq_none_iff {region : Region} {address : Int} :
    region.read? address = none ↔ ¬ region.Maps address := by
  rw [← index?_eq_none_iff, read?]
  rcases hindex : region.index? address with _ | index
  · simp
  · obtain ⟨-, hlt⟩ := index?_eq_some hindex
    simp [hlt]

theorem exists_read?_iff {region : Region} {address : Int} :
    (∃ byte, region.read? address = some byte) ↔ region.Maps address := by
  rw [← Option.ne_none_iff_exists', ne_eq, read?_eq_none_iff, Decidable.not_not]

theorem write?_eq_none_iff {region : Region} {address : Int} {byte : UInt8} :
    region.write? address byte = none ↔ ¬ region.Maps address := by
  rw [write?, Option.map_eq_none_iff, index?_eq_none_iff]

theorem maps_of_write? {region changed : Region} {address : Int} {byte : UInt8}
    (h : region.write? address byte = some changed) : region.Maps address := by
  obtain ⟨index, hindex, -⟩ := Option.map_eq_some_iff.mp h
  obtain ⟨hplace, hlt⟩ := index?_eq_some hindex
  rw [Maps]
  omega

/-- The byte that was written is read back. -/
theorem read?_write? {region changed : Region} {address : Int} {byte : UInt8}
    (h : region.write? address byte = some changed) : changed.read? address = some byte := by
  obtain ⟨index, hindex, rfl⟩ := Option.map_eq_some_iff.mp h
  obtain ⟨-, hlt⟩ := index?_eq_some hindex
  have hmapped : Region.index? ⟨region.base, region.data.setIfInBounds index byte⟩ address =
      some index := by
    rw [← hindex]
    simp only [Region.index?, Array.size_setIfInBounds]
  simp [read?, hmapped, hlt]

end Region

/-- **What is written is there**, as far as it is mapped. -/
theorem read?_writeBytes (region : Region) (address : Int) {bytes : Bytes} {n : Nat} {byte : UInt8}
    (h : bytes[n]? = some byte) :
    (writeBytes region address bytes).1.read? (address + n) =
      (region.read? (address + n)).map fun _ => byte := by
  induction bytes generalizing region address n with
  | nil => simp at h
  | cons first rest ih =>
    rw [writeBytes]
    -- the first byte is not written over by the rest, and the rest is written from the next address
    rcases hwritten : (Image.write? region address first : Option Region) with _ | changed
    · have hunmapped : region.read? address = none :=
        Region.read?_eq_none_iff.mpr (Region.write?_eq_none_iff.mp hwritten)
      cases n with
      | zero =>
        have hkept := (sameOutside_writeBytes region (address + 1) rest).read address (by omega)
        simp [hkept, hunmapped]
      | succ n =>
        have hnext := ih region (address + 1) (n := n) (by simpa using h)
        rwa [show address + 1 + (n : Int) = address + ((n + 1 : Nat) : Int) by omega] at hnext
    · cases n with
      | zero =>
        have hkept := (sameOutside_writeBytes changed (address + 1) rest).read address (by omega)
        have hread := Region.read?_write? hwritten
        obtain ⟨old, hold⟩ := Region.exists_read?_iff.mpr (Region.maps_of_write? hwritten)
        simp only [List.getElem?_cons_zero, Option.some.injEq] at h
        simp [hkept, hread, hold, h]
      | succ n =>
        have hnext := ih changed (address + 1) (n := n) (by simpa using h)
        rw [(Region.sameOutside_write? hwritten).read _ (by omega)] at hnext
        rwa [show address + 1 + (n : Int) = address + ((n + 1 : Nat) : Int) by omega] at hnext

/-- As many bytes are written as there are mapped addresses in the range. -/
theorem count_writeBytes (region : Region) (address : Int) (bytes : Bytes) :
    (writeBytes region address bytes).2 =
      (min (address + bytes.length) (region.base + region.data.size) -
        max address region.base).toNat := by
  induction bytes generalizing region address with
  | nil =>
    simp only [writeBytes, List.length_nil]
    omega
  | cons first rest ih =>
    rw [writeBytes, List.length_cons]
    rcases hwritten : (Image.write? region address first : Option Region) with _ | changed
    · have hunmapped := Region.write?_eq_none_iff.mp hwritten
      rw [Region.Maps] at hunmapped
      simp only [ih]
      omega
    · obtain ⟨hbase, hsize, -⟩ := Region.sameOutside_write? hwritten
      have hmapped := Region.maps_of_write? hwritten
      rw [Region.Maps] at hmapped
      simp only [ih, hbase, hsize]
      omega

theorem Stands.maps {region : Region} {address : Int} {bytes : Bytes}
    (h : Stands region address bytes) {n : Nat} (hn : n < bytes.length) :
    region.Maps (address + n) := by
  have hread := h n bytes[n] (List.getElem?_eq_getElem hn)
  exact Region.exists_read?_iff.mp ⟨bytes[n], hread⟩

/-- Where bytes stand, others of the same number can be written, and they stand there afterwards. -/
theorem stands_writeBytes {region : Region} {address : Int} {old bytes : Bytes}
    (h : Stands region address old) (hlength : bytes.length = old.length) :
    Stands (writeBytes region address bytes).1 address bytes := by
  intro n byte hbyte
  obtain ⟨hn, -⟩ := List.getElem?_eq_some_iff.mp hbyte
  have hmapped := h.maps (hlength ▸ hn)
  obtain ⟨before, hbefore⟩ := Region.exists_read?_iff.mpr hmapped
  have hafter := read?_writeBytes region address hbyte
  rwa [hbefore] at hafter

/-- Where bytes stand, others of the same number are all written. -/
theorem count_writeBytes_of_stands {region : Region} {address : Int} {old bytes : Bytes}
    (h : Stands region address old) (hlength : bytes.length = old.length) :
    (writeBytes region address bytes).2 = bytes.length := by
  rw [count_writeBytes]
  rcases Nat.eq_zero_or_pos old.length with hempty | hpos
  · omega
  · -- both ends of the range are mapped, and so is what is between them
    obtain ⟨hfirst, -⟩ := h.maps hpos
    obtain ⟨-, hlast⟩ := h.maps (Nat.sub_one_lt_of_lt hpos)
    omega

/-! ## Hooks -/

/-- A hook overlaps the range from `start` up to `stop`: neither of the two ends before the other
starts. A hook over no addresses overlaps the ranges that it lies strictly inside of. -/
def Hook.Overlaps (hook : Hook) (start stop : Int) : Prop :=
  start < hook.stop ∧ hook.start < stop

instance (hook : Hook) (start stop : Int) : Decidable (hook.Overlaps start stop) :=
  inferInstanceAs (Decidable (_ ∧ _))

/-- The hooks that overlap the range are dropped and counted, and no others. -/
theorem dropHooks_eq (hooks : List Hook) (start stop : Int) :
    dropHooks hooks start stop =
      (hooks.filter fun hook => ¬ hook.Overlaps start stop,
        hooks.countP fun hook => hook.Overlaps start stop) := by
  have hclear (hook : Hook) :
      hook.clearOf start stop = decide (¬ hook.Overlaps start stop) := by
    simp only [Hook.clearOf, Hook.Overlaps, ← Bool.decide_or]
    apply decide_eq_decide.mpr
    omega
  have hcount :=
    List.length_eq_countP_add_countP (fun hook => hook.Overlaps start stop) (l := hooks)
  simp only [decide_eq_true_eq] at hcount
  simp only [dropHooks, hclear, ← List.countP_eq_length_filter, Prod.mk.injEq, true_and]
  omega

end DiscPatch.Machine
