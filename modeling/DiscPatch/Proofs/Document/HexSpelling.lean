import DiscPatch.Proofs.Document.Checks
import Mathlib.Data.List.DropRight

/-!
# Bytes spelled in hexadecimal

Two fields of a memory directive take bytes as a text. Two classes of blanks are in play: around the
text any blank may stand, but between the pairs of digits only a blank of ASCII, and the mark `0x`
is taken off in between.

* `Text.IsDigit`, `Text.asciiBlanks` — digits and blanks as tables; `Text.hexDigit?_eq_some_iff` and
  `Text.isAsciiBlank_iff` say that these are the ones that are read;
* `Text.Paired` — pairs of digits with blanks between them, and the bytes they stand for;
* `Text.hexPairs?_eq_some_iff` — reading accepts these and nothing else;
* `Check.Reads` — a text that comes down to pairs once its blanks and its mark are taken off;
* `Check.Spelling` — a text put together from blanks, a mark or none, pairs, and blanks;
  `Check.reads_iff_spelling` says that the two are the same texts;
* `hexFields_exact` — the two fields take these texts and have the bytes they spell.
-/

namespace DiscPatch

namespace Text

/-! ## Digits and blanks -/

/-- The digits by value, in lower case. -/
def lowerDigits : List Char :=
  ['0', '1', '2', '3', '4', '5', '6', '7', '8', '9', 'a', 'b', 'c', 'd', 'e', 'f']

/-- The digits by value, in upper case. -/
def upperDigits : List Char :=
  ['0', '1', '2', '3', '4', '5', '6', '7', '8', '9', 'A', 'B', 'C', 'D', 'E', 'F']

/-- A character is the digit of that value, in either case. -/
def IsDigit (c : Char) (value : Nat) : Prop :=
  lowerDigits[value]? = some c ∨ upperDigits[value]? = some c

instance (c : Char) (value : Nat) : Decidable (IsDigit c value) :=
  inferInstanceAs (Decidable (_ ∨ _))

/-- The space, tab, line feed, vertical tab, form feed and carriage return. -/
def asciiBlanks : List Char :=
  [' ', '\t', '\n', '\x0b', '\x0c', '\r']

theorem exists_ascii {c : Char} (h : c.toNat < 128) : ∃ n : Fin 128, c = Char.ofNat n :=
  ⟨⟨c.toNat, h⟩, (Char.ofNat_toNat c).symm⟩

theorem isAsciiBlank_iff {c : Char} : isAsciiBlank c = true ↔ c ∈ asciiBlanks := by
  by_cases hc : c.toNat < 128
  · have hall : ∀ n : Fin 128, isAsciiBlank (Char.ofNat n) = true ↔ Char.ofNat n ∈ asciiBlanks := by
      decide +kernel
    obtain ⟨n, rfl⟩ := exists_ascii hc
    exact hall n
  · have hblanks : asciiBlanks.all (·.toNat < 128) = true := by decide
    refine iff_of_false (fun h => ?_) fun h =>
      hc (of_decide_eq_true (List.all_eq_true.mp hblanks c h))
    simp only [isAsciiBlank, Bool.or_eq_true, beq_iff_eq, Bool.and_eq_true,
      decide_eq_true_eq] at h
    omega

theorem isBlank_of_mem_asciiBlanks {c : Char} (h : c ∈ asciiBlanks) : isBlank c = true := by
  rw [isBlank, isWhiteSpace_of_isAsciiBlank (isAsciiBlank_iff.mpr h), Bool.true_or]

namespace IsDigit

variable {c : Char} {value : Nat}

theorem lt (h : IsDigit c value) : value < 16 := by
  rcases h with h | h <;> exact (List.getElem?_eq_some_iff.mp h).1

theorem mem (h : IsDigit c value) : c ∈ lowerDigits ++ upperDigits :=
  List.mem_append.mpr (h.imp List.mem_of_getElem? List.mem_of_getElem?)

theorem isBlank_eq_false (h : IsDigit c value) : isBlank c = false := by
  have hdigits : (lowerDigits ++ upperDigits).all (!isBlank ·) = true := by decide +kernel
  simpa using List.all_eq_true.mp hdigits c h.mem

theorem not_mem_asciiBlanks (h : IsDigit c value) : c ∉ asciiBlanks := by
  intro hblank
  have hboth := isBlank_of_mem_asciiBlanks hblank
  rw [h.isBlank_eq_false] at hboth
  cases hboth

end IsDigit

/-- The digits of either case stand for their values, and nothing else does. -/
theorem hexDigit?_eq_some_iff {c : Char} {value : Nat} :
    hexDigit? c = some value ↔ IsDigit c value := by
  by_cases hvalue : value < 16
  · by_cases hc : c.toNat < 128
    · have hall : ∀ n : Fin 128, ∀ v : Fin 16,
          hexDigit? (Char.ofNat n) = some ↑v ↔ IsDigit (Char.ofNat n) v := by decide +kernel
      obtain ⟨n, rfl⟩ := exists_ascii hc
      exact hall n ⟨value, hvalue⟩
    · have hdigits : (lowerDigits ++ upperDigits).all (·.toNat < 128) = true := by decide
      refine iff_of_false (fun h => ?_) fun h =>
        hc (of_decide_eq_true (List.all_eq_true.mp hdigits c h.mem))
      simp only [hexDigit?] at h
      grind
  · exact iff_of_false (fun h => hvalue (hexDigit?_lt h)) fun h => hvalue h.lt

/-! ## Pairs of digits -/

/-- The text is pairs of digits, with blanks of ASCII before, between and after them, and the pairs
stand for the bytes, the high digit first. -/
inductive Paired : List Char → List UInt8 → Prop where
  /-- the end -/
  | done : Paired [] []
  /-- a blank, and what follows it -/
  | blank {c : Char} {text : List Char} {bytes : List UInt8} (hblank : c ∈ asciiBlanks)
    (hrest : Paired text bytes) : Paired (c :: text) bytes
  /-- a pair, and what follows it -/
  | pair {high low : Char} {h l : Nat} {byte : UInt8} {text : List Char} {bytes : List UInt8}
    (hhigh : IsDigit high h) (hlow : IsDigit low l) (hbyte : byte.toNat = 16 * h + l)
    (hrest : Paired text bytes) : Paired (high :: low :: text) (byte :: bytes)

theorem hexPair?_eq_some_iff {high low : Char} {byte : UInt8} :
    hexPair? high low = some byte ↔
      ∃ h l, IsDigit high h ∧ IsDigit low l ∧ byte.toNat = 16 * h + l := by
  simp only [hexPair?, Option.bind_eq_bind, Option.bind_eq_some_iff, Option.pure_def,
    Option.some.injEq, hexDigit?_eq_some_iff]
  constructor
  · rintro ⟨h, hhigh, l, hlow, rfl⟩
    have := hhigh.lt
    have := hlow.lt
    refine ⟨h, l, hhigh, hlow, ?_⟩
    rw [UInt8.toNat_ofNat']
    omega
  · rintro ⟨h, l, hhigh, hlow, hbyte⟩
    exact ⟨h, hhigh, l, hlow, by rw [← hbyte, UInt8.ofNat_toNat]⟩

/-- **Reading pairs** accepts what is paired, and gives the bytes. -/
theorem hexPairs?_eq_some_iff {text : List Char} {bytes : List UInt8} :
    hexPairs? isAsciiBlank text = some bytes ↔ Paired text bytes := by
  constructor
  · intro h
    fun_induction hexPairs? isAsciiBlank text generalizing bytes with
    | case1 =>
      cases h
      exact .done
    | case2 c hblank =>
      cases h
      exact .blank (isAsciiBlank_iff.mp hblank) .done
    | case3 c hblank => cases h
    | case4 c d rest hblank ih => exact .blank (isAsciiBlank_iff.mp hblank) (ih h)
    | case5 c d rest hblank ih =>
      simp only [Option.bind_eq_bind, Option.bind_eq_some_iff, Option.pure_def,
        Option.some.injEq] at h
      obtain ⟨byte, hpair, others, hothers, rfl⟩ := h
      obtain ⟨_, _, hhigh, hlow, hbyte⟩ := hexPair?_eq_some_iff.mp hpair
      exact .pair hhigh hlow hbyte (ih hothers)
  · intro h
    induction h with
    | done => rfl
    | @blank c text bytes hblank _ ih =>
      have hskip := isAsciiBlank_iff.mpr hblank
      rcases text with _ | ⟨d, rest⟩
      · cases ih
        rw [hexPairs?, if_pos hskip]
      · rw [hexPairs?, if_pos hskip, ih]
    | @pair high low h l byte text bytes hhigh hlow hbyte _ ih =>
      have hpair := hexPair?_eq_some_iff.mpr ⟨h, l, hhigh, hlow, hbyte⟩
      rw [hexPairs?, if_neg (mt isAsciiBlank_iff.mp hhigh.not_mem_asciiBlanks), ih, hpair]
      rfl

theorem exists_paired (bytes : List UInt8) : ∃ text, Paired text bytes := by
  induction bytes with
  | nil => exact ⟨[], .done⟩
  | cons byte rest ih =>
    obtain ⟨text, htext⟩ := ih
    have hdigit (n : Nat) (h : n < 16) : IsDigit (lowerDigits.get ⟨n, h⟩) n :=
      .inl (List.getElem?_eq_getElem h)
    have hbyte := byte.toNat_lt
    exact ⟨_, .pair (hdigit (byte.toNat / 16) (by omega)) (hdigit (byte.toNat % 16) (by omega))
      (by omega) htext⟩

namespace Paired

variable {text front back : List Char} {bytes : List UInt8}

/-- Apart from blanks, there are two characters for each byte. -/
theorem length_filter (h : Paired text bytes) :
    (text.filter (· ∉ asciiBlanks)).length = 2 * bytes.length := by
  induction h with
  | done => rfl
  | blank hblank _ ih => rw [List.filter_cons_of_neg (by simpa using hblank), ih]
  | pair hhigh hlow _ _ ih =>
    rw [List.filter_cons_of_pos (by simpa using hhigh.not_mem_asciiBlanks),
      List.filter_cons_of_pos (by simpa using hlow.not_mem_asciiBlanks)]
    simp only [List.length_cons, ih]
    omega

theorem of_blank_cons {c : Char} (h : Paired (c :: text) bytes) (hc : isBlank c = true) :
    Paired text bytes := by
  cases h with
  | blank _ hrest => exact hrest
  | pair hhigh =>
    rw [hhigh.isBlank_eq_false] at hc
    cases hc

theorem of_blanks_append (h : Paired (front ++ text) bytes)
    (hfront : ∀ c ∈ front, isBlank c = true) : Paired text bytes := by
  induction front with
  | nil => exact h
  | cons c rest ih =>
    obtain ⟨hc, hrest⟩ := List.forall_mem_cons.mp hfront
    exact ih (h.of_blank_cons hc) hrest

theorem of_append_blanks (h : Paired (text ++ back) bytes)
    (hback : ∀ c ∈ back, isBlank c = true) : Paired text bytes := by
  generalize hwhole : text ++ back = whole at h
  -- a digit is no blank, so the blanks start neither at a pair nor inside one
  induction h generalizing text with
  | done =>
    obtain ⟨rfl, -⟩ := List.append_eq_nil_iff.mp hwhole
    exact .done
  | blank hblank hrest ih =>
    rcases text with _ | ⟨c, text⟩
    · obtain rfl : back = _ :: _ := hwhole
      have hblanks := (List.forall_mem_cons.mp hback).2
      exact of_blanks_append (by rwa [List.append_nil]) hblanks
    · obtain ⟨rfl, rfl⟩ := List.cons.inj hwhole
      exact .blank hblank (ih rfl)
  | pair hhigh hlow hbyte hrest ih =>
    rcases text with _ | ⟨c, _ | ⟨d, text⟩⟩
    · obtain rfl : back = _ :: _ := hwhole
      simp [hhigh.isBlank_eq_false] at hback
    · obtain ⟨rfl, rfl⟩ := List.cons.inj hwhole
      simp [hlow.isBlank_eq_false] at hback
    · obtain ⟨rfl, hrest⟩ := List.cons.inj hwhole
      obtain ⟨rfl, rfl⟩ := List.cons.inj hrest
      exact .pair hhigh hlow hbyte (ih rfl)

end Paired

/-! ## Blanks around a text -/

/-- What is left of a text without the blanks at either end. -/
def Bared (text core : List Char) : Prop :=
  ∃ front back, text = front ++ core ++ back ∧ (∀ c ∈ front, isBlank c = true) ∧
    (∀ c ∈ back, isBlank c = true) ∧ (∀ c ∈ core.head?, isBlank c = false) ∧
    ∀ c ∈ core.getLast?, isBlank c = false

theorem exists_rdropWhile_isBlank (text : List Char) :
    ∃ back, text = text.rdropWhile isBlank ++ back ∧ (∀ c ∈ back, isBlank c = true) ∧
      ∀ c ∈ (text.rdropWhile isBlank).getLast?, isBlank c = false := by
  refine ⟨text.rtakeWhile isBlank, (List.rdropWhile_append_rtakeWhile ..).symm,
    fun c => List.mem_rtakeWhile_imp, fun c hc => ?_⟩
  have hne : text.rdropWhile isBlank ≠ [] := by
    intro hnil
    rw [hnil] at hc
    cases hc
  have hlast := List.rdropWhile_last_not isBlank text hne
  rw [List.getLast?_eq_some_getLast hne] at hc
  cases hc
  simpa using hlast

theorem bared_trim (text : List Char) : Bared text (trim isBlank text) := by
  obtain ⟨back, hback, hblank, hlast⟩ := exists_rdropWhile_isBlank (text.dropWhile isBlank)
  refine ⟨text.takeWhile isBlank, back, ?_, fun c => List.mem_takeWhile_imp, hblank, ?_, hlast⟩
  · rw [List.append_assoc, trim, ← List.rdropWhile, ← hback, List.takeWhile_append_dropWhile]
  · intro c hc
    have hhead : c ∈ (text.dropWhile isBlank).head? := by
      rw [hback]
      exact List.mem_head?_append_of_mem_head? hc
    have hstart := List.head?_dropWhile_not isBlank text
    rw [hhead] at hstart
    simpa using hstart

namespace Bared

variable {text core front back : List Char}

theorem around (h : Bared text core) (hfront : ∀ c ∈ front, isBlank c = true)
    (hback : ∀ c ∈ back, isBlank c = true) : Bared (front ++ text ++ back) core := by
  obtain ⟨start, stop, rfl, hstart, hstop, hends⟩ := h
  exact ⟨front ++ start, stop ++ back, by simp, List.forall_mem_append.mpr ⟨hfront, hstart⟩,
    List.forall_mem_append.mpr ⟨hstop, hback⟩, hends⟩

/-- There is only one thing left. -/
theorem trim_eq (h : Bared text core) : trim isBlank text = core := by
  obtain ⟨front, back, rfl, hfront, hback, hhead, hlast⟩ := h
  rw [trim, List.append_assoc, List.dropWhile_append_of_pos hfront]
  rcases core with _ | ⟨c, rest⟩
  · rw [List.nil_append, List.dropWhile_eq_nil_iff.mpr hback]
    rfl
  · have hc : isBlank c = false := hhead c rfl
    rw [List.cons_append, List.dropWhile_cons_of_neg (by simp [hc]), ← List.cons_append,
      List.reverse_append, List.dropWhile_append_of_pos (by simpa using hback)]
    refine List.rdropWhile_eq_self_iff.mpr fun hne => ?_
    rw [hlast _ (List.getLast?_eq_some_getLast hne)]
    simp

end Bared

end Text

open DiscPatch.Text

namespace Check

/-! ## Marks -/

/-- The marks that may stand in front of the digits. -/
def marks : List (List Char) :=
  [['0', 'x'], ['0', 'X']]

/-- What is left of a text without one mark at its start, if there is any. -/
def Unmarked (core body : List Char) : Prop :=
  (∃ mark ∈ marks, core = mark ++ body) ∨ core = body ∧ ∀ mark ∈ marks, ¬ mark <+: core

theorem unmarked_iff {core body : List Char} : Unmarked core body ↔ withoutMark core = body := by
  fun_cases withoutMark core with
  | case1 rest => simp [Unmarked, marks]
  | case2 rest => simp [Unmarked, marks]
  | case3 chars hlower hupper =>
    have hplain : ∀ mark ∈ marks, ¬ mark <+: core := by
      simp only [marks, List.forall_mem_cons]
      refine ⟨?_, ?_, by simp⟩
      · rintro ⟨rest, rfl⟩
        exact hlower rest rfl
      · rintro ⟨rest, rfl⟩
        exact hupper rest rfl
    constructor
    · rintro (⟨mark, hmark, rfl⟩ | ⟨rfl, -⟩)
      · exact absurd (List.prefix_append mark body) (hplain mark hmark)
      · rfl
    · rintro rfl
      exact .inr ⟨rfl, hplain⟩

section Marks

variable {mark : List Char} (hmark : mark ∈ marks)
include hmark

/-- A mark is no pair of digits. -/
theorem not_paired_mark {rest : List Char} {bytes : Bytes} : ¬ Paired (mark ++ rest) bytes := by
  have hsmall : 'x' ∉ lowerDigits ++ upperDigits := by decide
  have hcapital : 'X' ∉ lowerDigits ++ upperDigits := by decide
  simp only [marks, List.mem_cons, List.not_mem_nil, or_false] at hmark
  rcases hmark with rfl | rfl
  · rintro (_ | ⟨hblank, -⟩ | ⟨-, hlow, -, -⟩)
    · exact absurd hblank (by decide)
    · exact hsmall hlow.mem
  · rintro (_ | ⟨hblank, -⟩ | ⟨-, hlow, -, -⟩)
    · exact absurd hblank (by decide)
    · exact hcapital hlow.mem

/-- With a mark in front, blanks are taken off at the end only. -/
theorem bared_mark {core back : List Char} (hlast : ∀ c ∈ core.getLast?, isBlank c = false)
    (hback : ∀ c ∈ back, isBlank c = true) : Bared (mark ++ (core ++ back)) (mark ++ core) := by
  have hends : ∀ mark ∈ marks, mark.head? = some '0' ∧
      (mark.getLast? = some 'x' ∨ mark.getLast? = some 'X') := by decide
  have hplain : isBlank '0' = false ∧ isBlank 'x' = false ∧ isBlank 'X' = false := by
    decide +kernel
  obtain ⟨hhead, hend⟩ := hends mark hmark
  refine ⟨[], back, by simp, by simp, hback, fun c hc => ?_, fun c hc => ?_⟩
  · rw [List.head?_append, hhead] at hc
    cases hc
    exact hplain.1
  · rw [List.getLast?_append] at hc
    rcases hcore : core.getLast? with _ | last
    · rw [hcore] at hc
      rcases hend with hend | hend
      · rw [hend] at hc
        cases hc
        exact hplain.2.1
      · rw [hend] at hc
        cases hc
        exact hplain.2.2
    · rw [hcore] at hc
      exact hlast c (hcore ▸ hc)

end Marks

/-! ## Texts -/

/-- The text spells the bytes: without the blanks around it, and without one mark in front of what
is left then, it is pairs of digits. -/
def Reads (text : List Char) (bytes : Bytes) : Prop :=
  ∃ core body, Bared text core ∧ Unmarked core body ∧ Paired body bytes

/-- The text is put together from any blanks, a mark or none, pairs of digits that stand for the
bytes, and any blanks. -/
def Spelling (text : List Char) (bytes : Bytes) : Prop :=
  ∃ front mark body back, text = front ++ mark ++ body ++ back ∧ (∀ c ∈ front, isBlank c = true) ∧
    (mark = [] ∨ mark ∈ marks) ∧ Paired body bytes ∧ ∀ c ∈ back, isBlank c = true

theorem hexBytes_eq_ok_iff {text : String} {bytes : Bytes} :
    hexBytes (.text text) = .ok bytes ↔ Reads text.toList bytes := by
  have htext : hexText? text = some bytes ↔ Reads text.toList bytes := by
    rw [hexText?, hexPairs?_eq_some_iff]
    constructor
    · intro h
      exact ⟨_, _, bared_trim text.toList, unmarked_iff.mpr rfl, h⟩
    · rintro ⟨core, body, hcore, hbody, h⟩
      rwa [hcore.trim_eq, unmarked_iff.mp hbody]
  rw [← htext, hexBytes]
  rcases hexText? text with _ | found <;> simp [Checked.flaw]

/-- **Every spelling is read.** Blanks of ASCII at the ends of the pairs may go with the blanks
around the text; nothing else depends on how the text was put together. -/
theorem reads_iff_spelling {text : List Char} {bytes : Bytes} :
    Reads text bytes ↔ Spelling text bytes := by
  constructor
  · rintro ⟨core, body, ⟨front, back, rfl, hfront, hback, -, -⟩, hmark, hbody⟩
    rcases hmark with ⟨mark, hmark, rfl⟩ | ⟨rfl, -⟩
    · exact ⟨front, mark, body, back, by simp, hfront, .inr hmark, hbody, hback⟩
    · exact ⟨front, [], core, back, by simp, hfront, .inl rfl, hbody, hback⟩
  · rintro ⟨front, mark, body, back, rfl, hfront, hmark, hbody, hback⟩
    rw [List.append_assoc front]
    rcases hmark with rfl | hmark
    · have hcore := bared_trim body
      have hpaired : Paired (trim isBlank body) bytes := by
        obtain ⟨start, stop, hends, hstart, hstop, -⟩ := hcore
        rw [hends] at hbody
        exact (hbody.of_append_blanks hstop).of_blanks_append hstart
      refine ⟨_, _, hcore.around hfront hback, .inr ⟨rfl, fun mark hmark => ?_⟩, hpaired⟩
      rintro ⟨rest, hrest⟩
      rw [← hrest] at hpaired
      exact not_paired_mark hmark hpaired
    · obtain ⟨stop, hends, hstop, hlast⟩ := exists_rdropWhile_isBlank body
      generalize body.rdropWhile isBlank = core at hends hlast
      subst hends
      exact ⟨_, _, (bared_mark hmark hlast hstop).around hfront hback, .inl ⟨mark, hmark, rfl⟩,
        hbody.of_append_blanks hstop⟩

end Check

/-! ## Fields of a memory directive -/

namespace MemoryDirective

open Check

variable {fields : Fields} {directive : MemoryDirective}

/-- A memory directive is in order exactly if each of its fields is. -/
theorem check_eq_ok_iff :
    MemoryDirective.check (.object fields) = .ok directive ↔
      optional fields "offset" natural 0 = .ok directive.offset ∧
      optional fields "value" hexBytes [] = .ok directive.value ∧
      optional fields "valuefile" text "" = .ok directive.valueFile ∧
      optional fields "original" hexBytes [] = .ok directive.expected ∧
      optional fields "search" truth false = .ok directive.search ∧
      optional fields "align" natural 1 = .ok directive.align ∧
      optional fields "ocarina" truth false = .ok directive.hook := by
  obtain ⟨offset, value, valueFile, expected, search, align, hook⟩ := directive
  simp only [MemoryDirective.check, object, Checked.also_eq_ok_iff, Checked.build_eq_ok_iff]
  constructor
  · rintro ⟨_, _, ⟨_, _, ⟨_, _, ⟨_, _, ⟨_, _, ⟨_, _, ⟨_, _, rfl, hoffset, rfl⟩, hvalue, rfl⟩,
      hfile, rfl⟩, hexpected, rfl⟩, hsearch, rfl⟩, halign, rfl⟩, hhook, hall⟩
    cases hall
    exact ⟨hoffset, hvalue, hfile, hexpected, hsearch, halign, hhook⟩
  · rintro ⟨hoffset, hvalue, hfile, hexpected, hsearch, halign, hhook⟩
    exact ⟨_, _, ⟨_, _, ⟨_, _, ⟨_, _, ⟨_, _, ⟨_, _, ⟨_, _, rfl, hoffset, rfl⟩, hvalue, rfl⟩,
      hfile, rfl⟩, hexpected, rfl⟩, hsearch, rfl⟩, halign, rfl⟩, hhook, rfl⟩

theorem check_set_value {text : String} :
    MemoryDirective.check (.object (fields.set "value" (.text text))) = .ok directive ↔
      ∃ bytes rest, Reads text.toList bytes ∧
        MemoryDirective.check (.object (fields.erase "value")) = .ok rest ∧
        directive = { rest with value := bytes } := by
  simp (disch := decide) only [check_eq_ok_iff, optional_set_self, optional_set_of_ne,
    optional_erase_self, optional_erase_of_ne, Checked.under_eq_ok_iff, hexBytes_eq_ok_iff,
    Except.ok.injEq]
  constructor
  · rintro ⟨hoffset, hvalue, hothers⟩
    exact ⟨directive.value, { directive with value := [] }, hvalue, ⟨hoffset, rfl, hothers⟩, rfl⟩
  · rintro ⟨bytes, rest, hbytes, ⟨hoffset, -, hothers⟩, rfl⟩
    exact ⟨hoffset, hbytes, hothers⟩

theorem check_set_original {text : String} :
    MemoryDirective.check (.object (fields.set "original" (.text text))) = .ok directive ↔
      ∃ bytes rest, Reads text.toList bytes ∧
        MemoryDirective.check (.object (fields.erase "original")) = .ok rest ∧
        directive = { rest with expected := bytes } := by
  simp (disch := decide) only [check_eq_ok_iff, optional_set_self, optional_set_of_ne,
    optional_erase_self, optional_erase_of_ne, Checked.under_eq_ok_iff, hexBytes_eq_ok_iff,
    Except.ok.injEq]
  constructor
  · rintro ⟨hoffset, hvalue, hfile, hexpected, hothers⟩
    exact ⟨directive.expected, { directive with expected := [] }, hexpected,
      ⟨hoffset, hvalue, hfile, rfl, hothers⟩, rfl⟩
  · rintro ⟨bytes, rest, hbytes, ⟨hoffset, hvalue, hfile, -, hothers⟩, rfl⟩
    exact ⟨hoffset, hvalue, hfile, hbytes, hothers⟩

end MemoryDirective

open Check

/-- **Fields of bytes take exactly their grammar.** A directive with a text for one of its two
fields of bytes is in order exactly if the text spells some bytes and the directive is in order
without the field; the field then has these bytes, and the others are as without it. The texts that
spell bytes are those put together from blanks, a mark or none, pairs and blanks, every byte string
has one, and each pair stands for one byte. -/
theorem hexFields_exact (fields : Fields) (text : String) :
    (∀ directive,
      MemoryDirective.check (.object (fields.set "value" (.text text))) = .ok directive ↔
        ∃ bytes rest, Reads text.toList bytes ∧
          MemoryDirective.check (.object (fields.erase "value")) = .ok rest ∧
          directive = { rest with value := bytes }) ∧
    (∀ directive,
      MemoryDirective.check (.object (fields.set "original" (.text text))) = .ok directive ↔
        ∃ bytes rest, Reads text.toList bytes ∧
          MemoryDirective.check (.object (fields.erase "original")) = .ok rest ∧
          directive = { rest with expected := bytes }) ∧
    (∀ bytes, Reads text.toList bytes ↔ Spelling text.toList bytes) ∧
    (∀ bytes, ∃ text, Spelling text bytes) ∧
    ∀ body bytes, Paired body bytes →
      (body.filter (· ∉ asciiBlanks)).length = 2 * bytes.length := by
  refine ⟨fun _ => MemoryDirective.check_set_value, fun _ => MemoryDirective.check_set_original,
    fun _ => reads_iff_spelling, fun bytes => ?_, fun _ _ => Paired.length_filter⟩
  obtain ⟨body, hbody⟩ := exists_paired bytes
  exact ⟨body, [], [], body, [], by simp, by simp, .inl rfl, hbody, by simp⟩

/-- A no-break space in front, an upper-case mark, digits of both cases, a tab between two pairs and
a line feed at the end. -/
theorem hexFields_exact_mixed :
    let text := "\u00a00X4e\t80Ab\n"
    let body := ['4', 'e', '\t', '8', '0', 'A', 'b']
    Paired body [0x4e, 0x80, 0xab] ∧ (body.filter (· ∉ asciiBlanks)).length = 2 * 3 ∧
      Reads text.toList [0x4e, 0x80, 0xab] ∧
      MemoryDirective.check (.object [("value", .text text)]) =
        .ok ⟨0, [0x4e, 0x80, 0xab], "", [], false, 1, false⟩ := by
  intro text body
  have hbody : Paired body [0x4e, 0x80, 0xab] :=
    .pair (h := 4) (l := 14) (by decide) (by decide) rfl <| .blank (by decide) <|
      .pair (h := 8) (l := 0) (by decide) (by decide) rfl <|
      .pair (h := 10) (l := 11) (by decide) (by decide) rfl .done
  obtain ⟨hvalue, -, hreads, -, hdigits⟩ := hexFields_exact [] text
  have htext : Reads text.toList [0x4e, 0x80, 0xab] :=
    (hreads _).mpr ⟨['\u00a0'], ['0', 'X'], body, ['\n'], by decide,
      List.all_eq_true.mp (by decide +kernel), by decide, hbody,
      List.all_eq_true.mp (by decide +kernel)⟩
  exact ⟨hbody, hdigits _ _ hbody, htext, (hvalue _).mpr ⟨_, _, htext, rfl, rfl⟩⟩

end DiscPatch
