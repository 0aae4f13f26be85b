import Payables.Proofs.Calendar.Pieces
import Payables.Proofs.Calendar.RoundTrip

/-!
# Templates of fixed width

A template of four-digit and two-digit numbers and characters other than white space gives no
choice: each part takes one piece, and the piece is what the part writes of the date that is read.
So such a template accepts the texts that it writes and no others (`parse_eq_date_iff`).
-/

namespace Payables

namespace Calendar

open Text

variable {d : Date} {k : Components} {p : Part} {ps : List Part} {w : List Char}

/-- The part is YYYY, YY, MM or DD or a character other than white space. -/
def Part.isFixed : Part → Bool
  | .token .year4 | .token .year2 | .token .month2 | .token .day2 => true
  | .token _ => false
  | .literal c => !isBlank c

theorem runsInto_eq_false_of_isFixed (h : p.isFixed = true) (q : Part) : p.runsInto q = false := by
  cases p with
  | literal c => rfl
  | token t =>
    cases t with
    | year4 | year2 | month2 | day2 => rfl
    | _ => cases h

theorem isSeparated_of_isFixed (h : ∀ p ∈ ps, p.isFixed = true) : IsSeparated ps := by
  refine List.Pairwise.isChain (List.Pairwise.imp_of_mem (R := fun _ _ => True) ?_ ?_)
  · exact fun hp _ _ => runsInto_eq_false_of_isFixed (h _ hp) _
  · exact List.pairwise_of_forall fun _ _ => trivial

theorem isDigit_of_mem_runLengths {width : Nat} {rest : List Char}
    (h : w.length ∈ runLengths Char.isDigit width ((w ++ rest).take width)) :
    w.length = width ∧ ∀ c ∈ w, c.isDigit = true := by
  obtain ⟨hfewest, hmost, hdigits⟩ := of_length_mem_runLengths_take h
  exact ⟨Nat.le_antisymm hmost hfewest, hdigits⟩

theorem fixedWidth_two_value {rest : List Char}
    (h : w.length ∈ runLengths Char.isDigit 2 ((w ++ rest).take 2)) :
    fixedWidth 2 (value w) = w ∧ value w < 100 := by
  obtain ⟨hlength, hdigits⟩ := isDigit_of_mem_runLengths h
  have hwritten := fixedWidth_value hdigits (by omega)
  have hlt := value_lt_tenTo hdigits
  rw [hlength] at hwritten hlt
  exact ⟨hwritten, hlt⟩

theorem year4_of_takes (htakes : (Part.token .year4).Takes w)
    (htells : (Part.token .year4).Tells k w) (hdate : k.date? = some d) :
    w = Part.write d (.token .year4) ∧ 0 ≤ d.year ∧ d.year ≤ 9999 := by
  obtain ⟨rest, hw⟩ := htakes
  obtain ⟨hlength, hdigits⟩ := isDigit_of_mem_runLengths hw
  obtain ⟨year, hyear, hdyear, -, -⟩ := Components.date?_eq_some hdate
  obtain rfl : year = value w := Option.some.inj (hyear.symm.trans htells)
  have hwritten := fixedWidth_value hdigits (by omega)
  have hlt := value_lt_tenTo hdigits
  rw [hlength] at hwritten hlt
  have hle : value w < 10000 := hlt
  refine ⟨?_, by omega, by omega⟩
  rw [Part.write, fixedWidthInt, if_neg (by omega), hdyear, Int.natAbs_natCast, hwritten]

/-- Two digits are the year of the date within its century, which is the current one. -/
theorem year2_of_takes (htakes : (Part.token .year2).Takes w)
    (htells : (Part.token .year2).Tells k w) (hdate : k.date? = some d) :
    w = Part.write d (.token .year2) ∧ 2000 ≤ d.year ∧ d.year ≤ 2099 := by
  obtain ⟨rest, hw⟩ := htakes
  obtain ⟨hwritten, hlt⟩ := fixedWidth_two_value hw
  obtain ⟨year, hyear, hdyear, -, -⟩ := Components.date?_eq_some hdate
  obtain rfl : year = 2000 + value w := Option.some.inj (hyear.symm.trans htells)
  have hcentury : (d.year % 100).toNat = value w := by omega
  refine ⟨?_, by omega, by omega⟩
  rw [Part.write, hcentury, hwritten]

theorem eq_write_of_isFixed (hp : p.isFixed = true) (htakes : p.Takes w) (htells : p.Tells k w)
    (hdate : k.date? = some d) : w = p.write d := by
  obtain ⟨-, -, -, hmonth, hday⟩ := Components.date?_eq_some hdate
  cases p with
  | literal c =>
    rw [eq_singleton_of_takes_literal (by simpa [Part.isFixed] using hp) htakes]
    rfl
  | token t =>
    cases t with
    | year4 => exact (year4_of_takes htakes htells hdate).1
    | year2 => exact (year2_of_takes htakes htells hdate).1
    | month2 =>
      obtain ⟨rest, hw⟩ := htakes
      have hvalue : d.month = value w := Option.some.inj (hmonth.symm.trans htells)
      rw [Part.write, hvalue, (fixedWidth_two_value hw).1]
    | day2 =>
      obtain ⟨rest, hw⟩ := htakes
      have hdigits : w.takeWhile Char.isDigit = w :=
        List.takeWhile_eq_self_iff.2 (isDigit_of_mem_runLengths hw).2
      have hvalue : d.day = value (w.takeWhile Char.isDigit) :=
        Option.some.inj (hday.symm.trans htells)
      rw [Part.write, hvalue, hdigits, (fixedWidth_two_value hw).1]
    | _ => cases hp

end Calendar

namespace DateTemplate

open Calendar Text

variable {t : DateTemplate} {d : Date}

theorem mem_tokens {tok : Token} : tok ∈ t.tokens ↔ .token tok ∈ t.parts := by
  rw [tokens, tokensOf, List.mem_filterMap]
  constructor
  · rintro ⟨p, hp, hpart⟩
    cases p with
    | token tok' => exact Option.some.inj hpart ▸ hp
    | literal c => cases hpart
  · exact fun h => ⟨_, h, rfl⟩

theorem eq_format_of_parse (hcomplete : t.isComplete = true)
    (hfixed : ∀ p ∈ t.parts, p.isFixed = true) {cell : String} (h : t.parse cell = .date d) :
    trim cell.toList = (t.format d).toList ∧ 0 ≤ d.year ∧ d.year ≤ 9999 ∧
      (.year2 ∈ t.tokens → 2000 ≤ d.year ∧ d.year ≤ 2099) := by
  obtain ⟨pairs, k, hparts, htext, hpieces, hdate⟩ :=
    readParts?_eq_some (readParts?_of_parse h)
  have hpiece : ∀ {p : Part}, p ∈ t.parts → ∃ w, p.Takes w ∧ p.Tells k w := by
    intro p hp
    rw [← hparts] at hp
    obtain ⟨e, he, rfl⟩ := List.mem_map.1 hp
    exact ⟨e.2, hpieces e he⟩
  have hshort : .year2 ∈ t.tokens → 2000 ≤ d.year ∧ d.year ≤ 2099 := by
    intro hmem
    obtain ⟨w, htakes, htells⟩ := hpiece (mem_tokens.1 hmem)
    exact (year2_of_takes htakes htells hdate).2
  -- a complete template shows the year with four digits or within the current century
  have hyear : 0 ≤ d.year ∧ d.year ≤ 9999 := by
    obtain ⟨⟨hany, -⟩, -⟩ : (t.tokens.any Token.showsYear = true ∧ _) ∧ _ := by
      simpa only [isComplete, Bool.and_eq_true] using hcomplete
    obtain ⟨tok, htok, hshows⟩ := List.any_eq_true.1 hany
    cases tok with
    | year4 =>
      obtain ⟨w, htakes, htells⟩ := hpiece (mem_tokens.1 htok)
      exact (year4_of_takes htakes htells hdate).2
    | year2 =>
      have hrange := hshort htok
      omega
    | _ => cases hshows
  refine ⟨?_, hyear.1, hyear.2, hshort⟩
  rw [toList_format, ← hparts, List.flatMap_map, ← htext]
  refine List.flatMap_congr fun e he => ?_
  have hp : e.1 ∈ t.parts := hparts ▸ List.mem_map_of_mem he
  exact eq_write_of_isFixed (hfixed _ hp) (hpieces e he).1 (hpieces e he).2 hdate

/-- A complete template of YYYY, YY, MM, DD and characters other than white space reads a date off
the text that it writes of it and off no other text, if its tokens have room for the year. -/
theorem parse_eq_date_iff {template : String} (ht : of? template = some t)
    (hcomplete : t.isComplete = true) (hfixed : ∀ p ∈ t.parts, p.isFixed = true) (cell : String)
    (d : Date) :
    t.parse cell = .date d ↔ trim cell.toList = (t.format d).toList ∧ 0 ≤ d.year ∧
      d.year ≤ 9999 ∧ (.year2 ∈ t.tokens → 2000 ≤ d.year ∧ d.year ≤ 2099) := by
  refine ⟨eq_format_of_parse hcomplete hfixed, ?_⟩
  rintro ⟨htext, h₀, h₁, hshort⟩
  rw [parse, htext, if_neg (format_ne_nil ht h₀),
    readParts?_format hcomplete (isSeparated_of_isFixed hfixed) h₀ h₁ hshort]

def twoYears : DateTemplate := ⟨"DD.MM.20YY/YYYY"⟩

theorem parse_eq_date_iff_twoYears :
    of? "DD.MM.20YY/YYYY " = some twoYears ∧ twoYears.isComplete = true ∧
      (∀ p ∈ twoYears.parts, p.isFixed = true) ∧
      twoYears.parse " 29.02.2024/2024" = .date leapDay := by
  have ht : of? "DD.MM.20YY/YYYY " = some twoYears := by decide +kernel
  have hcomplete : twoYears.isComplete = true := by decide +kernel
  have hfixed : ∀ p ∈ twoYears.parts, p.isFixed = true := by decide +kernel
  have htext : trim " 29.02.2024/2024".toList = (twoYears.format leapDay).toList := by
    decide +kernel
  exact ⟨ht, hcomplete, hfixed, (parse_eq_date_iff ht hcomplete hfixed _ leapDay).2
    ⟨htext, by decide, by decide, fun _ => by decide⟩⟩

end DateTemplate

end Payables
