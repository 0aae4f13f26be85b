import Payables.Calendar.Template
import Payables.Proofs.Calendar.Order
import Payables.Proofs.Calendar.Tokens
import Payables.Proofs.Text.Numeral

/-!
# What a template writes

Tokens of numbers are written with digits first and tokens of names with letters alone, so the text
of a part starts as the part says, and a piece that goes on as long as it can stops where the next
part begins.
-/

namespace Payables.Calendar

open Text

namespace Token

/-- Whether the token is written as a name: MMMM, MMM and dddd are, the other tokens are numbers. -/
def isName : Token → Bool
  | monthName | monthAbbreviation | weekday => true
  | _ => false

/-- The characters that a token takes as many of as it finds. -/
def openClass? : Token → Option (Char → Bool)
  | monthName | monthAbbreviation | weekday => some isLetter
  | month1 | day1 => some Char.isDigit
  | _ => none

end Token

namespace Part

def isNumeric : Part → Bool
  | token t => !t.isName
  | literal c => c.isDigit

def isWordy : Part → Bool
  | token t => t.isName
  | literal c => isLetter c

end Part

theorem isLetter_eq_false_of_isDigit {c : Char} (h : c.isDigit = true) : isLetter c = false :=
  forall_isDigit (P := fun c => isLetter c = false) (by decide) h

theorem isBlank_eq_false_of_isDigit {c : Char} (h : c.isDigit = true) : isBlank c = false :=
  forall_isDigit (P := fun c => isBlank c = false) (by decide) h

theorem isBlank_eq_false_of_isLetter {c : Char} (h : isLetter c = true) : isBlank c = false := by
  cases hc : isBlank c with
  | false => rfl
  | true =>
    have hcaseless := (isCaseless_of_isBlank hc).1
    rw [isLetter] at h
    simp [isAsciiAlphanumeric, Char.isAlphanum, h] at hcaseless

variable {d : Date}

theorem monthName_mem (d : Date) : d.monthName ∈ monthNames := by
  have hlt : d.month - 1 < monthNames.length := by
    have hpos := d.isDay.month_pos
    have hle := d.isDay.month_le
    simp only [monthNames, List.length_cons, List.length_nil]
    omega
  rw [Date.monthName, ← List.getElem_eq_getD (h := hlt)]
  exact List.getElem_mem hlt

theorem weekdayName_mem (d : Date) : d.weekdayName ∈ weekdayNames := by
  have hlt : (d.dayNumber % 7).toNat < weekdayNames.length := by
    simp only [weekdayNames, List.length_cons, List.length_nil]
    omega
  rw [Date.weekdayName, ← List.getElem_eq_getD (h := hlt)]
  exact List.getElem_mem hlt

theorem three_le_length_of_mem_names {name : String} (h : name ∈ monthNames ++ weekdayNames) :
    3 ≤ name.toList.length ∧ ∀ c ∈ name.toList, isLetter c = true := by
  have hall : ∀ name ∈ monthNames ++ weekdayNames,
      3 ≤ name.toList.length ∧ name.toList.all isLetter = true := by
    decide +kernel
  exact ⟨(hall name h).1, List.all_eq_true.1 (hall name h).2⟩

theorem ordinalSuffix_mem (n : Nat) : ordinalSuffix n ∈ ordinalSuffixes := by
  unfold ordinalSuffix
  split
  · decide
  · split <;> decide

theorem isLetter_of_mem_ordinalSuffix {n : Nat} {c : Char} (h : c ∈ ordinalSuffix n) :
    isLetter c = true := by
  have hall : ∀ suffix ∈ ordinalSuffixes, suffix.all isLetter = true := by decide
  exact List.all_eq_true.1 (hall _ (ordinalSuffix_mem n)) c h

theorem isLetter_of_mem_write {t : Token} (ht : t.isName = true) {c : Char}
    (hc : c ∈ Part.write d (.token t)) : isLetter c = true := by
  have hmonth := three_le_length_of_mem_names (List.mem_append_left _ (monthName_mem d))
  have hweekday := three_le_length_of_mem_names (List.mem_append_right _ (weekdayName_mem d))
  cases t with
  | monthName => exact hmonth.2 c hc
  | monthAbbreviation => exact hmonth.2 c (List.mem_of_mem_take hc)
  | weekday => exact hweekday.2 c hc
  | _ => cases ht

theorem exists_write_eq {t : Token} (ht : t.isName = false) (hyear : 0 ≤ d.year) :
    ∃ ds tail, Part.write d (.token t) = ds ++ tail ∧ ds ≠ [] ∧
      (∀ c ∈ ds, c.isDigit = true) ∧ ∀ c ∈ tail, isLetter c = true := by
  have hdigits : ∀ n, digits n ≠ [] := digits_ne_nil
  have hfixed : ∀ width n, fixedWidth width n ≠ [] :=
    fun width n => List.append_ne_nil_of_right_ne_nil _ (hdigits n)
  cases t with
  | year4 =>
    refine ⟨fixedWidth 4 d.year.natAbs, [], ?_, hfixed _ _, ?_, by simp⟩
    · rw [Part.write, fixedWidthInt, if_neg (Int.not_lt.2 hyear), List.append_nil]
    · exact fun c hc => isDigit_of_mem_fixedWidth hc
  | year2 | month2 | day2 =>
    exact ⟨_, [], (List.append_nil _).symm, hfixed _ _, fun c hc => isDigit_of_mem_fixedWidth hc,
      by simp⟩
  | month1 | day1 =>
    exact ⟨_, [], (List.append_nil _).symm, hdigits _, fun c hc => isDigit_of_mem_digits hc,
      by simp⟩
  | dayOrdinal =>
    exact ⟨digits d.day, _, rfl, hdigits _, fun c hc => isDigit_of_mem_digits hc,
      fun c hc => isLetter_of_mem_ordinalSuffix hc⟩
  | _ => cases ht

theorem write_ne_nil (p : Part) (hyear : 0 ≤ d.year) : p.write d ≠ [] := by
  cases p with
  | literal c => exact List.cons_ne_nil c []
  | token t =>
    cases ht : t.isName with
    | false =>
      obtain ⟨ds, tail, heq, hne, -, -⟩ := exists_write_eq ht hyear
      rw [heq]
      exact List.append_ne_nil_of_left_ne_nil hne tail
    | true =>
      have hmonth := (three_le_length_of_mem_names (List.mem_append_left _ (monthName_mem d))).1
      have hweekday :=
        (three_le_length_of_mem_names (List.mem_append_right _ (weekdayName_mem d))).1
      refine List.ne_nil_of_length_pos ?_
      cases t with
      | monthName => exact Nat.lt_of_lt_of_le (by decide) hmonth
      | monthAbbreviation =>
        rw [Part.write, List.length_take]
        omega
      | weekday => exact Nat.lt_of_lt_of_le (by decide) hweekday
      | _ => cases ht

theorem isDigit_of_mem_head?_write {t : Token} (ht : t.isName = false) (hyear : 0 ≤ d.year)
    {c : Char} (hc : c ∈ (Part.write d (.token t)).head?) : c.isDigit = true := by
  obtain ⟨ds, tail, heq, hne, hdigits, -⟩ := exists_write_eq ht hyear
  obtain ⟨b, bs, rfl⟩ := List.exists_cons_of_ne_nil hne
  rw [heq, List.cons_append, List.head?_cons, Option.mem_some_iff] at hc
  exact hdigits c (hc ▸ List.mem_cons_self)

theorem isBlank_eq_false_of_mem_write {p : Part} (hp : p.isSpace = false) (hyear : 0 ≤ d.year)
    {c : Char} (hc : c ∈ p.write d) : isBlank c = false := by
  cases p with
  | literal l =>
    rw [List.mem_singleton.1 hc]
    exact hp
  | token t =>
    cases ht : t.isName with
    | true => exact isBlank_eq_false_of_isLetter (isLetter_of_mem_write ht hc)
    | false =>
      obtain ⟨ds, tail, heq, -, hdigits, hletters⟩ := exists_write_eq ht hyear
      rw [heq] at hc
      rcases List.mem_append.1 hc with hc | hc
      · exact isBlank_eq_false_of_isDigit (hdigits c hc)
      · exact isBlank_eq_false_of_isLetter (hletters c hc)

theorem isDigit_eq_false_of_mem_head?_write {p : Part} (hp : p.isNumeric = false) {c : Char}
    (hc : c ∈ (p.write d).head?) : c.isDigit = false := by
  cases p with
  | literal l =>
    obtain rfl : l = c := by simpa [Part.write] using hc
    exact hp
  | token t =>
    have ht : t.isName = true := by simpa [Part.isNumeric] using hp
    have hletter := isLetter_of_mem_write ht (List.mem_of_mem_head? hc)
    cases hdigit : c.isDigit with
    | false => rfl
    | true => rw [isLetter_eq_false_of_isDigit hdigit] at hletter; cases hletter

theorem isLetter_eq_false_of_mem_head?_write {p : Part} (hp : p.isWordy = false)
    (hyear : 0 ≤ d.year) {c : Char} (hc : c ∈ (p.write d).head?) : isLetter c = false := by
  cases p with
  | literal l =>
    obtain rfl : l = c := by simpa [Part.write] using hc
    exact hp
  | token t => exact isLetter_eq_false_of_isDigit (isDigit_of_mem_head?_write hp hyear hc)

end Payables.Calendar
