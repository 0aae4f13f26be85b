import Payables.Calendar.IsoText
import Payables.Proofs.Calendar.Cutting
import Payables.Proofs.Text.Runs

/-!
# Dates read back from their texts

Every date of the calendar is read back from its text, also one with a year that has a sign or more
than four digits (`ofText?_text`).
-/

namespace Payables

open Calendar Text

namespace Reader

theorem mark_cons {c : Char} (h : isBlank c = false) (s : List Char) :
    mark c (c :: s) = some ((), s) := by
  rw [mark, trimStart_cons h]
  exact if_pos rfl

theorem exists_digit_cons {ds : List Char} (hne : ds ≠ []) (hds : ∀ c ∈ ds, c.isDigit = true)
    (rest : List Char) :
    ∃ c s, ds ++ rest = c :: s ∧ isBlank c = false ∧ c ≠ '-' ∧ c ≠ '+' := by
  obtain ⟨c, cs, rfl⟩ := List.exists_cons_of_ne_nil hne
  have hc : isBlank c = false ∧ c ≠ '-' ∧ c ≠ '+' :=
    forall_isDigit (P := fun c => isBlank c = false ∧ c ≠ '-' ∧ c ≠ '+') (by decide)
      (hds c List.mem_cons_self)
  exact ⟨c, cs ++ rest, rfl, hc⟩

theorem fixedWidth_ne_nil {width n : Nat} (hwidth : 0 < width) (h : n < tenTo width) :
    fixedWidth width n ≠ [] := by
  intro hnil
  have hlength := length_fixedWidth hwidth h
  rw [hnil] at hlength
  exact absurd hlength (Nat.ne_of_lt hwidth)

theorem number_fixedWidth {width n : Nat} (hwidth : 0 < width) (h : n < tenTo width)
    (rest : List Char) : number width (fixedWidth width n ++ rest) = some (n, rest) := by
  have hlength := length_fixedWidth hwidth h
  have hdigits : ∀ c ∈ fixedWidth width n, c.isDigit = true := fun c hc =>
    isDigit_of_mem_fixedWidth hc
  obtain ⟨c, s, hcons, hblank, -, -⟩ := exists_digit_cons (fixedWidth_ne_nil hwidth h) hdigits rest
  have hmost : min width ((fixedWidth width n ++ rest).takeWhile Char.isDigit).length = width := by
    rw [List.takeWhile_append_of_pos hdigits, List.length_append, hlength]
    omega
  have htake : (fixedWidth width n ++ rest).take width = fixedWidth width n := by
    rw [List.take_append_of_le_length hlength.ge, List.take_of_length_le hlength.le]
  have hdrop : (fixedWidth width n ++ rest).drop width = rest := List.drop_left' hlength
  have htrim : trimStart (fixedWidth width n ++ rest) = fixedWidth width n ++ rest := by
    rw [hcons, trimStart_cons hblank]
  rw [number, htrim]
  simp only [hmost, if_neg (Nat.ne_of_gt hwidth), htake, hdrop, value_fixedWidth]

theorem unspaced_fixedWidth {n : Nat} {rest : List Char}
    (hrest : ∀ c ∈ rest.head?, c.isDigit = false) :
    year.unspaced (fixedWidth 4 n ++ rest) = some (n, rest) := by
  have hdigits : ∀ c ∈ fixedWidth 4 n, c.isDigit = true := fun c hc => isDigit_of_mem_fixedWidth hc
  have hne : fixedWidth 4 n ≠ [] := by
    have hpos := length_digits_pos n
    rw [fixedWidth, Ne, List.append_eq_nil_iff, ← List.length_eq_zero_iff (l := digits n)]
    omega
  have htake := takeWhile_append_of_stop hdigits hrest
  have hdrop := dropWhile_append_of_stop hdigits hrest
  simp only [year.unspaced, htake, hdrop, if_neg hne, value_fixedWidth]

theorem year_cons_of_unsigned {c : Char} (hblank : isBlank c = false) (hminus : c ≠ '-')
    (hplus : c ≠ '+') (s : List Char) :
    year (c :: s) = (number 4 (c :: s)).map fun (n, r) => ((n : Int), r) := by
  rw [year, trimStart_cons hblank]
  split
  · rename_i heq
    exact absurd (List.cons.inj heq).1 hminus
  · rename_i heq
    exact absurd (List.cons.inj heq).1 hplus
  · rfl

theorem year_minus (s : List Char) :
    year ('-' :: s) = (year.unspaced s).map fun (n, r) => (-(n : Int), r) := rfl

theorem year_plus (s : List Char) :
    year ('+' :: s) = (year.unspaced s).map fun (n, r) => ((n : Int), r) := rfl

/-- A year is read back with its sign, or without one if it has four digits. -/
theorem year_yearChars (y : Int) {rest : List Char} (hrest : ∀ c ∈ rest.head?, c.isDigit = false) :
    year (Date.yearChars y ++ rest) = some (y, rest) := by
  unfold Date.yearChars
  by_cases hplain : 0 ≤ y ∧ y ≤ 9999
  · have hlt : y.toNat < tenTo 4 := show y.toNat < 10000 by omega
    have hcast : (y.toNat : Int) = y := Int.toNat_of_nonneg hplain.1
    obtain ⟨c, s, hcons, hblank, hminus, hplus⟩ := exists_digit_cons
      (fixedWidth_ne_nil (by decide) hlt) (fun c hc => isDigit_of_mem_fixedWidth hc) rest
    rw [if_pos hplain, hcons, year_cons_of_unsigned hblank hminus hplus, ← hcons,
      number_fixedWidth (by decide) hlt, Option.map_some]
    exact congrArg (fun z => some (z, rest)) hcast
  · rw [if_neg hplain, List.cons_append]
    by_cases hneg : y < 0
    · have hcast : -(y.natAbs : Int) = y := by omega
      rw [if_pos hneg, year_minus, unspaced_fixedWidth hrest, Option.map_some]
      exact congrArg (fun z => some (z, rest)) hcast
    · have hcast : (y.natAbs : Int) = y := by omega
      rw [if_neg hneg, year_plus, unspaced_fixedWidth hrest, Option.map_some]
      exact congrArg (fun z => some (z, rest)) hcast

theorem date_chars (d : Date) (rest : List Char) : date (d.chars ++ rest) = some (d, rest) := by
  have hchars : d.chars ++ rest = Date.yearChars d.year ++ ('-' :: (fixedWidth 2 d.month ++
      ('-' :: (fixedWidth 2 d.day ++ rest)))) := by
    simp [Date.chars]
  have hdash : ∀ s, ∀ c ∈ ('-' :: s).head?, c.isDigit = false := by
    rintro s c ⟨⟩
    rfl
  simp only [date, hchars, year_yearChars d.year (hdash _), mark_cons (c := '-') (by decide),
    number_fixedWidth (by decide) (month_lt d), number_fixedWidth (by decide) (day_lt d),
    Option.bind_eq_bind, Option.bind_some, Date.of?, dif_pos d.isDay]
  rfl

end Reader

theorem Date.ofText?_text (d : Date) : Date.ofText? d.text = some d := by
  have hread := Reader.date_chars d []
  rw [List.append_nil] at hread
  rw [ofText?, Reader.whole, text, String.toList_ofList, hread]
  rfl

end Payables
