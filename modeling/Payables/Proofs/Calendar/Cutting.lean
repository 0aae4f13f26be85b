import Mathlib.Data.List.Chain
import Payables.Proofs.Calendar.Writing
import Payables.Proofs.Text.Runs

/-!
# Cutting what a template wrote

A text that a template wrote is cut into the texts of its parts, if no number or name of open length
runs into the part after it. A part that is not white space finds its own text first, since that is
as long as a piece for it can be. White space may find more, where several blanks stand together,
but then too few are left for the blanks after it (`pieces?_eq_none_of_few_blanks`).
-/

namespace Payables.Calendar

open Text

/-- Whether a part of open length cannot be told from the part after it: a number of one or two
digits from a number or a digit, a name from a name or a letter. -/
def Part.runsInto : Part → Part → Bool
  | .token .month1, p | .token .day1, p => p.isNumeric
  | .token .monthName, p | .token .monthAbbreviation, p | .token .weekday, p => p.isWordy
  | _, _ => false

def IsSeparated (ps : List Part) : Prop := ps.IsChain fun p q => p.runsInto q = false

instance (ps : List Part) : Decidable (IsSeparated ps) := inferInstanceAs (Decidable (ps.IsChain _))

variable {d : Date}

theorem openClass_eq_false_of_runsInto {t : Token} {p : Part} {q : Char → Bool}
    (ht : t.openClass? = some q) (hsep : (Part.token t).runsInto p = false) (hyear : 0 ≤ d.year)
    {c : Char} (hc : c ∈ (p.write d).head?) : q c = false := by
  cases t with
  | month1 | day1 =>
    cases ht
    exact isDigit_eq_false_of_mem_head?_write hsep hc
  | monthName | monthAbbreviation | weekday =>
    cases ht
    exact isLetter_eq_false_of_mem_head?_write hsep hyear hc
  | _ => cases ht

theorem head?_runLengths_append {q : Char → Bool} {fewest : Nat} {w rest : List Char}
    (hw : ∀ c ∈ w, q c = true) (hfewest : fewest ≤ w.length)
    (hrest : ∀ c ∈ rest.head?, q c = false) :
    (runLengths q fewest (w ++ rest)).head? = some w.length := by
  have hpos : w.length + 1 - fewest ≠ 0 := by omega
  rw [runLengths, takeWhile_append_of_stop hw hrest, List.head?_map, List.head?_range, if_neg hpos]
  rfl

theorem head?_runLengths_take {q : Char → Bool} {fewest most : Nat} {w rest : List Char}
    (hw : ∀ c ∈ w, q c = true) (hfewest : fewest ≤ w.length) (hmost : w.length ≤ most)
    (hrest : w.length = most ∨ ∀ c ∈ rest.head?, q c = false) :
    (runLengths q fewest ((w ++ rest).take most)).head? = some w.length := by
  rw [List.take_append, List.take_of_length_le hmost]
  refine head?_runLengths_append hw hfewest fun c hc => ?_
  rcases hrest with hfull | hrest
  · rw [hfull, Nat.sub_self, List.take_zero] at hc
    cases hc
  · refine hrest c ?_
    cases rest with
    | nil => simp at hc
    | cons b bs =>
      cases hk : most - w.length with
      | zero => simp [hk] at hc
      | succ k => simpa [hk] using hc

theorem month_lt (d : Date) : d.month < tenTo 2 :=
  Nat.lt_of_le_of_lt d.isDay.month_le (by decide)

theorem year_lt (h₀ : 0 ≤ d.year) (h₁ : d.year ≤ 9999) : d.year.natAbs < tenTo 4 :=
  show d.year.natAbs < 10000 by omega

theorem shortYear_lt (d : Date) : (d.year % 100).toNat < tenTo 2 :=
  show (d.year % 100).toNat < 100 by omega

theorem day_lt (d : Date) : d.day < tenTo 2 :=
  Nat.lt_of_le_of_lt (d.isDay.day_le.trans (monthLength_le d.year d.month)) (by decide)

theorem length_ordinalSuffix (n : Nat) : (ordinalSuffix n).length = 2 := by
  have hall : ∀ suffix ∈ ordinalSuffixes, suffix.length = 2 := by decide
  exact hall _ (ordinalSuffix_mem n)

theorem startsWithOrdinalSuffix_append (n : Nat) (rest : List Char) :
    startsWithOrdinalSuffix (ordinalSuffix n ++ rest) = true := by
  have hall : ∀ suffix ∈ ordinalSuffixes,
      ordinalSuffixes.contains (suffix.map Char.toLower) = true := by decide
  rw [startsWithOrdinalSuffix, ← length_ordinalSuffix n, List.take_left,
    hall _ (ordinalSuffix_mem n)]

theorem isDigit_eq_false_of_mem_head?_ordinalSuffix {n : Nat} {rest : List Char} {c : Char}
    (hc : c ∈ (ordinalSuffix n ++ rest).head?) : c.isDigit = false := by
  have hall : ∀ suffix ∈ ordinalSuffixes, ∃ b bs, suffix = b :: bs ∧ b.isDigit = false := by
    simp [ordinalSuffixes]
  obtain ⟨b, bs, hsuffix, hb⟩ := hall _ (ordinalSuffix_mem n)
  rw [hsuffix, List.cons_append, List.head?_cons, Option.mem_some_iff] at hc
  exact hc ▸ hb

/-- The first piece for a token is its text, if a token of open length does not go on after it. -/
theorem head?_lengths_token (t : Token) (h₀ : 0 ≤ d.year) (h₁ : d.year ≤ 9999) (rest : List Char)
    (hrest : ∀ q, t.openClass? = some q → ∀ c ∈ rest.head?, q c = false) :
    ((Part.token t).lengths (Part.write d (.token t) ++ rest)).head? =
      some (Part.write d (.token t)).length := by
  have hfixed : ∀ {width n : Nat}, 0 < width → n < tenTo width →
      (runLengths Char.isDigit width ((fixedWidth width n ++ rest).take width)).head? =
        some (fixedWidth width n).length := by
    intro width n hwidth hn
    have hlength := length_fixedWidth hwidth hn
    exact head?_runLengths_take (fun c hc => isDigit_of_mem_fixedWidth hc)
      (Nat.le_of_eq hlength.symm) (Nat.le_of_eq hlength) (.inl hlength)
  have hshort : ∀ {n : Nat} {after : List Char}, n < tenTo 2 →
      (∀ c ∈ after.head?, c.isDigit = false) →
      (runLengths Char.isDigit 1 ((digits n ++ after).take 2)).head? = some (digits n).length := by
    intro n after hn hafter
    exact head?_runLengths_take (fun c hc => isDigit_of_mem_digits hc) (length_digits_pos n)
      ((length_digits_le_iff (by decide)).2 hn) (.inr hafter)
  cases t with
  | year4 =>
    have hwrite : Part.write d (.token .year4) = fixedWidth 4 d.year.natAbs := by
      rw [Part.write, fixedWidthInt, if_neg (Int.not_lt.2 h₀)]
    rw [hwrite]
    exact hfixed (by decide) (year_lt h₀ h₁)
  | year2 => exact hfixed (by decide) (shortYear_lt d)
  | month2 => exact hfixed (by decide) (month_lt d)
  | day2 => exact hfixed (by decide) (day_lt d)
  | month1 => exact hshort (month_lt d) (hrest _ rfl)
  | day1 => exact hshort (day_lt d) (hrest _ rfl)
  | dayOrdinal =>
    have hwrite : Part.write d (.token .dayOrdinal) ++ rest =
        digits d.day ++ (ordinalSuffix d.day ++ rest) := List.append_assoc ..
    obtain ⟨ns, hns⟩ := List.head?_eq_some_iff.1
      (hshort (day_lt d) fun c hc => isDigit_eq_false_of_mem_head?_ordinalSuffix hc)
    have hkept : startsWithOrdinalSuffix ((digits d.day ++ (ordinalSuffix d.day ++ rest)).drop
        (digits d.day).length) = true := by
      rw [List.drop_left, startsWithOrdinalSuffix_append]
    rw [hwrite, Part.lengths, hns, List.filter_cons, if_pos hkept, List.map_cons, List.head?_cons,
      Part.write, List.length_append, length_ordinalSuffix]
  | monthName =>
    exact head?_runLengths_append (fun c hc => isLetter_of_mem_write rfl hc)
      (List.length_pos_iff.2 (write_ne_nil _ h₀)) (hrest _ rfl)
  | weekday =>
    exact head?_runLengths_append (fun c hc => isLetter_of_mem_write rfl hc)
      (List.length_pos_iff.2 (write_ne_nil _ h₀)) (hrest _ rfl)
  | monthAbbreviation =>
    have hlength : (Part.write d (.token .monthAbbreviation)).length = 3 := by
      have hmonth := (three_le_length_of_mem_names (List.mem_append_left _ (monthName_mem d))).1
      rw [Part.write, List.length_take]
      omega
    exact head?_runLengths_take (fun c hc => isLetter_of_mem_write rfl hc) (by omega) (by omega)
      (.inr (hrest _ rfl))

theorem head?_lengths_write {p : Part} (hp : p.isSpace = false) (h₀ : 0 ≤ d.year)
    (h₁ : d.year ≤ 9999) (rest : List Char)
    (hrest : ∀ t q, p = .token t → t.openClass? = some q → ∀ c ∈ rest.head?, q c = false) :
    (p.lengths (p.write d ++ rest)).head? = some (p.write d).length := by
  cases p with
  | token t => exact head?_lengths_token t h₀ h₁ rest fun q => hrest t q rfl
  | literal c =>
    have hblank : ¬ isBlank c = true := by
      rw [show isBlank c = false from hp]
      exact Bool.false_ne_true
    rw [Part.write, Part.lengths, if_neg hblank]
    simp

def leadingSpaces (ps : List Part) : Nat := (ps.takeWhile Part.isSpace).length

/-- As many blanks as white space parts have to stand in front. -/
theorem pieces?_eq_none_of_few_blanks {ps : List Part} {s : List Char}
    (h : (s.takeWhile isBlank).length < leadingSpaces ps) : pieces? ps s = none := by
  induction s generalizing ps with
  | nil =>
    cases ps with
    | nil => cases h
    | cons p ps => exact pieces?_cons_nil p ps
  | cons c s ih =>
    cases ps with
    | nil => cases h
    | cons p ps =>
      cases hp : p.isSpace with
      | false => simp [leadingSpaces, hp] at h
      | true =>
        have hclass : p.runClass? = some isBlank := by
          cases p with
          | token t => cases hp
          | literal l => exact if_pos hp
        rw [pieces?_cons_of_runClass hclass]
        cases hc : isBlank c with
        | false => rfl
        | true =>
          have hlt : (s.takeWhile isBlank).length < leadingSpaces ps := by
            simpa [leadingSpaces, hp, hc] using h
          have hmore : leadingSpaces ps ≤ leadingSpaces (p :: ps) := by
            simp [leadingSpaces, hp]
          rw [if_pos rfl, ih (Nat.lt_of_lt_of_le hlt hmore), ih hlt]
          rfl

theorem length_takeWhile_flatMap_write (ps : List Part) (hyear : 0 ≤ d.year) :
    ((ps.flatMap (Part.write d)).takeWhile isBlank).length = leadingSpaces ps := by
  induction ps with
  | nil => rfl
  | cons p ps ih =>
    rw [List.flatMap_cons]
    cases hp : p.isSpace with
    | true =>
      cases p with
      | token t => cases hp
      | literal c =>
        have hc : isBlank c = true := hp
        rw [Part.write, List.singleton_append, List.takeWhile_cons, if_pos hc, List.length_cons,
          ih, leadingSpaces, leadingSpaces, List.takeWhile_cons, if_pos hp, List.length_cons]
    | false =>
      obtain ⟨c, cs, hwrite⟩ := List.exists_cons_of_ne_nil (write_ne_nil p hyear)
      have hc : ¬ isBlank c = true := by
        rw [isBlank_eq_false_of_mem_write hp hyear (hwrite ▸ List.mem_cons_self)]
        exact Bool.false_ne_true
      have hp' : ¬ p.isSpace = true := by simp [hp]
      rw [hwrite, List.cons_append, List.takeWhile_cons, if_neg hc, leadingSpaces,
        List.takeWhile_cons, if_neg hp']
      rfl

theorem pieces?_cons_of_head? {p : Part} {ps : List Part} {w rest : List Char}
    {pieces : List (List Char)} (hlength : (p.lengths (w ++ rest)).head? = some w.length)
    (hrest : pieces? ps rest = some pieces) :
    pieces? (p :: ps) (w ++ rest) = some (w :: pieces) := by
  obtain ⟨ns, hns⟩ := List.head?_eq_some_iff.1 hlength
  rw [pieces?, hns, List.findSome?_cons, List.drop_left, List.take_left, hrest]
  rfl

/-- Each part finds the text that was written for it. -/
theorem pieces?_flatMap_write {ps : List Part} (hsep : IsSeparated ps)
    (h₀ : 0 ≤ d.year) (h₁ : d.year ≤ 9999) :
    pieces? ps (ps.flatMap (Part.write d)) = some (ps.map (Part.write d)) := by
  induction ps with
  | nil => rfl
  | cons p ps ih =>
    have ih := ih hsep.of_cons
    rw [List.flatMap_cons, List.map_cons]
    cases hp : p.isSpace with
    | false =>
      refine pieces?_cons_of_head? (head?_lengths_write hp h₀ h₁ _ ?_) ih
      rintro t q rfl ht c hc
      cases ps with
      | nil => cases hc
      | cons p' ps' =>
        obtain ⟨b, bs, hwrite⟩ := List.exists_cons_of_ne_nil (write_ne_nil p' h₀)
        refine openClass_eq_false_of_runsInto ht hsep.rel h₀ ?_
        rw [List.flatMap_cons, hwrite, List.cons_append, List.head?_cons] at hc
        rwa [hwrite, List.head?_cons]
    | true =>
      cases p with
      | token t => cases hp
      | literal c =>
        -- a longer piece takes a blank that the white space after it needs
        have hfew : pieces? (.literal c :: ps) (ps.flatMap (Part.write d)) = none := by
          refine pieces?_eq_none_of_few_blanks ?_
          rw [length_takeWhile_flatMap_write ps h₀, leadingSpaces, leadingSpaces,
            List.takeWhile_cons, if_pos hp]
          exact Nat.lt_succ_self _
        have hc : isBlank c = true := hp
        have hclass : (Part.literal c).runClass? = some isBlank := if_pos hc
        rw [Part.write, List.singleton_append, pieces?_cons_of_runClass hclass, if_pos hc, hfew, ih]
        rfl

end Payables.Calendar
