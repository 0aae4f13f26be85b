import Payables.Proofs.Calendar.Cutting

/-!
# Dates survive their template

A template that shows a whole date, and in which no number or name runs into the next part, reads
back every date that it has written, as long as the tokens have room for the year. The components
that the pieces give are those of the date, so a component that is repeated agrees with itself
(`noteAll_write`).
-/

namespace Payables

namespace Calendar

open Text

variable {d : Date}

theorem monthOfName?_monthName (d : Date) :
    monthOfName? d.monthName.toList = some d.month ∧
      monthOfName? (d.monthName.toList.take 3) = some d.month := by
  have hall : ∀ m ∈ List.range' 1 12,
      monthOfName? (monthNames.getD (m - 1) "").toList = some m ∧
        monthOfName? ((monthNames.getD (m - 1) "").toList.take 3) = some m := by
    decide +kernel
  refine hall d.month (List.mem_range'_1.2 ⟨d.isDay.month_pos, ?_⟩)
  have := d.isDay.month_le
  omega

theorem value_takeWhile_write {t : Token} (ht : t.showsDay = true) :
    value ((Part.write d (.token t)).takeWhile Char.isDigit) = d.day := by
  cases t with
  | day2 =>
    have hdigits : (fixedWidth 2 d.day).takeWhile Char.isDigit = fixedWidth 2 d.day :=
      List.takeWhile_eq_self_iff.2 fun c hc => isDigit_of_mem_fixedWidth hc
    rw [Part.write, hdigits, value_fixedWidth]
  | day1 =>
    have hdigits : (digits d.day).takeWhile Char.isDigit = digits d.day :=
      List.takeWhile_eq_self_iff.2 fun c hc => isDigit_of_mem_digits hc
    rw [Part.write, hdigits, value_digits]
  | dayOrdinal =>
    have hdigits : (digits d.day ++ ordinalSuffix d.day).takeWhile Char.isDigit = digits d.day := by
      refine takeWhile_append_of_stop (fun c hc => isDigit_of_mem_digits hc) fun c hc => ?_
      rw [← List.append_nil (ordinalSuffix d.day)] at hc
      exact isDigit_eq_false_of_mem_head?_ordinalSuffix hc
    rw [Part.write, hdigits, value_digits]
  | _ => cases ht

theorem value_write_year4 (h₀ : 0 ≤ d.year) :
    value (Part.write d (.token .year4)) = d.year.toNat := by
  rw [Part.write, fixedWidthInt, if_neg (Int.not_lt.2 h₀), value_fixedWidth]
  omega

theorem value_write_year2 (h : 2000 ≤ d.year ∧ d.year ≤ 2099) :
    2000 + value (Part.write d (.token .year2)) = d.year.toNat := by
  rw [Part.write, value_fixedWidth]
  omega

/-- The components of a date that tokens show. -/
def shownBy (d : Date) (ts : List Token) : Components where
  year := if ts.any Token.showsYear then some d.year.toNat else none
  month := if ts.any Token.showsMonth then some d.month else none
  day := if ts.any Token.showsDay then some d.day else none

theorem agree_of_same (b : Bool) (n : Nat) :
    agree (if b then some n else none) n = some (some n) := by
  cases b with
  | false => rfl
  | true => simp [agree]

theorem shownBy_concat (d : Date) (ts : List Token) (t : Token) :
    shownBy d (ts ++ [t]) =
      { year := if t.showsYear then some d.year.toNat else (shownBy d ts).year
        month := if t.showsMonth then some d.month else (shownBy d ts).month
        day := if t.showsDay then some d.day else (shownBy d ts).day } := by
  have hor : ∀ (a b : Bool) (n : Nat), (if a || b then some n else none) =
      if b then some n else if a then some n else none := by
    intro a b n
    cases a <;> cases b <;> rfl
  simp only [shownBy, List.any_append, List.any_cons, List.any_nil, Bool.or_false, hor]

/-- The text of a token adds what the token shows. -/
theorem note_write (ts : List Token) (t : Token) (h₀ : 0 ≤ d.year)
    (hshort : t = .year2 → 2000 ≤ d.year ∧ d.year ≤ 2099) :
    (shownBy d ts).note (.token t) (Part.write d (.token t)) = some (shownBy d (ts ++ [t])) := by
  have hyear : agree (shownBy d ts).year d.year.toNat = some (some d.year.toNat) :=
    agree_of_same ..
  have hmonth : agree (shownBy d ts).month d.month = some (some d.month) := agree_of_same ..
  have hday : agree (shownBy d ts).day d.day = some (some d.day) := agree_of_same ..
  have hname := monthOfName?_monthName d
  rw [shownBy_concat]
  cases t with
  | year4 =>
    rw [Components.note, value_write_year4 h₀, hyear]
    rfl
  | year2 =>
    rw [Components.note, value_write_year2 (hshort rfl), hyear]
    rfl
  | monthName =>
    rw [Components.note, Part.write, hname.1]
    exact congrArg (Option.map _) hmonth
  | monthAbbreviation =>
    rw [Components.note, Part.write, hname.2]
    exact congrArg (Option.map _) hmonth
  | month2 =>
    rw [Components.note, Part.write, value_fixedWidth, hmonth]
    rfl
  | month1 =>
    rw [Components.note, Part.write, value_digits, hmonth]
    rfl
  | day2 | day1 | dayOrdinal =>
    rw [Components.note, value_takeWhile_write rfl, hday]
    rfl
  | weekday => rfl

theorem noteAll_write (ts : List Token) (ps : List Part) (h₀ : 0 ≤ d.year)
    (hshort : .year2 ∈ tokensOf ps → 2000 ≤ d.year ∧ d.year ≤ 2099) :
    (shownBy d ts).noteAll (ps.zip (ps.map (Part.write d))) =
      some (shownBy d (ts ++ tokensOf ps)) := by
  induction ps generalizing ts with
  | nil => simp [Components.noteAll, tokensOf]
  | cons p ps ih =>
    rw [List.map_cons, List.zip_cons_cons, Components.noteAll]
    cases p with
    | literal c => exact ih ts hshort
    | token t =>
      rw [note_write ts t h₀ fun ht => hshort (ht ▸ List.mem_cons_self)]
      have ih := ih (ts ++ [t]) fun ht => hshort (List.mem_cons_of_mem t ht)
      rw [List.append_assoc] at ih
      exact ih

theorem date?_shownBy {ts : List Token} (hyear : ts.any Token.showsYear = true)
    (hmonth : ts.any Token.showsMonth = true) (hday : ts.any Token.showsDay = true)
    (h₀ : 0 ≤ d.year) : (shownBy d ts).date? = some d := by
  have hcast : ((d.year.toNat : Nat) : Int) = d.year := Int.toNat_of_nonneg h₀
  simp [Components.date?, shownBy, hyear, hmonth, hday, hcast, Date.of?, d.isDay]

end Calendar

namespace DateTemplate

open Calendar Text

variable {t : DateTemplate} {d : Date}

theorem toList_text {template : String} (ht : of? template = some t) :
    t.text.toList = trim template.toList ∧ t.text.toList ≠ [] := by
  rw [of?, nonBlank?] at ht
  split at ht
  · cases ht
  · rename_i hne
    obtain rfl := Option.some.inj ht
    exact ⟨toList_trimmed template, by rwa [toList_trimmed]⟩

theorem flatMap_spelling_parts (t : DateTemplate) :
    t.parts.flatMap Part.spelling = t.text.toList :=
  flatMap_spelling_tokenize t.text.toList

theorem isSpace_eq_false_of_parts_eq_cons {template : String} (ht : of? template = some t)
    {p : Part} {ps : List Part} (hparts : t.parts = p :: ps) : p.isSpace = false := by
  obtain ⟨b, bs, hb⟩ := p.exists_spelling_eq
  rw [Part.isSpace_eq_isBlank (hb ▸ List.mem_cons_self)]
  refine isBlank_of_mem_head?_trim (s := template.toList) ?_
  rw [← (toList_text ht).1, ← flatMap_spelling_parts t, hparts, List.flatMap_cons, hb]
  rfl

theorem isSpace_eq_false_of_parts_eq_concat {template : String} (ht : of? template = some t)
    {p : Part} {ps : List Part} (hparts : t.parts = ps ++ [p]) : p.isSpace = false := by
  obtain ⟨b, bs, hb⟩ := p.exists_spelling_eq
  have hne : p.spelling ≠ [] := hb ▸ List.cons_ne_nil b bs
  rw [Part.isSpace_eq_isBlank (List.getLast_mem hne)]
  refine isBlank_of_mem_getLast?_trim (s := template.toList) ?_
  rw [← (toList_text ht).1, ← flatMap_spelling_parts t, hparts, List.flatMap_append,
    List.flatMap_cons, List.flatMap_nil, List.append_nil, List.getLast?_append_of_ne_nil _ hne,
    List.getLast?_eq_some_getLast hne]
  rfl

theorem exists_parts_eq_cons {template : String} (ht : of? template = some t) :
    ∃ p ps, t.parts = p :: ps := by
  refine List.exists_cons_of_ne_nil fun hnil => (toList_text ht).2 ?_
  rw [← flatMap_spelling_parts t, hnil]
  rfl

theorem toList_format (t : DateTemplate) (d : Date) :
    (t.format d).toList = t.parts.flatMap (Part.write d) := by
  rw [format, String.toList_ofList]

theorem trim_format {template : String} (ht : of? template = some t) (h₀ : 0 ≤ d.year) :
    trim (t.format d).toList = (t.format d).toList := by
  rw [toList_format]
  refine trim_eq_self (fun c hc => ?_) fun c hc => ?_
  · obtain ⟨p, ps, hparts⟩ := exists_parts_eq_cons ht
    refine isBlank_eq_false_of_mem_write (isSpace_eq_false_of_parts_eq_cons ht hparts) h₀ ?_
    obtain ⟨b, bs, hwrite⟩ := List.exists_cons_of_ne_nil (write_ne_nil p h₀)
    rw [hparts, List.flatMap_cons, hwrite, List.cons_append, List.head?_cons] at hc
    exact List.mem_of_mem_head? (hwrite ▸ hc)
  · rcases List.eq_nil_or_concat t.parts with hnil | ⟨ps, p, hparts⟩
    · rw [hnil] at hc
      cases hc
    · rw [List.concat_eq_append] at hparts
      refine isBlank_eq_false_of_mem_write (isSpace_eq_false_of_parts_eq_concat ht hparts) h₀ ?_
      rw [hparts, List.flatMap_append, List.flatMap_cons, List.flatMap_nil, List.append_nil,
        List.getLast?_append_of_ne_nil _ (write_ne_nil p h₀)] at hc
      exact List.mem_of_getLast? hc

theorem format_ne_nil {template : String} (ht : of? template = some t) (h₀ : 0 ≤ d.year) :
    (t.format d).toList ≠ [] := by
  obtain ⟨p, ps, hparts⟩ := exists_parts_eq_cons ht
  rw [toList_format, hparts, List.flatMap_cons]
  exact List.append_ne_nil_of_left_ne_nil (write_ne_nil p h₀) _

theorem readParts?_format (hcomplete : t.isComplete = true) (hsep : IsSeparated t.parts)
    (h₀ : 0 ≤ d.year) (h₁ : d.year ≤ 9999)
    (hshort : .year2 ∈ t.tokens → 2000 ≤ d.year ∧ d.year ≤ 2099) :
    readParts? t.parts (t.format d).toList = some d := by
  have hnote := noteAll_write (d := d) [] t.parts h₀ hshort
  obtain ⟨⟨hyear, hmonth⟩, hday⟩ : (t.tokens.any Token.showsYear = true ∧
      t.tokens.any Token.showsMonth = true) ∧ t.tokens.any Token.showsDay = true := by
    simpa only [isComplete, Bool.and_eq_true] using hcomplete
  rw [toList_format, readParts?, cut?_eq_pieces?, pieces?_flatMap_write hsep h₀ h₁]
  calc
    _ = (Components.noteAll {} (t.parts.zip (t.parts.map (Part.write d)))).bind
        Components.date? := rfl
    _ = (shownBy d t.tokens).date? := by
      rw [show (Components.noteAll {} (t.parts.zip (t.parts.map (Part.write d)))) = _ from hnote]
      rfl
    _ = some d := date?_shownBy hyear hmonth hday h₀

/-- A template with whole dates and separated parts reads back the dates that it writes. -/
theorem parse_format {template : String} {t : DateTemplate} (ht : of? template = some t)
    (hcomplete : t.isComplete = true) (hsep : IsSeparated t.parts) (d : Date)
    (h₀ : 0 ≤ d.year) (h₁ : d.year ≤ 9999)
    (hshort : .year2 ∈ t.tokens → 2000 ≤ d.year ∧ d.year ≤ 2099) :
    t.parse (t.format d) = .date d := by
  rw [parse, trim_format ht h₀, if_neg (format_ne_nil ht h₀),
    readParts?_format hcomplete hsep h₀ h₁ hshort]

def repeated : DateTemplate := ⟨"dddd,  Do MMM\u2003YY (D/M/YYYY)"⟩

def leapDay : Date := ⟨2024, 2, 29, by decide⟩

theorem parse_format_repeated :
    of? " dddd,  Do MMM\u2003YY (D/M/YYYY) " = some repeated ∧ repeated.isComplete = true ∧
      IsSeparated repeated.parts ∧ 0 ≤ leapDay.year ∧ leapDay.year ≤ 9999 ∧
      (.year2 ∈ repeated.tokens → 2000 ≤ leapDay.year ∧ leapDay.year ≤ 2099) ∧
      repeated.parse (repeated.format leapDay) = .date leapDay := by
  have ht : of? " dddd,  Do MMM\u2003YY (D/M/YYYY) " = some repeated := by decide +kernel
  have hcomplete : repeated.isComplete = true := by decide +kernel
  have hsep : IsSeparated repeated.parts := by decide +kernel
  have hyear : 2000 ≤ leapDay.year ∧ leapDay.year ≤ 2099 := by decide
  exact ⟨ht, hcomplete, hsep, by decide, by decide, fun _ => hyear,
    parse_format ht hcomplete hsep leapDay (by decide) (by decide) fun _ => hyear⟩

end DateTemplate

end Payables
