import Payables.Proofs.Calendar.Pieces
import Payables.Proofs.Calendar.RoundTrip

/-!
# What a date cell shows

A cell is blank only if nothing is left of it without white space, and a date that is read off it is
what the text says: the text falls into one piece for each part of the template, and every piece
shows the component of the date that its part stands for (`parse_shows`). This holds for every
template, also where a text can be cut in more than one way.
-/

namespace Payables

namespace Calendar

open Text

variable {d : Date} {k k' : Components} {p : Part} {w : List Char} {ts : List Token}

/-- The piece is a numeral of `fewest` to `most` digits with the value. -/
structure IsNumeralOf (fewest most : ℕ) (n : ℤ) (w : List Char) : Prop where
  fewest_le : fewest ≤ w.length
  le_most : w.length ≤ most
  isDigit : ∀ c ∈ w, c.isDigit = true
  value_eq : (value w : ℤ) = n

/-- The piece is a name in letters that starts as the month of the date does, in either case. -/
structure NamesMonth (d : Date) (w : List Char) : Prop where
  isLetter : ∀ c ∈ w, isLetter c = true
  three_le : 3 ≤ w.length
  lead_eq : (w.take 3).map Char.toLower = (d.monthName.toList.take 3).map Char.toLower

/-- The piece shows what the part stands for: a character of the template itself, white space for
white space, or a component of the date. -/
def Part.Shows (d : Date) : Part → List Char → Prop
  | .token .year4, w => IsNumeralOf 4 4 d.year w
  | .token .year2, w => IsNumeralOf 2 2 (d.year - 2000) w
  | .token .month2, w => IsNumeralOf 2 2 d.month w
  | .token .month1, w => IsNumeralOf 1 2 d.month w
  | .token .day2, w => IsNumeralOf 2 2 d.day w
  | .token .day1, w => IsNumeralOf 1 2 d.day w
  | .token .dayOrdinal, w => ∃ ds suffix, w = ds ++ suffix ∧ IsNumeralOf 1 2 d.day ds ∧
    suffix.map Char.toLower ∈ ordinalSuffixes
  | .token .monthName, w => NamesMonth d w
  | .token .monthAbbreviation, w => NamesMonth d w ∧ w.length ≤ 4
  | .token .weekday, w => w ≠ [] ∧ ∀ c ∈ w, isLetter c = true
  | .literal c, w => if isBlank c then w ≠ [] ∧ ∀ b ∈ w, isBlank b = true else w = [c]

theorem monthOfName?_eq_some {month : ℕ} (h : monthOfName? w = some month) :
    3 ≤ w.length ∧
      (w.take 3).map Char.toLower =
        ((monthNames.getD (month - 1) "").toList.take 3).map Char.toLower := by
  unfold monthOfName? at h
  split at h
  · cases h
  · rename_i hlength
    obtain ⟨i, hi, rfl⟩ := Option.map_eq_some_iff.1 h
    obtain ⟨hlt, hlead, -⟩ := List.findIdx?_eq_some_iff_getElem.1 hi
    refine ⟨not_lt.1 hlength, ?_⟩
    rw [Nat.add_sub_cancel, ← List.getElem_eq_getD (h := hlt)]
    exact (beq_iff_eq.1 hlead).symm

theorem namesMonth_of_tells (hletters : ∀ c ∈ w, isLetter c = true)
    (htells : ∃ month, monthOfName? w = some month ∧ k.month = some month)
    (hmonth : k.month = some d.month) : NamesMonth d w := by
  obtain ⟨month, hname, hknown⟩ := htells
  obtain rfl : d.month = month := Option.some.inj (hmonth.symm.trans hknown)
  obtain ⟨hlength, hlead⟩ := monthOfName?_eq_some hname
  exact ⟨hletters, hlength, hlead⟩

theorem isNumeralOf_of_mem_runLengths {fewest most n : ℕ} {rest : List Char} {known : Option ℕ}
    (h : w.length ∈ runLengths Char.isDigit fewest ((w ++ rest).take most))
    (htells : known = some (value w)) (hknown : known = some n) : IsNumeralOf fewest most n w := by
  obtain ⟨hfewest, hmost, hdigits⟩ := of_length_mem_runLengths_take h
  exact ⟨hfewest, hmost, hdigits, congrArg Nat.cast (Option.some.inj (htells.symm.trans hknown))⟩

theorem isDigit_eq_false_of_mem_head?_suffix {suffix : List Char}
    (h : suffix.map Char.toLower ∈ ordinalSuffixes) {c : Char} (hc : c ∈ suffix.head?) :
    c.isDigit = false := by
  have hstart : ∀ t ∈ ordinalSuffixes, ∀ b ∈ t.head?, b ∈ ['s', 'n', 'r', 't'] := by
    simp [ordinalSuffixes]
  have hletter : c.toLower ∈ ['s', 'n', 'r', 't'] := by
    apply hstart _ h
    rw [List.head?_map, Option.mem_def.1 hc]
    rfl
  by_contra hdigit
  exact forall_isDigit (P := fun c => c.toLower ∉ ['s', 'n', 'r', 't']) (by decide)
    (Bool.eq_true_of_not_eq_false hdigit) hletter

theorem exists_ordinal_of_takes (h : (Part.token .dayOrdinal).Takes w) :
    ∃ ds suffix, w = ds ++ suffix ∧ (1 ≤ ds.length ∧ ds.length ≤ 2 ∧ ∀ c ∈ ds, c.isDigit = true) ∧
      suffix.map Char.toLower ∈ ordinalSuffixes := by
  obtain ⟨rest, hw⟩ := h
  obtain ⟨m, hm, hlength⟩ := List.mem_map.1 hw
  obtain ⟨ds, suffix, rfl, rfl⟩ : ∃ ds suffix, w = ds ++ suffix ∧ ds.length = m :=
    ⟨w.take m, w.drop m, (List.take_append_drop m w).symm, List.length_take_of_le (by omega)⟩
  obtain ⟨hrun, hsuffix⟩ := List.mem_filter.1 hm
  have htwo : suffix.length = 2 := by
    rw [List.length_append] at hlength
    omega
  rw [List.append_assoc] at hrun hsuffix
  rw [List.drop_left, startsWithOrdinalSuffix, List.take_append_of_le_length htwo.ge,
    List.take_of_length_le htwo.le] at hsuffix
  exact ⟨ds, suffix, rfl, of_length_mem_runLengths_take hrun, List.contains_iff_mem.1 hsuffix⟩

/-- A piece that a part takes and that tells a component of the date shows it. -/
theorem Part.shows_of_takes (htakes : p.Takes w) (htells : p.Tells k w)
    (hdate : k.date? = some d) : p.Shows d w := by
  obtain ⟨year, hyear, hdyear, hmonth, hday⟩ := Components.date?_eq_some hdate
  cases p with
  | literal c =>
    rw [Part.Shows]
    split
    · rename_i hc
      obtain ⟨rest, hw⟩ := htakes
      rw [Part.lengths, if_pos hc] at hw
      have hne : w ≠ [] := List.ne_nil_of_length_pos (mem_runLengths.1 hw).1
      exact ⟨hne, forall_of_length_mem_runLengths hw⟩
    · rename_i hc
      exact eq_singleton_of_takes_literal (Bool.eq_false_iff.2 hc) htakes
  | token t =>
    cases t with
    | year4 =>
      obtain ⟨rest, hw⟩ := htakes
      rw [Part.Shows, hdyear]
      exact isNumeralOf_of_mem_runLengths hw htells hyear
    | year2 =>
      obtain ⟨rest, hw⟩ := htakes
      obtain ⟨hfewest, hmost, hdigits⟩ := of_length_mem_runLengths_take hw
      have hvalue : 2000 + value w = year := Option.some.inj (htells.symm.trans hyear)
      exact ⟨hfewest, hmost, hdigits, by omega⟩
    | month2 | month1 =>
      obtain ⟨rest, hw⟩ := htakes
      exact isNumeralOf_of_mem_runLengths hw htells hmonth
    | day2 | day1 =>
      obtain ⟨rest, hw⟩ := htakes
      have hdigits : w.takeWhile Char.isDigit = w :=
        List.takeWhile_eq_self_iff.2 (of_length_mem_runLengths_take hw).2.2
      rw [Part.Tells, hdigits] at htells
      exact isNumeralOf_of_mem_runLengths hw htells hday
    | dayOrdinal =>
      obtain ⟨ds, suffix, rfl, ⟨hfewest, hmost, hdigits⟩, hsuffix⟩ := exists_ordinal_of_takes htakes
      rw [Part.Tells, takeWhile_append_of_stop hdigits fun c hc =>
        isDigit_eq_false_of_mem_head?_suffix hsuffix hc] at htells
      have hvalue : value ds = d.day := Option.some.inj (htells.symm.trans hday)
      exact ⟨ds, suffix, rfl, ⟨hfewest, hmost, hdigits, congrArg Nat.cast hvalue⟩, hsuffix⟩
    | monthName =>
      obtain ⟨rest, hw⟩ := htakes
      exact namesMonth_of_tells (forall_of_length_mem_runLengths hw) htells hmonth
    | monthAbbreviation =>
      obtain ⟨rest, hw⟩ := htakes
      obtain ⟨-, hmost, hletters⟩ := of_length_mem_runLengths_take hw
      exact ⟨namesMonth_of_tells hletters htells hmonth, hmost⟩
    | weekday =>
      obtain ⟨rest, hw⟩ := htakes
      have hne : w ≠ [] := List.ne_nil_of_length_pos (mem_runLengths.1 hw).1
      exact ⟨hne, forall_of_length_mem_runLengths hw⟩

/-- The components that are known are shown by tokens. -/
structure Components.IsShownBy (k : Components) (ts : List Token) : Prop where
  year : k.year.isSome = true → ts.any Token.showsYear = true
  month : k.month.isSome = true → ts.any Token.showsMonth = true
  day : k.day.isSome = true → ts.any Token.showsDay = true

namespace Components

theorem IsShownBy.note (hk : k.IsShownBy ts) (h : k.note p w = some k') :
    k'.IsShownBy (ts ++ tokensOf [p]) := by
  cases p with
  | literal c =>
    obtain rfl := Option.some.inj h
    exact (List.append_nil ts).symm ▸ hk
  | token t =>
    change k'.IsShownBy (ts ++ [t])
    have hold {shows : Token → Bool} (hany : ts.any shows = true) :
        (ts ++ [t]).any shows = true := by
      rw [List.any_append, hany, Bool.true_or]
    have hnew {shows : Token → Bool} (ht : shows t = true) : (ts ++ [t]).any shows = true := by
      rw [List.any_append, List.any_cons, ht, Bool.true_or, Bool.or_true]
    cases t with
    | year4 | year2 =>
      obtain ⟨found, -, rfl⟩ := Option.map_eq_some_iff.1 h
      exact ⟨fun _ => hnew rfl, fun hm => hold (hk.month hm), fun hd => hold (hk.day hd)⟩
    | month2 | month1 =>
      obtain ⟨found, -, rfl⟩ := Option.map_eq_some_iff.1 h
      exact ⟨fun hy => hold (hk.year hy), fun _ => hnew rfl, fun hd => hold (hk.day hd)⟩
    | monthName | monthAbbreviation =>
      obtain ⟨month, -, h⟩ := Option.bind_eq_some_iff.1 h
      obtain ⟨found, -, rfl⟩ := Option.map_eq_some_iff.1 h
      exact ⟨fun hy => hold (hk.year hy), fun _ => hnew rfl, fun hd => hold (hk.day hd)⟩
    | day2 | day1 | dayOrdinal =>
      obtain ⟨found, -, rfl⟩ := Option.map_eq_some_iff.1 h
      exact ⟨fun hy => hold (hk.year hy), fun hm => hold (hk.month hm), fun _ => hnew rfl⟩
    | weekday =>
      obtain rfl := Option.some.inj h
      exact ⟨fun hy => hold (hk.year hy), fun hm => hold (hk.month hm),
        fun hd => hold (hk.day hd)⟩

theorem IsShownBy.noteAll {pairs : List (Part × List Char)} (hk : k.IsShownBy ts)
    (h : k.noteAll pairs = some k') : k'.IsShownBy (ts ++ tokensOf (pairs.map Prod.fst)) := by
  induction pairs generalizing k ts with
  | nil =>
    obtain rfl := Option.some.inj h
    exact (List.append_nil ts).symm ▸ hk
  | cons e pairs ih =>
    obtain ⟨k₁, hnote, hrest⟩ := Option.bind_eq_some_iff.1 h
    have hall := ih (hk.note hnote) hrest
    rwa [List.append_assoc, tokensOf, tokensOf, ← List.filterMap_append] at hall

theorem isShownBy_nil : IsShownBy {} [] where
  year h := by cases h
  month h := by cases h
  day h := by cases h

end Components

theorem shows_of_readParts? {ps : List Part} {s : List Char} (h : readParts? ps s = some d) :
    (tokensOf ps).any Token.showsYear = true ∧ (tokensOf ps).any Token.showsMonth = true ∧
      (tokensOf ps).any Token.showsDay = true := by
  obtain ⟨ws, hcut, h⟩ := Option.bind_eq_some_iff.1 h
  obtain ⟨k, hnote, hdate⟩ := Option.bind_eq_some_iff.1 h
  rw [cut?_eq_pieces?] at hcut
  have hlength : ps.length = ws.length := (pieces?_eq_some hcut).2.length_eq
  have hshown := Components.isShownBy_nil.noteAll hnote
  rw [List.nil_append, List.map_fst_zip hlength.le] at hshown
  obtain ⟨year, hyear, -, hmonth, hday⟩ := Components.date?_eq_some hdate
  exact ⟨hshown.year (by rw [hyear]; rfl), hshown.month (by rw [hmonth]; rfl),
    hshown.day (by rw [hday]; rfl)⟩

end Calendar

namespace DateTemplate

open Calendar Text

/-- A cell is blank iff it holds white space alone. A date that is read off a cell is shown by the
pieces of its text, one for each part, and all of it by a token of the template. -/
theorem parse_shows (t : DateTemplate) (cell : String) :
    (t.parse cell = .blank ↔ trim cell.toList = []) ∧
      ∀ d, t.parse cell = .date d → t.isComplete = true ∧
        ∃ pieces, pieces.flatten = trim cell.toList ∧
          List.Forall₂ (Part.Shows d) t.parts pieces := by
  constructor
  · rw [parse]
    split
    · rename_i hblank
      exact iff_of_true rfl hblank
    · rename_i hblank
      split <;> exact iff_of_false (by simp) hblank
  · intro d h
    have hread := readParts?_of_parse h
    obtain ⟨hyear, hmonth, hday⟩ := shows_of_readParts? hread
    obtain ⟨pairs, k, hparts, htext, hpieces, hdate⟩ := readParts?_eq_some hread
    refine ⟨?_, pairs.map Prod.snd, ?_, ?_⟩
    · simp only [isComplete, Bool.and_eq_true]
      exact ⟨⟨hyear, hmonth⟩, hday⟩
    · rw [← htext, List.flatMap_def]
    · rw [← hparts, List.forall₂_map_left_iff, List.forall₂_map_right_iff, List.forall₂_same]
      exact fun e he => Part.shows_of_takes (hpieces e he).1 (hpieces e he).2 hdate

def crowded : DateTemplate := ⟨"ddddMMMDo YYYY"⟩

/-- The name of the day could go on into that of the month. -/
theorem parse_shows_crowded :
    crowded.parse " Thursdayfeb29TH\u2003 2024" = .date leapDay ∧ crowded.isComplete = true ∧
      ∃ pieces, pieces.flatten = "Thursdayfeb29TH\u2003 2024".toList ∧
        List.Forall₂ (Part.Shows leapDay) crowded.parts pieces := by
  have hparse : crowded.parse " Thursdayfeb29TH\u2003 2024" = .date leapDay := by decide +kernel
  obtain ⟨hcomplete, pieces, htext, hpieces⟩ := (parse_shows crowded _).2 _ hparse
  refine ⟨hparse, hcomplete, pieces, htext.trans ?_, hpieces⟩
  decide +kernel

end DateTemplate

end Payables
