import Mathlib.Data.List.Forall2
import Mathlib.Data.List.TakeWhile
import Payables.Calendar.Template
import Payables.Proofs.Text.Numeral

/-!
# What the pieces of a date tell

A text is read as a date only if it is cut into pieces, one that each part can take, and the
components that the pieces tell agree with each other and with the date (`readParts?_eq_some`).
-/

namespace Payables

namespace Calendar

open Text

variable {d : Date} {k k' : Components} {p : Part} {ps : List Part} {w s : List Char}
  {ws : List (List Char)}

/-- The part can take the piece, in front of some text. -/
def Part.Takes (p : Part) (w : List Char) : Prop := ∃ rest, w.length ∈ p.lengths (w ++ rest)

theorem pieces?_eq_some (h : pieces? ps s = some ws) :
    ws.flatten = s ∧ List.Forall₂ Part.Takes ps ws := by
  induction ps generalizing s ws with
  | nil =>
    cases s with
    | nil =>
      obtain rfl : [] = ws := Option.some.inj h
      exact ⟨rfl, .nil⟩
    | cons c s => cases h
  | cons p ps ih =>
    obtain ⟨n, hn, hrest⟩ := List.exists_of_findSome?_eq_some h
    obtain ⟨ws, hws, rfl⟩ := Option.map_eq_some_iff.1 hrest
    obtain ⟨hflatten, htakes⟩ := ih hws
    have hlength : (s.take n).length = n :=
      List.length_take_of_le (Part.le_length_of_mem_lengths hn)
    refine ⟨?_, .cons ⟨s.drop n, ?_⟩ htakes⟩
    · rw [List.flatten_cons, hflatten, List.take_append_drop]
    · rwa [hlength, List.take_append_drop]

theorem mem_runLengths {q : Char → Bool} {fewest n : Nat} :
    n ∈ runLengths q fewest s ↔ fewest ≤ n ∧ n ≤ (s.takeWhile q).length := by
  simp only [runLengths, List.mem_map, List.mem_range]
  constructor
  · rintro ⟨i, hi, rfl⟩
    omega
  · rintro ⟨hfewest, hn⟩
    exact ⟨(s.takeWhile q).length - n, by omega, by omega⟩

theorem forall_of_length_mem_runLengths {q : Char → Bool} {fewest : Nat} {rest : List Char}
    (h : w.length ∈ runLengths q fewest (w ++ rest)) : ∀ c ∈ w, q c = true := by
  have hrun : w <+: (w ++ rest).takeWhile q :=
    List.prefix_of_prefix_length_le (List.prefix_append w rest) (List.takeWhile_prefix q)
      (mem_runLengths.1 h).2
  exact fun c hc => List.mem_takeWhile_imp (hrun.mem hc)

theorem of_length_mem_runLengths_take {q : Char → Bool} {fewest most : Nat} {rest : List Char}
    (h : w.length ∈ runLengths q fewest ((w ++ rest).take most)) :
    fewest ≤ w.length ∧ w.length ≤ most ∧ ∀ c ∈ w, q c = true := by
  have hmost : w.length ≤ most :=
    (le_length_of_mem_runLengths h).trans (List.length_take_le most _)
  rw [List.take_append, List.take_of_length_le hmost] at h
  exact ⟨(mem_runLengths.1 h).1, hmost, forall_of_length_mem_runLengths h⟩

theorem eq_singleton_of_takes_literal {c : Char} (hc : isBlank c = false)
    (h : (Part.literal c).Takes w) : w = [c] := by
  obtain ⟨rest, hw⟩ := h
  rw [Part.lengths, hc, if_neg Bool.false_ne_true] at hw
  split at hw
  · rename_i hhead
    obtain ⟨b, rfl⟩ := List.length_eq_one_iff.1 (List.mem_singleton.1 hw)
    obtain rfl : b = c := by simpa using hhead
    rfl
  · cases hw

/-- The components hold all that is known. -/
structure Components.Extends (known k : Components) : Prop where
  year : ∀ n ∈ known.year, k.year = some n
  month : ∀ n ∈ known.month, k.month = some n
  day : ∀ n ∈ known.day, k.day = some n

/-- The components have the value of the piece. -/
def Part.Tells (k : Components) : Part → List Char → Prop
  | .token .year4, w => k.year = some (value w)
  | .token .year2, w => k.year = some (2000 + value w)
  | .token .monthName, w | .token .monthAbbreviation, w =>
    ∃ month, monthOfName? w = some month ∧ k.month = some month
  | .token .month2, w | .token .month1, w => k.month = some (value w)
  | .token .day2, w | .token .day1, w | .token .dayOrdinal, w =>
    k.day = some (value (w.takeWhile Char.isDigit))
  | .token .weekday, _ | .literal _, _ => True

namespace Components

theorem Extends.refl (k : Components) : k.Extends k := ⟨fun _ => id, fun _ => id, fun _ => id⟩

theorem Extends.trans {k'' : Components} (h : k.Extends k') (h' : k'.Extends k'') :
    k.Extends k'' :=
  ⟨fun n hn => h'.year n (h.year n hn), fun n hn => h'.month n (h.month n hn),
    fun n hn => h'.day n (h.day n hn)⟩

theorem agree_map_eq_some {known : Option Nat} {n : Nat} {fill : Option Nat → Components}
    (h : (agree known n).map fill = some k) :
    ∃ found, found = some n ∧ (∀ m ∈ known, found = some m) ∧ fill found = k := by
  obtain ⟨found, hfound, hfill⟩ := Option.map_eq_some_iff.1 h
  unfold agree at hfound
  split at hfound
  · split at hfound
    · rename_i m heq
      obtain rfl := Option.some.inj hfound
      exact ⟨_, rfl, fun m' hm' => heq ▸ hm', hfill⟩
    · cases hfound
  · obtain rfl := Option.some.inj hfound
    exact ⟨_, rfl, fun m hm => absurd hm (by simp), hfill⟩

theorem note_eq_some (h : k.note p w = some k') : k.Extends k' ∧ p.Tells k' w := by
  have hyear : ∀ {n : Nat}, (agree k.year n).map ({ k with year := · }) = some k' →
      k.Extends k' ∧ k'.year = some n := by
    intro n hn
    obtain ⟨found, hvalue, hknown, rfl⟩ := agree_map_eq_some hn
    exact ⟨⟨hknown, fun _ => id, fun _ => id⟩, hvalue⟩
  have hmonth : ∀ {n : Nat}, (agree k.month n).map ({ k with month := · }) = some k' →
      k.Extends k' ∧ k'.month = some n := by
    intro n hn
    obtain ⟨found, hvalue, hknown, rfl⟩ := agree_map_eq_some hn
    exact ⟨⟨fun _ => id, hknown, fun _ => id⟩, hvalue⟩
  have hday : ∀ {n : Nat}, (agree k.day n).map ({ k with day := · }) = some k' →
      k.Extends k' ∧ k'.day = some n := by
    intro n hn
    obtain ⟨found, hvalue, hknown, rfl⟩ := agree_map_eq_some hn
    exact ⟨⟨fun _ => id, fun _ => id, hknown⟩, hvalue⟩
  cases p with
  | literal c =>
    obtain rfl := Option.some.inj h
    exact ⟨.refl k, trivial⟩
  | token t =>
    cases t with
    | year4 | year2 => exact hyear h
    | month2 | month1 => exact hmonth h
    | day2 | day1 | dayOrdinal => exact hday h
    | monthName | monthAbbreviation =>
      obtain ⟨month, hname, h⟩ := Option.bind_eq_some_iff.1 h
      exact ⟨(hmonth h).1, month, hname, (hmonth h).2⟩
    | weekday =>
      obtain rfl := Option.some.inj h
      exact ⟨.refl k, trivial⟩

theorem Extends.tells (h : k.Extends k') (hp : p.Tells k w) : p.Tells k' w := by
  cases p with
  | literal c => trivial
  | token t =>
    cases t with
    | year4 | year2 => exact h.year _ hp
    | month2 | month1 => exact h.month _ hp
    | day2 | day1 | dayOrdinal => exact h.day _ hp
    | monthName | monthAbbreviation => exact hp.imp fun _ hm => ⟨hm.1, h.month _ hm.2⟩
    | weekday => trivial

theorem noteAll_eq_some {pairs : List (Part × List Char)} (h : k.noteAll pairs = some k') :
    k.Extends k' ∧ ∀ e ∈ pairs, e.1.Tells k' e.2 := by
  induction pairs generalizing k with
  | nil =>
    obtain rfl := Option.some.inj h
    exact ⟨.refl k, by simp⟩
  | cons e pairs ih =>
    obtain ⟨k₁, hnote, hrest⟩ := Option.bind_eq_some_iff.1 h
    obtain ⟨hfirst, htells⟩ := note_eq_some hnote
    obtain ⟨hlater, hall⟩ := ih hrest
    exact ⟨hfirst.trans hlater, List.forall_mem_cons.2 ⟨hlater.tells htells, hall⟩⟩

theorem date?_eq_some (h : k.date? = some d) :
    ∃ year : Nat, k.year = some year ∧ d.year = year ∧ k.month = some d.month ∧
      k.day = some d.day := by
  obtain ⟨year, hyear, h⟩ := Option.bind_eq_some_iff.1 h
  obtain ⟨month, hmonth, h⟩ := Option.bind_eq_some_iff.1 h
  obtain ⟨day, hday, h⟩ := Option.bind_eq_some_iff.1 h
  unfold Date.of? at h
  split at h
  · obtain rfl := Option.some.inj h
    exact ⟨year, hyear, rfl, hmonth, hday⟩
  · cases h

end Components

/-- A date is read off pieces that the parts take and that tell its components. -/
theorem readParts?_eq_some (h : readParts? ps s = some d) :
    ∃ (pairs : List (Part × List Char)) (k : Components), pairs.map Prod.fst = ps ∧
      pairs.flatMap Prod.snd = s ∧ (∀ e ∈ pairs, e.1.Takes e.2 ∧ e.1.Tells k e.2) ∧
      k.date? = some d := by
  obtain ⟨ws, hcut, h⟩ := Option.bind_eq_some_iff.1 h
  obtain ⟨k, hnote, hdate⟩ := Option.bind_eq_some_iff.1 h
  rw [cut?_eq_pieces?] at hcut
  obtain ⟨hflatten, htakes⟩ := pieces?_eq_some hcut
  have hlength : ps.length = ws.length := htakes.length_eq
  refine ⟨ps.zip ws, k, List.map_fst_zip hlength.le, ?_, fun e he => ⟨?_, ?_⟩, hdate⟩
  · rw [List.flatMap_def, List.map_snd_zip hlength.ge, hflatten]
  · exact List.forall₂_zip htakes he
  · exact (Components.noteAll_eq_some hnote).2 e he

end Calendar

theorem DateTemplate.readParts?_of_parse {t : DateTemplate} {cell : String} {d : Date}
    (h : t.parse cell = .date d) :
    Calendar.readParts? t.parts (Text.trim cell.toList) = some d := by
  rw [parse] at h
  split at h
  · cases h
  · split at h
    · rename_i d' hd'
      rw [hd', Calendar.DateCell.date.inj h]
    · cases h

end Payables
