import Payables.Proofs.Amount.Marks
import Payables.Proofs.Amount.Undressing

/-!
# Decorated amounts

A number in a cell may stand between white space, behind a currency and a minus, in front of a `CR`
or `DR`, and in parentheses. What is read is the number, and negative iff there is a minus or
parentheses (`readChars?_around`). The marks have to pass the check of a layout.
-/

namespace Payables.AmountFormat

open Text

variable {f : AmountFormat} {s : List Char}

/-- White space, perhaps none. -/
def Gap : Type := {s : List Char // ∀ c ∈ s, isBlank c = true}

def Gap.empty : Gap := ⟨[], List.forall_mem_nil _⟩

/-- `CR` or `DR`, in any case. -/
def IsSide (s : List Char) : Prop := s.map asciiLower = ['c', 'r'] ∨ s.map asciiLower = ['d', 'r']

/-- What stands around a number in a cell, with the white space between. -/
structure Decoration where
  lead : Gap
  parens : Option (Gap × Gap)
  minus : Option ({c : Char // c = '-' ∨ c = '\u2212'} × Gap)
  currency : Option ({s : List Char // s ∈ currencies} × Gap)
  side : Option (Gap × {s : List Char // IsSide s})
  trail : Gap

namespace Decoration

def isNegative (d : Decoration) : Bool := d.parens.isSome || d.minus.isSome

def front (d : Decoration) : List Char :=
  match d.currency with
  | some (currency, gap) => currency.1 ++ gap.1
  | none => []

def back (d : Decoration) : List Char :=
  match d.side with
  | some (gap, side) => gap.1 ++ side.1
  | none => []

def signed (d : Decoration) (s : List Char) : List Char :=
  match d.minus with
  | some (minus, gap) => minus.1 :: (gap.1 ++ s)
  | none => s

def enclosed (d : Decoration) (s : List Char) : List Char :=
  match d.parens with
  | some (before, after) => '(' :: (before.1 ++ (s ++ after.1) ++ [')'])
  | none => s

def around (d : Decoration) (number : List Char) : List Char :=
  d.lead.1 ++ (d.enclosed (d.signed (d.front ++ (number ++ d.back))) ++ d.trail.1)

/-- With a minus in front or with nothing. -/
def ofSign (negative : Bool) : Decoration where
  lead := .empty
  parens := none
  minus := if negative then some (⟨'-', .inl rfl⟩, .empty) else none
  currency := none
  side := none
  trail := .empty

theorem isNegative_ofSign (negative : Bool) : (ofSign negative).isNegative = negative := by
  cases negative <;> rfl

theorem around_ofSign (negative : Bool) (s : List Char) :
    (ofSign negative).around s = if negative then '-' :: s else s := by
  cases negative <;> simp [around, ofSign, enclosed, signed, front, back, Gap.empty]

end Decoration

/-- A text that starts and ends with a digit, with every minus in it a plain one. -/
structure IsUndressed (s : List Char) : Prop where
  head : ∃ c r, s = c :: r ∧ c.isDigit = true
  last : ∃ r g, s = r ++ [g] ∧ g.isDigit = true
  plain : ∀ c ∈ s, plainMinus c = c

theorem Gap.flatMap_bare (f : AmountFormat) (gap : Gap) : gap.1.flatMap f.bare = [] :=
  List.flatMap_eq_nil_iff.2 fun c hc => if_pos (.inl (gap.2 c hc))

theorem Gap.plainMinus_of_mem (gap : Gap) {c : Char} (h : c ∈ gap.1) : plainMinus c = c :=
  plainMinus_of_isBlank (gap.2 c h)

namespace Decoration

variable (d : Decoration)

theorem dropCurrency_front {c : Char} (hc : c.isDigit = true) (s : List Char) :
    dropCurrency (d.front ++ c :: s) = c :: s := by
  unfold front
  split
  · rename_i currency gap _
    rw [List.append_assoc, dropCurrency_append currency.2, trimStart,
      dropWhile_append_of_stop gap.2 (by simpa using (isLower_of_isDigit hc).2)]
  · exact dropCurrency_of_isDigit hc s

theorem dropSide_back {g : Char} (hg : g.isDigit = true) (s : List Char) :
    ∃ gap : Gap, dropSide (s ++ [g] ++ d.back) = s ++ [g] ++ gap.1 := by
  unfold back
  split
  · rename_i gap side _
    exact ⟨gap, by rw [← List.append_assoc, dropSide_append side.2]⟩
  · exact ⟨.empty, by rw [List.append_nil, dropSide_of_isDigit hg, Gap.empty, List.append_nil]⟩

/-- Without a currency and a side, the number and white space are left. -/
theorem unsigned?_dressed (hf : f.IsApart) (hs : IsUndressed s) :
    f.unsigned? (d.front ++ (s ++ d.back)) = Amount.ofChars? (s.flatMap f.bare) := by
  obtain ⟨c, r, hcons, hc⟩ := hs.head
  obtain ⟨t, g, hconcat, hg⟩ := hs.last
  obtain ⟨gap, hgap⟩ := d.dropSide_back hg t
  have hdress : dropSide (dropCurrency (d.front ++ (s ++ d.back))) = s ++ gap.1 := by
    rw [hcons, List.cons_append, d.dropCurrency_front hc, ← List.cons_append, ← hcons, hconcat,
      hgap]
  have hmem : c ∈ dropSide (dropCurrency (d.front ++ (s ++ d.back))) := by
    rw [hdress, hcons]
    exact List.mem_cons_self
  rw [unsigned?_eq hf hc hmem, hdress, List.flatMap_append, gap.flatMap_bare, List.append_nil]

theorem of_mem_side {side : List Char} (h : IsSide side) {c : Char} (hc : c ∈ side) :
    isBlank c = false ∧ plainMinus c = c := by
  have hletters : side.map asciiLower ⊆ ['c', 'd', 'r'] := by
    rcases h with h | h <;> simp [h]
  have hletter : asciiLower c ∈ ['c', 'd', 'r'] := hletters (List.mem_map_of_mem hc)
  constructor
  · refine Bool.eq_false_iff.2 fun hblank => ?_
    exact forall_isBlank (P := fun c => asciiLower c ∉ ['c', 'd', 'r']) (by decide) hblank hletter
  · refine if_neg ?_
    rintro rfl
    exact absurd hletter (by decide)

theorem of_mem_currency {currency : List Char} (h : currency ∈ currencies) :
    (∃ c ∈ currency.head?, isBlank c = false ∧ c ≠ '-' ∧ c ≠ '(') ∧
      ∀ c ∈ currency, plainMinus c = c := by
  revert currency
  simp [currencies, plainMinus, isBlank]

theorem exists_mem_head?_front {c : Char} (hc : c.isDigit = true) (s : List Char) :
    ∃ b ∈ (d.front ++ c :: s).head?, isBlank b = false ∧ b ≠ '-' ∧ b ≠ '(' := by
  unfold front
  split
  · rename_i currency gap _
    obtain ⟨b, hb, hbare⟩ := (of_mem_currency currency.2).1
    obtain ⟨r, hr⟩ := List.head?_eq_some_iff.1 hb
    exact ⟨b, by rw [hr]; rfl, hbare⟩
  · refine ⟨c, rfl, ?_⟩
    exact forall_isDigit (P := fun c => isBlank c = false ∧ c ≠ '-' ∧ c ≠ '(') (by decide) hc

theorem isBlank_of_mem_getLast?_back {g : Char} (hg : g.isDigit = true) (s : List Char) :
    ∀ b ∈ (s ++ [g] ++ d.back).getLast?, isBlank b = false := by
  intro b hb
  unfold back at hb
  split at hb
  · rename_i gap side _
    have hne : side.1 ≠ [] := by
      intro hnil
      simpa [IsSide, hnil] using side.2
    rw [← List.append_assoc, List.getLast?_append_of_ne_nil _ hne] at hb
    exact (of_mem_side side.2 (List.mem_of_getLast? hb)).1
  · rw [List.append_nil, List.getLast?_concat, Option.mem_some_iff] at hb
    exact hb ▸ (isLower_of_isDigit hg).2

theorem plainMinus_of_mem_front {c : Char} (h : c ∈ d.front) : plainMinus c = c := by
  unfold front at h
  split at h
  · rename_i currency gap _
    exact (List.mem_append.1 h).elim ((of_mem_currency currency.2).2 c) gap.plainMinus_of_mem
  · cases h

theorem plainMinus_of_mem_back {c : Char} (h : c ∈ d.back) : plainMinus c = c := by
  unfold back at h
  split at h
  · rename_i gap side _
    exact (List.mem_append.1 h).elim gap.plainMinus_of_mem fun h => (of_mem_side side.2 h).2
  · cases h

end Decoration

/-- A text with nothing to undress but a currency and a side. -/
structure IsCore (s : List Char) : Prop where
  head : ∃ c ∈ s.head?, isBlank c = false ∧ c ≠ '-' ∧ c ≠ '('
  last : ∀ c ∈ s.getLast?, isBlank c = false
  plain : ∀ c ∈ s, plainMinus c = c
  digit : ∃ c ∈ s, c.isDigit = true

theorem IsUndressed.isCore (hs : IsUndressed s) (d : Decoration) :
    IsCore (d.front ++ (s ++ d.back)) := by
  obtain ⟨c, r, hcons, hc⟩ := hs.head
  obtain ⟨t, g, hconcat, hg⟩ := hs.last
  constructor
  case head =>
    rw [hcons]
    exact d.exists_mem_head?_front hc _
  case last =>
    rw [← List.append_assoc, hconcat, ← List.append_assoc]
    exact d.isBlank_of_mem_getLast?_back hg _
  case plain =>
    intro b hb
    rw [List.mem_append, List.mem_append] at hb
    rcases hb with hb | hb | hb
    · exact d.plainMinus_of_mem_front hb
    · exact hs.plain b hb
    · exact d.plainMinus_of_mem_back hb
  case digit => exact ⟨c, by simp [hcons], hc⟩

namespace IsCore

theorem ends_signed (hs : IsCore s) (d : Decoration) :
    (∃ c ∈ (d.signed s).head?, isBlank c = false ∧ c ≠ '(') ∧
      (∀ c ∈ (d.signed s).getLast?, isBlank c = false) ∧ ∃ c ∈ d.signed s, c.isDigit = true := by
  obtain ⟨c, hhead, hblank, -, hparen⟩ := hs.head
  obtain ⟨g, hg, hdigit⟩ := hs.digit
  unfold Decoration.signed
  split
  · rename_i minus gap _
    have hlast : (minus.1 :: (gap.1 ++ s)).getLast? = s.getLast? := by
      rw [← List.cons_append, List.getLast?_append_of_ne_nil _ (List.ne_nil_of_mem hg)]
    have hminus : isBlank minus.1 = false ∧ minus.1 ≠ '(' := by
      rcases minus.2 with h | h <;> rw [h] <;> decide
    refine ⟨⟨minus.1, rfl, hminus⟩, hlast ▸ hs.last, g, ?_, hdigit⟩
    exact List.mem_cons_of_mem _ (List.mem_append_right _ hg)
  · exact ⟨⟨c, hhead, hblank, hparen⟩, hs.last, g, hg, hdigit⟩

theorem withSign_signed (hs : IsCore s) (d : Decoration) (negative : Bool) :
    f.withSign negative ((d.signed s).map plainMinus) =
      if negative || d.minus.isSome then (f.unsigned? s).map Amount.negatedMagnitude
      else f.unsigned? s := by
  obtain ⟨c, hhead, hblank, hminus, -⟩ := hs.head
  unfold Decoration.signed
  split
  · rename_i minus gap heq
    have hplain : plainMinus minus.1 = '-' := by
      rcases minus.2 with h | h <;> rw [h] <;> rfl
    have hstart : trimStart (gap.1 ++ s) = s :=
      dropWhile_append_of_stop gap.2 fun b hb => by
        rwa [Option.mem_unique hb hhead]
    rw [List.map_cons, hplain, List.map_append,
      map_plainMinus_of_forall fun _ => gap.plainMinus_of_mem, map_plainMinus_of_forall hs.plain,
      withSign_minus, hstart, heq, Option.isSome_some, Bool.or_true, if_pos rfl]
  · rename_i heq
    have hnot : '-' ∉ s.head? := fun hmem => hminus (Option.mem_unique hhead hmem)
    rw [map_plainMinus_of_forall hs.plain, withSign_of_ne hnot, heq, Option.isSome_none,
      Bool.or_false]

theorem readChars?_signed (hs : IsCore s) (d : Decoration) :
    f.readChars? (d.lead.1 ++ (d.enclosed (d.signed s) ++ d.trail.1)) =
      if d.isNegative then (f.unsigned? s).map Amount.negatedMagnitude else f.unsigned? s := by
  obtain ⟨hhead, hlast, hdigit⟩ := hs.ends_signed d
  unfold Decoration.enclosed Decoration.isNegative
  split
  · rename_i before after heq
    obtain ⟨c, hc, hblank, -⟩ := hhead
    have hstart : ∀ b ∈ (d.signed s).head?, isBlank b = false := fun b hb =>
      Option.mem_unique hc hb ▸ hblank
    have htrim : trim (before.1 ++ (d.signed s ++ after.1)) = d.signed s := by
      apply trim_append before.2 after.2 _ hstart hlast
      exact fun hnil => by simp [hnil] at hc
    -- what stands in parentheses is trimmed once more
    rw [readChars?_parens d.lead.2 d.trail.2, htrim, hs.withSign_signed, heq, Option.isSome_some]
  · rename_i heq
    rw [readChars?_open d.lead.2 d.trail.2 hhead hlast hdigit, hs.withSign_signed, heq,
      Option.isSome_none]

end IsCore

/-- A decorated number is the number, and negative iff a minus or parentheses say so. -/
theorem readChars?_around (hf : f.IsApart) (hs : IsUndressed s) (d : Decoration) :
    f.readChars? (d.around s) =
      if d.isNegative then (Amount.ofChars? (s.flatMap f.bare)).map Amount.negatedMagnitude
      else Amount.ofChars? (s.flatMap f.bare) := by
  rw [Decoration.around, (hs.isCore d).readChars?_signed, d.unsigned?_dressed hf hs]

end Payables.AmountFormat
