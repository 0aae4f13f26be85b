import Payables.Amount.Cell
import Payables.Proofs.Text.HeaderForm

/-!
# The steps of reading an amount

Reading drops white space and one pair of parentheses, then a minus, then a currency, and a `CR` or
`DR` at the end. Each step has a lemma that says what it leaves, so that what a cell shows can be
followed from the outside in (`readChars?_parens`, `readChars?_open`, `withSign_minus`).
-/

namespace Payables.AmountFormat

open Text

variable {f : AmountFormat} {cell before after s : List Char}

theorem withSign_minus (f : AmountFormat) (negative : Bool) (s : List Char) :
    f.withSign negative ('-' :: s) =
      (f.unsigned? (trimStart s)).map Amount.negatedMagnitude := rfl

theorem withSign_of_ne (h : '-' ∉ s.head?) (negative : Bool) :
    f.withSign negative s =
      if negative then (f.unsigned? s).map Amount.negatedMagnitude else f.unsigned? s := by
  unfold withSign
  split
  · exact absurd rfl h
  · rfl

theorem withSign_true (f : AmountFormat) (s : List Char) :
    f.withSign true s = (f.withSign false s).map Amount.negatedMagnitude := by
  have htwice (a : Amount) : a.negatedMagnitude.negatedMagnitude = a.negatedMagnitude := by
    simp [Amount.negatedMagnitude]
  by_cases h : '-' ∈ s.head?
  · obtain ⟨r, rfl⟩ := List.head?_eq_some_iff.1 h
    rw [withSign_minus, withSign_minus, Option.map_map]
    exact congrArg (Option.map · _) (funext fun a => (htwice a).symm)
  · rw [withSign_of_ne h, withSign_of_ne h, if_pos rfl, if_neg Bool.false_ne_true]

theorem readChars?_eq (f : AmountFormat) (cell : List Char) :
    f.readChars? cell =
      if (trim cell).map plainMinus = [] ∨ isPlaceholder ((trim cell).map plainMinus) then none
      else match enclosed? ((trim cell).map plainMinus) with
        | some inner => f.withSign true (trim inner)
        | none => f.withSign false ((trim cell).map plainMinus) := rfl

theorem enclosed?_parens (s : List Char) : enclosed? ('(' :: (s ++ [')'])) = some s := by
  rw [enclosed?, List.getLast?_concat, if_pos rfl, List.dropLast_concat]

theorem enclosed?_eq_none_iff : enclosed? s = none ↔ ¬ ∃ inner, s = '(' :: (inner ++ [')']) := by
  constructor
  · rintro h ⟨inner, rfl⟩
    rw [enclosed?_parens] at h
    cases h
  · intro h
    unfold enclosed?
    split
    · rename_i r
      refine if_neg fun hlast => h ⟨r.dropLast, ?_⟩
      rw [List.dropLast_append_getLast? _ hlast]
    · rfl

theorem isPlaceholder_eq_false_of_mem {c : Char} (hlower : IsLower c)
    (hnone : ∀ p ∈ placeholders, c ∉ p) (h : c ∈ s) : isPlaceholder s = false := by
  rw [isPlaceholder, List.contains_eq_mem, decide_eq_false_iff_not]
  exact fun hmem => hnone _ hmem (mem_lowerAfter hlower h [])

theorem not_isPlaceholder_of_isDigit {c : Char} (hc : c.isDigit = true) (h : c ∈ s) :
    isPlaceholder s = false := by
  have hnone : ∀ p ∈ placeholders, ∀ c ∈ p, c.isDigit = false := by simp [placeholders]
  refine isPlaceholder_eq_false_of_mem (isLower_of_isDigit hc).1 (fun p hp hmem => ?_) h
  rw [hnone p hp c hmem] at hc
  cases hc

theorem not_isPlaceholder_parens (s : List Char) : isPlaceholder ('(' :: s) = false :=
  isPlaceholder_eq_false_of_mem (by decide +kernel) (by decide) List.mem_cons_self

theorem plainMinus_of_isBlank {c : Char} (h : isBlank c = true) : plainMinus c = c := by
  refine if_neg ?_
  rintro rfl
  cases h

theorem plainMinus_of_isDigit {c : Char} (h : c.isDigit = true) : plainMinus c = c :=
  forall_isDigit (P := fun c => plainMinus c = c) (by decide) h

theorem isBlank_plainMinus (c : Char) : isBlank (plainMinus c) = isBlank c := by
  unfold plainMinus
  split
  · rename_i hc
    rw [hc]
    rfl
  · rfl

theorem map_plainMinus_of_forall (h : ∀ c ∈ s, plainMinus c = c) : s.map plainMinus = s := by
  conv_rhs => rw [← List.map_id s]
  exact List.map_congr_left h

theorem plainMinus_eq_iff {c d : Char} (hd : d ≠ '-') (hd' : d ≠ '\u2212') :
    plainMinus c = d ↔ c = d := by
  unfold plainMinus
  split
  · rename_i hc
    exact iff_of_false hd.symm fun h => hd' (h.symm.trans hc)
  · rfl

/-- Writing every minus in one way makes no parentheses. -/
theorem enclosed?_map_plainMinus (h : ¬ ∃ inner, s = '(' :: (inner ++ [')'])) :
    enclosed? (s.map plainMinus) = none := by
  rw [enclosed?_eq_none_iff]
  rintro ⟨inner, heq⟩
  obtain ⟨c, r, rfl, hc, hr⟩ := List.map_eq_cons_iff.1 heq
  obtain ⟨inner', last, rfl, -, hlast⟩ := List.map_eq_append_iff.1 hr
  obtain ⟨d, rfl, hd⟩ := List.map_eq_singleton_iff.1 hlast
  rw [plainMinus_eq_iff (by decide) (by decide)] at hc hd
  exact h ⟨inner', by rw [hc, hd]⟩

theorem readChars?_bare (h : (trim cell).map plainMinus = s) (hne : s ≠ [])
    (hplaceholder : isPlaceholder s = false) (hbare : enclosed? s = none) :
    f.readChars? cell = f.withSign false s := by
  rw [readChars?_eq, h, if_neg (by simp [hne, hplaceholder]), hbare]

theorem readChars?_parens (hbefore : ∀ c ∈ before, isBlank c = true)
    (hafter : ∀ c ∈ after, isBlank c = true) (s : List Char) :
    f.readChars? (before ++ ('(' :: (s ++ [')']) ++ after)) =
      f.withSign true ((trim s).map plainMinus) := by
  have hlast : ∀ c ∈ ('(' :: (s ++ [')'])).getLast?, isBlank c = false := by
    rw [← List.cons_append, List.getLast?_concat]
    rintro c ⟨⟩
    rfl
  have htrim : trim (before ++ ('(' :: (s ++ [')']) ++ after)) = '(' :: (s ++ [')']) := by
    apply trim_append hbefore hafter (List.cons_ne_nil _ _) _ hlast
    rintro c ⟨⟩
    rfl
  have hplain : ('(' :: (s ++ [')'])).map plainMinus = '(' :: (s.map plainMinus ++ [')']) := by
    rw [List.map_cons, List.map_append]
    rfl
  rw [readChars?_eq, htrim, hplain, if_neg (by simp [not_isPlaceholder_parens]), enclosed?_parens,
    ← trim_map isBlank_plainMinus]

theorem readChars?_open (hbefore : ∀ c ∈ before, isBlank c = true)
    (hafter : ∀ c ∈ after, isBlank c = true)
    (hhead : ∃ c ∈ s.head?, isBlank c = false ∧ c ≠ '(')
    (hlast : ∀ c ∈ s.getLast?, isBlank c = false) (hdigit : ∃ c ∈ s, c.isDigit = true) :
    f.readChars? (before ++ (s ++ after)) = f.withSign false (s.map plainMinus) := by
  obtain ⟨c, hc, hblank, hparen⟩ := hhead
  obtain ⟨g, hg, hdigit⟩ := hdigit
  have hne : s ≠ [] := List.ne_nil_of_mem hg
  have htrim : trim (before ++ (s ++ after)) = s := by
    apply trim_append hbefore hafter hne _ hlast
    exact fun b hb => Option.mem_unique hc hb ▸ hblank
  have hbare : ¬ ∃ inner, s = '(' :: (inner ++ [')']) := by
    rintro ⟨inner, rfl⟩
    exact hparen (Option.some.inj hc).symm
  have hmem : g ∈ s.map plainMinus := List.mem_map.2 ⟨g, hg, plainMinus_of_isDigit hdigit⟩
  exact readChars?_bare (congrArg _ htrim) (by simpa using hne)
    (not_isPlaceholder_of_isDigit hdigit hmem) (enclosed?_map_plainMinus hbare)

theorem dropCurrency_of_isDigit {c : Char} (hc : c.isDigit = true) (s : List Char) :
    dropCurrency (c :: s) = c :: s := by
  have hhead : ∀ p ∈ currencies, ∃ a ∈ p.head?, a.isDigit = false := by simp [currencies]
  have hnone : currencies.findSome? (afterPrefix? · (c :: s)) = none := by
    rw [List.findSome?_eq_none_iff]
    intro p hp
    obtain ⟨a, ha, hnot⟩ := hhead p hp
    obtain ⟨q, rfl⟩ := List.head?_eq_some_iff.1 ha
    rw [afterPrefix?, if_neg]
    rintro rfl
    simp [hc] at hnot
  rw [dropCurrency, hnone]

/-- No currency starts with another one. -/
theorem dropCurrency_append {currency : List Char} (h : currency ∈ currencies) (s : List Char) :
    dropCurrency (currency ++ s) = trimStart s := by
  have hfind : currencies.findSome? (afterPrefix? · (currency ++ s)) = some s := by
    simp only [currencies, List.map_cons, List.map_nil, List.mem_cons, List.not_mem_nil,
      or_false] at h
    rcases h with rfl | rfl | rfl | rfl | rfl | rfl | rfl | rfl | rfl | rfl <;> rfl
  rw [dropCurrency, hfind]

theorem dropSide_of_isDigit {g : Char} (hg : g.isDigit = true) (s : List Char) :
    dropSide (s ++ [g]) = s ++ [g] := by
  have hlast : asciiLower g ≠ 'r' :=
    forall_isDigit (P := fun c => asciiLower c ≠ 'r') (by decide) hg
  have htail (e : Char) : ((s ++ [g]).drop ((s ++ [g]).length - 2)).map asciiLower ≠ [e, 'r'] := by
    intro heq
    have hdrop : (s ++ [g]).length - 2 ≤ s.length := by simp
    rw [List.drop_append_of_le_length hdrop, List.map_append] at heq
    have hend := congrArg List.getLast? heq
    rw [List.map_singleton, List.getLast?_concat] at hend
    exact hlast (Option.some.inj hend)
  rw [dropSide]
  exact if_neg fun h => h.elim (htail 'c') (htail 'd')

theorem dropSide_append {side : List Char}
    (h : side.map asciiLower = ['c', 'r'] ∨ side.map asciiLower = ['d', 'r']) (s : List Char) :
    dropSide (s ++ side) = s := by
  have htwo : side.length = 2 := by
    rcases h with h | h <;> simpa using congrArg List.length h
  have hlength : (s ++ side).length - 2 = s.length := by
    rw [List.length_append, htwo, Nat.add_sub_cancel]
  rw [dropSide, hlength, List.drop_left, if_pos h, List.take_left]

end Payables.AmountFormat
