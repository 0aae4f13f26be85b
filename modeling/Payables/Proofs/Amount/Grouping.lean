import Payables.Proofs.Amount.RoundTrip

/-!
# Groups of three digits

An amount is displayed in groups of three digits, of which only the first may be shorter, without
leading zeros and with two decimals. Groups and decimals stand for the magnitude of the amount
rounded to two decimals, and a minus stands in front iff that is below zero (`display_isGrouped`).
-/

namespace Payables.AmountFormat

open Text

/-- A number in groups of three digits, of which the first may be shorter, with two decimals. -/
structure GroupedNumeral where
  first : List Char
  others : List (List Char)
  decimals : List Char
  length_first : 1 ≤ first.length ∧ first.length ≤ 3
  length_others : ∀ g ∈ others, g.length = 3
  length_decimals : decimals.length = 2
  isDigit : ∀ c ∈ (first :: others).flatten ++ decimals, c.isDigit = true
  no_leading_zero : '0' ∈ (first :: others).flatten.head? → (first :: others).flatten = ['0']

namespace GroupedNumeral

def wholes (n : GroupedNumeral) : List Char := (n.first :: n.others).flatten

/-- The number under the marks of a format. -/
def chars (f : AmountFormat) (n : GroupedNumeral) : List Char :=
  f.groupMark.toList.intercalate (n.first :: n.others) ++ f.decimalMark.toList ++ n.decimals

def value (n : GroupedNumeral) : ℚ := Text.value n.wholes + Text.value n.decimals / 100

end GroupedNumeral

/-- Groups are cut from the right, so that the length of the first is what is left over. -/
theorem exists_groups (mark : List Char) {ds : List Char} (hne : ds ≠ []) :
    ∃ g gs, grouped mark ds = mark.intercalate (g :: gs) ∧ (g :: gs).flatten = ds ∧
      g.length = (ds.length - 1) % 3 + 1 ∧ ∀ h ∈ gs, h.length = 3 := by
  induction ds with
  | nil => exact absurd rfl hne
  | cons c cs ih =>
    rw [grouped]
    by_cases hcs : cs = []
    · subst hcs
      exact ⟨[c], [], by simp [grouped], rfl, rfl, by simp⟩
    have hpos : 0 < cs.length := List.length_pos_iff.2 hcs
    obtain ⟨g, gs, hgrouped, hflatten, hfirst, hothers⟩ := ih hcs
    by_cases hfull : cs.length % 3 = 0
    · -- the first group is full, and a new one starts
      refine ⟨[c], g :: gs, ?_, ?_, ?_, ?_⟩
      · rw [if_pos ⟨hcs, hfull⟩, hgrouped, List.intercalate_cons_cons]
        simp
      · rw [List.flatten_cons, hflatten, List.singleton_append]
      · rw [List.length_singleton, List.length_cons, Nat.add_sub_cancel, hfull]
      · exact List.forall_mem_cons.2 ⟨by omega, hothers⟩
    · refine ⟨c :: g, gs, ?_, ?_, ?_, hothers⟩
      · rw [if_neg fun h => hfull h.2, hgrouped]
        cases gs with
        | nil => simp
        | cons h hs => simp [List.intercalate_cons_cons]
      · rw [← hflatten, List.flatten_cons, List.flatten_cons, List.cons_append]
      · rw [List.length_cons, hfirst, List.length_cons]
        omega

theorem digits_eq_of_head {n : ℕ} (h : '0' ∈ (digits n).head?) : digits n = ['0'] := by
  rcases Nat.eq_zero_or_pos n with rfl | hn
  · rfl
  · obtain ⟨d, ds, hdigits, hd⟩ := exists_digits_cons hn
    rw [hdigits] at h
    exact absurd (Option.some.inj h) hd

theorem exists_shown_isGrouped (f : AmountFormat) (n : ℕ) :
    ∃ m : GroupedNumeral, f.shown n = m.chars f ∧ m.value = n / 100 := by
  obtain ⟨g, gs, hgrouped, hflatten, hfirst, hothers⟩ :=
    exists_groups f.groupMark.toList (digits_ne_nil (n / 100))
  have hdigit : ∀ c ∈ (g :: gs).flatten ++ fixedWidth 2 (n % 100), c.isDigit = true := by
    intro c hc
    rw [hflatten] at hc
    exact (List.mem_append.1 hc).elim isDigit_of_mem_digits isDigit_of_mem_fixedWidth
  refine ⟨⟨g, gs, fixedWidth 2 (n % 100), by omega, hothers, length_decimals n, hdigit, ?_⟩, ?_, ?_⟩
  · rw [hflatten]
    exact digits_eq_of_head
  · rw [shown, hgrouped, GroupedNumeral.chars]
  · change (value (g :: gs).flatten : ℚ) + value (fixedWidth 2 (n % 100)) / 100 = n / 100
    rw [hflatten, value_digits, value_fixedWidth, add_div' _ _ _ (by norm_num)]
    congr 1
    exact_mod_cast Nat.div_add_mod' n 100

/-- Rounding goes below zero only from there, and not if it ends at zero. -/
theorem value_rounded_neg_iff (a : Amount) :
    a.rounded.value < 0 ↔ a.unscaled < 0 ∧ a.hundredths ≠ 0 := by
  rw [Amount.value_neg_iff, Amount.rounded]
  dsimp only
  split <;> omega

theorem abs_value_rounded (a : Amount) : |a.rounded.value| = a.hundredths / 100 := by
  rw [Amount.value_rounded, abs_div]
  split <;> simp

/-- An amount is displayed as the magnitude of the amount rounded to two decimals in groups of three
digits, behind a minus iff that is below zero. -/
theorem display_isGrouped (f : AmountFormat) (a : Amount) :
    ∃ (r : ℚ) (n : GroupedNumeral), RoundsTo a.value r ∧
      (f.display a).toList = (if r < 0 then ['-'] else []) ++ n.chars f ∧ n.value = |r| := by
  obtain ⟨n, hchars, hvalue⟩ := exists_shown_isGrouped f a.hundredths
  refine ⟨a.rounded.value, n, Amount.roundsTo_rounded a, ?_, ?_⟩
  · rw [display, String.toList_ofList, displayChars_eq, ← hchars]
    simp only [value_rounded_neg_iff]
    split <;> rfl
  · rw [hvalue, abs_value_rounded]

example : ({} : AmountFormat).display ⟨-1234567895, 3, by decide⟩ = "-1,234,567.90" := by
  decide +kernel

example : ({} : AmountFormat).display ⟨-5, 3, by decide⟩ = "0.00" := by decide +kernel

end Payables.AmountFormat
