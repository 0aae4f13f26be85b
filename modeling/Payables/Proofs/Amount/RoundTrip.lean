import Payables.Proofs.Amount.MarkedNumber

/-!
# Amounts read back

Under marks that pass the check of a layout, an amount that is written into a cell is read back as
the amount rounded to two decimals (`read?_display`). What is written is a number with marks between
its groups of digits, decorated with a minus or with nothing.
-/

namespace Payables.AmountFormat

open Text

variable {f : AmountFormat}

theorem length_decimals (n : ℕ) : (fixedWidth 2 (n % 100)).length = 2 :=
  length_fixedWidth two_pos (Nat.mod_lt n (by decide))

theorem value_wholes_decimals (n : ℕ) : value (digits (n / 100) ++ fixedWidth 2 (n % 100)) = n := by
  rw [value_append, length_decimals, value_digits, value_fixedWidth]
  exact Nat.div_add_mod n 100

theorem displayChars_eq (f : AmountFormat) (a : Amount) :
    f.displayChars a = if a.unscaled < 0 ∧ a.hundredths ≠ 0 then '-' :: f.shown a.hundredths
      else f.shown a.hundredths := by
  unfold displayChars
  dsimp only
  split
  · rfl
  · rfl

/-- How many marks `grouped` puts behind each digit. -/
def groupCounts : List Char → List ℕ
  | [] => []
  | _ :: cs => (if cs.length % 3 = 0 then 1 else 0) :: groupCounts cs

theorem grouped_eq_spread (mark ds : List Char) :
    grouped mark ds = spread mark (groupCounts ds) ds := by
  induction ds with
  | nil => rfl
  | cons c cs ih =>
    rw [grouped, groupCounts]
    by_cases hcs : cs = []
    · simp [hcs, grouped, spread]
    rw [spread_cons _ _ c hcs, ← ih]
    by_cases hfull : cs.length % 3 = 0
    · rw [if_pos ⟨hcs, hfull⟩, if_pos hfull]
      simp
    · rw [if_neg fun h => hfull h.2, if_neg hfull]
      rfl

def hundredthsNumber (n : ℕ) : MarkedNumber where
  wholes := digits (n / 100)
  marks := groupCounts (digits (n / 100))
  decimals := fixedWidth 2 (n % 100)
  beforePoint := .empty
  afterPoint := .empty
  wholes_ne_nil := digits_ne_nil _
  isDigit_wholes _ := isDigit_of_mem_digits
  isDigit_decimals _ := isDigit_of_mem_fixedWidth

theorem chars_hundredthsNumber (f : AmountFormat) (n : ℕ) :
    (hundredthsNumber n).chars f = f.shown n := by
  have hne : fixedWidth 2 (n % 100) ≠ [] := fun hnil => by
    simpa [hnil] using length_decimals n
  rw [shown, grouped_eq_spread, MarkedNumber.chars, MarkedNumber.tail]
  simp [hundredthsNumber, hne, Gap.empty]

theorem scaleFits_two : ScaleFits 2 := by decide

theorem ofChars?_shown (hf : f.IsApart) (n : ℕ) :
    Amount.ofChars? ((f.shown n).flatMap f.bare) = some ⟨n, 2, scaleFits_two⟩ := by
  rw [← chars_hundredthsNumber, MarkedNumber.ofChars?_chars _ hf]
  change Amount.of? (value (digits (n / 100) ++ fixedWidth 2 (n % 100)))
    (fixedWidth 2 (n % 100)).length = _
  rw [value_wholes_decimals, length_decimals]
  exact Amount.of?_of_fits scaleFits_two

theorem read?_display_eq (hf : f.IsApart) (a : Amount) :
    f.read? (f.display a) = some a.rounded := by
  have hundressed : IsUndressed (f.shown a.hundredths) := by
    rw [← chars_hundredthsNumber]
    exact MarkedNumber.isUndressed_chars _ hf
  have hread := readChars?_around hf hundressed (.ofSign (a.unscaled < 0 ∧ a.hundredths ≠ 0))
  rw [Decoration.around_ofSign, Decoration.isNegative_ofSign, ofChars?_shown hf] at hread
  simp only [decide_eq_true_eq] at hread
  rw [read?, display, String.toList_ofList, displayChars_eq, hread]
  split
  next hneg => simp [Amount.negatedMagnitude, Amount.rounded, hneg.1]
  next hpos =>
    simp only [Amount.rounded]
    split
    -- a negative amount without a sign is one that rounds to zero
    next hneg =>
      have hzero : a.hundredths = 0 := by tauto
      simp [hzero]
    next => rfl

/-- What an amount is displayed as is read back as the amount rounded to two decimals. -/
theorem read?_display {decimal group : String} (h : Layout.checkMarks decimal group = .ok ())
    (a : Amount) :
    let f : AmountFormat := ⟨decimal, group⟩
    ∃ b, f.read? (f.display a) = some b ∧ ∀ r : ℚ, RoundsTo a.value r ↔ b.value = r := by
  refine ⟨a.rounded, read?_display_eq (isApart_of_checkMarks h) a, fun r => ?_⟩
  constructor
  · exact fun hr => (Amount.roundsTo_rounded a).unique hr
  · rintro rfl
    exact Amount.roundsTo_rounded a

theorem read?_display_comma_point :
    Layout.checkMarks "," "." = .ok () ∧
      let f : AmountFormat := ⟨",", "."⟩
      ∃ b, f.read? (f.display ⟨-1234565, 3, by decide⟩) = some b ∧
        ∀ r : ℚ, RoundsTo (-1234565 / 1000) r ↔ b.value = r := by
  refine ⟨rfl, ?_⟩
  obtain ⟨b, hread, hvalue⟩ := @read?_display "," "." rfl ⟨-1234565, 3, by decide⟩
  refine ⟨b, hread, fun r => ?_⟩
  rw [← hvalue]
  norm_num [Amount.value]

example : (⟨",", "."⟩ : AmountFormat).display ⟨-1234565, 3, by decide⟩ = "-1.234,56" := by
  decide +kernel

end Payables.AmountFormat
