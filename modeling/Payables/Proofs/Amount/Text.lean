import Payables.Proofs.Amount.Numeral
import Payables.Proofs.Amount.Value

/-!
# Amounts read back from their texts

The text of an amount is a sign, digits with or without a point, and an exponent or none. It is read
back as the amount itself, unless its scale is spelled out in zeros or it is zero: then as a whole
number of the same value (`ofText?_text`, `value_spelled`).
-/

namespace Payables.Amount

open Text

/-- The amount that the text of an amount spells: a scale that is written as zeros is gone. -/
def spelled (a : Amount) : Amount :=
  if a.unscaled = 0 then ofInt 0
  else if -15 ≤ a.scale ∧ a.scale ≤ 0 then ofInt (a.unscaled * tenTo (-a.scale).toNat)
  else a

theorem value_spelled (a : Amount) : a.spelled.value = a.value := by
  unfold spelled
  split_ifs with hzero hscale
  · rw [value, value, hzero, ofInt]
    simp
  · have hexp : (10 : ℚ) ^ a.scale = (10 ^ (-a.scale).toNat)⁻¹ := by
      rw [← zpow_natCast, ← zpow_neg, Int.toNat_of_nonneg (by omega), neg_neg]
    simp only [value, ofInt, hexp, zpow_zero, div_one, div_inv_eq_mul, Int.cast_mul,
      Int.cast_natCast, cast_tenTo]
  · rfl

theorem chars_eq {a : Amount} (h : a.unscaled ≠ 0) :
    a.chars = signChars (a.unscaled < 0) ++ magnitudeChars a.unscaled.natAbs a.scale := by
  rw [chars, if_neg h]
  by_cases hneg : a.unscaled < 0 <;> simp [signChars, hneg]

theorem signed_mul (negative : Bool) (m n : Nat) :
    signed negative (m * n) = signed negative m * n := by
  cases negative with
  | false => exact Nat.cast_mul m n
  | true => exact (congrArg Neg.neg (Nat.cast_mul m n)).trans (Int.neg_mul ..).symm

theorem signed_natAbs (n : Int) : signed (n < 0) n.natAbs = n := by
  unfold signed
  split_ifs with hneg
  · have hlt : n < 0 := of_decide_eq_true hneg
    omega
  · have hle : ¬ n < 0 := fun hlt => hneg (decide_eq_true hlt)
    omega

theorem value_zeros (n : Nat) : Text.value (zeros n) = 0 := Nat.ofDigitChars_replicate_zero

theorem isDigit_of_mem_zeros {n : Nat} {c : Char} (h : c ∈ zeros n) : c.isDigit = true := by
  rw [List.eq_of_mem_replicate h]
  rfl

theorem isDigit_of_mem_zero : ∀ c ∈ ['0'], c.isDigit = true := List.forall_mem_singleton.2 rfl

theorem ofChars?_scientific (negative : Bool) {n s : Nat} (h : (digits n).length < s) :
    ofChars? (signChars negative ++ (match digits n with
      | d :: e :: es => d :: '.' :: e :: es ++ (['E', '-'] ++ digits (s + 1 - (digits n).length))
      | ds => ds ++ (['E', '-'] ++ digits (s + 1 - (digits n).length)))) =
      of? (signed negative n) s := by
  have hvalue := value_digits n
  have hdigits : ∀ c ∈ digits n, c.isDigit = true := fun c hc => isDigit_of_mem_digits hc
  have htail : IsExponent (['E', '-'] ++ digits (s + 1 - (digits n).length))
      (-(s + 1 - (digits n).length : Nat)) := .negative _
  generalize (['E', '-'] ++ digits (s + 1 - (digits n).length) : List Char) = tail at htail
  have hne := digits_ne_nil n
  generalize digits n = ds at *
  split
  · rename_i d e es
    obtain ⟨hd, hes⟩ := List.forall_mem_cons.1 hdigits
    have hread := ofChars?_pointed (List.cons_ne_nil d []) (by simpa using hd) hes negative htail
    change _ = of? (signed negative (Text.value (d :: e :: es))) _ at hread
    have hscale : ((e :: es).length : Int) - -(s + 1 - (d :: e :: es).length : Nat) = s := by
      simp only [List.length_cons] at h ⊢
      omega
    rwa [hscale, hvalue] at hread
  · rename_i hshort
    have hone : ds.length = 1 := by
      match ds, hne with
      | [_], _ => rfl
      | d :: e :: es, _ => exact absurd rfl (hshort d e es)
    have hread := ofChars?_plain hne hdigits negative htail
    have hscale : -(-(s + 1 - ds.length : Nat) : Int) = s := by omega
    rwa [hscale, hvalue] at hread

theorem ofChars?_magnitude (negative : Bool) (n : Nat) (scale : Int) :
    ofChars? (signChars negative ++ magnitudeChars n scale) =
      if -15 ≤ scale ∧ scale ≤ 0 then of? (signed negative (n * tenTo (-scale).toNat)) 0
      else of? (signed negative n) scale := by
  have hdigits : ∀ c ∈ digits n, c.isDigit = true := fun c hc => isDigit_of_mem_digits hc
  have hne := digits_ne_nil n
  have hlimit : (trailingZeroLimit : Int) = 15 := rfl
  rw [magnitudeChars]
  dsimp only
  by_cases hlarge : scale < -trailingZeroLimit
  · have hscale : -((-scale).toNat : Int) = scale := by omega
    have hread := ofChars?_plain hne hdigits negative (.positive (-scale).toNat)
    rw [hscale, value_digits] at hread
    rw [if_pos hlarge, if_neg (by omega), List.append_assoc]
    exact hread
  rw [if_neg hlarge]
  by_cases hwhole : scale ≤ 0
  · have hpadded : ∀ c ∈ digits n ++ zeros (-scale).toNat, c.isDigit = true := fun c hc =>
      (List.mem_append.1 hc).elim (hdigits c) isDigit_of_mem_zeros
    have hread := ofChars?_plain (List.append_ne_nil_of_left_ne_nil hne _) hpadded negative .none
    rw [List.append_nil, value_append, value_digits, value_zeros, Nat.add_zero, zeros,
      List.length_replicate, Nat.mul_comm, Int.neg_zero] at hread
    rw [if_pos hwhole, if_pos ⟨by omega, hwhole⟩]
    exact hread
  obtain ⟨s, rfl⟩ : ∃ s : Nat, scale = s := ⟨scale.toNat, by omega⟩
  have hpoint : ¬ (-15 ≤ (s : Int) ∧ (s : Int) ≤ 0) := fun h => hwhole h.2
  rw [if_neg hwhole, if_neg hpoint, Int.toNat_natCast]
  by_cases hsmall : (digits n).length + leadingZeroLimit < s
  · rw [if_pos hsmall]
    exact ofChars?_scientific negative (by omega)
  rw [if_neg hsmall]
  by_cases hlong : s < (digits n).length
  · have htake : (digits n).take ((digits n).length - s) ≠ [] := by
      rw [Ne, List.take_eq_nil_iff, not_or]
      exact ⟨by omega, hne⟩
    have hdrop : ∀ c ∈ (digits n).drop ((digits n).length - s), c.isDigit = true := fun c hc =>
      hdigits c (List.mem_of_mem_drop hc)
    have hread := ofChars?_pointed htake (fun c hc => hdigits c (List.mem_of_mem_take hc)) hdrop
      negative .none
    have hscale : ((digits n).length - ((digits n).length - s) : Nat) - (0 : Int) = s := by omega
    rw [List.append_nil, List.take_append_drop, value_digits, List.length_drop, hscale] at hread
    rw [if_pos hlong]
    exact hread
  · have hpadded : ∀ c ∈ zeros (s - (digits n).length) ++ digits n, c.isDigit = true := fun c hc =>
      (List.mem_append.1 hc).elim isDigit_of_mem_zeros (hdigits c)
    have hread := ofChars?_pointed (List.cons_ne_nil '0' []) isDigit_of_mem_zero hpadded negative
      .none
    have hvalue : Text.value (['0'] ++ (zeros (s - (digits n).length) ++ digits n)) = n := by
      have hzero : Text.value ['0'] = 0 := rfl
      rw [value_append, value_append, hzero, value_zeros, value_digits, Nat.mul_zero, Nat.mul_zero,
        Nat.zero_add, Nat.zero_add]
    have hscale : (zeros (s - (digits n).length) ++ digits n).length - (0 : Int) = s := by
      rw [List.length_append, zeros, List.length_replicate]
      omega
    rw [List.append_nil, hvalue, hscale] at hread
    rw [if_neg hlong]
    exact hread

theorem of?_of_fits {n scale : Int} (h : ScaleFits scale) : of? n scale = some ⟨n, scale, h⟩ :=
  dif_pos h

/-- Every amount is read back from its text with the value that it has. -/
theorem ofText?_text (a : Amount) : ofText? a.text = some a.spelled := by
  rw [ofText?, text, String.toList_ofList]
  unfold spelled
  by_cases hzero : a.unscaled = 0
  · have hread := ofChars?_plain (List.cons_ne_nil '0' []) isDigit_of_mem_zero false .none
    rw [chars, if_pos hzero, if_pos hzero]
    exact hread.trans (of?_of_fits _)
  · rw [chars_eq hzero, if_neg hzero, ofChars?_magnitude]
    split_ifs with hscale
    · have hsigned : signed (a.unscaled < 0) (a.unscaled.natAbs * tenTo (-a.scale).toNat) =
          a.unscaled * tenTo (-a.scale).toNat := by
        rw [signed_mul, signed_natAbs]
      rw [hsigned]
      exact of?_of_fits (by decide)
    · rw [signed_natAbs]
      exact of?_of_fits a.scaleFits

end Payables.Amount
