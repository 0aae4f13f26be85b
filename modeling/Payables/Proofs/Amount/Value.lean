import Mathlib.Algebra.Order.Field.Power
import Mathlib.Tactic.FieldSimp
import Mathlib.Tactic.Ring
import Payables.Amount.Basic
import Payables.Proofs.Number.Rounding
import Payables.Proofs.Text.Numeral

/-!
# The value of an amount

An amount stands for the number `unscaled / 10 ^ scale`. Rounding it to two decimals gives the
nearest hundredth, and of two nearest ones the even one (`roundsTo_rounded`).
-/

namespace Payables

/-- `y` is `x` rounded to two decimals, a half to the even hundredth. -/
def RoundsTo (x y : ℚ) : Prop := ∃ m : ℤ, IsHalfEven (100 * x) m ∧ y = m / 100

theorem RoundsTo.unique {x y y' : ℚ} (h : RoundsTo x y) (h' : RoundsTo x y') : y = y' := by
  obtain ⟨m, hm, rfl⟩ := h
  obtain ⟨m', hm', rfl⟩ := h'
  rw [hm.unique hm']

theorem cast_tenTo (n : ℕ) : (tenTo n : ℚ) = 10 ^ n := Nat.cast_pow 10 n

namespace Amount

def value (a : Amount) : ℚ := a.unscaled / 10 ^ a.scale

section Sign

variable {a : Amount}

theorem tenTo_scale_pos (a : Amount) : 0 < (10 : ℚ) ^ a.scale := zpow_pos (by norm_num) _

theorem value_eq_zero_iff : a.value = 0 ↔ a.unscaled = 0 := by
  rw [value, div_eq_zero_iff, or_iff_left a.tenTo_scale_pos.ne', Int.cast_eq_zero]

theorem value_pos_iff : 0 < a.value ↔ 0 < a.unscaled := by
  rw [value, div_pos_iff_of_pos_right a.tenTo_scale_pos, Int.cast_pos]

theorem value_neg_iff : a.value < 0 ↔ a.unscaled < 0 := by
  rw [value, div_lt_iff₀ a.tenTo_scale_pos, zero_mul, Int.cast_lt_zero]

theorem value_negatedMagnitude (a : Amount) : a.negatedMagnitude.value = -|a.value| := by
  rw [value, value, negatedMagnitude, abs_div, abs_of_pos a.tenTo_scale_pos, ← neg_div,
    Int.cast_neg, Int.cast_natCast, Nat.cast_natAbs, Int.cast_abs]

end Sign

theorem hundred_mul_div_of_le {n : ℕ} {scale : ℤ} (h : scale ≤ 2) :
    (100 * (n / 10 ^ scale) : ℚ) = (n * tenTo (2 - scale).toNat : ℕ) := by
  have hexp : ((2 - scale).toNat : ℤ) = 2 - scale := Int.toNat_of_nonneg (by omega)
  rw [Nat.cast_mul, cast_tenTo, ← zpow_natCast, hexp, zpow_sub₀ (by norm_num)]
  ring

theorem hundred_mul_div_of_lt {n : ℕ} {scale : ℤ} (h : 2 < scale) :
    (100 * (n / 10 ^ scale) : ℚ) = n / tenTo (scale - 2).toNat := by
  have hexp : ((scale - 2).toNat : ℤ) = scale - 2 := Int.toNat_of_nonneg (by omega)
  rw [cast_tenTo, ← zpow_natCast, hexp, zpow_sub₀ (by norm_num)]
  field_simp
  ring

theorem ten_mul_lt_tenTo {n k : ℕ} (h : (Text.digits n).length < k) : 10 * n < tenTo k := by
  obtain ⟨j, rfl⟩ := Nat.exists_eq_add_one_of_ne_zero (Nat.ne_zero_of_lt h)
  have hpos := Text.length_digits_pos n
  have hlt := (Text.length_digits_le_iff (n := n) (k := j) (by omega)).1 (by omega)
  rw [tenTo_succ]
  omega

theorem isHalfEven_zero_of_lt {n d : ℕ} (h : 10 * n < d) : IsHalfEven (n / d : ℚ) (0 : ℕ) := by
  have hd : (0 : ℚ) < d := by exact_mod_cast Nat.zero_lt_of_lt h
  have hlt : (n : ℚ) / d < 1 / 2 := by
    rw [div_lt_div_iff₀ hd two_pos]
    exact_mod_cast (by omega : n * 2 < 1 * d)
  have habs : |(n : ℚ) / d - ((0 : ℕ) : ℤ)| = n / d := by
    rw [Nat.cast_zero, Int.cast_zero, sub_zero, abs_of_nonneg (by positivity)]
  refine .of_near (by rw [habs]; exact hlt.le) fun htie => ?_
  rw [habs] at htie
  exact absurd htie hlt.ne

theorem isHalfEven_hundredths (a : Amount) :
    IsHalfEven (100 * (a.unscaled.natAbs / 10 ^ a.scale)) a.hundredths := by
  unfold hundredths
  generalize a.unscaled.natAbs = n
  dsimp only
  split_ifs with hzero hscale hsmall
  · simpa [hzero] using IsHalfEven.intCast 0
  · rw [hundred_mul_div_of_le hscale]
    exact_mod_cast IsHalfEven.intCast _
  · rw [hundred_mul_div_of_lt (not_le.1 hscale)]
    exact isHalfEven_zero_of_lt (ten_mul_lt_tenTo hsmall)
  · rw [hundred_mul_div_of_lt (not_le.1 hscale)]
    exact isHalfEven_roundHalfEven n (tenTo_pos _)

theorem value_rounded (a : Amount) :
    a.rounded.value = (if a.unscaled < 0 then -a.hundredths else a.hundredths : ℤ) / 100 := by
  rw [value, rounded]
  norm_num

theorem roundsTo_rounded (a : Amount) : RoundsTo a.value a.rounded.value := by
  refine ⟨_, ?_, value_rounded a⟩
  have hmagnitude := isHalfEven_hundredths a
  split <;> rename_i hsign
  · rw [Nat.cast_natAbs, abs_of_neg hsign, Int.cast_neg, neg_div, mul_neg] at hmagnitude
    simpa [value] using hmagnitude.neg
  · rwa [Nat.cast_natAbs, abs_of_nonneg (not_lt.1 hsign)] at hmagnitude

end Amount

end Payables
