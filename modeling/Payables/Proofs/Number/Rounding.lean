import Mathlib.Algebra.Order.Field.Basic
import Mathlib.Algebra.Order.Field.Rat
import Mathlib.Algebra.Order.Ring.Abs
import Mathlib.Tactic.Linarith
import Mathlib.Tactic.NormNum
import Mathlib.Tactic.Positivity
import Payables.Number.Rounding

/-!
# The nearest integer

`IsHalfEven x m` says that `m` is the integer nearest to `x`, and of two nearest integers the even
one. Every number has at most one such integer, and `roundHalfEven` finds that of a quotient.
-/

namespace Payables

/-- No integer is nearer to `x` than `m`, and if another one is as near then `m` is even. -/
structure IsHalfEven (x : ℚ) (m : ℤ) : Prop where
  nearest : ∀ k : ℤ, |x - m| ≤ |x - k|
  even_of_tie : ∀ k : ℤ, k ≠ m → |x - k| = |x - m| → Even m

namespace IsHalfEven

variable {x : ℚ} {m : ℤ}

theorem one_le_abs_sub {m k : ℤ} (h : k ≠ m) : (1 : ℚ) ≤ |(m : ℚ) - k| := by
  have hpos : 0 < |m - k| := abs_pos.2 (sub_ne_zero.2 h.symm)
  exact_mod_cast hpos

theorem of_near (hnear : |x - m| ≤ 1 / 2) (heven : |x - m| = 1 / 2 → Even m) : IsHalfEven x m := by
  have hfar : ∀ k : ℤ, k ≠ m → 1 - |x - m| ≤ |x - k| := by
    intro k hk
    have htriangle : |(m : ℚ) - k| ≤ |(m : ℚ) - x| + |x - k| := abs_sub_le _ _ _
    rw [abs_sub_comm (m : ℚ) x] at htriangle
    linarith [one_le_abs_sub hk]
  constructor
  · intro k
    by_cases hk : k = m
    · rw [hk]
    · linarith [hfar k hk]
  · intro k hk htie
    refine heven (le_antisymm hnear ?_)
    linarith [hfar k hk]

theorem neg (h : IsHalfEven x m) : IsHalfEven (-x) (-m) := by
  have habs : ∀ k : ℤ, |-x - ((-k : ℤ) : ℚ)| = |x - k| := by
    intro k
    rw [Int.cast_neg, sub_neg_eq_add, neg_add_eq_sub, abs_sub_comm]
  constructor
  · intro k
    have hnearest := h.nearest (-k)
    rwa [habs, ← neg_neg k, habs]
  · intro k hk htie
    rw [habs, ← neg_neg k, habs] at htie
    exact (h.even_of_tie (-k) (fun heq => hk (by rw [← heq, neg_neg])) htie).neg

theorem intCast (m : ℤ) : IsHalfEven m m :=
  of_near (by simp) fun h => by norm_num at h

/-- Two nearest integers would both be even, and the number in the middle between them. -/
theorem unique {m' : ℤ} (h : IsHalfEven x m) (h' : IsHalfEven x m') : m = m' := by
  by_contra hne
  have htie : |x - m| = |x - m'| := le_antisymm (h.nearest m') (h'.nearest m)
  obtain ⟨a, rfl⟩ := h.even_of_tie m' (Ne.symm hne) htie.symm
  obtain ⟨b, rfl⟩ := h'.even_of_tie _ hne htie
  rcases abs_eq_abs.1 htie with heq | heq
  · exact hne (by exact_mod_cast sub_right_injective heq)
  · have hx : x = ((a + b : ℤ) : ℚ) := by push_cast at heq ⊢; linarith
    have hzero := h.nearest (a + b)
    rw [← hx, sub_self, abs_zero, abs_nonpos_iff, sub_eq_zero, hx, Int.cast_inj] at hzero
    exact hne (by omega)

theorem add_le_two_mul {k : ℤ} (h : IsHalfEven x m) (hk : k < m) : (m : ℚ) + k ≤ 2 * x := by
  have hsq : (x - m) ^ 2 ≤ (x - k) ^ 2 := sq_le_sq.2 (h.nearest k)
  have hlt : (k : ℚ) < m := by exact_mod_cast hk
  nlinarith

theorem mono {y : ℚ} {n : ℤ} (h : IsHalfEven x m) (h' : IsHalfEven y n) (hxy : x ≤ y) : m ≤ n := by
  by_contra! hlt
  have habove := h.add_le_two_mul hlt
  have hbelow := h'.neg.add_le_two_mul (neg_lt_neg hlt)
  push_cast at hbelow
  have heq : x = y := by linarith
  exact hlt.ne' (h.unique (heq ▸ h'))

end IsHalfEven

/-- Between an integer and the next one: what is below a half goes down, what is above it up, and a
half to the even one of the two. -/
theorem IsHalfEven.of_add {q : ℤ} {f : ℚ} (hf : 0 ≤ f) (hf' : f < 1) :
    (f < 1 / 2 → IsHalfEven (q + f) q) ∧ (1 / 2 < f → IsHalfEven (q + f) (q + 1)) ∧
      (f = 1 / 2 → IsHalfEven (q + f) (q + q % 2)) := by
  have hdown : |(q : ℚ) + f - q| = f := by rw [add_sub_cancel_left, abs_of_nonneg hf]
  have hup : |(q : ℚ) + f - (q + 1 : ℤ)| = 1 - f := by
    rw [Int.cast_add, Int.cast_one, add_sub_add_left_eq_sub, abs_of_neg (by linarith), neg_sub]
  refine ⟨fun h => ?_, fun h => ?_, fun h => ?_⟩
  · refine of_near (by rw [hdown]; exact h.le) fun htie => ?_
    rw [hdown] at htie
    exact absurd htie h.ne
  · refine of_near (by rw [hup]; linarith) fun htie => ?_
    rw [hup] at htie
    linarith
  · rcases Int.emod_two_eq_zero_or_one q with heven | hodd
    · rw [heven, add_zero]
      exact of_near (by rw [hdown, h]) fun _ => Int.even_iff.2 heven
    · rw [hodd]
      refine of_near (by rw [hup, h]; norm_num) fun _ => Int.even_iff.2 ?_
      omega

theorem isHalfEven_roundHalfEven (a : ℕ) {d : ℕ} (hd : 0 < d) :
    IsHalfEven (a / d : ℚ) (roundHalfEven a d) := by
  have hd' : (0 : ℚ) < d := by exact_mod_cast hd
  have hsplit : (a : ℚ) / d = ((a / d : ℕ) : ℤ) + ((a % d : ℕ) : ℚ) / d := by
    rw [Int.cast_natCast, add_div' _ _ _ hd'.ne', div_left_inj' hd'.ne']
    exact_mod_cast (Nat.div_add_mod' a d).symm
  obtain ⟨hdown, hup, htie⟩ := @IsHalfEven.of_add ((a / d : ℕ) : ℤ) (((a % d : ℕ) : ℚ) / d)
    (by positivity) ((div_lt_one hd').2 (by exact_mod_cast Nat.mod_lt a hd))
  rw [← hsplit] at hdown hup htie
  rw [roundHalfEven]
  split_ifs with hlt hgt
  · refine hdown ((div_lt_div_iff₀ hd' two_pos).2 ?_)
    exact_mod_cast (by omega : a % d * 2 < 1 * d)
  · refine hup ((div_lt_div_iff₀ two_pos hd').2 ?_)
    exact_mod_cast (by omega : 1 * d < a % d * 2)
  · refine htie ((div_eq_div_iff hd'.ne' two_ne_zero).2 ?_)
    exact_mod_cast (by omega : a % d * 2 = 1 * d)

theorem roundHalfEven_le_roundHalfEven {a d a' d' : ℕ} (hd : 0 < d) (hd' : 0 < d')
    (h : a * d' ≤ a' * d) : roundHalfEven a d ≤ roundHalfEven a' d' := by
  have hle : (a : ℚ) / d ≤ a' / d' := by
    rw [div_le_div_iff₀ (by exact_mod_cast hd) (by exact_mod_cast hd')]
    exact_mod_cast h
  exact_mod_cast (isHalfEven_roundHalfEven a hd).mono (isHalfEven_roundHalfEven a' hd') hle

theorem roundHalfEven_mul (k : ℕ) {d : ℕ} (hd : 0 < d) : roundHalfEven (k * d) d = k := by
  rw [roundHalfEven, Nat.mul_mod_left, Nat.mul_div_cancel k hd, if_pos (by omega)]

end Payables
