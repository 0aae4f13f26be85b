import Payables.Proofs.Number.Order
import Payables.Proofs.Number.Rounding

/-!
# Rounded quotients

Rounding keeps the order of quotients (`ofRatio_le_ofRatio`). Two quotients in one binade are
rounded to the same place, and between two binades there is a power of two that neither passes.
-/

namespace Payables

theorem twoTo_pos (n : Nat) : 0 < twoTo n := Nat.two_pow_pos n

theorem twoTo_add (m n : Nat) : twoTo (m + n) = twoTo m * twoTo n := Nat.pow_add 2 m n

theorem twoTo_le_twoTo {m n : Nat} (h : m ≤ n) : twoTo m ≤ twoTo n :=
  Nat.pow_le_pow_right (by decide) h

namespace Binary64

variable {a d a' d' : Nat}

theorem lt_mul_quotientBinade (a : Nat) (hd : 0 < d) :
    a < d * twoTo (quotientBinade a d + 53) := by
  have hlog : a < twoTo (a.log2 + 1) := Nat.lt_log2_self
  have hle : a < d * twoTo (a.log2 - (d.log2 + 52) + 53) := by
    calc
      a < twoTo (a.log2 + 1) := hlog
      _ ≤ twoTo (d.log2 + (a.log2 - (d.log2 + 52) + 53)) := twoTo_le_twoTo (by omega)
      _ = twoTo d.log2 * twoTo (a.log2 - (d.log2 + 52) + 53) := twoTo_add ..
      _ ≤ d * twoTo (a.log2 - (d.log2 + 52) + 53) :=
        Nat.mul_le_mul_right _ (Nat.log2_self_le hd.ne')
  rw [quotientBinade]
  split
  · rename_i h
    have hpred : a.log2 - (d.log2 + 52) - 1 + 53 = a.log2 - (d.log2 + 52) + 52 := by omega
    rw [hpred]
    exact h.2
  · exact hle

theorem mul_quotientBinade_le (h : 0 < quotientBinade a d) :
    d * twoTo (quotientBinade a d + 52) ≤ a := by
  rw [quotientBinade] at h ⊢
  split at h <;> rename_i hshift
  · rw [if_pos hshift]
    have ha : a ≠ 0 := by
      rintro rfl
      simp at h
    calc
      d * twoTo (a.log2 - (d.log2 + 52) - 1 + 52)
        ≤ twoTo (d.log2 + 1) * twoTo (a.log2 - (d.log2 + 52) - 1 + 52) :=
          Nat.mul_le_mul_right _ Nat.lt_log2_self.le
      _ = twoTo (d.log2 + 1 + (a.log2 - (d.log2 + 52) - 1 + 52)) := (twoTo_add ..).symm
      _ = twoTo a.log2 := congrArg twoTo (by omega)
      _ ≤ a := Nat.log2_self_le ha
  · rw [if_neg hshift]
    exact Nat.not_lt.1 fun hlt => hshift ⟨h, hlt⟩

theorem quotientBinade_le_quotientBinade (hd : 0 < d) (hd' : 0 < d') (h : a * d' ≤ a' * d) :
    quotientBinade a d ≤ quotientBinade a' d' := by
  by_contra! hlt
  have hlow := mul_quotientBinade_le (Nat.zero_lt_of_lt hlt)
  have hhigh := lt_mul_quotientBinade a' hd'
  have hpow : twoTo (quotientBinade a' d' + 53) ≤ twoTo (quotientBinade a d + 52) :=
    twoTo_le_twoTo (by omega)
  refine Nat.lt_irrefl (a' * d) ?_
  calc
    a' * d < d' * twoTo (quotientBinade a' d' + 53) * d := Nat.mul_lt_mul_of_pos_right hhigh hd
    _ ≤ d' * twoTo (quotientBinade a d + 52) * d :=
      Nat.mul_le_mul_right d (Nat.mul_le_mul_left d' hpow)
    _ = d * twoTo (quotientBinade a d + 52) * d' := by
      rw [Nat.mul_right_comm, Nat.mul_comm d' d, Nat.mul_right_comm]
    _ ≤ a * d' := Nat.mul_le_mul_right d' hlow
    _ ≤ a' * d := h

/-- The significand of a quotient has at most 53 bits, or is the power of two above them. -/
theorem roundHalfEven_quotientBinade_le (a : Nat) (hd : 0 < d) :
    roundHalfEven a (d * twoTo (quotientBinade a d)) ≤ twoTo 53 := by
  have hunit : 0 < d * twoTo (quotientBinade a d) := Nat.mul_pos hd (twoTo_pos _)
  have hlt := lt_mul_quotientBinade a hd
  rw [Nat.add_comm, twoTo_add, Nat.mul_left_comm] at hlt
  rw [← roundHalfEven_mul (twoTo 53) hunit]
  exact roundHalfEven_le_roundHalfEven hunit hunit (Nat.mul_le_mul_right _ hlt.le)

theorem le_roundHalfEven_quotientBinade (hd : 0 < d) (h : 0 < quotientBinade a d) :
    twoTo 52 ≤ roundHalfEven a (d * twoTo (quotientBinade a d)) := by
  have hunit : 0 < d * twoTo (quotientBinade a d) := Nat.mul_pos hd (twoTo_pos _)
  have hle := mul_quotientBinade_le h
  rw [Nat.add_comm, twoTo_add, Nat.mul_left_comm] at hle
  rw [← roundHalfEven_mul (twoTo 52) hunit]
  exact roundHalfEven_le_roundHalfEven hunit hunit (Nat.mul_le_mul_right _ hle)

theorem roundField_le_roundField (hd : 0 < d) (hd' : 0 < d') (h : a * d' ≤ a' * d) :
    roundField a d ≤ roundField a' d' := by
  refine min_le_min_right _ ?_
  rcases (quotientBinade_le_quotientBinade hd hd' h).lt_or_eq with hlt | heq
  · -- the lower binade ends at a power of two, no later than the higher one starts
    have htop := roundHalfEven_quotientBinade_le a hd
    have hbottom := le_roundHalfEven_quotientBinade hd' (Nat.zero_lt_of_lt hlt)
    have hdouble : twoTo 53 = 2 * twoTo 52 := rfl
    have hstep : (quotientBinade a d + 1) * twoTo 52 ≤ quotientBinade a' d' * twoTo 52 :=
      Nat.mul_le_mul_right _ hlt
    rw [Nat.succ_mul] at hstep
    omega
  · rw [heq]
    refine Nat.add_le_add_left (roundHalfEven_le_roundHalfEven ?_ ?_ ?_) _
    · exact Nat.mul_pos hd (twoTo_pos _)
    · exact Nat.mul_pos hd' (twoTo_pos _)
    · rw [← Nat.mul_assoc, ← Nat.mul_assoc]
      exact Nat.mul_le_mul_right _ h

theorem key_ofUnits (a : Int) (d : Nat) : (ofUnits a d).key =
    if a < 0 then -(roundField a.natAbs d : Int) else roundField a.natAbs d := by
  simp only [ofUnits, key, decide_eq_true_eq]

theorem ofUnits_le_ofUnits {a a' : Int} {d : Nat} (hd : 0 < d) (h : a ≤ a') :
    ofUnits a d ≤ ofUnits a' d := by
  have hround {m n : Nat} (hmn : m ≤ n) : roundField m d ≤ roundField n d :=
    roundField_le_roundField hd hd (Nat.mul_le_mul_right d hmn)
  change (ofUnits a d).key ≤ (ofUnits a' d).key
  rw [key_ofUnits, key_ofUnits]
  split_ifs with ha ha'
  · have hle := hround (m := a'.natAbs) (n := a.natAbs) (by omega)
    omega
  · omega
  · omega
  · have hle := hround (m := a.natAbs) (n := a'.natAbs) (by omega)
    omega

theorem key_ofRatio (a b : Nat) : (ofRatio a b).key = roundField (a * twoTo 1074) b := by
  rw [ofRatio, key_ofUnits, ← Int.natCast_mul, Int.natAbs_natCast, if_neg (by omega)]

theorem ofRatio_le_ofRatio (hd : 0 < d) (hd' : 0 < d') (h : a * d' ≤ a' * d) :
    ofRatio a d ≤ ofRatio a' d' := by
  change (ofRatio a d).key ≤ (ofRatio a' d').key
  rw [key_ofRatio, key_ofRatio]
  refine Int.ofNat_le.2 (roundField_le_roundField hd hd' ?_)
  rw [Nat.mul_right_comm, Nat.mul_right_comm a']
  exact Nat.mul_le_mul_right _ h

theorem units_nonneg_of_negative_eq_false {x : Binary64} (h : x.negative = false) :
    0 ≤ x.units := by
  rw [units, h]
  exact Int.natCast_nonneg _

theorem units_ofUnits_nonneg {a : Int} (h : 0 ≤ a) (d : Nat) : 0 ≤ (ofUnits a d).units :=
  units_nonneg_of_negative_eq_false (decide_eq_false (Int.not_lt.2 h))

theorem units_ofRatio_nonneg (a b : Nat) : 0 ≤ (ofRatio a b).units :=
  units_ofUnits_nonneg (Int.natCast_nonneg _) b

theorem units_add_nonneg {x y : Binary64} (hx : 0 ≤ x.units) (hy : 0 ≤ y.units) :
    0 ≤ (x + y).units :=
  units_ofUnits_nonneg (Int.add_nonneg hx hy) 1

theorem units_mul_nonneg {x y : Binary64} (hx : 0 ≤ x.units) (hy : 0 ≤ y.units) :
    0 ≤ (x * y).units :=
  units_ofUnits_nonneg (Int.mul_nonneg hx hy) _

/-- What is left of a number that is not negative is no less than what is taken from it, negated. -/
theorem ofUnits_neg_le_sub {x : Binary64} (hx : 0 ≤ x.units) (y : Binary64) :
    ofUnits (-y).units 1 ≤ x - y :=
  ofUnits_le_ofUnits Nat.one_pos (Int.le_add_of_nonneg_left hx)

end Binary64

end Payables
