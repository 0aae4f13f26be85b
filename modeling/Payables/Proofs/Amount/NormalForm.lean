import Payables.Proofs.Amount.Text

/-!
# Normal forms of amounts

The normal form of an amount stands for its value, except that the scale may come round. So two
amounts have one normal form iff their values are equal but for a power of ten that goes round the
scales (`normalForm_eq_iff`), and if neither scale comes round, iff the values are equal.
-/

namespace Payables.Amount

open Text

variable {a b : Amount}

theorem exists_digits_eq (n : ℕ) :
    ∃ ds, digits n = ds ++ zeros (trailingZeros n) ∧ '0' ∉ ds.getLast? := by
  have hsplit := List.takeWhile_append_dropWhile (p := (· == '0')) (l := (digits n).reverse)
  have hzeros : (digits n).reverse.takeWhile (· == '0') = zeros (trailingZeros n) :=
    List.eq_replicate_iff.2 ⟨rfl, fun c hc => by simpa using List.mem_takeWhile_imp hc⟩
  refine ⟨((digits n).reverse.dropWhile (· == '0')).reverse, ?_, fun hlast => ?_⟩
  · have hdigits := congrArg List.reverse hsplit
    rw [hzeros, List.reverse_append, List.reverse_reverse, zeros, List.reverse_replicate] at hdigits
    exact hdigits.symm
  · rw [List.getLast?_reverse, Option.mem_def] at hlast
    have hnot := List.head?_dropWhile_not (· == '0') (digits n).reverse
    rw [hlast] at hnot
    exact absurd hnot (by decide)

theorem digitValue_of_isDigit {c : Char} (hc : c.isDigit = true) (hzero : c ≠ '0') :
    0 < digitValue c ∧ digitValue c < 10 :=
  forall_isDigit (P := fun c => c ≠ '0' → 0 < digitValue c ∧ digitValue c < 10) (by decide) hc hzero

theorem exists_eq_mul_tenTo {n : ℕ} (h : n ≠ 0) :
    ∃ m, n = m * tenTo (trailingZeros n) ∧ ¬ 10 ∣ m := by
  obtain ⟨ds, hds, hlast⟩ := exists_digits_eq n
  have hn : n = Text.value ds * tenTo (trailingZeros n) := by
    conv_lhs => rw [← value_digits n, hds, value_append, value_zeros, Nat.add_zero, zeros,
      List.length_replicate, Nat.mul_comm]
  refine ⟨Text.value ds, hn, ?_⟩
  rcases List.eq_nil_or_concat ds with rfl | ⟨es, c, rfl⟩
  · exact absurd (hn.trans (Nat.zero_mul _)) h
  · rw [List.concat_eq_append] at hds hlast ⊢
    have hc : c.isDigit = true := isDigit_of_mem_digits (n := n) (by simp [hds])
    have hzero : c ≠ '0' := by
      rintro rfl
      exact hlast (by simp)
    obtain ⟨hpos, hlt⟩ := digitValue_of_isDigit hc hzero
    have hvalue := value_concat es c
    omega

def scales : ℕ := 18446744073709551616

/-- The scale without trailing zeros, which need not fit. -/
def lowestScale (a : Amount) : ℤ := a.scale - trailingZeros a.unscaled.natAbs

theorem exists_unscaled_eq (h : a.unscaled ≠ 0) :
    ∃ m : ℤ, a.unscaled = m * tenTo (trailingZeros a.unscaled.natAbs) ∧ ¬ 10 ∣ m := by
  obtain ⟨m, hm, hten⟩ := exists_eq_mul_tenTo (Int.natAbs_ne_zero.2 h)
  have hten' : ¬ (10 : ℤ) ∣ m := by omega
  rcases Int.natAbs_eq a.unscaled with heq | heq
  · exact ⟨m, by rw [heq, ← Nat.cast_mul, Int.natAbs_natCast, ← hm], hten'⟩
  · refine ⟨-m, ?_, by omega⟩
    rw [Int.neg_mul, ← Nat.cast_mul, ← hm]
    exact heq

theorem exists_normalForm_eq (h : a.unscaled ≠ 0) :
    ∃ m : ℤ, ¬ 10 ∣ m ∧ a.value = m / 10 ^ a.lowestScale ∧
      a.normalForm = (m, a.lowestScale.bmod scales) := by
  obtain ⟨m, hm, hten⟩ := exists_unscaled_eq h
  refine ⟨m, hten, ?_, ?_⟩
  · rw [value, lowestScale, zpow_sub₀ (by norm_num), zpow_natCast, ← cast_tenTo, div_div_eq_mul_div]
    exact congrArg (· / (10 : ℚ) ^ a.scale) (by exact_mod_cast hm)
  · have hpos : (tenTo (trailingZeros a.unscaled.natAbs) : ℤ) ≠ 0 :=
      Int.natCast_ne_zero.2 (tenTo_pos _).ne'
    rw [normalForm, if_neg h]
    refine Prod.ext ?_ rfl
    exact Int.ediv_eq_of_eq_mul_left hpos hm

theorem normalForm_eq_zero_iff : a.normalForm = (0, 0) ↔ a.unscaled = 0 := by
  refine ⟨fun h => ?_, fun h => if_pos h⟩
  by_contra hne
  obtain ⟨m, hten, -, hform⟩ := exists_normalForm_eq hne
  rw [hform, Prod.mk.injEq] at h
  exact hten (h.1 ▸ Int.dvd_zero 10)

/-- Equal but for a power of ten that goes round the scales. -/
def SameInRounds (x y : ℚ) : Prop := ∃ k : ℤ, x = y * 10 ^ (k * scales)

theorem SameInRounds.of_eq {x y : ℚ} (h : x = y) : SameInRounds x y := ⟨0, by simp [h]⟩

theorem sameInRounds_zero_left {y : ℚ} : SameInRounds 0 y ↔ y = 0 := by
  refine ⟨fun ⟨k, hk⟩ => ?_, fun h => .of_eq h.symm⟩
  exact (mul_eq_zero.1 hk.symm).resolve_right (zpow_ne_zero _ (by norm_num))

theorem sameInRounds_zero_right {x : ℚ} : SameInRounds x 0 ↔ x = 0 :=
  ⟨fun ⟨_, hk⟩ => hk.trans (zero_mul _), .of_eq⟩

theorem bmod_scales_eq_iff {x y : ℤ} :
    x.bmod scales = y.bmod scales ↔ ∃ k : ℤ, x = y - k * scales := by
  rw [Int.bmod_eq_bmod_iff_bmod_sub_eq_zero, ← Int.dvd_iff_bmod_eq_zero]
  constructor
  · rintro ⟨k, hk⟩
    exact ⟨-k, by rw [Int.neg_mul, Int.mul_comm k]; omega⟩
  · rintro ⟨k, rfl⟩
    exact ⟨-k, by rw [Int.mul_neg, Int.mul_comm]; omega⟩

theorem ten_dvd_of_div_zpow_eq {m n x y : ℤ} (h : (m / 10 ^ x : ℚ) = n / 10 ^ y) (hlt : x < y) :
    10 ∣ n := by
  obtain ⟨k, rfl⟩ : ∃ k : ℕ, y = x + (k + 1 : ℕ) := ⟨(y - x - 1).toNat, by omega⟩
  have hx : (10 : ℚ) ^ x ≠ 0 := zpow_ne_zero x (by norm_num)
  have hpow : (10 : ℚ) ^ (x + (k + 1 : ℕ)) = 10 ^ (k + 1) * 10 ^ x := by
    rw [zpow_add₀ (by norm_num), zpow_natCast, mul_comm]
  rw [hpow, div_eq_div_iff hx (mul_ne_zero (by positivity) hx), ← mul_assoc] at h
  have hn : m * 10 ^ (k + 1) = n := by exact_mod_cast mul_right_cancel₀ hx h
  exact ⟨m * 10 ^ k, by rw [← hn, pow_succ]; ring⟩

theorem div_zpow_ten_eq_iff {m n x y : ℤ} (hm : ¬ 10 ∣ m) (hn : ¬ 10 ∣ n) :
    (m / 10 ^ x : ℚ) = n / 10 ^ y ↔ m = n ∧ x = y := by
  refine ⟨fun h => ?_, fun h => by rw [h.1, h.2]⟩
  rcases lt_trichotomy x y with hlt | rfl | hlt
  · exact absurd (ten_dvd_of_div_zpow_eq h hlt) hn
  · have hx : (10 : ℚ) ^ x ≠ 0 := zpow_ne_zero x (by norm_num)
    exact ⟨by exact_mod_cast (div_left_inj' hx).1 h, rfl⟩
  · exact absurd (ten_dvd_of_div_zpow_eq h.symm hlt) hm

/-- Two amounts have one normal form iff they have one value, but for the scales coming round. -/
theorem normalForm_eq_iff : a.normalForm = b.normalForm ↔ SameInRounds a.value b.value := by
  by_cases ha : a.unscaled = 0
  · rw [normalForm_eq_zero_iff.2 ha, value_eq_zero_iff.2 ha, sameInRounds_zero_left,
      value_eq_zero_iff, eq_comm, normalForm_eq_zero_iff]
  by_cases hb : b.unscaled = 0
  · rw [normalForm_eq_zero_iff.2 hb, value_eq_zero_iff.2 hb, sameInRounds_zero_right,
      value_eq_zero_iff, normalForm_eq_zero_iff]
  obtain ⟨m, hm, hvalue, hform⟩ := exists_normalForm_eq ha
  obtain ⟨n, hn, hvalue', hform'⟩ := exists_normalForm_eq hb
  have hround (k : ℤ) : (n / 10 ^ b.lowestScale * 10 ^ (k * scales) : ℚ) =
      n / 10 ^ (b.lowestScale - k * scales) := by
    rw [zpow_sub₀ (by norm_num), div_div_eq_mul_div, div_mul_eq_mul_div]
  rw [hform, hform', Prod.mk.injEq, bmod_scales_eq_iff, SameInRounds, hvalue, hvalue']
  simp only [hround, div_zpow_ten_eq_iff hm hn, exists_and_left]

/-- Below the scale without trailing zeros comes the greatest one. -/
def ComesRound (a : Amount) : Prop := a.unscaled ≠ 0 ∧ ¬ ScaleFits a.lowestScale

instance (a : Amount) : Decidable a.ComesRound := inferInstanceAs (Decidable (_ ∧ _))

theorem bmod_scales_of_fits {x : ℤ} (h : ScaleFits x) : x.bmod scales = x :=
  Int.bmod_eq_of_le h.1 h.2

theorem normalForm_eq_iff_value_eq (ha : ¬ a.ComesRound) (hb : ¬ b.ComesRound) :
    a.normalForm = b.normalForm ↔ a.value = b.value := by
  refine ⟨fun h => ?_, fun h => normalForm_eq_iff.2 (.of_eq h)⟩
  by_cases hzero : a.unscaled = 0
  · rw [normalForm_eq_zero_iff.2 hzero, eq_comm, normalForm_eq_zero_iff] at h
    rw [value_eq_zero_iff.2 hzero, value_eq_zero_iff.2 h]
  have hzero' : b.unscaled ≠ 0 := fun hzero' => hzero <| by
    rwa [normalForm_eq_zero_iff.2 hzero', normalForm_eq_zero_iff] at h
  obtain ⟨m, -, hvalue, hform⟩ := exists_normalForm_eq hzero
  obtain ⟨n, -, hvalue', hform'⟩ := exists_normalForm_eq hzero'
  rw [ComesRound, not_and_not_right] at ha hb
  rw [hform, hform', bmod_scales_of_fits (ha hzero), bmod_scales_of_fits (hb hzero'),
    Prod.mk.injEq] at h
  rw [hvalue, hvalue', h.1, h.2]

theorem lowestScale_eq_of_value_eq (ha : a.unscaled ≠ 0) (hb : b.unscaled ≠ 0)
    (h : a.value = b.value) : a.lowestScale = b.lowestScale := by
  obtain ⟨m, hm, hvalue, -⟩ := exists_normalForm_eq ha
  obtain ⟨n, hn, hvalue', -⟩ := exists_normalForm_eq hb
  rw [hvalue, hvalue', div_zpow_ten_eq_iff hm hn] at h
  exact h.2

theorem scaleFits_bmod (x : ℤ) : ScaleFits (x.bmod scales) :=
  ⟨Int.le_bmod (by decide), Int.bmod_lt (by decide)⟩

theorem scaleFits_snd_normalForm (a : Amount) : ScaleFits a.normalForm.2 := by
  by_cases h : a.unscaled = 0
  · rw [normalForm_eq_zero_iff.2 h]
    decide
  · obtain ⟨m, -, -, hform⟩ := exists_normalForm_eq h
    rw [hform]
    exact scaleFits_bmod _

def lowest (a : Amount) : Amount := ⟨a.normalForm.1, a.normalForm.2, a.scaleFits_snd_normalForm⟩

theorem trailingZeros_of_not_dvd {n : ℕ} (h : ¬ 10 ∣ n) : trailingZeros n = 0 := by
  have hzero : n ≠ 0 := fun hzero => h (hzero ▸ Nat.dvd_zero 10)
  obtain ⟨m, hm, -⟩ := exists_eq_mul_tenTo hzero
  by_contra hne
  obtain ⟨k, hk⟩ := Nat.exists_eq_add_one_of_ne_zero hne
  rw [hk, tenTo_succ, ← Nat.mul_assoc] at hm
  exact h ⟨m * tenTo k, by rw [Nat.mul_comm]; exact hm⟩

theorem normalForm_lowest (a : Amount) : a.lowest.normalForm = a.normalForm := by
  by_cases h : a.unscaled = 0
  · have hlowest : a.lowest.unscaled = 0 := congrArg Prod.fst (normalForm_eq_zero_iff.2 h)
    rw [normalForm_eq_zero_iff.2 h, normalForm_eq_zero_iff.2 hlowest]
  · obtain ⟨m, hten, -, hform⟩ := exists_normalForm_eq h
    have hunscaled : a.lowest.unscaled = m := congrArg Prod.fst hform
    have hscale : a.lowest.scale = a.lowestScale.bmod scales := congrArg Prod.snd hform
    have hzeros : trailingZeros a.lowest.unscaled.natAbs = 0 := by
      rw [hunscaled]
      exact trailingZeros_of_not_dvd (by omega)
    have hne : m ≠ 0 := fun hzero => hten (hzero ▸ Int.dvd_zero 10)
    rw [hform, normalForm, if_neg (hunscaled ▸ hne), hzeros, hunscaled, hscale]
    refine Prod.ext (Int.ediv_one m) ?_
    exact (congrArg (Int.bmod · scales) (Int.sub_zero _)).trans (Int.bmod_bmod ..)

theorem lowest_eq_iff : a.lowest = b.lowest ↔ a.normalForm = b.normalForm := by
  rw [lowest, lowest, mk.injEq, Prod.ext_iff]

/-- No two amounts in normal form have one text, since the value is read back from it. -/
theorem text_lowest_eq_iff : a.lowest.text = b.lowest.text ↔ a.normalForm = b.normalForm := by
  refine ⟨fun h => ?_, fun h => by rw [lowest_eq_iff.2 h]⟩
  have hread : some a.lowest.spelled = some b.lowest.spelled := by
    rw [← ofText?_text, ← ofText?_text, h]
  have hvalue : a.lowest.value = b.lowest.value := by
    rw [← value_spelled a.lowest, Option.some.inj hread, value_spelled]
  rw [← normalForm_lowest a, ← normalForm_lowest b]
  exact normalForm_eq_iff.2 (.of_eq hvalue)

end Payables.Amount
