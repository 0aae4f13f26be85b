import Mathlib.Data.List.Induction
import Payables.Number.Power
import Payables.Text.Numeral

/-!
# Numerals read back

The digits of a number are read back by `value`, whatever number of zeros stands before them, and a
number below a power of ten has as many digits as the exponent says, or fewer. What is true of the
ten digits is true of every digit (`forall_isDigit`). Numerals of one length are those that
`fixedWidth` writes of their values.
-/

namespace Payables.Text

theorem value_digits (n : Nat) : value (digits n) = n := Nat.ofDigitChars_ten_toDigits

theorem value_append (s t : List Char) : value (s ++ t) = tenTo t.length * value s + value t := by
  change Nat.ofDigitChars 10 (s ++ t) 0 =
    10 ^ t.length * Nat.ofDigitChars 10 s 0 + Nat.ofDigitChars 10 t 0
  rw [Nat.ofDigitChars_append, Nat.ofDigitChars_eq_ofDigitChars_zero]

theorem value_fixedWidth (width n : Nat) : value (fixedWidth width n) = n := by
  have hzeros (k : Nat) : value (List.replicate k '0') = 0 := Nat.ofDigitChars_replicate_zero
  rw [fixedWidth, value_append, hzeros, Nat.mul_zero, Nat.zero_add, value_digits]

theorem fixedWidth_inj {width m n : Nat} : fixedWidth width m = fixedWidth width n ↔ m = n := by
  constructor
  · intro h
    rw [← value_fixedWidth width m, h, value_fixedWidth]
  · intro h
    rw [h]

theorem isDigit_of_mem_digits {n : Nat} {c : Char} (h : c ∈ digits n) : c.isDigit = true :=
  Nat.isDigit_of_mem_toDigits (by decide) (by decide) h

theorem isDigit_of_mem_fixedWidth {width n : Nat} {c : Char} (h : c ∈ fixedWidth width n) :
    c.isDigit = true := by
  rcases List.mem_append.1 h with hzero | hdigit
  · rw [List.eq_of_mem_replicate hzero]
    rfl
  · exact isDigit_of_mem_digits hdigit

theorem length_digits_le_iff {n k : Nat} (hk : 0 < k) : (digits n).length ≤ k ↔ n < tenTo k :=
  Nat.length_toDigits_le_iff (by decide) hk

theorem length_digits_pos (n : Nat) : 0 < (digits n).length := Nat.length_toDigits_pos

theorem digits_ne_nil (n : Nat) : digits n ≠ [] := List.ne_nil_of_length_pos (length_digits_pos n)

theorem exists_isDigit_digits (n : Nat) : ∃ d ds, digits n = d :: ds ∧ d.isDigit = true := by
  obtain ⟨d, ds, hdigits⟩ := List.exists_cons_of_length_pos (length_digits_pos n)
  exact ⟨d, ds, hdigits, isDigit_of_mem_digits (hdigits ▸ List.mem_cons_self)⟩

/-- A number has no leading zeros. -/
theorem exists_digits_cons {n : Nat} (hn : 0 < n) :
    ∃ d ds, digits n = d :: ds ∧ d ≠ '0' := by
  induction n using Nat.strongRecOn with
  | ind n ih =>
    by_cases hlt : n < 10
    · have hchar : ∀ m < 10, 0 < m → Nat.digitChar m ≠ '0' := by decide
      exact ⟨n.digitChar, [], Nat.toDigits_of_lt_base hlt, hchar n hlt hn⟩
    · obtain ⟨d, ds, hdigits, hd⟩ := ih (n / 10) (by omega) (by omega)
      refine ⟨d, ds ++ [(n % 10).digitChar], ?_, hd⟩
      rw [digits, Nat.toDigits_of_base_le (by decide) (by omega), ← digits, hdigits,
        List.cons_append]

theorem length_fixedWidth {width n : Nat} (hwidth : 0 < width) (h : n < tenTo width) :
    (fixedWidth width n).length = width := by
  have hle := (length_digits_le_iff hwidth).2 h
  rw [fixedWidth, List.length_append, List.length_replicate]
  omega

theorem forall_isDigit {P : Char → Prop} (h : ∀ n < 10, P (Char.ofNat (48 + n))) {c : Char}
    (hc : c.isDigit = true) : P c := by
  have hcode : 48 ≤ c.toNat ∧ c.toNat ≤ 57 := by
    simpa [Char.isDigit, UInt32.le_iff_toNat_le] using hc
  have heq : c = Char.ofNat (48 + (c.toNat - 48)) := by
    rw [Nat.add_sub_cancel' hcode.1, Char.ofNat_toNat]
  rw [heq]
  exact h _ (by omega)

theorem digitValue_lt {c : Char} (hc : c.isDigit = true) : digitValue c < 10 :=
  forall_isDigit (P := fun c => digitValue c < 10) (by decide) hc

theorem eq_of_digitValue_eq {c d : Char} (hc : c.isDigit = true) (hd : d.isDigit = true)
    (h : digitValue c = digitValue d) : c = d := by
  have hback : ∀ {c : Char}, c.isDigit = true → Char.ofNat (48 + digitValue c) = c :=
    forall_isDigit (P := fun c => Char.ofNat (48 + digitValue c) = c) (by decide)
  rw [← hback hc, h, hback hd]

theorem value_concat (s : List Char) (c : Char) : value (s ++ [c]) = 10 * value s + digitValue c :=
  List.foldl_append ..

theorem value_lt_tenTo {s : List Char} (h : ∀ c ∈ s, c.isDigit = true) :
    value s < tenTo s.length := by
  induction s using List.reverseRecOn with
  | nil => decide
  | append_singleton s c ih =>
    rw [List.forall_mem_append, List.forall_mem_singleton] at h
    have hs := ih h.1
    have hc := digitValue_lt h.2
    rw [value_concat, List.length_append, List.length_singleton, tenTo_succ]
    omega

theorem eq_of_value_eq {s t : List Char} (hs : ∀ c ∈ s, c.isDigit = true)
    (ht : ∀ c ∈ t, c.isDigit = true) (hlength : s.length = t.length) (h : value s = value t) :
    s = t := by
  induction s using List.reverseRecOn generalizing t with
  | nil => exact (List.eq_nil_of_length_eq_zero hlength.symm).symm
  | append_singleton s c ih =>
    rcases List.eq_nil_or_concat t with rfl | ⟨t, d, rfl⟩
    · simp at hlength
    rw [List.concat_eq_append] at ht hlength h ⊢
    rw [List.forall_mem_append, List.forall_mem_singleton] at hs ht
    rw [value_concat, value_concat] at h
    have hc := digitValue_lt hs.2
    have hd := digitValue_lt ht.2
    have hlength : s.length = t.length := by simpa using hlength
    rw [ih hs.1 ht.1 hlength (by omega), eq_of_digitValue_eq hs.2 ht.2 (by omega)]

theorem fixedWidth_value {s : List Char} (h : ∀ c ∈ s, c.isDigit = true) (hpos : 0 < s.length) :
    fixedWidth s.length (value s) = s :=
  eq_of_value_eq (fun _ => isDigit_of_mem_fixedWidth) h (length_fixedWidth hpos (value_lt_tenTo h))
    (value_fixedWidth ..)

end Payables.Text
