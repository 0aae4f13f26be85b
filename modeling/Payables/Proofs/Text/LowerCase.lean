import Payables.Proofs.Text.Numeral
import Payables.Text.Blank
import Payables.Text.Case

/-!
# Lower case

Lower case makes no text empty, and below the small letters of ASCII it makes no character: digits,
spaces and marks stand in the lower case of a text iff they stand in the text
(`mem_lower_iff_of_isDigit` for the digits). What is its own lower case stays where it is.
-/

namespace Payables.Text

variable {c d : Char} {s t before : List Char}

/-- A character that is its own lower case everywhere. -/
def IsLower (c : Char) : Prop := c ≠ 'Σ' ∧ lowerChar c = [c]

instance (c : Char) : Decidable (IsLower c) := inferInstanceAs (Decidable (_ ∧ _))

theorem lowerAfter_of_isLower (ht : ∀ c ∈ t, IsLower c) (before : List Char) :
    lowerAfter before t = t := by
  induction t generalizing before with
  | nil => rfl
  | cons c t ih =>
    obtain ⟨⟨hsigma, hlower⟩, ht⟩ := List.forall_mem_cons.1 ht
    rw [lowerAfter, if_neg hsigma, hlower, ih ht, List.singleton_append]

theorem exists_lowerAfter_append (ht : ∀ c ∈ t, IsLower c) (before s : List Char) :
    ∃ u, lowerAfter before (s ++ t) = u ++ t := by
  induction s generalizing before with
  | nil => exact ⟨[], lowerAfter_of_isLower ht before⟩
  | cons c s ih =>
    obtain ⟨u, hu⟩ := ih (c :: before)
    rw [List.cons_append, lowerAfter, hu, ← List.append_assoc]
    exact ⟨_, rfl⟩

theorem mem_lowerAfter (hc : IsLower c) (h : c ∈ t) (before : List Char) :
    c ∈ lowerAfter before t := by
  induction t generalizing before with
  | nil => cases h
  | cons d t ih =>
    rw [lowerAfter, List.mem_append]
    rcases List.mem_cons.1 h with rfl | h
    · rw [if_neg hc.1, hc.2]
      exact .inl List.mem_cons_self
    · exact .inr (ih h (d :: before))

theorem isLower_of_isDigit (h : c.isDigit = true) : IsLower c ∧ isBlank c = false :=
  forall_isDigit (P := fun c => IsLower c ∧ isBlank c = false) (by decide +kernel) h

theorem mapCode_cases (ranges : List CaseRange) (n : Nat) :
    (∃ r ∈ ranges, r.covers n = true ∧ mapCode ranges n = r.move n) ∨ mapCode ranges n = n := by
  unfold mapCode
  cases hfind : ranges.find? (·.covers n) with
  | some r =>
    have hcovers := List.find?_some hfind
    exact .inl ⟨r, List.mem_of_find?_eq_some hfind, hcovers, rfl⟩
  | none => exact .inr rfl

/-- Only the capitals of ASCII have a lower case as far down as the numerals. -/
theorem lowerRanges_above : ∀ r ∈ lowerRanges,
    r = ⟨0x41, 0x5A, 1, 32⟩ ∨ 101 < (r.first : Int) + r.shift := by
  decide +kernel

theorem toNat_ofNat_of_pos {n : Nat} (h : 0 < (Char.ofNat n).toNat) : (Char.ofNat n).toNat = n := by
  by_cases hvalid : n.isValidChar
  · have hchar : Char.ofNat n = Char.ofNatAux n hvalid := dif_pos hvalid
    rw [hchar]
    rfl
  · have hchar : Char.ofNat n = '\x00' := dif_neg hvalid
    rw [hchar] at h
    exact absurd h (by decide)

theorem cases_of_mem_lowerChar (h : d ∈ lowerChar c) (hpos : 0 < d.toNat) (hle : d.toNat ≤ 101) :
    d = c ∨ 65 ≤ c.toNat ∧ d.toNat = c.toNat + 32 := by
  unfold lowerChar at h
  split at h
  · rw [List.mem_cons, List.mem_singleton] at h
    rcases h with rfl | rfl <;> exact absurd hle (by decide)
  · obtain rfl := List.mem_singleton.1 h
    have hcode := toNat_ofNat_of_pos hpos
    rcases mapCode_cases lowerRanges c.toNat with ⟨r, hr, hcovers, hmove⟩ | hsame
    · have hfirst : r.first ≤ c.toNat := by
        simp only [CaseRange.covers, Bool.and_eq_true, decide_eq_true_eq] at hcovers
        exact hcovers.1.1
      rw [hcode, hmove, CaseRange.move] at hle ⊢
      rcases lowerRanges_above r hr with rfl | habove
      · exact .inr ⟨hfirst, Int.toNat_natCast (c.toNat + 32)⟩
      · omega
    · exact .inl (by rw [hsame, Char.ofNat_toNat])

theorem mem_of_mem_lowerAfter (h : d ∈ lowerAfter before s) (hpos : 0 < d.toNat)
    (hlt : d.toNat < 97) : d ∈ s := by
  induction s generalizing before with
  | nil => cases h
  | cons c s ih =>
    rw [lowerAfter, List.mem_append] at h
    rcases h with hhere | hrest
    · split at hhere
      · split at hhere <;> rw [List.mem_singleton.1 hhere] at hlt <;> exact absurd hlt (by decide)
      · rcases cases_of_mem_lowerChar hhere hpos (by omega) with rfl | ⟨hcapital, hcode⟩
        · exact List.mem_cons_self
        · omega
    · exact List.mem_cons_of_mem c (ih hrest)

theorem mem_lower_iff_of_isDigit (hd : d.isDigit = true) : d ∈ lower s ↔ d ∈ s := by
  have hcode : 0 < d.toNat ∧ d.toNat < 97 :=
    forall_isDigit (P := fun d => 0 < d.toNat ∧ d.toNat < 97) (by decide) hd
  exact ⟨fun h => mem_of_mem_lowerAfter h hcode.1 hcode.2,
    fun h => mem_lowerAfter (isLower_of_isDigit hd).1 h []⟩

theorem lowerChar_ne_nil (c : Char) : lowerChar c ≠ [] := by
  unfold lowerChar
  split <;> exact List.cons_ne_nil _ _

theorem lower_eq_nil_iff : lower s = [] ↔ s = [] := by
  cases s with
  | nil => exact iff_of_true rfl rfl
  | cons c s =>
    refine iff_of_false (fun h => ?_) (List.cons_ne_nil c s)
    rw [lower, lowerAfter, List.append_eq_nil_iff] at h
    split at h
    · split at h <;> exact absurd h.1 (List.cons_ne_nil _ _)
    · exact absurd h.1 (lowerChar_ne_nil c)

end Payables.Text
