import Payables.Proofs.Text.Trimming

/-!
# Upper case and references

Upper case goes character by character, and white space has none, so the normal form of a reference
is its upper case without the separators: it need not be trimmed, and the form of a text is made of
the forms of its parts.
-/

namespace Payables.Text

theorem upper_append (s t : List Char) : upper (s ++ t) = upper s ++ upper t :=
  List.flatMap_append

theorem forall_ascii {P : Char → Prop} (h : ∀ n < 128, P (Char.ofNat n)) {c : Char}
    (hc : c.toNat < 128) : P c :=
  Char.ofNat_toNat c ▸ h c.toNat hc

theorem lt_of_isAsciiAlphanumeric {c : Char} (h : isAsciiAlphanumeric c = true) :
    c.toNat < 128 := by
  have hkinds : isAsciiAlphanumeric c = (decide (65 ≤ c.val ∧ c.val ≤ 90) ||
      (decide (97 ≤ c.val) && decide (c.val ≤ 122)) ||
        (decide (48 ≤ c.val) && decide (c.val ≤ 57))) := rfl
  rw [hkinds] at h
  simp only [Bool.or_eq_true, Bool.and_eq_true, decide_eq_true_eq, UInt32.le_iff_toNat_le] at h
  change ((65 ≤ c.toNat ∧ c.toNat ≤ 90) ∨ (97 ≤ c.toNat ∧ c.toNat ≤ 122)) ∨
    (48 ≤ c.toNat ∧ c.toNat ≤ 57) at h
  omega

def IsUpper (c : Char) : Prop := upperChar c = [c]

instance (c : Char) : Decidable (IsUpper c) := inferInstanceAs (Decidable (_ = _))

/-- All letters of the tables but the small letters of ASCII lie beyond ASCII. -/
theorem upperChar_of_ascii {c : Char} (hc : c.toNat < 128) : upperChar c = [asciiUpper c] := by
  have hexpansions : ∀ e ∈ upperExpansions, 128 ≤ e.1 := by decide +kernel
  have hranges : ∀ r ∈ upperRanges.tail, 128 ≤ r.first := by decide +kernel
  have hlookup : upperExpansions.lookup c.toNat = none := by
    refine List.lookup_eq_none_iff.2 fun e he => ?_
    have hcode := hexpansions e he
    rw [bne_iff_ne]
    omega
  have hfind : upperRanges.tail.find? (·.covers c.toNat) = none := by
    refine List.find?_eq_none.2 fun r hr => ?_
    have hfirst := hranges r hr
    simp only [CaseRange.covers, Bool.and_eq_true, decide_eq_true_eq, not_and]
    omega
  have hupper : upperChar c = [Char.ofNat (mapCode [⟨0x61, 0x7A, 1, -32⟩] c.toNat)] := by
    have hsplit : upperRanges = ⟨0x61, 0x7A, 1, -32⟩ :: upperRanges.tail := rfl
    rw [upperChar, hlookup, mapCode, mapCode, hsplit, List.find?_cons, List.find?_cons, hfind]
    rfl
  rw [hupper]
  refine forall_ascii (P := fun c =>
    [Char.ofNat (mapCode [⟨0x61, 0x7A, 1, -32⟩] c.toNat)] = [asciiUpper c]) ?_ hc
  decide +kernel

theorem isUpper_asciiUpper {c : Char} (hc : c.toNat < 128) : IsUpper (asciiUpper c) := by
  have hupper : (asciiUpper c).toNat < 128 ∧ asciiUpper (asciiUpper c) = asciiUpper c := by
    refine forall_ascii (P := fun c => (asciiUpper c).toNat < 128 ∧
      asciiUpper (asciiUpper c) = asciiUpper c) ?_ hc
    decide +kernel
  rw [IsUpper, upperChar_of_ascii hupper.1, hupper.2]

theorem asciiUpper_eq_self {c : Char} (h : isAsciiAlphanumeric c = false) : asciiUpper c = c := by
  by_cases hc : c.toNat < 128
  · refine forall_ascii (P := fun c => isAsciiAlphanumeric c = false → asciiUpper c = c) ?_ hc h
    decide +kernel
  · have hsmall : ¬ (97 ≤ c.val ∧ c.val ≤ 122) := by
      rw [UInt32.le_iff_toNat_le, UInt32.le_iff_toNat_le]
      change ¬ (97 ≤ c.toNat ∧ c.toNat ≤ 122)
      omega
    exact dif_neg hsmall

theorem isUpper_of_ascii {c : Char} (hc : c.toNat < 128) (h : isAsciiAlphanumeric c = false) :
    IsUpper c := by
  rw [IsUpper, upperChar_of_ascii hc, asciiUpper_eq_self h]

theorem isUpper_of_isBlank {c : Char} (h : isBlank c = true) : IsUpper c :=
  forall_isBlank (P := IsUpper) (by decide +kernel) h

theorem upper_eq_map {f : Char → Char} {s : List Char} (h : ∀ c ∈ s, upperChar c = [f c]) :
    upper s = s.map f := by
  induction s with
  | nil => rfl
  | cons c cs ih =>
    obtain ⟨hc, hcs⟩ := List.forall_mem_cons.1 h
    rw [upper, List.flatMap_cons, hc, List.singleton_append]
    exact congrArg (f c :: ·) (ih hcs)

theorem upper_of_isUpper {s : List Char} (h : ∀ c ∈ s, IsUpper c) : upper s = s :=
  (upper_eq_map h).trans (List.map_id' s)

theorem referenceChars_append (s t : List Char) :
    referenceChars (s ++ t) = referenceChars s ++ referenceChars t := by
  rw [referenceChars, upper_append, List.filter_append, referenceChars, referenceChars]

theorem referenceChars_of_isBlank {s : List Char} (h : ∀ c ∈ s, isBlank c = true) :
    referenceChars s = [] := by
  rw [referenceChars, upper_of_isUpper fun c hc => isUpper_of_isBlank (h c hc),
    List.filter_eq_nil_iff]
  intro c hc
  simp [isReferenceSeparator, h c hc]

theorem referenceChars_trim (s : List Char) : referenceChars (trim s) = referenceChars s := by
  obtain ⟨before, after, hs, hbefore, hafter⟩ := exists_blanks_around_trim s
  generalize trim s = t at hs
  rw [hs, referenceChars_append, referenceChars_append, referenceChars_of_isBlank hbefore,
    referenceChars_of_isBlank hafter, List.nil_append, List.append_nil]

theorem toList_referenceForm (s : String) :
    (referenceForm s).toList = referenceChars s.toList := by
  rw [referenceForm, String.toList_ofList, referenceChars_trim]

theorem referenceForm_trimmed (s : String) : referenceForm (trimmed s) = referenceForm s := by
  rw [← String.toList_inj, toList_referenceForm, toList_referenceForm, toList_trimmed,
    referenceChars_trim]

end Payables.Text
