import Payables.Proofs.Amount.NormalForm
import Payables.Proofs.Amount.RoundTrip

/-!
# Amounts told from words

A numeral is read as it stands (`readChars?_ofSign`), in either case of its exponent mark. So
words whose normal form is the text of an amount show an amount themselves, and no text stands both
for an amount and for words that show none.
-/

namespace Payables

open Text

namespace Amount

def IsNumeralChar (c : Char) : Prop := c.isDigit = true ∨ c ∈ ['-', '+', '.', 'e', 'E']

theorem forall_isNumeralChar {P : Char → Prop} (hdigit : ∀ n < 10, P (Char.ofNat (48 + n)))
    (hmark : P '-' ∧ P '+' ∧ P '.' ∧ P 'e' ∧ P 'E') {c : Char} (hc : IsNumeralChar c) : P c := by
  refine hc.elim (forall_isDigit hdigit) fun hmem => ?_
  simp only [List.mem_cons, List.not_mem_nil, or_false] at hmem
  obtain ⟨hminus, hplus, hpoint, he, hE⟩ := hmark
  rcases hmem with rfl | rfl | rfl | rfl | rfl
  · exact hminus
  · exact hplus
  · exact hpoint
  · exact he
  · exact hE

/-- Digits and marks that begin and end with a digit. -/
structure IsNumeral (s : List Char) : Prop where
  head : ∃ c cs, s = c :: cs ∧ c.isDigit = true
  last : ∃ cs c, s = cs ++ [c] ∧ c.isDigit = true
  chars : ∀ c ∈ s, IsNumeralChar c

theorem isNumeral_of_digits {ds : List Char} (hne : ds ≠ []) (hds : ∀ c ∈ ds, c.isDigit = true) :
    IsNumeral ds where
  head := by
    obtain ⟨c, cs, rfl⟩ := List.exists_cons_of_ne_nil hne
    exact ⟨c, cs, rfl, hds c List.mem_cons_self⟩
  last := by
    obtain ⟨cs, c, rfl⟩ := (List.eq_nil_or_concat ds).resolve_left hne
    exact ⟨cs, c, List.concat_eq_append, hds c (by simp)⟩
  chars c hc := .inl (hds c hc)

theorem isNumeral_digits (n : ℕ) : IsNumeral (digits n) :=
  isNumeral_of_digits (digits_ne_nil n) fun _ => isDigit_of_mem_digits

theorem IsNumeral.append {s marks t : List Char} (hs : IsNumeral s)
    (hmarks : ∀ c ∈ marks, IsNumeralChar c) (ht : IsNumeral t) : IsNumeral (s ++ (marks ++ t)) where
  head := by
    obtain ⟨c, cs, rfl, hc⟩ := hs.head
    exact ⟨c, cs ++ (marks ++ t), rfl, hc⟩
  last := by
    obtain ⟨cs, c, rfl, hc⟩ := ht.last
    exact ⟨s ++ (marks ++ cs), c, by simp, hc⟩
  chars c hc := by
    rw [List.mem_append, List.mem_append] at hc
    rcases hc with hc | hc | hc
    · exact hs.chars c hc
    · exact hmarks c hc
    · exact ht.chars c hc

theorem isNumeral_pointed {ds fs : List Char} (hne : ds ≠ []) (hds : ∀ c ∈ ds, c.isDigit = true)
    (hne' : fs ≠ []) (hfs : ∀ c ∈ fs, c.isDigit = true) : IsNumeral (ds ++ '.' :: fs) := by
  have hpoint : ∀ c ∈ ['.'], IsNumeralChar c := by simp [IsNumeralChar]
  exact (isNumeral_of_digits hne hds).append hpoint (isNumeral_of_digits hne' hfs)

theorem isNumeral_magnitudeChars (n : ℕ) (scale : ℤ) : IsNumeral (magnitudeChars n scale) := by
  have hds : ∀ c ∈ digits n, c.isDigit = true := fun c hc => isDigit_of_mem_digits hc
  have hne := digits_ne_nil n
  rw [magnitudeChars]
  dsimp only
  split_ifs with hlarge hwhole hsmall hlong
  · rw [List.append_assoc]
    exact (isNumeral_digits n).append (by simp [IsNumeralChar]) (isNumeral_digits _)
  · refine isNumeral_of_digits (List.append_ne_nil_of_left_ne_nil hne _) fun c hc => ?_
    exact (List.mem_append.1 hc).elim (hds c) isDigit_of_mem_zeros
  · have hexponent : ∀ c ∈ ['E', '-'], IsNumeralChar c := by simp [IsNumeralChar]
    split
    · rename_i d e es heq
      obtain ⟨hd, hes⟩ := List.forall_mem_cons.1 (heq ▸ hds)
      have hbase : IsNumeral ([d] ++ '.' :: e :: es) :=
        isNumeral_pointed (List.cons_ne_nil d []) (by simpa using hd) (List.cons_ne_nil e es) hes
      exact hbase.append hexponent (isNumeral_digits _)
    · exact (isNumeral_digits n).append hexponent (isNumeral_digits _)
  · have htake : (digits n).take ((digits n).length - scale.toNat) ≠ [] := by
      rw [Ne, List.take_eq_nil_iff, not_or]
      exact ⟨by omega, hne⟩
    have hdrop : (digits n).drop ((digits n).length - scale.toNat) ≠ [] := by
      rw [Ne, List.drop_eq_nil_iff]
      omega
    exact isNumeral_pointed htake (fun c hc => hds c (List.mem_of_mem_take hc)) hdrop
      fun c hc => hds c (List.mem_of_mem_drop hc)
  · refine isNumeral_pointed (List.cons_ne_nil '0' []) isDigit_of_mem_zero
      (List.append_ne_nil_of_right_ne_nil _ hne) fun c hc => ?_
    exact (List.mem_append.1 hc).elim isDigit_of_mem_zeros (hds c)

def smallMark (c : Char) : Char := if c = 'E' then 'e' else c

theorem isExponentMark_smallMark (c : Char) :
    isExponentMark (smallMark c) = isExponentMark c := by
  unfold smallMark
  split
  · simp_all [isExponentMark]
  · rfl

theorem smallMark_of_not_isExponentMark {c : Char} (h : isExponentMark c = false) :
    smallMark c = c := by
  refine if_neg ?_
  rintro rfl
  cases h

theorem map_smallMark_of_forall {s : List Char} (h : ∀ c ∈ s, isExponentMark c = false) :
    s.map smallMark = s := by
  conv_rhs => rw [← List.map_id s]
  exact List.map_congr_left fun c hc => smallMark_of_not_isExponentMark (h c hc)

/-- An exponent has no mark of its own. -/
theorem readInt?_eq_none {s : List Char} {c : Char} (hc : c ∈ s) (h : isExponentMark c = true) :
    readInt? s = none := by
  have hdigit : isDigit c = false := by
    by_contra hdigit
    simp [isExponentMark_of_isDigit (Bool.eq_true_of_not_eq_false hdigit)] at h
  have hsign : c ≠ '-' ∧ c ≠ '+' := by
    constructor <;> rintro rfl <;> cases h
  have hnone {body : List Char} (hmem : c ∈ body) : (body.isEmpty || !body.all isDigit) = true := by
    rw [Bool.or_eq_true, Bool.not_eq_true', List.all_eq_false]
    exact .inr ⟨c, hmem, by simp [hdigit]⟩
  unfold readInt?
  split
  rename_i negative body heq
  split at heq <;> obtain ⟨rfl, rfl⟩ := Prod.mk.inj heq
  · exact if_pos (hnone ((List.mem_cons.1 hc).resolve_left hsign.1))
  · exact if_pos (hnone ((List.mem_cons.1 hc).resolve_left hsign.2))
  · exact if_pos (hnone hc)

theorem readInt?_map_smallMark (s : List Char) : readInt? (s.map smallMark) = readInt? s := by
  by_cases h : ∀ c ∈ s, isExponentMark c = false
  · rw [map_smallMark_of_forall h]
  · obtain ⟨c, hc, hmark⟩ := not_forall₂.1 h
    have hmark' : isExponentMark c = true := Bool.eq_true_of_not_eq_false hmark
    rw [readInt?_eq_none hc hmark', readInt?_eq_none (List.mem_map_of_mem hc)]
    rw [isExponentMark_smallMark, hmark']

theorem ofChars?_map_smallMark (s : List Char) : ofChars? (s.map smallMark) = ofChars? s := by
  have hmarks : (fun c => !isExponentMark c) ∘ smallMark = fun c => !isExponentMark c :=
    funext fun c => congrArg not (isExponentMark_smallMark c)
  have hbase : (s.takeWhile (!isExponentMark ·)).map smallMark = s.takeWhile (!isExponentMark ·) :=
    map_smallMark_of_forall fun c hc => by simpa using List.mem_takeWhile_imp hc
  rw [ofChars?, ofChars?, List.takeWhile_map, List.dropWhile_map, hmarks, hbase]
  cases s.dropWhile (!isExponentMark ·) with
  | nil => rfl
  | cons c r => simp only [List.map_cons, readInt?_map_smallMark]

end Amount

namespace AmountFormat

open Amount

theorem isApart_default : IsApart {} := isApart_of_checkMarks rfl

theorem bare_of_isNumeralChar {c : Char} (hc : IsNumeralChar c) : bare {} c = [c] :=
  forall_isNumeralChar (P := fun c => bare {} c = [c]) (by decide) (by decide) hc

variable {t : List Char}

theorem plainMinus_of_isNumeralChar {c : Char} (hc : IsNumeralChar c) : plainMinus c = c :=
  forall_isNumeralChar (P := fun c => plainMinus c = c) (by decide) (by decide) hc

theorem readChars?_ofSign (h : IsNumeral t) (negative : Bool) :
    readChars? {} (if negative then '-' :: t else t) =
      if negative then (ofChars? t).map negatedMagnitude else ofChars? t := by
  have hundressed : IsUndressed t :=
    ⟨h.head, h.last, fun c hc => plainMinus_of_isNumeralChar (h.chars c hc)⟩
  have hread := readChars?_around isApart_default hundressed (.ofSign negative)
  rwa [Decoration.around_ofSign, Decoration.isNegative_ofSign,
    flatMap_eq_self fun c hc => bare_of_isNumeralChar (h.chars c hc)] at hread

theorem readChars?_trim (f : AmountFormat) (cell : List Char) :
    f.readChars? (trim cell) = f.readChars? cell := by
  rw [readChars?, trim_trim, readChars?]

end AmountFormat

namespace Amount

theorem isSome_ofChars?_magnitude (n : ℕ) {scale : ℤ} (h : ScaleFits scale) :
    (ofChars? (magnitudeChars n scale)).isSome = true := by
  have hread := ofChars?_magnitude false n scale
  rw [signChars, if_neg Bool.false_ne_true, List.nil_append] at hread
  rw [hread]
  split
  · exact congrArg Option.isSome (of?_of_fits (by decide))
  · exact congrArg Option.isSome (of?_of_fits h)

theorem exists_chars_eq (a : Amount) : ∃ (negative : Bool) (n : ℕ) (scale : ℤ),
    a.chars = signChars negative ++ magnitudeChars n scale ∧ ScaleFits scale := by
  by_cases hzero : a.unscaled = 0
  · exact ⟨false, 0, 0, if_pos hzero, by decide⟩
  · exact ⟨_, _, _, chars_eq hzero, a.scaleFits⟩

theorem isDigit_smallMark (c : Char) : (smallMark c).isDigit = c.isDigit := by
  unfold smallMark
  split
  · simp_all
  · rfl

theorem isNumeralChar_of_smallMark {c : Char} (h : IsNumeralChar (smallMark c)) :
    IsNumeralChar c := by
  unfold smallMark at h
  split at h
  · simp_all [IsNumeralChar]
  · exact h

theorem isNumeral_of_map_smallMark {t : List Char} (h : IsNumeral (t.map smallMark)) :
    IsNumeral t where
  head := by
    obtain ⟨c, cs, heq, hc⟩ := h.head
    obtain ⟨d, ds, rfl, rfl, -⟩ := List.map_eq_cons_iff.1 heq
    exact ⟨d, ds, rfl, by rwa [isDigit_smallMark] at hc⟩
  last := by
    obtain ⟨cs, c, heq, hc⟩ := h.last
    obtain ⟨ds, es, rfl, -, hes⟩ := List.map_eq_append_iff.1 heq
    obtain ⟨d, rfl, rfl⟩ := List.map_eq_singleton_iff.1 hes
    exact ⟨ds, d, rfl, by rwa [isDigit_smallMark] at hc⟩
  chars c hc := isNumeralChar_of_smallMark (h.chars _ (List.mem_map_of_mem hc))

theorem isSome_readChars?_of_map_smallMark {a : Amount} {t : List Char}
    (h : t.map smallMark = a.chars) : (AmountFormat.readChars? {} t).isSome = true := by
  obtain ⟨negative, n, scale, hchars, hfits⟩ := a.exists_chars_eq
  have hnumeral {u : List Char} (hu : u.map smallMark = magnitudeChars n scale) :
      IsNumeral u ∧ (ofChars? u).isSome = true := by
    refine ⟨isNumeral_of_map_smallMark (hu ▸ isNumeral_magnitudeChars n scale), ?_⟩
    rw [← ofChars?_map_smallMark, hu]
    exact isSome_ofChars?_magnitude n hfits
  rw [hchars] at h
  cases negative with
  | false =>
    obtain ⟨hu, hread⟩ := hnumeral h
    exact AmountFormat.readChars?_ofSign hu false ▸ hread
  | true =>
    obtain ⟨c, u, rfl, hc, h⟩ := List.map_eq_cons_iff.1 h
    have hminus : c = '-' := by
      unfold smallMark at hc
      split at hc
      · cases hc
      · exact hc
    obtain ⟨hu, hread⟩ := hnumeral h
    have hsigned := AmountFormat.readChars?_ofSign hu true
    rw [if_pos rfl, if_pos rfl] at hsigned
    rwa [hminus, hsigned, Option.isSome_map]

end Amount

namespace Text

open Amount

theorem code_of_isNumeralChar {c : Char} (hc : IsNumeralChar c) :
    0 < c.toNat ∧ c.toNat ≤ 101 ∧ (97 ≤ c.toNat → c = 'e') :=
  forall_isNumeralChar (P := fun c => 0 < c.toNat ∧ c.toNat ≤ 101 ∧ (97 ≤ c.toNat → c = 'e'))
    (by decide) (by decide) hc

theorem lowerChar_of_isNumeralChar {c : Char} (h : ∀ d ∈ lowerChar c, IsNumeralChar d) :
    lowerChar c = [smallMark c] := by
  by_cases hi : c = 'İ'
  · subst hi
    exact absurd (code_of_isNumeralChar (h 'i' (by decide))).2.1 (by decide)
  obtain ⟨d, hd⟩ : ∃ d, lowerChar c = [d] := ⟨_, if_neg hi⟩
  have hmem : d ∈ lowerChar c := hd ▸ List.mem_cons_self
  obtain ⟨hpos, hle, hsmall⟩ := code_of_isNumeralChar (h d hmem)
  rw [hd]
  rcases cases_of_mem_lowerChar hmem hpos hle with rfl | ⟨hcapital, hcode⟩
  · have hmark : d ≠ 'E' := by
      rintro rfl
      exact absurd hd (by decide +kernel)
    rw [smallMark, if_neg hmark]
  · obtain rfl := hsmall (by omega)
    have hE : c = 'E' := Char.toNat_inj.1 (Nat.add_right_cancel hcode.symm)
    rw [smallMark, if_pos hE]

theorem map_smallMark_of_lowerAfter {t before : List Char}
    (h : ∀ c ∈ lowerAfter before t, IsNumeralChar c) : t.map smallMark = lowerAfter before t := by
  induction t generalizing before with
  | nil => rfl
  | cons c t ih =>
    rw [lowerAfter] at h ⊢
    obtain ⟨hhere, hrest⟩ := List.forall_mem_append.1 h
    by_cases hsigma : c = 'Σ'
    · rw [if_pos hsigma] at hhere
      split at hhere <;>
        exact absurd (code_of_isNumeralChar (hhere _ List.mem_cons_self)).2.1 (by decide)
    · rw [if_neg hsigma] at hhere ⊢
      rw [lowerChar_of_isNumeralChar hhere, ← ih hrest, List.map_cons, List.singleton_append]

end Text

theorem Amount.isNumeralChar_of_mem_chars {a : Amount} {c : Char} (h : c ∈ a.chars) :
    IsNumeralChar c := by
  obtain ⟨negative, n, scale, hchars, -⟩ := a.exists_chars_eq
  rw [hchars, List.mem_append] at h
  rcases h with h | h
  · cases negative with
    | false => cases h
    | true => exact .inr (List.mem_singleton.1 h ▸ by simp)
  · exact (isNumeral_magnitudeChars n scale).chars c h

/-- Words whose normal form is the text of an amount are not words alone. -/
theorem isSome_read?_of_headerForm_eq {cell : String} {a : Amount} (h : headerForm cell = a.text) :
    (AmountFormat.read? {} cell).isSome = true := by
  have hchars : (headerForm cell).toList = a.chars := by rw [h, Amount.text, String.toList_ofList]
  have hnumerals : ∀ c ∈ (headerForm cell).toList, Amount.IsNumeralChar c := fun c hc =>
    Amount.isNumeralChar_of_mem_chars (hchars ▸ hc)
  have hspace : ' ' ∉ (headerForm cell).toList := fun hmem => by
    simpa [Amount.IsNumeralChar] using hnumerals ' ' hmem
  rw [toList_headerForm_eq hspace] at hchars hnumerals
  rw [AmountFormat.read?, ← AmountFormat.readChars?_trim]
  exact Amount.isSome_readChars?_of_map_smallMark
    ((map_smallMark_of_lowerAfter hnumerals).trans hchars)

end Payables
