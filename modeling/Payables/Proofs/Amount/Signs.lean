import Payables.Proofs.Amount.Words

/-!
# Signs around an amount

A text that shows an amount shows its negated magnitude in parentheses, and behind a minus too if it
does not start with one (`read?_negated`). This holds under any marks and for every text that has no
parentheses around it, also if the amount is negative already.
-/

namespace Payables.AmountFormat

open Text Amount

variable {f : AmountFormat} {s t : List Char} {a : Amount}

theorem withSign_of_readChars? (h : f.readChars? t = some a)
    (hbare : ¬ ∃ inner, trim t = '(' :: (inner ++ [')'])) :
    trim t ≠ [] ∧ f.withSign false ((trim t).map plainMinus) = some a := by
  rw [readChars?_eq, enclosed?_map_plainMinus hbare] at h
  split at h
  · cases h
  · rename_i hshown
    exact ⟨fun hnil => hshown (.inl (by rw [hnil]; rfl)), h⟩

theorem readChars?_in_parens (h : f.readChars? t = some a)
    (hbare : ¬ ∃ inner, trim t = '(' :: (inner ++ [')'])) :
    f.readChars? ('(' :: (t ++ [')'])) = some a.negatedMagnitude := by
  have hnone : ∀ c ∈ ([] : List Char), isBlank c = true := List.forall_mem_nil _
  have hread := readChars?_parens (f := f) hnone hnone t
  rw [withSign_true, (withSign_of_readChars? h hbare).2, List.append_nil, List.nil_append] at hread
  exact hread

/-- Behind a minus stands a placeholder only if nothing or a minus follows. -/
theorem not_isPlaceholder_minus (hne : s ≠ []) (hminus : s ≠ ['-']) :
    isPlaceholder ('-' :: s) = false := by
  have hlower : lower ('-' :: s) = '-' :: lowerAfter ['-'] s := by
    have hself : IsLower '-' := by decide +kernel
    rw [lower, lowerAfter, if_neg hself.1, hself.2, List.singleton_append]
  rw [isPlaceholder, hlower, List.contains_eq_mem, decide_eq_false_iff_not]
  intro hmem
  have hrest : lowerAfter ['-'] s = [] ∨ lowerAfter ['-'] s = ['-'] := by
    simpa [placeholders] using hmem
  have hnumeral : ∀ c ∈ lowerAfter ['-'] s, IsNumeralChar c := by
    rcases hrest with hrest | hrest <;> simp [hrest, IsNumeralChar]
  rw [← map_smallMark_of_lowerAfter hnumeral] at hrest
  rcases hrest with hrest | hrest
  · exact hne (List.map_eq_nil_iff.1 hrest)
  · obtain ⟨c, rfl, hc⟩ := List.map_eq_singleton_iff.1 hrest
    refine hminus ?_
    unfold smallMark at hc
    split at hc
    · cases hc
    · rw [hc]

theorem readChars?_behind_minus (h : f.readChars? t = some a)
    (hbare : ¬ ∃ inner, trim t = '(' :: (inner ++ [')']))
    (hhead : ∀ c ∈ (trim t).head?, c ≠ '-' ∧ c ≠ '\u2212') :
    f.readChars? ('-' :: t) = some a.negatedMagnitude := by
  obtain ⟨hne, hread⟩ := withSign_of_readChars? h hbare
  obtain ⟨before, htrim, hbefore⟩ := exists_trim_cons (c := '-') (by decide) hne
  have hfirst : ∀ c ∈ ((trim t).map plainMinus).head?, c ≠ '-' ∧ isBlank c = false := by
    intro c hc
    rw [List.head?_map, Option.mem_map] at hc
    obtain ⟨b, hb, rfl⟩ := hc
    obtain ⟨hminus, hother⟩ := hhead b hb
    rw [isBlank_plainMinus]
    exact ⟨by rwa [plainMinus, if_neg hother], isBlank_of_mem_head?_trim hb⟩
  have hplain : (trim ('-' :: t)).map plainMinus = '-' :: (before ++ (trim t).map plainMinus) := by
    rw [htrim, List.map_cons, List.map_append,
      map_plainMinus_of_forall fun c hc => plainMinus_of_isBlank (hbefore c hc)]
    rfl
  have hne' : (trim t).map plainMinus ≠ [] := by simpa using hne
  generalize (trim t).map plainMinus = s at *
  have hnot : '-' ∉ s.head? := fun hc => (hfirst _ hc).1 rfl
  have hplaceholder : isPlaceholder ('-' :: (before ++ s)) = false := by
    apply not_isPlaceholder_minus (List.append_ne_nil_of_right_ne_nil _ hne')
    intro heq
    rcases List.append_eq_singleton_iff.1 heq with ⟨-, rfl⟩ | ⟨-, hnil⟩
    · exact hnot rfl
    · exact hne' hnil
  have hunsigned : f.unsigned? s = some a := by
    rwa [withSign_of_ne hnot, if_neg Bool.false_ne_true] at hread
  have hstart : trimStart (before ++ s) = s :=
    dropWhile_append_of_stop hbefore fun c hc => (hfirst c hc).2
  have hbare' : enclosed? ('-' :: (before ++ s)) = none := enclosed?_eq_none_iff.2 (by simp)
  rw [readChars?_bare hplain (List.cons_ne_nil _ _) hplaceholder hbare', withSign_minus, hstart,
    hunsigned]
  rfl

/-- What shows an amount shows its negated magnitude in parentheses, unless it has them already, and
behind a minus, unless it starts with one. -/
theorem read?_negated (f : AmountFormat) (t : String) {a : Amount} (h : f.read? t = some a)
    (hbare : ¬ ∃ inner, trim t.toList = '(' :: (inner ++ [')'])) :
    (∃ b, f.read? ("(" ++ t ++ ")") = some b ∧ b.value = -|a.value| ∧ b.scale = a.scale) ∧
      ((∀ c ∈ (trim t.toList).head?, c ≠ '-' ∧ c ≠ '\u2212') →
        ∃ b, f.read? ("-" ++ t) = some b ∧ b.value = -|a.value| ∧ b.scale = a.scale) := by
  have hparens : ("(" ++ t ++ ")").toList = '(' :: (t.toList ++ [')']) := by simp
  have hminus : ("-" ++ t).toList = '-' :: t.toList := by simp
  rw [read?, hparens, read?, hminus]
  refine ⟨⟨_, readChars?_in_parens h hbare, value_negatedMagnitude a, rfl⟩, fun hhead => ?_⟩
  exact ⟨_, readChars?_behind_minus h hbare hhead, value_negatedMagnitude a, rfl⟩

/-- The minus that is there already stands behind the currency. -/
theorem read?_negated_afterCurrency :
    let f : AmountFormat := ⟨"e", ""⟩
    f.read? " $-5 DR" = some ⟨-5, 0, by decide⟩ ∧
      (∃ b, f.read? ("(" ++ " $-5 DR" ++ ")") = some b ∧ b.value = -5) ∧
      ∃ b, f.read? ("-" ++ " $-5 DR") = some b ∧ b.value = -5 := by
  have hread : (⟨"e", ""⟩ : AmountFormat).read? " $-5 DR" = some ⟨-5, 0, by decide⟩ := by
    decide +kernel
  have hvalue : -|(⟨-5, 0, by decide⟩ : Amount).value| = -5 := by norm_num [Amount.value]
  have htext : trim " $-5 DR".toList = "$-5 DR".toList := by decide +kernel
  have hbare : ¬ ∃ inner, trim " $-5 DR".toList = '(' :: (inner ++ [')']) := by
    rw [htext]
    rintro ⟨inner, heq⟩
    exact absurd (List.cons.inj heq).1 (by decide)
  obtain ⟨⟨b, hparens, hb, -⟩, hminus⟩ := read?_negated _ " $-5 DR" hread hbare
  have hhead : ∀ c ∈ (trim " $-5 DR".toList).head?, c ≠ '-' ∧ c ≠ '\u2212' := by
    rw [htext]
    rintro c ⟨⟩
    decide
  obtain ⟨b', hbehind, hb', -⟩ := hminus hhead
  exact ⟨hread, ⟨b, hparens, hb.trans hvalue⟩, b', hbehind, hb'.trans hvalue⟩

end Payables.AmountFormat
