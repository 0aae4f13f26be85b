import Mathlib.Data.List.TakeWhile
import Payables.Proofs.Text.Runs
import Payables.Text.NormalForm
import Payables.Text.Search

/-!
# White space at the ends of a text

Trimming takes white space off both ends and nothing else, so whatever does not see white space
does not see trimming: the compact form of a text is that of the trimmed text, and a word without
white space occurs in the lower case of the one iff it occurs in that of the other. The latter is
not immediate, since the lower case of a sigma depends on its neighbours.
-/

namespace Payables.Text

theorem occursIn_iff_infix {p s : List Char} : occursIn p s = true ↔ p <:+: s := by
  induction s with
  | nil => simp [occursIn]
  | cons c cs ih =>
    rw [occursIn, Bool.or_eq_true, List.isPrefixOf_iff_prefix, ih, List.infix_cons_iff]

theorem contains_iff_infix {s p : String} : contains s p = true ↔ p.toList <:+: s.toList :=
  occursIn_iff_infix

theorem infix_append_right_iff {α : Type} {p before s : List α} (hp : p ≠ [])
    (h : ∀ c ∈ p, c ∉ before) : p <:+: before ++ s ↔ p <:+: s := by
  induction before with
  | nil => rfl
  | cons b before ih =>
    have hnot : ¬ p <+: b :: (before ++ s) := by
      rintro ⟨rest, hrest⟩
      obtain ⟨c, q, rfl⟩ := List.exists_cons_of_ne_nil hp
      rw [List.cons_append] at hrest
      exact h c List.mem_cons_self (by simp [(List.cons.inj hrest).1])
    rw [List.cons_append, List.infix_cons_iff, or_iff_right hnot]
    exact ih fun c hc hb => h c hc (List.mem_cons_of_mem b hb)

theorem infix_append_left_iff {α : Type} {p s after : List α} (hp : p ≠ [])
    (h : ∀ c ∈ p, c ∉ after) : p <:+: s ++ after ↔ p <:+: s := by
  rw [← List.reverse_infix, List.reverse_append, infix_append_right_iff, List.reverse_infix]
  · simpa using hp
  · simpa using h

theorem trimStart_cons {c : Char} (h : isBlank c = false) (s : List Char) :
    trimStart (c :: s) = c :: s := by
  rw [trimStart, List.dropWhile_cons, if_neg (by simp [h])]

theorem exists_blanks_around_trim (s : List Char) :
    ∃ before after : List Char, s = before ++ trim s ++ after ∧ (∀ c ∈ before, isBlank c = true) ∧
      ∀ c ∈ after, isBlank c = true := by
  have hend : ∀ t : List Char, t = trimEnd t ++ (t.reverse.takeWhile isBlank).reverse := by
    intro t
    rw [trimEnd, ← List.reverse_append, List.takeWhile_append_dropWhile, List.reverse_reverse]
  refine ⟨s.takeWhile isBlank, ((trimStart s).reverse.takeWhile isBlank).reverse, ?_, ?_, ?_⟩
  · rw [List.append_assoc, trim, ← hend, trimStart, List.takeWhile_append_dropWhile]
  · exact fun c hc => List.all_eq_true.1 List.all_takeWhile c hc
  · exact fun c hc => List.all_eq_true.1 List.all_takeWhile c (List.mem_reverse.1 hc)

theorem trim_eq_nil_iff {s : List Char} : trim s = [] ↔ ∀ c ∈ s, isBlank c = true := by
  constructor
  · obtain ⟨before, after, hs, hbefore, hafter⟩ := exists_blanks_around_trim s
    intro hnone c hc
    rw [hs, hnone, List.append_nil, List.mem_append] at hc
    exact hc.elim (hbefore c) (hafter c)
  · intro h
    have hstart : trimStart s = [] := List.dropWhile_eq_nil_iff.2 h
    rw [trim, hstart]
    rfl

@[simp] theorem toList_trimmed (s : String) : (trimmed s).toList = trim s.toList := by
  simp [trimmed]

theorem isBlank_of_mem_head?_dropWhile {s : List Char} {c : Char}
    (h : c ∈ (s.dropWhile isBlank).head?) : isBlank c = false := by
  have hnot := List.head?_dropWhile_not isBlank s
  rw [Option.mem_def.1 h] at hnot
  exact hnot

theorem isBlank_of_mem_getLast?_trimEnd {s : List Char} {c : Char}
    (h : c ∈ (trimEnd s).getLast?) : isBlank c = false := by
  rw [trimEnd, List.getLast?_reverse] at h
  exact isBlank_of_mem_head?_dropWhile h

theorem trimEnd_prefix (s : List Char) : trimEnd s <+: s := by
  rw [trimEnd, ← List.reverse_suffix, List.reverse_reverse]
  exact List.dropWhile_suffix isBlank

theorem isBlank_of_mem_head?_trim {s : List Char} {c : Char} (h : c ∈ (trim s).head?) :
    isBlank c = false := by
  obtain ⟨rest, hrest⟩ := trimEnd_prefix (trimStart s)
  refine isBlank_of_mem_head?_dropWhile (s := s) ?_
  change c ∈ (trimStart s).head?
  rw [trim] at h
  rw [← hrest, List.head?_append, Option.mem_def.1 h]
  rfl

theorem isBlank_of_mem_getLast?_trim {s : List Char} {c : Char} (h : c ∈ (trim s).getLast?) :
    isBlank c = false :=
  isBlank_of_mem_getLast?_trimEnd h

/-- White space around a text without white space at its ends is all that goes. -/
theorem trim_append {before s after : List Char} (hbefore : ∀ c ∈ before, isBlank c = true)
    (hafter : ∀ c ∈ after, isBlank c = true) (hne : s ≠ [])
    (hhead : ∀ c ∈ s.head?, isBlank c = false) (hlast : ∀ c ∈ s.getLast?, isBlank c = false) :
    trim (before ++ (s ++ after)) = s := by
  have hhead' : ∀ c ∈ (s ++ after).head?, isBlank c = false := by
    rwa [List.head?_append_of_ne_nil s hne]
  have hafter' : ∀ c ∈ after.reverse, isBlank c = true := by simpa using hafter
  have hlast' : ∀ c ∈ s.reverse.head?, isBlank c = false := by rwa [List.head?_reverse]
  rw [trim, trimStart, dropWhile_append_of_stop hbefore hhead', trimEnd, List.reverse_append,
    dropWhile_append_of_stop hafter' hlast', List.reverse_reverse]

theorem exists_trim_cons {c : Char} (hc : isBlank c = false) {s : List Char} (hne : trim s ≠ []) :
    ∃ before, trim (c :: s) = c :: (before ++ trim s) ∧ ∀ b ∈ before, isBlank b = true := by
  obtain ⟨before, after, hs, hbefore, hafter⟩ := exists_blanks_around_trim s
  have hlast : (c :: (before ++ trim s)).getLast? = (trim s).getLast? := by
    rw [← List.cons_append, List.getLast?_append_of_ne_nil _ hne]
  have hends := trim_append (List.forall_mem_nil _) hafter (List.cons_ne_nil c (before ++ trim s))
    (by simpa using hc) fun d hd => isBlank_of_mem_getLast?_trim (hlast ▸ hd)
  rw [List.nil_append, List.cons_append, ← hs] at hends
  exact ⟨before, hends, hbefore⟩

theorem trim_eq_self {s : List Char} (hhead : ∀ c ∈ s.head?, isBlank c = false)
    (hlast : ∀ c ∈ s.getLast?, isBlank c = false) : trim s = s := by
  by_cases hne : s = []
  · subst hne
    rfl
  · have hnone : ∀ c ∈ ([] : List Char), isBlank c = true := List.forall_mem_nil _
    have htrim := trim_append hnone hnone hne hhead hlast
    rwa [List.append_nil, List.nil_append] at htrim

theorem trim_trim (s : List Char) : trim (trim s) = trim s :=
  trim_eq_self (fun _ => isBlank_of_mem_head?_trim) fun _ => isBlank_of_mem_getLast?_trim

theorem trim_map {φ : Char → Char} (hφ : ∀ c, isBlank (φ c) = isBlank c) (s : List Char) :
    trim (s.map φ) = (trim s).map φ := by
  have hblank : isBlank ∘ φ = isBlank := funext hφ
  rw [trim, trim, trimStart, trimStart, trimEnd, trimEnd, List.dropWhile_map, hblank,
    ← List.map_reverse, List.dropWhile_map, hblank, List.map_reverse]

def blankCodes : List Nat :=
  [0x09, 0x0A, 0x0B, 0x0C, 0x0D, 0x20, 0x85, 0xA0, 0x1680, 0x2000, 0x2001, 0x2002, 0x2003, 0x2004,
    0x2005, 0x2006, 0x2007, 0x2008, 0x2009, 0x200A, 0x2028, 0x2029, 0x202F, 0x205F, 0x3000]

theorem toNat_mem_blankCodes {c : Char} (h : isBlank c = true) : c.toNat ∈ blankCodes := by
  simp only [isBlank, Bool.or_eq_true, Bool.and_eq_true, decide_eq_true_eq, beq_iff_eq] at h
  simp only [blankCodes, List.mem_cons, List.not_mem_nil, or_false]
  omega

/-- What holds of the listed characters holds of white space. -/
theorem forall_isBlank {P : Char → Prop} (h : ∀ n ∈ blankCodes, P (Char.ofNat n)) {c : Char}
    (hc : isBlank c = true) : P c := by
  have hlisted := h c.toNat (toNat_mem_blankCodes hc)
  rwa [Char.ofNat_toNat] at hlisted

/-- Neither a letter nor a mark, and the same in lower case. -/
def IsCaseless (c : Char) : Prop :=
  isAsciiAlphanumeric c = false ∧ isCased c = false ∧ isCaseIgnorable c = false ∧ c ≠ 'Σ' ∧
    lowerChar c = [c]

instance (c : Char) : Decidable (IsCaseless c) := inferInstanceAs (Decidable (_ ∧ _))

theorem isCaseless_of_isBlank {c : Char} (h : isBlank c = true) : IsCaseless c :=
  forall_isBlank (P := IsCaseless) (by decide +kernel) h

/-- White space at the ends of a text does not matter for the characters of a kind that no white
space belongs to. -/
theorem filter_trim {p : Char → Bool} (hp : ∀ c, isBlank c = true → p c = false) (s : List Char) :
    (trim s).filter p = s.filter p := by
  obtain ⟨before, after, hs, hbefore, hafter⟩ := exists_blanks_around_trim s
  have hnone : ∀ t : List Char, (∀ c ∈ t, isBlank c = true) → t.filter p = [] := by
    intro t ht
    rw [List.filter_eq_nil_iff]
    intro c hc
    simp [hp c (ht c hc)]
  generalize trim s = t at hs
  simp [hs, List.filter_append, hnone before hbefore, hnone after hafter]

theorem compactForm_trimmed (s : String) : compactForm (trimmed s) = compactForm s := by
  rw [compactForm, toList_trimmed, filter_trim fun c hc => (isCaseless_of_isBlank hc).1,
    compactForm]

theorem labelForm_trimmed (s : String) : labelForm (trimmed s) = labelForm s := by
  rw [labelForm, toList_trimmed, filter_trim fun c hc => (isCaseless_of_isBlank hc).1, labelForm]

theorem leadsToCased_append_blanks (s : List Char) {after : List Char}
    (h : ∀ c ∈ after, isBlank c = true) : leadsToCased (s ++ after) = leadsToCased s := by
  cases hs : s.find? (!isCaseIgnorable ·) with
  | some c => simp [leadsToCased, List.find?_append, hs]
  | none =>
    cases ha : after.find? (!isCaseIgnorable ·) with
    | none => simp [leadsToCased, List.find?_append, hs, ha]
    | some c =>
      have hc := isCaseless_of_isBlank (h c (List.mem_of_find?_eq_some ha))
      simp [leadsToCased, List.find?_append, hs, ha, hc.2.1]

theorem lowerAfter_blanks_append (before blanks s : List Char)
    (h : ∀ c ∈ blanks, isBlank c = true) :
    lowerAfter before (blanks ++ s) = blanks ++ lowerAfter (blanks.reverse ++ before) s := by
  induction blanks generalizing before with
  | nil => rfl
  | cons c cs ih =>
    obtain ⟨hc, hcs⟩ := List.forall_mem_cons.1 h
    obtain ⟨-, -, -, hsigma, hlower⟩ := isCaseless_of_isBlank hc
    rw [List.cons_append, lowerAfter, if_neg hsigma, hlower, ih (c :: before) hcs]
    simp

theorem lowerAfter_append (before s after : List Char) (h : ∀ c ∈ after, isBlank c = true) :
    lowerAfter before (s ++ after) = lowerAfter before s ++ after := by
  induction s generalizing before with
  | cons c cs ih =>
    simp only [List.cons_append, lowerAfter, leadsToCased_append_blanks cs h, ih, List.append_assoc]
  | nil => simpa [lowerAfter] using lowerAfter_blanks_append before after [] h

theorem lowerAfter_of_blanks_before (before blanks s : List Char)
    (h : ∀ c ∈ blanks, isBlank c = true) :
    lowerAfter (before ++ blanks) s = lowerAfter before s := by
  induction s generalizing before with
  | nil => rfl
  | cons c cs ih =>
    rw [lowerAfter, lowerAfter, leadsToCased_append_blanks before h, ← List.cons_append, ih]

theorem lower_eq_of_blanks_around {before s after : List Char}
    (hbefore : ∀ c ∈ before, isBlank c = true) (hafter : ∀ c ∈ after, isBlank c = true) :
    lower (before ++ s ++ after) = before ++ lower s ++ after := by
  have hrev : ∀ c ∈ before.reverse, isBlank c = true := by simpa using hbefore
  rw [lower, lowerAfter_append [] _ after hafter, lowerAfter_blanks_append [] before s hbefore,
    List.append_nil, ← List.nil_append before.reverse, lowerAfter_of_blanks_before [] _ s hrev,
    lower]

theorem occursIn_lower_trim {w : List Char} (hw : w ≠ []) (hblank : ∀ c ∈ w, isBlank c = false)
    (s : List Char) : occursIn w (lower (trim s)) = occursIn w (lower s) := by
  obtain ⟨before, after, hs, hbefore, hafter⟩ := exists_blanks_around_trim s
  have hne : ∀ t : List Char, (∀ c ∈ t, isBlank c = true) → ∀ c ∈ w, c ∉ t := by
    intro t ht c hc hct
    exact absurd (ht c hct) (by simp [hblank c hc])
  have hlower : lower s = before ++ lower (trim s) ++ after := by
    generalize trim s = t at hs
    rw [hs, lower_eq_of_blanks_around hbefore hafter]
  rw [Bool.eq_iff_iff, occursIn_iff_infix, occursIn_iff_infix, hlower,
    infix_append_left_iff hw (hne after hafter), infix_append_right_iff hw (hne before hbefore)]

end Payables.Text
