import Mathlib.Data.List.Basic
import Payables.Amount.Cell
import Payables.Layout.Check
import Payables.Proofs.Text.HeaderForm

/-!
# Marks in amounts

Under marks that pass the check of a layout, taking out white space and group marks and putting a
point for the decimal mark is a matter of single characters, since no mark is longer than that and
none is taken for the other (`plainNumeral_dropBlanks`).
-/

namespace Payables

open Text

namespace Text

theorem replaceAll_singleton (a : Char) (new s : List Char) :
    replaceAll [a] new s = s.flatMap fun c => if c ∈ [a] then new else [c] := by
  induction s with
  | nil => rfl
  | cons c s ih =>
    rw [List.flatMap_cons, ← ih]
    by_cases h : c = a
    · subst h
      simp [replaceAll, replaceFrom]
    · simp [replaceAll, replaceFrom, h, Ne.symm h]

theorem flatMap_eq_self {φ : Char → List Char} {s : List Char} (h : ∀ c ∈ s, φ c = [c]) :
    s.flatMap φ = s := by
  induction s with
  | nil => rfl
  | cons c s ih =>
    obtain ⟨hc, hs⟩ := List.forall_mem_cons.1 h
    rw [List.flatMap_cons, hc, ih hs, List.singleton_append]

theorem dropBlanks_eq_flatMap (s : List Char) :
    dropBlanks s = s.flatMap fun c => if isBlank c then [] else [c] := by
  induction s with
  | nil => rfl
  | cons c s ih =>
    rw [List.flatMap_cons, ← ih]
    by_cases h : isBlank c = true <;> simp [dropBlanks, h]

end Text

theorem Layout.mem_of_checkMarks {decimal group : String} (h : checkMarks decimal group = .ok ()) :
    decimal ∈ decimalMarks ∧ group ∈ groupMarks ∧ decimal ≠ group := by
  unfold checkMarks at h
  dsimp only at h
  split at h
  · cases h
  · split at h
    · cases h
    · split at h
      · cases h
      · simp_all

namespace AmountFormat

/-- The decimal mark is one character, there is at most one other for groups, and neither is a
digit or a minus. -/
structure IsApart (f : AmountFormat) : Prop where
  decimal : ∃ d, f.decimalMark.toList = [d] ∧ isBlank d = false
  group : f.groupMark.toList = [] ∨ ∃ g, f.groupMark.toList = [g]
  disjoint : ∀ c ∈ f.decimalMark.toList, c ∉ f.groupMark.toList
  plain : ∀ c ∈ f.decimalMark.toList ++ f.groupMark.toList, c.isDigit = false ∧ plainMinus c = c

theorem isApart_of_checkMarks {decimal group : String}
    (h : Layout.checkMarks decimal group = .ok ()) : IsApart ⟨decimal, group⟩ := by
  obtain ⟨hdecimal, hgroup, hne⟩ := Layout.mem_of_checkMarks h
  have hdecimal' : ∃ d, decimal.toList = [d] ∧ isBlank d = false ∧ d.isDigit = false ∧
      plainMinus d = d := by
    simp only [decimalMarks, List.mem_cons, List.not_mem_nil, or_false] at hdecimal
    rcases hdecimal with rfl | rfl
    · exact ⟨'.', by decide⟩
    · exact ⟨',', by decide⟩
  have hgroup' : group.toList = [] ∨
      ∃ g, group.toList = [g] ∧ g.isDigit = false ∧ plainMinus g = g := by
    simp only [groupMarks, List.mem_cons, List.not_mem_nil, or_false] at hgroup
    rcases hgroup with rfl | rfl | rfl | rfl | rfl
    · exact .inr ⟨',', by decide⟩
    · exact .inr ⟨'.', by decide⟩
    · exact .inr ⟨' ', by decide⟩
    · exact .inr ⟨'\'', by decide⟩
    · exact .inl rfl
  obtain ⟨d, hd, hblank, hplain⟩ := hdecimal'
  constructor
  case decimal => exact ⟨d, hd, hblank⟩
  case group => exact hgroup'.imp_right fun ⟨g, hg, _⟩ => ⟨g, hg⟩
  case disjoint =>
    rcases hgroup' with hg | ⟨g, hg, -⟩ <;> simp only [hd, hg]
    · simp
    · simp only [List.mem_singleton, forall_eq]
      rintro rfl
      exact hne (String.toList_inj.1 (hd.trans hg.symm))
  case plain =>
    rcases hgroup' with hg | ⟨g, hg, hplain'⟩ <;> simp only [hd, hg]
    · simpa using hplain
    · simpa using ⟨hplain, hplain'⟩

/-- What is left of a character when white space and group marks are taken out and a point stands
for the decimal mark. -/
def bare (f : AmountFormat) (c : Char) : List Char :=
  if isBlank c ∨ c ∈ f.groupMark.toList then []
  else if c ∈ f.decimalMark.toList then ['.'] else [c]

variable {f : AmountFormat}

theorem drop_groups (hf : f.IsApart) {s : List Char} (hs : ∀ c ∈ s, isBlank c = false) :
    (if trim f.groupMark.toList ≠ [] ∧ f.groupMark.toList ≠ f.decimalMark.toList then
      replaceAll f.groupMark.toList [] s else s) =
        s.flatMap fun c => if c ∈ f.groupMark.toList then [] else [c] := by
  have hnone (h : ∀ c ∈ s, c ∉ f.groupMark.toList) :
      s = s.flatMap fun c => if c ∈ f.groupMark.toList then [] else [c] :=
    (flatMap_eq_self fun c hc => if_neg (h c hc)).symm
  rcases hf.group with hg | ⟨g, hg⟩
  · rw [if_neg fun h => h.1 (by rw [hg]; rfl)]
    exact hnone (by simp [hg])
  · have hmem : g ∈ f.groupMark.toList := by rw [hg]; exact List.mem_cons_self
    have hdecimal : f.groupMark.toList ≠ f.decimalMark.toList := fun heq =>
      hf.disjoint g (heq ▸ hmem) hmem
    by_cases hblank : isBlank g = true
    · rw [if_neg fun h => h.1 (trim_eq_nil_iff.2 (by simpa [hg] using hblank))]
      refine hnone fun c hc hmem => ?_
      rw [hg, List.mem_singleton] at hmem
      simp [hs c hc, ← hmem] at hblank
    · have htrim : trim f.groupMark.toList ≠ [] := fun h =>
        hblank (trim_eq_nil_iff.1 h g hmem)
      rw [if_pos ⟨htrim, hdecimal⟩, hg, replaceAll_singleton]

theorem point_decimals (hf : f.IsApart) (s : List Char) :
    (if f.decimalMark.toList ≠ [] ∧ f.decimalMark.toList ≠ ['.'] then
      replaceAll f.decimalMark.toList ['.'] s else s) =
        s.flatMap fun c => if c ∈ f.decimalMark.toList then ['.'] else [c] := by
  obtain ⟨d, hd, -⟩ := hf.decimal
  rw [hd]
  by_cases hpoint : d = '.'
  · rw [if_neg (by simp [hpoint]), flatMap_eq_self]
    intro c _
    split
    · simp_all
    · rfl
  · rw [if_pos (by simp [hpoint]), replaceAll_singleton]

theorem plainNumeral_dropBlanks (hf : f.IsApart) (s : List Char) :
    f.plainNumeral (dropBlanks s) = s.flatMap f.bare := by
  have hblank : ∀ c ∈ dropBlanks s, isBlank c = false := by
    intro c hc
    simpa using (List.mem_filter.1 hc).2
  simp only [plainNumeral, drop_groups hf hblank, point_decimals hf]
  rw [dropBlanks_eq_flatMap, List.flatMap_assoc, List.flatMap_assoc]
  refine List.flatMap_congr fun c _ => ?_
  by_cases hblank : isBlank c = true
  · simp [bare, hblank]
  · by_cases hgroup : c ∈ f.groupMark.toList
    · simp [bare, hblank, hgroup]
    · simp [bare, hblank, hgroup]

theorem flatMap_bare_groupMark (f : AmountFormat) : f.groupMark.toList.flatMap f.bare = [] :=
  List.flatMap_eq_nil_iff.2 fun _ hc => if_pos (.inr hc)

theorem flatMap_bare_decimalMark (hf : f.IsApart) :
    f.decimalMark.toList.flatMap f.bare = ['.'] := by
  obtain ⟨d, hd, hblank⟩ := hf.decimal
  have hmem : d ∈ f.decimalMark.toList := by rw [hd]; exact List.mem_cons_self
  rw [hd, List.flatMap_singleton, bare, if_neg (by simp [hblank, hf.disjoint d hmem]), if_pos hmem]

theorem bare_of_isDigit (hf : f.IsApart) {c : Char} (hc : c.isDigit = true) : f.bare c = [c] := by
  have hmark : c ∉ f.decimalMark.toList ++ f.groupMark.toList := fun hmem => by
    simp [(hf.plain c hmem).1] at hc
  rw [List.mem_append, not_or] at hmark
  simp [bare, (isLower_of_isDigit hc).2, hmark.1, hmark.2]

theorem unsigned?_eq (hf : f.IsApart) {s : List Char} {c : Char} (hc : c.isDigit = true)
    (hmem : c ∈ dropSide (dropCurrency s)) :
    f.unsigned? s = Amount.ofChars? ((dropSide (dropCurrency s)).flatMap f.bare) := by
  have hany : ((dropSide (dropCurrency s)).flatMap f.bare).any Amount.isDigit = true := by
    rw [List.any_eq_true]
    refine ⟨c, List.mem_flatMap.2 ⟨c, hmem, ?_⟩, hc⟩
    rw [bare_of_isDigit hf hc]
    exact List.mem_cons_self
  rw [unsigned?, plainNumeral_dropBlanks hf, if_pos hany]

end AmountFormat

end Payables
