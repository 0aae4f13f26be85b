import Payables.Proofs.Number.Quotient
import Payables.Proofs.Similarity.Longest

/-!
# The count of common characters

The counted characters form a text that is left of both texts when some of their characters are
taken out (`exists_sublist_commonChars`). So texts that differ have fewer of them than half of their
characters, and their similarity is below one as far as rounding can tell. The count ends on all
texts, and it is zero or full only where the texts share no character or are equal
(`commonChars_countsCommon`), because the block of each step is a longest one.
-/

namespace Payables

variable {a b : List Char}

theorem exists_sublist_commonChars (a b : List Char) :
    ∃ s : List Char, s.length = commonChars a b ∧ s.Sublist a ∧ s.Sublist b := by
  induction a, b using commonChars.induct with
  | case1 a b m h =>
    rw [commonChars, dif_pos h]
    exact ⟨[], rfl, List.nil_sublist a, List.nil_sublist b⟩
  | case2 a b m h ihBefore ihAfter =>
    rw [commonChars, dif_neg h]
    obtain ⟨before, hbefore, hbeforeA, hbeforeB⟩ := ihBefore
    obtain ⟨after, hafter, hafterA, hafterB⟩ := ihAfter
    obtain ⟨s, hs, hsa, hsb⟩ := isShared_longestBlock a b
    -- in each text the block stands between what is common before it and after it
    have hjoin : ∀ {t : List Char} {i : Nat}, before.Sublist (t.take i) → s <+: t.drop i →
        after.Sublist (t.drop (i + m.length)) → (before ++ (s ++ after)).Sublist t := by
      rintro t i hbefore ⟨rest, hrest⟩ hafter
      rw [← hs, ← List.drop_drop, ← hrest, List.drop_left] at hafter
      have hparts := hbefore.append (hafter.append_left s)
      rwa [hrest, List.take_append_drop] at hparts
    refine ⟨before ++ (s ++ after), ?_, hjoin hbeforeA hsa hafterA, hjoin hbeforeB hsb hafterB⟩
    rw [List.length_append, List.length_append, hbefore, hs, hafter]
    exact (Nat.add_left_comm ..).trans (Nat.add_assoc ..).symm

theorem commonChars_le (a b : List Char) :
    commonChars a b ≤ a.length ∧ commonChars a b ≤ b.length := by
  obtain ⟨s, hs, ha, hb⟩ := exists_sublist_commonChars a b
  rw [← hs]
  exact ⟨ha.length_le, hb.length_le⟩

theorem two_mul_commonChars_lt (h : a ≠ b) : 2 * commonChars a b < a.length + b.length := by
  obtain ⟨hlea, hleb⟩ := commonChars_le a b
  by_contra! hge
  obtain ⟨s, hs, ha, hb⟩ := exists_sublist_commonChars a b
  have heqa : s = a := ha.eq_of_length (by omega)
  have heqb : s = b := hb.eq_of_length (by omega)
  exact h (heqa.symm.trans heqb)

theorem similarityOf_le_one (a b : List Char) : similarityOf a b ≤ 1 := by
  rw [similarityOf]
  split
  · exact Binary64.le_refl 1
  · obtain ⟨hlea, hleb⟩ := commonChars_le a b
    change Binary64.ofRatio _ _ ≤ .ofRatio 1 1
    exact Binary64.ofRatio_le_ofRatio (by omega) Nat.one_pos (by omega)

/-- The similarity to a short text stays away from one, so that it is below one when it is
rounded. -/
theorem similarityOf_le_of_ne (h : a ≠ b) (hb : b.length ≤ 12) :
    similarityOf a b ≤ .ofRatio 24 25 := by
  have hlt := two_mul_commonChars_lt h
  have hleb := (commonChars_le a b).2
  rw [similarityOf, if_neg (by omega)]
  exact Binary64.ofRatio_le_ofRatio (by omega) (by decide) (by omega)

theorem length_longestBlock_eq_zero_iff :
    (longestBlock a b).length = 0 ↔ ∀ x ∈ a, x ∉ b := by
  have hfirst := Block.isFirstLongest_longestBlock a b
  constructor
  · intro hzero
    exact hfirst.notMem_of_length hzero
  · intro hnone
    rw [hfirst.eq_none hnone]
    rfl

theorem length_longestBlock_le_commonChars (a b : List Char) :
    (longestBlock a b).length ≤ commonChars a b := by
  rw [commonChars]
  split
  · omega
  · omega

theorem commonChars_eq_zero_iff : commonChars a b = 0 ↔ ∀ x ∈ a, x ∉ b := by
  rw [← length_longestBlock_eq_zero_iff]
  constructor
  · intro hzero
    have hle := length_longestBlock_le_commonChars a b
    omega
  · intro hzero
    rw [commonChars, dif_pos hzero]

theorem commonChars_self (a : List Char) : commonChars a a = a.length := by
  have hwhole : Block.IsShared a a ⟨0, 0, a.length⟩ :=
    ⟨a, rfl, List.prefix_rfl, List.prefix_rfl⟩
  have hlongest := (Block.isFirstLongest_longestBlock a a).longest _ hwhole
  have hblock := length_longestBlock_le_commonChars a a
  exact Nat.le_antisymm (commonChars_le a a).1 (hlongest.trans hblock)

theorem two_mul_commonChars_eq_iff : 2 * commonChars a b = a.length + b.length ↔ a = b := by
  constructor
  · intro hfull
    by_contra hne
    have hlt := two_mul_commonChars_lt hne
    omega
  · rintro rfl
    rw [commonChars_self]
    exact Nat.two_mul a.length

/-- A count that has come to an end: texts without a shared block have no common characters, and
else the block lies in both texts, and what they hold before it and behind it has been counted. -/
inductive CountsTo : List Char → List Char → Nat → Prop
  | stop {a b : List Char} (hblock : (longestBlock a b).length = 0) : CountsTo a b 0
  | split {a b : List Char} {before after : Nat} (hblock : (longestBlock a b).length ≠ 0)
      (hleft : (longestBlock a b).left + (longestBlock a b).length ≤ a.length)
      (hright : (longestBlock a b).right + (longestBlock a b).length ≤ b.length)
      (hbefore : CountsTo (a.take (longestBlock a b).left) (b.take (longestBlock a b).right) before)
      (hafter : CountsTo (a.drop ((longestBlock a b).left + (longestBlock a b).length))
        (b.drop ((longestBlock a b).right + (longestBlock a b).length)) after) :
      CountsTo a b ((longestBlock a b).length + before + after)

theorem countsTo_commonChars (a b : List Char) : CountsTo a b (commonChars a b) := by
  induction a, b using commonChars.induct with
  | case1 a b m h =>
    rw [commonChars, dif_pos h]
    exact .stop h
  | case2 a b m h ihBefore ihAfter =>
    have hlength := (isShared_longestBlock a b).le_length (Nat.pos_of_ne_zero h)
    rw [commonChars, dif_neg h]
    exact .split h hlength.1 hlength.2 ihBefore ihAfter

theorem CountsTo.eq_commonChars {n : Nat} (h : CountsTo a b n) : n = commonChars a b := by
  induction h with
  | stop hblock => rw [commonChars, dif_pos hblock]
  | split hblock _ _ _ _ ihBefore ihAfter =>
    rw [commonChars, dif_neg hblock, ihBefore, ihAfter]

structure CountsCommon (a b : List Char) (n : Nat) : Prop where
  /-- The count ends, and with no other number. -/
  countsTo_iff : ∀ k, CountsTo a b k ↔ k = n
  exists_sublist : ∃ s : List Char, s.length = n ∧ s.Sublist a ∧ s.Sublist b
  le_min : n ≤ min a.length b.length
  eq_zero_iff : n = 0 ↔ ∀ x ∈ a, x ∉ b
  two_mul_eq_iff : 2 * n = a.length + b.length ↔ a = b

/-- For any two texts: the count ends with the length of a common subsequence, with zero iff they
share no character, and with half of all their characters iff they are equal. -/
theorem commonChars_countsCommon (a b : List Char) : CountsCommon a b (commonChars a b) where
  countsTo_iff k := by
    constructor
    · intro h
      exact h.eq_commonChars
    · rintro rfl
      exact countsTo_commonChars a b
  exists_sublist := exists_sublist_commonChars a b
  le_min := Nat.le_min.2 (commonChars_le a b)
  eq_zero_iff := commonChars_eq_zero_iff
  two_mul_eq_iff := two_mul_commonChars_eq_iff

end Payables
