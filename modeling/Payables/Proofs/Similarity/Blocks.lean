import Mathlib.Data.List.Infix
import Payables.Similarity

/-!
# Shared blocks

The rows of the search hold, for each character of the second text, how far the texts agree
backwards from it (`nextRow_row`). So the block that the search settles on stands in both texts.
-/

namespace Payables

namespace Block

variable {a b : List Char} {m : Block}

/-- The length of the longest text with which both texts end. -/
def sharedEnd (a b : List Char) : Nat :=
  ((a.reverse.zip b.reverse).takeWhile fun p => p.1 = p.2).length

/-- The shared ends of a text and the beginnings of another. -/
def row (a b : List Char) : List Nat :=
  (List.range b.length).map fun j => sharedEnd a (b.take (j + 1))

theorem sharedEnd_nil_left (b : List Char) : sharedEnd [] b = 0 := rfl

theorem sharedEnd_nil_right (a : List Char) : sharedEnd a [] = 0 := by
  rw [sharedEnd, List.reverse_nil, List.zip_nil_right, List.takeWhile_nil, List.length_nil]

theorem sharedEnd_concat (a b : List Char) (x y : Char) :
    sharedEnd (a ++ [x]) (b ++ [y]) = if x = y then sharedEnd a b + 1 else 0 := by
  rw [sharedEnd, List.reverse_concat', List.reverse_concat', List.zip_cons_cons]
  by_cases h : x = y <;> simp [h, sharedEnd]

theorem exists_suffix_sharedEnd (a b : List Char) :
    ∃ s, s.length = sharedEnd a b ∧ s <:+ a ∧ s <:+ b := by
  induction a using List.reverseRecOn generalizing b with
  | nil => exact ⟨[], rfl, List.nil_suffix, List.nil_suffix⟩
  | append_singleton a x ih =>
    rcases List.eq_nil_or_concat b with rfl | ⟨b, y, rfl⟩
    · exact ⟨[], (sharedEnd_nil_right _).symm, List.nil_suffix, List.nil_suffix⟩
    · rw [List.concat_eq_append, sharedEnd_concat]
      split
      · rename_i h
        subst h
        obtain ⟨s, hs, ⟨before, rfl⟩, ⟨before', rfl⟩⟩ := ih b
        refine ⟨s ++ [x], by simp [hs], ⟨before, by simp⟩, ⟨before', by simp⟩⟩
      · exact ⟨[], rfl, List.nil_suffix, List.nil_suffix⟩

theorem row_nil_left (b : List Char) : row [] b = List.replicate b.length 0 := by
  rw [row, List.eq_replicate_iff]
  simp [sharedEnd_nil_left]

theorem length_row (a b : List Char) : (row a b).length = b.length := by
  rw [row, List.length_map, List.length_range]

theorem getElem_row {j : Nat} (hj : j < (row a b).length) :
    (row a b)[j] = sharedEnd a (b.take (j + 1)) := by
  simp [row]

theorem nextRow_row (x : Char) (a b : List Char) : nextRow x b (row a b) = row (a ++ [x]) b := by
  refine List.ext_getElem (by simp [nextRow, row]) fun j hj hj' => ?_
  have hb : j < b.length := by rwa [length_row] at hj'
  have hbefore : ∀ h : j < (0 :: row a b).length,
      (0 :: row a b)[j] = sharedEnd a (b.take j) := by
    intro h
    cases j with
    | zero => exact (sharedEnd_nil_right a).symm
    | succ j => simp [row]
  have hhere : (row (a ++ [x]) b)[j] = sharedEnd (a ++ [x]) (b.take j ++ [b[j]]) := by simp [row]
  rw [hhere, sharedEnd_concat]
  simp [nextRow, hbefore]

def IsShared (a b : List Char) (m : Block) : Prop :=
  ∃ s, s.length = m.length ∧ s <+: a.drop m.left ∧ s <+: b.drop m.right

theorem isShared_none (a b : List Char) : IsShared a b none :=
  ⟨[], rfl, List.nil_prefix, List.nil_prefix⟩

theorem prefix_drop_of_suffix {s a₁ : List Char} (hs : s <:+ a₁) (ha : a₁ <+: a) :
    s <+: a.drop (a₁.length - s.length) := by
  obtain ⟨before, rfl⟩ := hs
  obtain ⟨after, rfl⟩ := ha
  rw [List.length_append, Nat.add_sub_cancel, List.append_assoc, List.drop_left]
  exact List.prefix_append s after

theorem isShared_sharedEnd {a₁ b₁ : List Char} (ha : a₁ <+: a) (hb : b₁ <+: b) :
    IsShared a b ⟨a₁.length - sharedEnd a₁ b₁, b₁.length - sharedEnd a₁ b₁, sharedEnd a₁ b₁⟩ := by
  obtain ⟨s, hs, hsa, hsb⟩ := exists_suffix_sharedEnd a₁ b₁
  rw [← hs]
  exact ⟨s, rfl, prefix_drop_of_suffix hsa ha, prefix_drop_of_suffix hsb hb⟩

/-- What holds of a block and of those that end in a row holds of the better of them. -/
theorem bestOfRow_induction {P : Block → Prop} {i j : Nat} {ns : List Nat} (hm : P m)
    (h : ∀ k (hk : k < ns.length), P ⟨i + 1 - ns[k], j + k + 1 - ns[k], ns[k]⟩) :
    P (bestOfRow i j ns m) := by
  induction ns generalizing j m with
  | nil => exact hm
  | cons n ns ih =>
    refine ih ?_ fun k hk => ?_
    · split
      · exact h 0 (Nat.zero_lt_succ _)
      · exact hm
    · have hnext := h (k + 1) (Nat.succ_lt_succ hk)
      rwa [List.getElem_cons_succ, ← Nat.add_assoc, Nat.add_right_comm j k 1] at hnext

/-- The search has read `done` of the first text and goes on with the row of its shared ends. -/
theorem isShared_bestFrom {done rest : List Char} (ha : done ++ rest = a) (hm : IsShared a b m) :
    IsShared a b (bestFrom b done.length rest (row done b) m) := by
  induction rest generalizing done m with
  | nil => exact hm
  | cons x rest ih =>
    rw [bestFrom, nextRow_row]
    have hrest : (done ++ [x]) ++ rest = a := by rwa [List.append_assoc, List.singleton_append]
    have hdone : done ++ [x] <+: a := ⟨rest, hrest⟩
    have hbest : IsShared a b (bestOfRow done.length 0 (row (done ++ [x]) b) m) := by
      refine bestOfRow_induction hm fun k hk => ?_
      rw [length_row] at hk
      have hshared := isShared_sharedEnd hdone (List.take_prefix (k + 1) b)
      rw [List.length_append, List.length_singleton, List.length_take_of_le hk] at hshared
      simpa [row] using hshared
    have hnext := ih hrest hbest
    rwa [List.length_append, List.length_singleton] at hnext

end Block

theorem isShared_longestBlock (a b : List Char) : (longestBlock a b).IsShared a b := by
  rw [longestBlock, ← Block.row_nil_left]
  exact Block.isShared_bestFrom (List.nil_append a) (Block.isShared_none a b)

end Payables
