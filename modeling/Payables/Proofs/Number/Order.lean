import Mathlib.Data.List.Induction
import Payables.Number.Binary64

/-!
# The order of binary numbers

The order is that of the integers that stand for the places of the numbers, so it is total. A scan
that keeps what scores best and does not change it for a tie ends with the first of the best.
-/

namespace Payables

namespace Binary64

variable {x y z : Binary64}

theorem lt_of_le_of_lt (hxy : x ≤ y) (hyz : y < z) : x < z := Int.lt_of_le_of_lt hxy hyz

theorem lt_of_lt_of_le (hxy : x < y) (hyz : y ≤ z) : x < z := Int.lt_of_lt_of_le hxy hyz

theorem le_refl (x : Binary64) : x ≤ x := Int.le_refl _

theorem le_trans (hxy : x ≤ y) (hyz : y ≤ z) : x ≤ z := Int.le_trans hxy hyz

theorem le_of_lt (h : x < y) : x ≤ y := Int.le_of_lt h

theorem le_of_not_lt (h : ¬ x < y) : y ≤ x := Int.not_lt.1 h

theorem not_lt_of_le (h : y ≤ x) : ¬ x < y := Int.not_lt.2 h

theorem lesser_le_left (x y : Binary64) : x.lesser y ≤ x := by
  rw [lesser]
  split
  · exact le_of_lt ‹_›
  · exact le_refl x

end Binary64

section Best

variable {α : Type} {score : α → Binary64} {xs ys : List α} {x y : α}

/-- Nothing scores higher, and what comes before scores lower. -/
def IsFirstBestOf (score : α → Binary64) (xs : List α) (x : α) : Prop :=
  ∃ before after, xs = before ++ x :: after ∧ (∀ y ∈ before, score y < score x) ∧
    ∀ y ∈ after, score y ≤ score x

namespace IsFirstBestOf

theorem mem (h : IsFirstBestOf score xs x) : x ∈ xs := by
  obtain ⟨before, after, rfl, -, -⟩ := h
  exact List.mem_append_right _ List.mem_cons_self

theorem le (h : IsFirstBestOf score xs x) (hy : y ∈ xs) : score y ≤ score x := by
  obtain ⟨before, after, rfl, hbefore, hafter⟩ := h
  rcases List.mem_append.1 hy with hy | hy
  · exact Binary64.le_of_lt (hbefore y hy)
  · rcases List.mem_cons.1 hy with rfl | hy
    · exact Binary64.le_refl _
    · exact hafter y hy

theorem singleton (score : α → Binary64) (x : α) : IsFirstBestOf score [x] x :=
  ⟨[], [], rfl, by simp, by simp⟩

theorem concat_of_lt (h : IsFirstBestOf score xs x) (hlt : score x < score y) :
    IsFirstBestOf score (xs ++ [y]) y :=
  ⟨xs, [], rfl, fun _ hz => Binary64.lt_of_le_of_lt (h.le hz) hlt, by simp⟩

theorem concat_of_not_lt (h : IsFirstBestOf score xs x) (hlt : ¬ score x < score y) :
    IsFirstBestOf score (xs ++ [y]) x := by
  obtain ⟨before, after, rfl, hbefore, hafter⟩ := h
  refine ⟨before, after ++ [y], by simp, hbefore, fun z hz => ?_⟩
  rcases List.mem_append.1 hz with hz | hz
  · exact hafter z hz
  · rw [List.mem_singleton.1 hz]
    exact Binary64.le_of_not_lt hlt

/-- If an early element scores as high, the first of the best is early too. -/
theorem mem_left (h : IsFirstBestOf score (xs ++ ys) x) (hy : y ∈ xs) (hle : score x ≤ score y) :
    x ∈ xs := by
  obtain ⟨before, after, heq, hbefore, -⟩ := h
  have hnot : y ∉ before := fun hmem => Binary64.not_lt_of_le hle (hbefore y hmem)
  rcases List.append_eq_append_iff.1 heq with ⟨rest, rfl, -⟩ | ⟨rest, rfl, hrest⟩
  · exact absurd (List.mem_append_left rest hy) hnot
  · cases rest with
    | nil => exact absurd (by simpa using hy) hnot
    | cons z rest =>
      obtain ⟨rfl, -⟩ := List.cons.inj hrest
      simp

end IsFirstBestOf

theorem isFirstBestOf_foldl (score : α → Binary64) (x : α) (xs : List α) :
    IsFirstBestOf score (x :: xs)
      (xs.foldl (fun best y => if score best < score y then y else best) x) := by
  induction xs using List.reverseRecOn with
  | nil => exact .singleton score x
  | append_singleton xs y ih =>
    rw [List.foldl_append, List.foldl_cons, List.foldl_nil, ← List.cons_append]
    split
    · exact ih.concat_of_lt ‹_›
    · exact ih.concat_of_not_lt ‹_›

end Best

end Payables
