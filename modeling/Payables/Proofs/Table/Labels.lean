import Mathlib.Data.List.Nodup
import Payables.Proofs.Text.HeaderForm
import Payables.Table.Columns

/-!
# Labels of the columns

A column that repeats the label of an earlier one gets its index added, and two labels with an index
never have the same normal form. What is not looked at is whether the label with the index is there
already. So the labels are pairwise different in their normal forms iff none of them has the normal
form of the header of an earlier column (`nodup_forms_columnLabels_iff`).
-/

namespace Payables.Table

open Text

theorem columnLabel_of_not_mem {seen : List String} {index : Nat} {cell : String}
    (h : headerForm (columnName index cell) ∉ seen) :
    columnLabel seen index cell = columnName index cell :=
  if_neg fun hmem => h (List.contains_iff_mem.1 hmem)

theorem columnLabel_of_mem {seen : List String} {index : Nat} {cell : String}
    (h : headerForm (columnName index cell) ∈ seen) :
    columnLabel seen index cell = withIndex (columnName index cell) index :=
  if_pos (List.contains_iff_mem.2 h)

/-- The index of a label can be read off its normal form. -/
theorem index_eq_of_headerForm_eq {name name' : String} {i j : Nat}
    (h : headerForm (withIndex name i) = headerForm (withIndex name' j)) : i = j := by
  obtain ⟨u, hu⟩ := exists_headerForm_eq name i
  obtain ⟨v, hv⟩ := exists_headerForm_eq name' j
  have happend : u ++ '_' :: digits i = v ++ '_' :: digits j :=
    hu.symm.trans ((congrArg String.toList h).trans hv)
  have hlast : ∀ (w : List Char) (n : Nat),
      (w ++ '_' :: digits n).reverse.takeWhile (· ≠ '_') = (digits n).reverse := by
    intro w n
    rw [List.reverse_append, List.reverse_cons, List.append_assoc, List.takeWhile_append_of_pos]
    · simp
    · intro c hc
      have hne : c ≠ '_' := fun he =>
        Nat.underscore_not_in_toDigits (he ▸ List.mem_reverse.1 hc : '_' ∈ digits n)
      simpa using hne
  have hdigits : digits i = digits j := by
    rw [← List.reverse_inj, ← hlast u i, happend, hlast]
  rw [← value_digits i, hdigits, value_digits]

theorem length_labelsAfter (seen : List String) (index : Nat) (cells : List String) :
    (labelsAfter seen index cells).length = cells.length := by
  induction cells generalizing seen index with
  | nil => rfl
  | cons cell cells ih => rw [labelsAfter, List.length_cons, ih, List.length_cons]

theorem length_columnLabels (header : List String) :
    (columnLabels header).length = header.length :=
  length_labelsAfter [] 0 header

theorem getElem?_labelsAfter (seen : List String) (index : Nat) (cells : List String) (i : Nat) :
    (labelsAfter seen index cells)[i]? = cells[i]?.map (columnLabel
      ((((labelsAfter seen index cells).take i).map headerForm).reverse ++ seen) (index + i)) := by
  induction cells generalizing seen index i with
  | nil => rfl
  | cons cell cells ih =>
    cases i with
    | zero => rfl
    | succ i =>
      rw [labelsAfter, List.getElem?_cons_succ, ih, List.getElem?_cons_succ, List.take_succ_cons,
        List.map_cons, List.reverse_cons, List.append_assoc, List.singleton_append,
        Nat.add_right_comm, Nat.add_assoc]

theorem getElem?_columnLabels {header : List String} {i : Nat} {cell : String}
    (h : header[i]? = some cell) :
    (columnLabels header)[i]? =
      some (columnLabel (((columnLabels header).take i).map headerForm).reverse i cell) := by
  rw [columnLabels, getElem?_labelsAfter, h, Option.map_some, List.append_nil, Nat.zero_add]

/-- No label has the normal form of the header of an earlier column. -/
def LabelsApart (header : List String) : Prop :=
  ∀ i j label cell, j < i → (columnLabels header)[i]? = some label → header[j]? = some cell →
    headerForm label ≠ headerForm (columnName j cell)

variable {header : List String}

theorem mem_forms_take_iff {labels : List String} {i : Nat} {form : String} :
    form ∈ ((labels.take i).map headerForm).reverse ↔
      ∃ k < i, ∃ label, labels[k]? = some label ∧ headerForm label = form := by
  rw [List.mem_reverse, List.mem_map]
  constructor
  · rintro ⟨label, hmem, hform⟩
    obtain ⟨k, hk⟩ := List.mem_iff_getElem?.1 hmem
    rw [List.getElem?_take] at hk
    split at hk
    · rename_i hlt
      exact ⟨k, hlt, label, hk, hform⟩
    · cases hk
  · rintro ⟨k, hlt, label, hk, hform⟩
    refine ⟨label, List.mem_iff_getElem?.2 ⟨k, ?_⟩, hform⟩
    rw [List.getElem?_take_of_lt hlt, hk]

theorem exists_label_of_columnName {j : Nat} {cell : String} (h : header[j]? = some cell) :
    ∃ k ≤ j, ∃ label, (columnLabels header)[k]? = some label ∧
      headerForm label = headerForm (columnName j cell) := by
  have hlabel := getElem?_columnLabels h
  by_cases hseen : headerForm (columnName j cell) ∈
      (((columnLabels header).take j).map headerForm).reverse
  · obtain ⟨k, hlt, label, hk, hform⟩ := mem_forms_take_iff.1 hseen
    exact ⟨k, Nat.le_of_lt hlt, label, hk, hform⟩
  · rw [columnLabel_of_not_mem hseen] at hlabel
    exact ⟨j, Nat.le_refl j, _, hlabel, rfl⟩

theorem headerForm_label_ne {i j : Nat} {label label' : String} (hapart : LabelsApart header)
    (hji : j < i) (hj : (columnLabels header)[j]? = some label')
    (hi : (columnLabels header)[i]? = some label) : headerForm label' ≠ headerForm label := by
  intro heq
  have hlt (k : Nat) {a : String} (h : (columnLabels header)[k]? = some a) : k < header.length := by
    rw [← length_columnLabels]
    exact (List.getElem?_eq_some_iff.1 h).1
  have hcell (k : Nat) {a : String} (h : (columnLabels header)[k]? = some a) :
      ∃ cell, header[k]? = some cell := ⟨_, List.getElem?_eq_getElem (hlt k h)⟩
  obtain ⟨cell', hcell'⟩ := hcell j hj
  obtain ⟨cell, hcell⟩ := hcell i hi
  have hj' := Option.some.inj (hj.symm.trans (getElem?_columnLabels hcell'))
  have hi' := Option.some.inj (hi.symm.trans (getElem?_columnLabels hcell))
  by_cases hkept' : headerForm (columnName j cell') ∈
      (((columnLabels header).take j).map headerForm).reverse
  · by_cases hkept : headerForm (columnName i cell) ∈
        (((columnLabels header).take i).map headerForm).reverse
    · rw [columnLabel_of_mem hkept'] at hj'
      rw [columnLabel_of_mem hkept] at hi'
      rw [hj', hi'] at heq
      exact Nat.ne_of_lt hji (index_eq_of_headerForm_eq heq)
    · rw [columnLabel_of_not_mem hkept] at hi'
      exact hkept (mem_forms_take_iff.2 ⟨j, hji, label', hj, hi' ▸ heq⟩)
  · rw [columnLabel_of_not_mem hkept'] at hj'
    exact hapart i j label cell' hji hi hcell' (hj' ▸ heq.symm)

theorem nodup_forms_columnLabels_iff :
    ((columnLabels header).map headerForm).Nodup ↔ LabelsApart header := by
  constructor
  · intro hnodup i j label cell hji hi hj heq
    obtain ⟨k, hkj, label', hk, hform⟩ := exists_label_of_columnName hj
    have hki : k < i := Nat.lt_of_le_of_lt hkj hji
    refine List.nodup_iff_getElem?_ne_getElem?.1 hnodup k i hki ?_ ?_
    · rw [List.length_map]
      exact (List.getElem?_eq_some_iff.1 hi).1
    · rw [List.getElem?_map, List.getElem?_map, hk, hi, Option.map_some, Option.map_some, hform,
        heq]
  · intro hapart
    refine List.nodup_iff_getElem?_ne_getElem?.2 fun j i hji hlt heq => ?_
    rw [List.length_map] at hlt
    have hi := List.getElem?_eq_getElem hlt
    have hj := List.getElem?_eq_getElem (hji.trans hlt)
    rw [List.getElem?_map, List.getElem?_map, hi, hj] at heq
    exact headerForm_label_ne hapart hji hj hi (Option.some.inj heq)

end Payables.Table
