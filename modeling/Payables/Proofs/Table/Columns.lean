import Mathlib.Data.List.Sort
import Payables.Proofs.Text.HeaderForm
import Payables.Table.Columns

/-!
# Columns that are kept

A column is kept iff no column before it has its form (`mem_distinctColumns_iff`), and the kept ones
stand in their order. So two grids of one width keep the same columns if the same columns of them
have one form (`distinctColumns_congr`). A blank cell has the form of a missing one.
-/

namespace Payables.Table

open Text

variable {rows rows' : List (List String)} {header header' : Nat}

theorem widthOf_le_iff {n : Nat} : widthOf rows ≤ n ↔ ∀ row ∈ rows, row.length ≤ n := by
  have hfold (lengths : List Nat) (m : Nat) :
      lengths.foldl max m ≤ n ↔ m ≤ n ∧ ∀ length ∈ lengths, length ≤ n := by
    induction lengths generalizing m with
    | nil => simp
    | cons length lengths ih =>
      rw [List.foldl_cons, ih, Nat.max_le, List.forall_mem_cons, and_assoc]
  rw [widthOf, hfold, List.forall_mem_map]
  exact and_iff_right (Nat.zero_le n)

theorem length_le_widthOf {row : List String} (h : row ∈ rows) : row.length ≤ widthOf rows :=
  widthOf_le_iff.1 (Nat.le_refl _) row h

theorem pairwise_distinctColumns (rows : List (List String)) (header : Nat) :
    (distinctColumns rows header).Pairwise (· < ·) := by
  have hsub := (firstOfEach_sublist Prod.snd
    ((List.range (widthOf rows)).map fun c => (c, columnForm rows header c))).map Prod.fst
  have hfst : ((List.range (widthOf rows)).map fun c => (c, columnForm rows header c)).map
      Prod.fst = List.range (widthOf rows) := by
    rw [List.map_map]
    exact List.map_id _
  rw [hfst] at hsub
  exact List.pairwise_lt_range.sublist hsub

theorem mem_distinctColumns_iff {j : Nat} : j ∈ distinctColumns rows header ↔
    j < widthOf rows ∧ ∀ i < j, columnForm rows header i ≠ columnForm rows header j := by
  have hmem : j ∈ distinctColumns rows header ↔ (j, columnForm rows header j) ∈ firstOfEach Prod.snd
      ((List.range (widthOf rows)).map fun c => (c, columnForm rows header c)) := by
    rw [distinctColumns, List.mem_map]
    constructor
    · rintro ⟨c, hc, rfl⟩
      obtain ⟨k, -, rfl⟩ := List.mem_map.1 ((firstOfEach_sublist Prod.snd _).mem hc)
      exact hc
    · exact fun h => ⟨_, h, rfl⟩
  rw [hmem, mem_firstOfEach, List.find?_map, Option.map_eq_some_iff]
  constructor
  · rintro ⟨k, hk, heq⟩
    obtain rfl : k = j := congrArg Prod.fst heq
    obtain ⟨-, hlt, hfirst⟩ := List.find?_range_eq_some.1 hk
    exact ⟨List.mem_range.1 hlt, fun i hi heq => by simpa [heq] using hfirst i hi⟩
  · rintro ⟨hlt, hfirst⟩
    refine ⟨j, List.find?_range_eq_some.2 ⟨by simp, List.mem_range.2 hlt, fun i hi => ?_⟩, rfl⟩
    simpa using hfirst i hi

theorem distinctColumns_congr (hwidth : widthOf rows = widthOf rows')
    (hforms : ∀ i j, columnForm rows header i = columnForm rows header j ↔
      columnForm rows' header' i = columnForm rows' header' j) :
    distinctColumns rows header = distinctColumns rows' header' := by
  refine (pairwise_distinctColumns rows header).eq_of_mem_iff
    (pairwise_distinctColumns rows' header') fun j => ?_
  simp only [mem_distinctColumns_iff, hwidth, Ne, hforms]

theorem columnForm_eq_iff {i j : Nat} : columnForm rows header i = columnForm rows header j ↔
    ∀ k row, rows[k]? = some row →
      if k = header then headerForm (cellAt row i) = headerForm (cellAt row j)
      else cellForm (cellAt row i) = cellForm (cellAt row j) := by
  simp only [columnForm, List.map_inj_left, Prod.forall, List.mem_zipIdx_iff_getElem?]
  rw [forall_comm]
  refine forall_congr' fun k => forall_congr' fun row => imp_congr_right fun _ => ?_
  split
  · rw [CellForm.words.injEq]
  · rfl

theorem read?_of_blank {f : AmountFormat} {cell : String} (h : allBlank cell.toList = true) :
    f.read? cell = none := by
  have htrim : trim cell.toList = [] := trim_eq_nil_iff.2 (List.all_eq_true.1 h)
  rw [AmountFormat.read?, AmountFormat.readChars?, htrim]
  rfl

theorem cellForm_of_blank {cell : String} (h : allBlank cell.toList = true) :
    cellForm cell = .words "" := by
  rw [cellForm, read?_of_blank h, headerForm_of_blank h]

theorem cellAt_eq_or_mem (row : List String) (column : Nat) :
    cellAt row column = "" ∨ cellAt row column ∈ row := by
  rw [cellAt, List.getD_eq_getElem?_getD]
  cases hget : row[column]? with
  | none => exact .inl rfl
  | some cell => exact .inr (List.mem_of_getElem? hget)

theorem allBlank_cellAt {row : List String} (h : isBlankRow row = true) (column : Nat) :
    allBlank (cellAt row column).toList = true := by
  rcases cellAt_eq_or_mem row column with hempty | hmem
  · rw [hempty]
    rfl
  · exact List.all_eq_true.1 h _ hmem

theorem isBlankRow_projectRow {row : List String} (h : isBlankRow row = true) (kept : List Nat) :
    isBlankRow (projectRow kept row) = true := by
  refine List.all_eq_true.2 fun cell hcell => ?_
  obtain ⟨column, -, rfl⟩ := List.mem_map.1 hcell
  exact allBlank_cellAt h column

end Payables.Table
