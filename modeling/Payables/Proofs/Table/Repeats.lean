import Payables.Proofs.Amount.Words
import Payables.Proofs.Table.Columns

/-!
# Columns that repeat others

Two columns are the same if their headers have one normal form and their other cells show the same
(`ShowSame`): amounts of one value, or no amounts but words of one normal form. The columns are told
apart by a text for each cell, and what cells show is known from the text (`signature_eq_iff`), but
for one slip: the scale of an amount may come round when its trailing zeros are taken out, so that
two different amounts have one normal form. If none does, exactly the columns are dropped that
repeat an earlier one (`dropsRepeats_distinctColumns`); else one may be dropped that repeats none
(`not_dropsRepeats_scales`).
-/

namespace Payables.Table

open Text

variable {rows : List (List String)} {header i j : Nat} {agree : ℚ → ℚ → Prop}

def amount? (cell : String) : Option Amount := AmountFormat.read? {} cell

/-- Amounts with values that agree, or no amounts but words with one normal form. -/
inductive ShowSame (agree : ℚ → ℚ → Prop) (cell cell' : String) : Prop
  | amounts (a b : Amount) (ha : amount? cell = some a) (hb : amount? cell' = some b)
      (hvalue : agree a.value b.value)
  | words (hnone : amount? cell = none) (hnone' : amount? cell' = none)
      (hform : headerForm cell = headerForm cell')

/-- The text that stands for a cell when columns are compared. -/
def signature (cell : String) : String :=
  match amount? cell with
  | some a => a.lowest.text
  | none => headerForm cell

theorem cellForm_eq (cell : String) : cellForm cell =
    match amount? cell with
    | some a => .amount a.normalForm
    | none => .words (headerForm cell) := rfl

theorem showSame_iff {cell cell' : String} : ShowSame agree cell cell' ↔
    (∃ a b, amount? cell = some a ∧ amount? cell' = some b ∧ agree a.value b.value) ∨
      amount? cell = none ∧ amount? cell' = none ∧ headerForm cell = headerForm cell' := by
  constructor
  · rintro (⟨a, b, ha, hb, hvalue⟩ | ⟨hnone, hnone', hform⟩)
    · exact .inl ⟨a, b, ha, hb, hvalue⟩
    · exact .inr ⟨hnone, hnone', hform⟩
  · rintro (⟨a, b, ha, hb, hvalue⟩ | ⟨hnone, hnone', hform⟩)
    · exact .amounts a b ha hb hvalue
    · exact .words hnone hnone' hform

theorem cellForm_eq_iff {cell cell' : String} :
    cellForm cell = cellForm cell' ↔ ShowSame Amount.SameInRounds cell cell' := by
  rw [cellForm_eq, cellForm_eq, showSame_iff]
  cases amount? cell <;> cases amount? cell' <;> simp [Amount.normalForm_eq_iff]

theorem headerForm_ne_text {cell : String} (h : amount? cell = none) (a : Amount) :
    headerForm cell ≠ a.text := by
  intro hform
  have hread := isSome_read?_of_headerForm_eq hform
  rw [amount?] at h
  rw [h] at hread
  cases hread

theorem signature_eq_iff {cell cell' : String} :
    signature cell = signature cell' ↔ cellForm cell = cellForm cell' := by
  rw [cellForm_eq, cellForm_eq, signature, signature]
  cases hcell : amount? cell <;> cases hcell' : amount? cell'
  · simp
  · simp [headerForm_ne_text hcell]
  · simp [(headerForm_ne_text hcell' _).symm]
  · simp [Amount.text_lowest_eq_iff]

/-- The headers of two columns have one normal form, and their other cells show the same. -/
def SameColumns (agree : ℚ → ℚ → Prop) (rows : List (List String)) (header i j : Nat) : Prop :=
  ∀ k row, rows[k]? = some row →
    if k = header then headerForm (cellAt row i) = headerForm (cellAt row j)
    else ShowSame agree (cellAt row i) (cellAt row j)

def columnSignature (rows : List (List String)) (header column : Nat) : List String :=
  rows.zipIdx.map fun (row, index) =>
    if index = header then headerForm (cellAt row column) else signature (cellAt row column)

theorem columnForm_eq_iff_sameColumns : columnForm rows header i = columnForm rows header j ↔
    SameColumns Amount.SameInRounds rows header i j := by
  simp only [columnForm_eq_iff, SameColumns, cellForm_eq_iff]

theorem columnSignature_eq_iff : columnSignature rows header i = columnSignature rows header j ↔
    columnForm rows header i = columnForm rows header j := by
  rw [columnSignature, columnSignature, columnForm, columnForm, List.map_inj_left,
    List.map_inj_left]
  refine forall₂_congr fun r _ => ?_
  dsimp only
  split
  · rw [CellForm.words.injEq]
  · exact signature_eq_iff

variable {kept : List Nat}

theorem cellAt_projectRow (row : List String) (hi : i < kept.length) :
    cellAt (projectRow kept row) i = cellAt row kept[i] := by
  rw [cellAt, projectRow, List.getD_eq_getElem?_getD, List.getElem?_map,
    List.getElem?_eq_getElem hi]
  rfl

theorem columnForm_project (rows : List (List String)) (header : Nat) (hi : i < kept.length) :
    columnForm (project kept rows) header i = columnForm rows header kept[i] := by
  rw [columnForm, project, List.zipIdx_map, List.map_map, columnForm]
  refine List.map_congr_left fun r _ => ?_
  simp [cellAt_projectRow r.1 hi]

theorem widthOf_project (kept : List Nat) (hne : rows ≠ []) :
    widthOf (project kept rows) = kept.length := by
  have hlength : ∀ row ∈ project kept rows, row.length = kept.length := by
    intro row hrow
    obtain ⟨source, -, rfl⟩ := List.mem_map.1 hrow
    exact List.length_map _
  have hne' : project kept rows ≠ [] := by simpa [project] using hne
  obtain ⟨row, hrow⟩ := List.exists_mem_of_ne_nil _ hne'
  apply Nat.le_antisymm
  · exact widthOf_le_iff.2 fun row hrow => (hlength row hrow).le
  · exact (hlength row hrow).symm.trans_le (length_le_widthOf hrow)

theorem distinctColumns_withoutRepeats (header : Nat) (hne : rows ≠ []) :
    distinctColumns (withoutRepeats rows header) header =
      List.range (distinctColumns rows header).length := by
  refine (pairwise_distinctColumns _ _).eq_of_mem_iff List.pairwise_lt_range fun j => ?_
  rw [mem_distinctColumns_iff, withoutRepeats, widthOf_project _ hne, List.mem_range]
  refine and_iff_left_of_imp fun hj i hi => ?_
  rw [columnForm_project rows header hj, columnForm_project rows header (hi.trans hj)]
  have hlt := List.pairwise_iff_getElem.1 (pairwise_distinctColumns rows header) i j (hi.trans hj)
    hj hi
  exact (mem_distinctColumns_iff.1 (List.getElem_mem hj)).2 _ hlt

theorem projectRow_range (row : List String) : projectRow (List.range row.length) row = row := by
  refine List.ext_getElem (by simp [projectRow]) fun i hi hi' => ?_
  simp [projectRow, cellAt, hi']

theorem withoutRepeats_withoutRepeats (rows : List (List String)) (header : Nat) :
    withoutRepeats (withoutRepeats rows header) header = withoutRepeats rows header := by
  by_cases hne : rows = []
  · subst hne
    rfl
  conv_lhs => rw [withoutRepeats, distinctColumns_withoutRepeats header hne]
  conv_rhs => rw [← List.map_id (withoutRepeats rows header)]
  refine List.map_congr_left fun row hrow => ?_
  obtain ⟨source, -, rfl⟩ := List.mem_map.1 hrow
  have hlength : (projectRow (distinctColumns rows header) source).length =
      (distinctColumns rows header).length := List.length_map _
  rw [← hlength]
  exact projectRow_range _

/-- The kept columns are in order and no two of them are the same, every other column is the same as
a kept one before it, and without the others there is nothing more to drop. -/
structure DropsRepeats (agree : ℚ → ℚ → Prop) (rows : List (List String)) (header : Nat) :
    Prop where
  increasing : (distinctColumns rows header).Pairwise (· < ·)
  lt_width : ∀ j ∈ distinctColumns rows header, j < widthOf rows
  apart : (distinctColumns rows header).Pairwise fun i j => ¬ SameColumns agree rows header i j
  repeats : ∀ j < widthOf rows, j ∉ distinctColumns rows header →
    ∃ i ∈ distinctColumns rows header, i < j ∧ SameColumns agree rows header i j
  idempotent : withoutRepeats (withoutRepeats rows header) header = withoutRepeats rows header

theorem exists_kept_before (hj : j < widthOf rows) (hdropped : j ∉ distinctColumns rows header) :
    ∃ i ∈ distinctColumns rows header,
      i < j ∧ columnForm rows header i = columnForm rows header j := by
  have hsame : ∃ i, i < j ∧ columnForm rows header i = columnForm rows header j := by
    by_contra hnone
    push Not at hnone
    exact hdropped (mem_distinctColumns_iff.2 ⟨hj, hnone⟩)
  obtain ⟨hlt, hform⟩ := Nat.find_spec hsame
  refine ⟨Nat.find hsame, mem_distinctColumns_iff.2 ⟨hlt.trans hj, fun i hi heq => ?_⟩, hlt, hform⟩
  exact Nat.find_min hsame hi ⟨hi.trans hlt, heq.trans hform⟩

theorem dropsRepeats_of_iff (h : ∀ i j, columnForm rows header i = columnForm rows header j ↔
    SameColumns agree rows header i j) : DropsRepeats agree rows header where
  increasing := pairwise_distinctColumns rows header
  lt_width j hj := (mem_distinctColumns_iff.1 hj).1
  apart := (pairwise_distinctColumns rows header).imp_of_mem fun {i j} _ hj hlt hsame =>
    (mem_distinctColumns_iff.1 hj).2 i hlt ((h i j).2 hsame)
  repeats j hj hdropped := by
    obtain ⟨i, hi, hlt, hform⟩ := exists_kept_before hj hdropped
    exact ⟨i, hi, hlt, (h i j).1 hform⟩
  idempotent := withoutRepeats_withoutRepeats rows header

/-- No cell outside the header shows an amount whose scale comes round. -/
def NoneComesRound (rows : List (List String)) (header : Nat) : Prop :=
  ∀ r ∈ rows.zipIdx, r.2 ≠ header → ∀ cell ∈ r.1, ∀ a ∈ amount? cell, ¬ a.ComesRound

instance (rows : List (List String)) (header : Nat) : Decidable (NoneComesRound rows header) :=
  inferInstanceAs (Decidable (∀ r ∈ rows.zipIdx, _))

theorem mem_of_amount?_cellAt {row : List String} {a : Amount}
    (h : amount? (cellAt row i) = some a) : cellAt row i ∈ row := by
  refine (cellAt_eq_or_mem row i).resolve_left fun hempty => ?_
  rw [hempty] at h
  cases h

theorem ShowSame.imp {agree' : ℚ → ℚ → Prop} {cell cell' : String}
    (h : ShowSame agree cell cell') (himp : ∀ a b, amount? cell = some a → amount? cell' = some b →
      agree a.value b.value → agree' a.value b.value) : ShowSame agree' cell cell' := by
  cases h with
  | amounts a b ha hb hvalue => exact .amounts a b ha hb (himp a b ha hb hvalue)
  | words hnone hnone' hform => exact .words hnone hnone' hform

theorem SameColumns.imp {agree' : ℚ → ℚ → Prop} (h : SameColumns agree rows header i j)
    (himp : ∀ k row, rows[k]? = some row → k ≠ header → ∀ a b, amount? (cellAt row i) = some a →
      amount? (cellAt row j) = some b → agree a.value b.value → agree' a.value b.value) :
    SameColumns agree' rows header i j := by
  intro k row hrow
  have hsame := h k row hrow
  by_cases hk : k = header
  · rwa [if_pos hk] at hsame ⊢
  · rw [if_neg hk] at hsame ⊢
    exact hsame.imp (himp k row hrow hk)

theorem SameColumns.inRounds (h : SameColumns (· = ·) rows header i j) :
    SameColumns Amount.SameInRounds rows header i j :=
  h.imp fun _ _ _ _ _ _ _ _ => .of_eq

theorem sameColumns_iff_of_noneComesRound (h : NoneComesRound rows header) :
    SameColumns Amount.SameInRounds rows header i j ↔ SameColumns (· = ·) rows header i j := by
  constructor
  · refine fun hsame => hsame.imp fun k row hrow hk a b ha hb hvalue => ?_
    have hnone := h ⟨row, k⟩ (List.mem_zipIdx_iff_getElem?.2 hrow) hk
    rw [← Amount.normalForm_eq_iff, Amount.normalForm_eq_iff_value_eq] at hvalue
    · exact hvalue
    · exact hnone _ (mem_of_amount?_cellAt ha) a ha
    · exact hnone _ (mem_of_amount?_cellAt hb) b hb
  · exact SameColumns.inRounds

/-- For any rows and header: a column is kept iff no column before it has its texts. The kept
columns are in order and no two of them are the same, and the others repeat kept ones before them
but for the scales coming round; if no scale does, they repeat them. -/
theorem dropsRepeats_distinctColumns (rows : List (List String)) (header : Nat) :
    (∀ j, j ∈ distinctColumns rows header ↔ j < widthOf rows ∧
      ∀ i < j, columnSignature rows header i ≠ columnSignature rows header j) ∧
    ((distinctColumns rows header).Pairwise fun i j => ¬ SameColumns (· = ·) rows header i j) ∧
    DropsRepeats Amount.SameInRounds rows header ∧
    (NoneComesRound rows header → DropsRepeats (· = ·) rows header) := by
  have hrounds : DropsRepeats Amount.SameInRounds rows header :=
    dropsRepeats_of_iff fun _ _ => columnForm_eq_iff_sameColumns
  refine ⟨fun j => ?_, ?_, hrounds, fun h => ?_⟩
  · simp only [mem_distinctColumns_iff, Ne, columnSignature_eq_iff]
  · exact hrounds.apart.imp fun hnot hsame => hnot hsame.inRounds
  · exact dropsRepeats_of_iff fun _ _ =>
      columnForm_eq_iff_sameColumns.trans (sameColumns_iff_of_noneComesRound h)

def raggedRows : List (List String) := [["Due", "due ", "Paid"], ["1.50", "$1.5"], ["-", "- ", "2"]]

theorem dropsRepeats_raggedRows :
    NoneComesRound raggedRows 0 ∧ distinctColumns raggedRows 0 = [0, 2] ∧
      DropsRepeats (· = ·) raggedRows 0 := by
  have hnone : NoneComesRound raggedRows 0 := by decide +kernel
  exact ⟨hnone, by decide +kernel, (dropsRepeats_distinctColumns raggedRows 0).2.2.2 hnone⟩

def scaleRows : List (List String) :=
  [["A", "a "], ["10e9223372036854775808", "1e-9223372036854775807"]]

/-- The second column is dropped, though it does not show what the first one shows. -/
theorem not_dropsRepeats_scales : ¬ DropsRepeats (· = ·) scaleRows 0 := by
  have hkept : distinctColumns scaleRows 0 = [0] := by decide +kernel
  have hfirst : amount? "10e9223372036854775808" =
      some ⟨10, -9223372036854775808, by decide⟩ := by decide +kernel
  have hsecond : amount? "1e-9223372036854775807" =
      some ⟨1, 9223372036854775807, by decide⟩ := by decide +kernel
  intro h
  obtain ⟨i, hi, -, hsame⟩ := h.repeats 1 (by decide) (by rw [hkept]; decide)
  rw [hkept, List.mem_singleton] at hi
  subst hi
  have hshow : ShowSame (· = ·) "10e9223372036854775808" "1e-9223372036854775807" := hsame 1 _ rfl
  cases hshow with
  | amounts a b ha hb hvalue =>
    obtain rfl := Option.some.inj (hfirst.symm.trans ha)
    obtain rfl := Option.some.inj (hsecond.symm.trans hb)
    have hscale := Amount.lowestScale_eq_of_value_eq (by decide) (by decide) hvalue
    exact absurd hscale (by decide +kernel)
  | words hnone => simp [hfirst] at hnone

end Payables.Table
