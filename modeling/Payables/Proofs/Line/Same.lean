import Payables.Line.Basic
import Payables.Proofs.Amount.Value
import Payables.Proofs.Collection.Labelled

/-!
# The same line

Lines are the same if they have the same amounts and cells under the same labels, in whatever order,
and agree in all other fields. The cells of the same line are the same as a set, and each amount has
its like.
-/

namespace Payables

/-- The same line, with the same text under each header and the same value under each label. -/
structure Line.Same (a b : Line) : Prop where
  eq_but : b = { a with amounts := b.amounts, cells := b.cells }
  amounts : ∀ label, (b.amounts.get? label).map Amount.value =
    (a.amounts.get? label).map Amount.value
  cells : ∀ header, b.cells.get? header = a.cells.get? header

namespace Line.Same

variable {a b : Line}

theorem symm (h : a.Same b) : b.Same a where
  eq_but := by rw [h.eq_but]
  amounts label := (h.amounts label).symm
  cells header := (h.cells header).symm

theorem number_eq (h : a.Same b) : b.number = a.number := by rw [h.eq_but]

theorem reference_eq (h : a.Same b) : b.reference = a.reference := by rw [h.eq_but]

theorem mem_cells_iff (h : a.Same b) {cell : String × String} :
    cell ∈ a.cells.entries ↔ cell ∈ b.cells.entries := by
  rw [← lookup_eq_some_iff_mem a.cells.nodup, ← lookup_eq_some_iff_mem b.cells.nodup]
  exact iff_of_eq (congrArg (· = some cell.2) (h.cells cell.1).symm)

theorem exists_amount (h : a.Same b) {P : String → Amount → Prop}
    (hP : ∀ label {x y : Amount}, x.value = y.value → (P label x ↔ P label y))
    (ha : ∃ e ∈ a.amounts.entries, P e.1 e.2) : ∃ e ∈ b.amounts.entries, P e.1 e.2 := by
  obtain ⟨⟨label, x⟩, he, hPx⟩ := ha
  have hlookup : a.amounts.get? label = some x := (lookup_eq_some_iff_mem a.amounts.nodup).2 he
  have hvalue := h.amounts label
  rw [hlookup, Option.map_some, Option.map_eq_some_iff] at hvalue
  obtain ⟨y, hy, hxy⟩ := hvalue
  exact ⟨(label, y), mem_of_lookup_eq_some hy, (hP label hxy.symm).1 hPx⟩

theorem of_perm {cells : Labelled String} (h : a.cells.entries.Perm cells.entries) :
    a.Same { a with cells } where
  eq_but := rfl
  amounts _ := rfl
  cells header := lookup_eq_of_perm a.cells.nodup h header

end Line.Same

end Payables
