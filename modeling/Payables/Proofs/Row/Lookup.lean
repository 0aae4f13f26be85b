import Payables.Collection.Distinct
import Payables.Proofs.Collection.Labelled
import Payables.Proofs.Text.HeaderForm
import Payables.Row

/-!
# Cells found by their header

A cell is looked for under the header as it stands first, and then under its normal form. In a row
whose labels are not blank and stay apart in their normal forms, the first way finds what the second
would find. So the spelling of a header does not matter (`cell?_answersByForm`), and a row that is
built cell by cell keeps what it has found.
-/

namespace Payables.Row

open Text

variable {r : Row} {header label text : String}

/-- No label is blank, and no two have the same normal form. -/
structure LabelsApart (r : Row) : Prop where
  nonblank : ∀ e ∈ r.cells.entries, trim e.1.toList ≠ []
  nodup : (r.cells.entries.map fun e => headerForm e.1).Nodup

/-- A header is answered by its normal form: with the cell of the label that has it, or not at
all. -/
structure AnswersByForm (r : Row) : Prop where
  congr : ∀ header header', headerForm header = headerForm header' →
    r.cell? header = r.cell? header'
  isSome_iff : ∀ header, (r.cell? header).isSome = true ↔
    ∃ e ∈ r.cells.entries, headerForm e.1 = headerForm header
  eq_some : ∀ e ∈ r.cells.entries, ∀ header, headerForm e.1 = headerForm header →
    r.cell? header = some e.2

theorem mem_values_of_cell? (h : r.cell? header = some text) : text ∈ r.cells.values := by
  unfold cell? at h
  split at h
  · rename_i found hget
    rw [← Option.some.inj h]
    exact List.mem_map_of_mem (mem_of_lookup_eq_some hget)
  · dsimp only at h
    split at h
    · cases h
    · obtain ⟨entry, hentry, rfl⟩ := Option.map_eq_some_iff.1 h
      exact List.mem_map_of_mem (List.mem_of_find?_eq_some hentry)

theorem LabelsApart.find?_eq_some_iff (h : r.LabelsApart) {form : String} {e : String × String} :
    r.cells.entries.find? (headerForm ·.1 == form) = some e ↔
      e ∈ r.cells.entries ∧ headerForm e.1 = form :=
  find?_key_eq_some_iff (fun e : String × String => headerForm e.1) h.nodup

theorem LabelsApart.cell?_eq (h : r.LabelsApart) (header : String) : r.cell? header =
    (r.cells.entries.find? (headerForm ·.1 == headerForm header)).map Prod.snd := by
  rw [cell?]
  cases hget : r.cells.get? header with
  | some text =>
    have hmem : (header, text) ∈ r.cells.entries := mem_of_lookup_eq_some hget
    rw [h.find?_eq_some_iff.2 ⟨hmem, rfl⟩]
    rfl
  | none =>
    dsimp only
    split
    · rename_i hempty
      have hnone : r.cells.entries.find? (headerForm ·.1 == headerForm header) = none := by
        rw [List.find?_eq_none]
        intro e he hform
        apply h.nonblank e he
        rw [← headerForm_eq_empty_iff, beq_iff_eq.1 hform, String.isEmpty_iff.1 hempty]
      rw [hnone]
      rfl
    · rfl

theorem LabelsApart.cell?_eq_some_iff (h : r.LabelsApart) : r.cell? header = some text ↔
    ∃ e ∈ r.cells.entries, headerForm e.1 = headerForm header ∧ e.2 = text := by
  simp only [h.cell?_eq, Option.map_eq_some_iff, h.find?_eq_some_iff, and_assoc]

theorem LabelsApart.answersByForm (h : r.LabelsApart) : r.AnswersByForm where
  congr header header' hform := by rw [h.cell?_eq, h.cell?_eq, hform]
  isSome_iff header := by
    simp only [Option.isSome_iff_exists, h.cell?_eq_some_iff]
    constructor
    · rintro ⟨_, e, he, hform, rfl⟩
      exact ⟨e, he, hform⟩
    · rintro ⟨e, he, hform⟩
      exact ⟨e.2, e, he, hform, rfl⟩
  eq_some e he header hform := h.cell?_eq_some_iff.2 ⟨e, he, hform, rfl⟩

section

variable (hnew : ∀ e ∈ r.cells.entries, headerForm e.1 ≠ headerForm label)
include hnew

theorem entries_withCell (text : String) :
    (r.withCell label text).cells.entries = r.cells.entries ++ [(label, text)] := by
  apply Labelled.put_of_not_mem
  intro hmem
  obtain ⟨e, he, rfl⟩ := List.mem_map.1 hmem
  exact hnew e he rfl

theorem LabelsApart.withCell (h : r.LabelsApart) (hlabel : trim label.toList ≠ [])
    (text : String) : (r.withCell label text).LabelsApart := by
  constructor
  case nonblank =>
    rw [entries_withCell hnew, List.forall_mem_append, List.forall_mem_singleton]
    exact ⟨h.nonblank, hlabel⟩
  case nodup =>
    rw [entries_withCell hnew, List.map_append, List.map_singleton, List.nodup_append]
    refine ⟨h.nodup, List.nodup_singleton _, ?_⟩
    intro form hform form' hform' heq
    obtain ⟨e, he, rfl⟩ := List.mem_map.1 hform
    exact hnew e he (heq.trans (List.mem_singleton.1 hform'))

theorem LabelsApart.cell?_withCell (h : r.LabelsApart) (hlabel : trim label.toList ≠ [])
    (text : String) (hheader : headerForm header ≠ headerForm label) :
    (r.withCell label text).cell? header = r.cell? header := by
  have hother : [(label, text)].find? (headerForm ·.1 == headerForm header) = none := by
    simpa using hheader.symm
  rw [(h.withCell hnew hlabel text).cell?_eq, entries_withCell hnew, List.find?_append, hother,
    Option.or_none, h.cell?_eq]

end

/-- In a row with labels that stay apart, headers of one normal form find the same cell, that of the
label with the normal form. Adding a cell under a label of a new normal form leaves such a row, and
what is found under the other normal forms. -/
theorem cell?_answersByForm (h : r.LabelsApart) : r.AnswersByForm ∧
    ∀ label text : String, trim label.toList ≠ [] →
      (∀ e ∈ r.cells.entries, headerForm e.1 ≠ headerForm label) →
        (r.withCell label text).LabelsApart ∧ ∀ header, headerForm header ≠ headerForm label →
          (r.withCell label text).cell? header = r.cell? header := by
  refine ⟨h.answersByForm, fun label text hlabel hnew => ⟨h.withCell hnew hlabel text, ?_⟩⟩
  intro header hheader
  exact h.cell?_withCell hnew hlabel text hheader

def greekHeaders : Row :=
  { ordinal := 1, cells := .ofList [("Invoice\tNo", "7"), ("ΑΡΙΘΜΟΣ", "12"), ("İD", "9")] }

/-- The lower case of a capital sigma at the end of a word is a final one. -/
theorem cell?_answersByForm_greek :
    greekHeaders.LabelsApart ∧ headerForm " Αριθμος\u2003" = headerForm "αριθμος" ∧
      greekHeaders.cell? " Αριθμος\u2003" = greekHeaders.cell? "αριθμος" ∧
      greekHeaders.cell? "INVOICE  no" = some "7" ∧
      (greekHeaders.withCell "Due  date" "1 May").LabelsApart ∧
      (greekHeaders.withCell "Due  date" "1 May").cell? "i\u0307d" =
        greekHeaders.cell? "i\u0307d" := by
  have hapart : greekHeaders.LabelsApart := ⟨by decide +kernel, by decide +kernel⟩
  have hsigma : headerForm " Αριθμος\u2003" = headerForm "αριθμος" := by decide +kernel
  have hmem : ("Invoice\tNo", "7") ∈ greekHeaders.cells.entries := by decide +kernel
  have hform : headerForm "Invoice\tNo" = headerForm "INVOICE  no" := by decide +kernel
  obtain ⟨hanswers, hadd⟩ := cell?_answersByForm hapart
  obtain ⟨hapart', hkept⟩ :=
    hadd "Due  date" "1 May" (by decide +kernel) (by decide +kernel)
  exact ⟨hapart, hsigma, hanswers.congr _ _ hsigma, hanswers.eq_some _ hmem _ hform, hapart',
    hkept _ (by decide +kernel)⟩

end Payables.Row
