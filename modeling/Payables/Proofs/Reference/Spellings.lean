import Payables.Proofs.Reference.Check

/-!
# References that stand in the text

A text has the normal forms of all its stretches in its own normal form, in the same places. So a
reference is reported as missing iff its normal form does not stand in that of the text, and never
if some spelling of it stands in the text, whatever is written around it (`missing_check`).
-/

namespace Payables

open Text

def CheckOutcome.missing : CheckOutcome → List String
  | .mismatch m => m.missing
  | .skipped => []
  | .passed _ _ => []

namespace ReferenceSettings

variable {s : ReferenceSettings} {text r spelling : String} {refs : List String}
  {lines : List Line}

theorem mem_missing_iff : r ∈ missing text refs ↔
    r ∈ refs ∧ ¬ (referenceForm r).toList <:+: (referenceForm text).toList := by
  rw [missing, List.mem_filter, Bool.not_eq_true', ← Bool.not_eq_true, contains_iff_infix]

theorem IsChecked.missing_eq {outcome : CheckOutcome} (h : IsChecked s text refs outcome) :
    outcome.missing = missing text refs := by
  cases h with
  | passed _ hnone _ => exact hnone.symm
  | mismatch _ _ _ hmissing _ _ => exact hmissing

/-- The normal form goes character by character, so it keeps stretches. -/
theorem infix_referenceForm (h : spelling.toList <:+: text.toList) :
    (referenceForm spelling).toList <:+: (referenceForm text).toList := by
  obtain ⟨before, after, htext⟩ := h
  refine ⟨referenceChars before, referenceChars after, ?_⟩
  rw [toList_referenceForm, toList_referenceForm, ← htext, referenceChars_append,
    referenceChars_append]

/-- What a check reports as missing are the references whose normal form does not stand in that of
the text, and so none that has a spelling in the text. -/
theorem missing_check (s : ReferenceSettings) (lines : List Line) (htext : trim text.toList ≠ []) :
    (∀ r, r ∈ (s.check (some text) lines).missing ↔
      r ∈ s.references lines ∧ ¬ (referenceForm r).toList <:+: (referenceForm text).toList) ∧
    ∀ (l : Line) (spelling : String), spelling.toList <:+: text.toList →
      referenceForm spelling = referenceForm (s.field.textOf l) →
        s.referenceOf l ∉ (s.check (some text) lines).missing := by
  have hmissing : ∀ r, r ∈ (s.check (some text) lines).missing ↔
      r ∈ s.references lines ∧ ¬ (referenceForm r).toList <:+: (referenceForm text).toList := by
    intro r
    rw [check, if_neg htext, (isChecked_checkText s text lines).missing_eq, mem_missing_iff]
  refine ⟨hmissing, fun l spelling hspelling hform hmem => ?_⟩
  have hstands := infix_referenceForm hspelling
  rw [hform, ← referenceForm_trimmed] at hstands
  exact ((hmissing _).1 hmem).2 hstands

def streetReference : Line :=
  { Line.ofOrdinal "2024-03" 1 with number := "7", reference := " STRASSE-12.7 " }

/-- In capitals the letter `ß` becomes two, and separators do not count. -/
theorem missing_check_street :
    let s : ReferenceSettings := { field := .reference }
    let text := "Re: (Hauptstraße_12/7); INV-1"
    trim text.toList ≠ [] ∧ "straße_12/7".toList <:+: text.toList ∧
      referenceForm "straße_12/7" = referenceForm (s.field.textOf streetReference) ∧
      s.referenceOf streetReference = "STRASSE-12.7" ∧
      "STRASSE-12.7" ∉ (s.check (some text) [streetReference]).missing := by
  intro s text
  have htext : trim text.toList ≠ [] := by decide +kernel
  have hspelling : "straße_12/7".toList <:+: text.toList :=
    ⟨"Re: (Haupt".toList, "); INV-1".toList, by decide +kernel⟩
  have hform : referenceForm "straße_12/7" = referenceForm (s.field.textOf streetReference) := by
    decide +kernel
  have href : s.referenceOf streetReference = "STRASSE-12.7" := by decide +kernel
  have hmissing := (missing_check s [streetReference] htext).2 streetReference _ hspelling hform
  rw [href] at hmissing
  exact ⟨htext, hspelling, hform, href, hmissing⟩

end ReferenceSettings

end Payables
