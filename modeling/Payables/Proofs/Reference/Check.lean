import Payables.Proofs.Reference.Candidates
import Payables.Reference.Check

/-!
# What the check reports

Beyond the references that are missing from a text the check reports its strays: what the text can
be read as that belongs to the family of the references and is none of them (`IsStray`). So a
reference that was left out is always reported (`check_reports_leftOut`).
-/

namespace Payables.ReferenceSettings

open Text Family

variable {s : ReferenceSettings} {text t : String} {lines : List Line}

/-- The text can be read as a member of the family of the references that is not one of them. -/
structure IsStray (s : ReferenceSettings) (text : String) (refs : List String) (t : String) :
    Prop where
  member : ∃ family, learn s refs = some family ∧ family.fits t = true
  reading : IsReading s.longestWindow text t
  ne : ∀ r ∈ refs, referenceForm r ≠ t

theorem mem_sourceCandidates_iff {refs : List String} :
    t ∈ s.sourceCandidates text refs ↔
      (∃ family, learn s refs = some family ∧ family.fits t = true) ∧
        IsReading s.longestWindow text t := by
  rw [sourceCandidates]
  cases learn s refs with
  | none => simp
  | some family => simp [mem_candidates_iff]

theorem mem_sourceOnly_iff {refs : List String} :
    t ∈ (s.sourceCandidates text refs).toList.filter
        (!(distinct (refs.map referenceForm)).contains ·) ↔ s.IsStray text refs t := by
  have hnew : (!(distinct (refs.map referenceForm)).contains t) = true ↔
      ∀ r ∈ refs, referenceForm r ≠ t := by
    simp [mem_distinct]
  rw [List.mem_filter, Std.ExtTreeSet.mem_toList, mem_sourceCandidates_iff, hnew]
  exact ⟨fun ⟨⟨hmember, hreading⟩, hne⟩ => ⟨hmember, hreading, hne⟩,
    fun ⟨hmember, hreading, hne⟩ => ⟨⟨hmember, hreading⟩, hne⟩⟩

/-- What is said of a text: it passes if it has all references and no stray, and otherwise both are
reported. -/
inductive IsChecked (s : ReferenceSettings) (text : String) (refs : List String) :
    CheckOutcome → Prop
  | passed (candidates : Nat) : missing text refs = [] → (∀ t, ¬ s.IsStray text refs t) →
      IsChecked s text refs (.passed refs.length candidates)
  | mismatch (m : Mismatch) : m.checked = refs.length →
      m.found = refs.length - m.missing.length → m.missing = missing text refs →
      (∀ t, t ∈ m.sourceOnly ↔ s.IsStray text refs t) → m.missing ≠ [] ∨ m.sourceOnly ≠ [] →
      IsChecked s text refs (.mismatch m)

theorem isChecked_checkText (s : ReferenceSettings) (text : String) (lines : List Line) :
    IsChecked s text (s.references lines) (s.checkText text lines) := by
  rw [checkText]
  split
  · rename_i h
    refine .passed _ h.1 fun t ht => ?_
    have hmem := mem_sourceOnly_iff.2 ht
    rw [h.2] at hmem
    cases hmem
  · rename_i h
    exact .mismatch _ rfl rfl rfl (fun _ => mem_sourceOnly_iff) (not_and_or.1 h)

theorem check_eq_checkText (h : ∃ c ∈ text.toList, isBlank c = false) :
    s.check (some text) lines = s.checkText text lines := by
  have hne : trim text.toList ≠ [] := by
    intro hnone
    obtain ⟨c, hc, hblank⟩ := h
    rw [trim_eq_nil_iff.1 hnone c hc] at hblank
    cases hblank
  rw [check, if_neg hne]

/-- A reference that is written in the text, belongs to the family of the references of the lines
and is none of them is reported. -/
theorem check_reports_leftOut {family : Family} {n : Nat} {before r after : String}
    (hr : Joined isAsciiAlphanumeric isJoint n r.toList) (hn : n ≤ s.longestWindow)
    (hbefore : ∀ c ∈ before.toList.getLast?, IsBoundary c)
    (hafter : ∀ c ∈ after.toList.head?, IsBoundary c)
    (hfamily : learn s (s.references lines) = some family)
    (hfits : family.fits (referenceForm r) = true)
    (hnew : ∀ r' ∈ s.references lines, referenceForm r' ≠ referenceForm r) :
    ∃ m, s.check (some (before ++ r ++ after)) lines = .mismatch m ∧
      referenceForm r ∈ m.sourceOnly := by
  have hstray : s.IsStray (before ++ r ++ after) (s.references lines) (referenceForm r) :=
    ⟨⟨family, hfamily, hfits⟩, isReading_of_joined hr hn hbefore hafter, hnew⟩
  have hblank : ∃ c ∈ (before ++ r ++ after).toList, isBlank c = false := by
    obtain ⟨c, hc, hrun⟩ := hr.exists_head
    refine ⟨c, by simp [List.mem_of_mem_head? hc], ?_⟩
    cases hb : isBlank c with
    | false => rfl
    | true => rw [(isCaseless_of_isBlank hb).1] at hrun; cases hrun
  rw [check_eq_checkText hblank]
  have hchecked := isChecked_checkText s (before ++ r ++ after) lines
  generalize s.checkText (before ++ r ++ after) lines = outcome at hchecked
  cases hchecked with
  | passed _ _ hnone => exact absurd hstray (hnone _)
  | mismatch m _ _ _ hsourceOnly _ => exact ⟨m, rfl, (hsourceOnly _).2 hstray⟩

def twoInvoices : List Line :=
  [{ Line.ofOrdinal "s" 1 with number := "INV-100" },
    { Line.ofOrdinal "s" 2 with number := "INV-101" }]

theorem check_reports_leftOut_invoice :
    ∃ m, check {} (some ("Nr. " ++ "inv 102" ++ "; due")) twoInvoices = .mismatch m ∧
      "INV102" ∈ m.sourceOnly := by
  have hword : ['i', 'n', 'v'].all isAsciiAlphanumeric = true := by decide
  have hgap : [' '].all isJoint = true := by decide
  have hnumber : ['1', '0', '2'].all isAsciiAlphanumeric = true := by decide
  have hr : Joined isAsciiAlphanumeric isJoint 2 "inv 102".toList :=
    .join (by simp) (List.all_eq_true.1 hword) (by simp) (List.all_eq_true.1 hgap)
      (.run (by simp) (List.all_eq_true.1 hnumber))
  have hbefore : ∀ c ∈ "Nr. ".toList.getLast?, IsBoundary c := by
    rintro _ ⟨⟩
    decide
  have hafter : ∀ c ∈ "; due".toList.head?, IsBoundary c := by
    rintro _ ⟨⟩
    decide
  have hfamily : learn {} (references {} twoInvoices) = some ⟨[.digits "INV" 3 3]⟩ := by
    decide +kernel
  have hform : referenceForm "inv 102" = "INV102" := by decide +kernel
  rw [← hform]
  exact check_reports_leftOut hr (by decide) hbefore hafter hfamily (by decide +kernel)
    (by decide +kernel)

end Payables.ReferenceSettings
