import Payables.Proofs.Line.Flagging
import Payables.Screening

/-!
# What screening finds on a line

A line is found to lack its number iff nothing is left of the number when it is trimmed, and it is
found to be an outlier iff keywords hit its number or its reference. Screening raises the flags of
what it finds, keeps all others, and changes nothing else of the line.
-/

namespace Payables.Screening

open Text

variable {settings : ScreeningSettings} {l : Line} {found : List Finding} {g : Flag}

theorem addFindings_cons (l : Line) (x : Finding) (found : List Finding) :
    addFindings l (x :: found) = addFindings (l.addFlag x.flag x.evidence) found := rfl

theorem growsTo_addFindings (l : Line) (found : List Finding) :
    l.GrowsTo (addFindings l found) := by
  induction found generalizing l with
  | nil => exact .refl l
  | cons x found ih => exact (l.growsTo_addFlag x.flag x.evidence).trans (ih _)

theorem addFindings_eq (l : Line) (found : List Finding) : addFindings l found =
    { l with flags := (addFindings l found).flags, evidence := (addFindings l found).evidence } :=
  (growsTo_addFindings l found).rest

theorem notes_addFindings {x : Finding} (h : x ∈ found) (l : Line) :
    (addFindings l found).Notes x.flag x.evidence := by
  induction found generalizing l with
  | nil => cases h
  | cons y found ih =>
    rcases List.mem_cons.1 h with rfl | h
    · exact (l.notes_addFlag x.flag x.evidence).of_growsTo (growsTo_addFindings _ found)
    · exact ih h (l.addFlag y.flag y.evidence)

theorem addFindings_eq_self (h : ∀ x ∈ found, l.Notes x.flag x.evidence) :
    addFindings l found = l := by
  induction found with
  | nil => rfl
  | cons x found ih =>
    obtain ⟨hx, hfound⟩ := List.forall_mem_cons.1 h
    rw [addFindings_cons, hx.addFlag_eq_self]
    exact ih hfound

@[simp] theorem number_addFindings (l : Line) (found : List Finding) :
    (addFindings l found).number = l.number := by
  rw [addFindings_eq]

@[simp] theorem reference_addFindings (l : Line) (found : List Finding) :
    (addFindings l found).reference = l.reference := by
  rw [addFindings_eq]

@[simp] theorem date?_addFindings (l : Line) (found : List Finding) :
    (addFindings l found).date? = l.date? := by
  rw [addFindings_eq]

@[simp] theorem cells_addFindings (l : Line) (found : List Finding) :
    (addFindings l found).cells = l.cells := by
  rw [addFindings_eq]

theorem has_addFindings_iff : (addFindings l found).flags.has g = true ↔
    l.flags.has g = true ∨ ∃ x ∈ found, x.flag = g := by
  induction found generalizing l with
  | nil => simp [addFindings]
  | cons x found ih =>
    rw [addFindings_cons, ih, Line.has_addFlag_iff, List.exists_mem_cons_iff, or_assoc,
      or_left_comm]

theorem getElem?_evidence_addFindings (h : ∀ x ∈ found, x.flag ≠ g) (l : Line) :
    (addFindings l found).evidence[g.code]? = l.evidence[g.code]? := by
  induction found generalizing l with
  | nil => rfl
  | cons x found ih =>
    obtain ⟨hx, hfound⟩ := List.forall_mem_cons.1 h
    rw [addFindings_cons, ih hfound,
      Line.getElem?_evidence_addFlag_of_ne (Flag.code_inj.not.2 hx)]

theorem documented_addFindings (h : l.Documented) (found : List Finding) :
    (addFindings l found).Documented := by
  induction found generalizing l with
  | nil => exact h
  | cons x found ih => exact ih (h.addFlag x.flag x.evidence)

/-- The line has a text to show in which keywords are hit. -/
def ShowsKeyword (settings : ScreeningSettings) (l : Line) : Prop :=
  ∃ text ∈ [trimmed l.number, trimmed l.reference], text ≠ "" ∧
    (keywordHit settings text).isSome = true

theorem ne_empty_of_keywordHit {text : String} (h : (keywordHit settings text).isSome = true) :
    text ≠ "" := by
  rintro rfl
  cases h

theorem exists_flag_fieldFinding_iff {field text : String} :
    (∃ x ∈ fieldFinding settings field text, x.flag = g) ↔
      g = .outlier ∧ (keywordHit settings text).isSome = true := by
  unfold fieldFinding
  cases keywordHit settings text <;> simp [eq_comm]

/-- An empty number is a finding of its own, so only the reference can show a keyword then. -/
theorem showsKeyword_iff : ShowsKeyword settings l ↔
    trimmed l.number ≠ "" ∧ (keywordHit settings (trimmed l.number)).isSome = true ∨
      (keywordHit settings (trimmed l.reference)).isSome = true := by
  have hreference : trimmed l.reference ≠ "" ∧
        (keywordHit settings (trimmed l.reference)).isSome = true ↔
      (keywordHit settings (trimmed l.reference)).isSome = true :=
    and_iff_right_of_imp ne_empty_of_keywordHit
  simp only [ShowsKeyword, List.exists_mem_cons_iff, List.not_mem_nil, false_and, exists_false,
    or_false, hreference]

theorem exists_flag_inspect_iff : (∃ x ∈ inspect settings l, x.flag = g) ↔
    g = .missingNumber ∧ trimmed l.number = "" ∨ g = .outlier ∧ ShowsKeyword settings l := by
  simp only [showsKeyword_iff, inspect, String.isEmpty_iff, List.mem_append, or_and_right,
    exists_or, exists_flag_fieldFinding_iff]
  by_cases hnumber : trimmed l.number = ""
  · simp only [hnumber, reduceIte, List.mem_singleton, exists_eq_left, ne_eq, not_true_eq_false,
      false_and, false_or, and_true, eq_comm (a := Flag.missingNumber)]
  · simp only [hnumber, reduceIte, exists_flag_fieldFinding_iff, ne_eq, not_false_eq_true,
      true_and, and_false, false_or, and_or_left]

theorem inspect_ne_nil_iff :
    inspect settings l ≠ [] ↔ trimmed l.number = "" ∨ ShowsKeyword settings l := by
  have hflag : inspect settings l ≠ [] ↔ ∃ g, ∃ x ∈ inspect settings l, x.flag = g := by
    constructor
    · intro hne
      obtain ⟨x, hx⟩ := List.exists_mem_of_ne_nil _ hne
      exact ⟨x.flag, x, hx, rfl⟩
    · rintro ⟨g, x, hx, -⟩
      exact List.ne_nil_of_mem hx
  simp only [hflag, exists_flag_inspect_iff, exists_or, exists_eq_left]

theorem has_flag_iff : (flag settings l).flags.has g = true ↔ l.flags.has g = true ∨
    g = .missingNumber ∧ trimmed l.number = "" ∨ g = .outlier ∧ ShowsKeyword settings l := by
  rw [flag, has_addFindings_iff, exists_flag_inspect_iff]

theorem flag_ne_invalidDate {x : Finding} (h : x ∈ inspect settings l) : x.flag ≠ .invalidDate := by
  intro heq
  rcases exists_flag_inspect_iff.1 ⟨x, h, heq⟩ with ⟨hflag, -⟩ | ⟨hflag, -⟩ <;> cases hflag

end Payables.Screening
