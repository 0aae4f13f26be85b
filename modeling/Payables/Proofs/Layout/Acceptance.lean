import Payables.Processing
import Payables.Proofs.Text.Trimming

/-!
# Layouts that are accepted

Both checks blame the layout for whatever they refuse, and a layout that passes one of them can be
read through: its date template is not blank. So an extraction is taken in as soon as its layout
passes the check of the desk, whatever its rows and its text are.
-/

namespace Payables

namespace Layout

/-- All faults of the computation have their cause in the layout. -/
def BlamesLayout {α : Type} (x : Except Fault α) : Prop :=
  ∀ fault, x = .error fault → ∃ cause, fault = .layout cause

theorem blamesLayout_ok {α : Type} (a : α) : BlamesLayout (.ok a) := by
  intro fault h
  cases h

theorem blamesLayout_error {α : Type} (cause : LayoutFault) :
    BlamesLayout (.error (.layout cause) : Except Fault α) := by
  intro fault h
  cases h
  exact ⟨cause, rfl⟩

theorem BlamesLayout.bind {α β : Type} {x : Except Fault α} {f : α → Except Fault β}
    (hx : BlamesLayout x) (hf : ∀ a, BlamesLayout (f a)) : BlamesLayout (x >>= f) := by
  cases x with
  | ok a => exact hf a
  | error fault =>
    intro fault' h
    cases h
    exact hx fault rfl

theorem blamesLayout_forM {α : Type} {f : α → Except Fault Unit} (hf : ∀ a, BlamesLayout (f a))
    (as : List α) : BlamesLayout (as.forM f) := by
  induction as with
  | nil => exact blamesLayout_ok ()
  | cons a as ih => exact (hf a).bind fun _ => ih

theorem blamesLayout_template (l : Layout) : BlamesLayout l.template := by
  unfold template
  split
  · exact blamesLayout_ok _
  · exact blamesLayout_error _

theorem blamesLayout_validate (l : Layout) : BlamesLayout l.validate := by
  refine l.blamesLayout_template.bind fun _ => ?_
  split
  · exact blamesLayout_error _
  · exact blamesLayout_ok _

theorem blamesLayout_compileTemplate (template : String) :
    BlamesLayout (compileTemplate template) := by
  unfold compileTemplate
  split
  · exact blamesLayout_ok _
  · exact blamesLayout_error _

theorem blamesLayout_checkTemplate (template : String) :
    BlamesLayout (checkTemplate template) := by
  refine (blamesLayout_compileTemplate template).bind fun t => ?_
  split
  · exact blamesLayout_error _
  · exact blamesLayout_ok _

theorem blamesLayout_checkMarks (decimal group : String) :
    BlamesLayout (checkMarks decimal group) := by
  unfold checkMarks
  dsimp only
  split
  · exact blamesLayout_error _
  · split
    · exact blamesLayout_error _
    · split
      · exact blamesLayout_error _
      · exact blamesLayout_ok _

theorem blamesLayout_checkHeader (label : String) : BlamesLayout (checkHeader label) := by
  unfold checkHeader
  dsimp only
  split
  · exact blamesLayout_error _
  · split
    · exact blamesLayout_error _
    · exact blamesLayout_ok _

theorem Check.blamesLayout_run (check : Check) (l : Layout) : BlamesLayout (check.run l) := by
  cases check with
  | basic => exact l.blamesLayout_validate
  | strict =>
    rw [run, checkStrictly]
    refine l.blamesLayout_validate.bind fun _ => ?_
    refine l.blamesLayout_template.bind fun t => ?_
    refine (blamesLayout_checkTemplate t).bind fun _ => ?_
    refine (blamesLayout_checkMarks _ _).bind fun _ => ?_
    refine blamesLayout_forM ?_ _
    exact fun c => blamesLayout_checkHeader c.label

theorem Check.validate_of_run {check : Check} {l : Layout} (h : check.run l = .ok ()) :
    l.validate = .ok () := by
  cases check with
  | basic => exact h
  | strict =>
    cases hvalidate : l.validate with
    | ok => rfl
    | error fault =>
      rw [run, checkStrictly, hvalidate] at h
      cases h

theorem exists_template_of_validate {l : Layout} (h : l.validate = .ok ()) :
    ∃ text, l.template = .ok (Text.trimmed text) ∧ Text.trim text.toList ≠ [] := by
  unfold validate template at h
  unfold template
  cases hformat : l.dateFormat? with
  | none =>
    rw [hformat] at h
    cases h
  | some text =>
    by_cases hblank : Text.trim text.toList = []
    · rw [hformat, Option.bind_eq_bind, Option.bind_some, Text.nonBlank?, if_pos hblank] at h
      cases h
    · refine ⟨text, ?_, hblank⟩
      rw [Option.bind_eq_bind, Option.bind_some, Text.nonBlank?, if_neg hblank]

end Layout

open Layout

theorem LineReader.exists_ofLayout {l : Layout} (h : l.validate = .ok ()) :
    ∃ reader, LineReader.ofLayout l = .ok reader := by
  obtain ⟨text, htemplate, htext⟩ := exists_template_of_validate h
  obtain ⟨template, hcompile⟩ : ∃ template, compileTemplate (Text.trimmed text) = .ok template := by
    rw [compileTemplate, DateTemplate.of?, Text.nonBlank?, Text.toList_trimmed, Text.trim_trim,
      if_neg htext]
    exact ⟨_, rfl⟩
  refine ⟨⟨l, template⟩, ?_⟩
  simp only [LineReader.ofLayout, h, htemplate, hcompile, bind, Except.bind, pure, Except.pure]

variable {d : Desk} {e : Extraction}

theorem Desk.exists_intake_of_run (h : d.check.run e.layout = .ok ()) :
    ∃ i, d.intake e = .ok i := by
  obtain ⟨reader, hreader⟩ := LineReader.exists_ofLayout (Check.validate_of_run h)
  unfold intake
  rw [h, hreader]
  exact ⟨_, rfl⟩

theorem Desk.intake_of_run_error {fault : Fault} (h : d.check.run e.layout = .error fault) :
    d.intake e = .error fault := by
  unfold intake
  rw [h]
  rfl

end Payables
