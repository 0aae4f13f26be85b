import Payables.Proofs.Processing.Advance

/-!
# The lines of an extraction

An extraction that is taken in gives a line for each of its rows that is not blank: the row is read,
classified and screened. None of the three touches what tells the line apart, its id, statement and
ordinal.
-/

namespace Payables

variable {statement : String} {l : Line}

theorem Line.IsFiled.addFlag (h : l.IsFiled statement) (flag : Flag) (e : Evidence) :
    (l.addFlag flag e).IsFiled statement :=
  ⟨h.statement_eq, h.id_eq⟩

theorem LineReader.isFiled_read (r : LineReader) (statement : String) (row : Row) :
    (r.read statement row).IsFiled statement := by
  unfold LineReader.read
  dsimp only
  split <;> exact ⟨rfl, rfl⟩

theorem LineReader.ordinal_read (r : LineReader) (statement : String) (row : Row) :
    (r.read statement row).ordinal = row.ordinal := by
  unfold LineReader.read
  dsimp only
  split <;> rfl

theorem Classifier.isFiled_apply (c : Classifier) (h : l.IsFiled statement) :
    (c.apply l).IsFiled statement := by
  unfold Classifier.apply
  split <;> exact ⟨h.statement_eq, h.id_eq⟩

theorem Classifier.ordinal_apply (c : Classifier) (l : Line) :
    (c.apply l).ordinal = l.ordinal := by
  unfold Classifier.apply
  split <;> rfl

theorem Screening.isFiled_addFindings (found : List Finding) (h : l.IsFiled statement) :
    (addFindings l found).IsFiled statement := by
  induction found generalizing l with
  | nil => exact h
  | cons f found ih => exact ih (h.addFlag f.flag f.evidence)

theorem Screening.ordinal_addFindings (found : List Finding) (l : Line) :
    (addFindings l found).ordinal = l.ordinal := by
  induction found generalizing l with
  | nil => rfl
  | cons f found ih => exact ih (l.addFlag f.flag f.evidence)

/-- The first row of an ordinal, blank rows apart. -/
def Extraction.row? (e : Extraction) (n : Nat) : Option Row :=
  e.rows.find? fun row => !row.isBlank && row.ordinal == n

namespace Desk

def freshLine (d : Desk) (e : Extraction) (reader : LineReader) (row : Row) : Line :=
  Screening.flag d.settings.screening
    ((Classifier.ofLayout e.layout d.settings.classifier).apply (reader.read e.statement row))

variable {d : Desk} {e : Extraction} {i : Intake} {reader : LineReader}

theorem isFiled_freshLine (d : Desk) (e : Extraction) (reader : LineReader) (row : Row) :
    (d.freshLine e reader row).IsFiled e.statement :=
  Screening.isFiled_addFindings _ (Classifier.isFiled_apply _ (reader.isFiled_read _ row))

theorem ordinal_freshLine (d : Desk) (e : Extraction) (reader : LineReader) (row : Row) :
    (d.freshLine e reader row).ordinal = row.ordinal := by
  rw [freshLine, Screening.flag, Screening.ordinal_addFindings, Classifier.ordinal_apply,
    LineReader.ordinal_read]

theorem exists_eq_of_intake (h : d.intake e = .ok i) :
    ∃ reader lines, LineReader.ofLayout e.layout = .ok reader ∧
      lines = (reader.readAll e.statement e.rows).map
        (Classifier.ofLayout e.layout d.settings.classifier).apply ∧
      i = {
        key := e.key
        contact := e.contact
        job? := e.job?
        text? := e.text?
        lines := lines.map (Screening.flag d.settings.screening)
        screening := Screening.summary d.settings.screening lines } := by
  unfold intake at h
  cases hcheck : d.check.run e.layout with
  | error fault => rw [hcheck] at h; cases h
  | ok checked =>
    cases hreader : LineReader.ofLayout e.layout with
    | error fault => rw [hcheck, hreader] at h; cases h
    | ok reader =>
      simp only [hcheck, hreader, bind, Except.bind, pure, Except.pure, Except.ok.injEq] at h
      exact ⟨reader, _, rfl, rfl, h.symm⟩

theorem exists_reader_of_intake (h : d.intake e = .ok i) :
    ∃ reader, LineReader.ofLayout e.layout = .ok reader ∧ i.key = e.key ∧
      i.lines = (e.rows.filter (!·.isBlank)).map (d.freshLine e reader) := by
  obtain ⟨reader, lines, hreader, rfl, rfl⟩ := exists_eq_of_intake h
  refine ⟨reader, hreader, rfl, ?_⟩
  rw [LineReader.readAll, List.map_map, List.map_map]
  refine List.map_congr_left fun row _ => ?_
  rw [freshLine, Function.comp_apply, Function.comp_apply]

theorem key_of_intake (h : d.intake e = .ok i) : i.key = e.key := by
  obtain ⟨-, -, hkey, -⟩ := exists_reader_of_intake h
  exact hkey

theorem filed_of_intake (h : d.intake e = .ok i) : i.Filed := by
  obtain ⟨reader, -, hkey, hlines⟩ := exists_reader_of_intake h
  intro l hl
  rw [hlines] at hl
  obtain ⟨row, -, rfl⟩ := List.mem_map.1 hl
  rw [hkey]
  exact d.isFiled_freshLine e reader row

/-- Under the id of an ordinal stands the line of the first row with that ordinal. -/
theorem find?_freshLines (d : Desk) (e : Extraction) (reader : LineReader) (n : Nat) :
    ((e.rows.filter (!·.isBlank)).map (d.freshLine e reader)).find?
        (·.id == Line.idFor e.statement n) =
      (e.row? n).map (d.freshLine e reader) := by
  rw [List.find?_map, List.find?_filter, Extraction.row?]
  congr 2
  funext row
  rw [Bool.eq_iff_iff]
  simp only [Function.comp_apply, Bool.and_eq_true, beq_iff_eq, decide_eq_true_eq,
    (d.isFiled_freshLine e reader row).id_eq, Line.idFor_inj, d.ordinal_freshLine]

end Desk

end Payables
