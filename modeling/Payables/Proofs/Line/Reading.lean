import Payables.Line.Reading
import Payables.Proofs.Line.Flagging
import Payables.Proofs.Row.Lookup

/-!
# The flag of a line that is read from a row

Reading a row raises at most one flag, that of a date which cannot be read. The line has no date
then, and the evidence is the text of one of its cells.
-/

namespace Payables

open Text

theorem DateTemplate.trim_ne_nil_of_isUnreadable {t : DateTemplate} {cell : String}
    (h : (t.parse cell).isUnreadable = true) : trim cell.toList ≠ [] := by
  intro hblank
  rw [parse, if_pos hblank] at h
  cases h

theorem Calendar.DateCell.date?_of_isUnreadable {c : DateCell} (h : c.isUnreadable = true) :
    c.date? = none := by
  cases c with
  | unreadable => rfl
  | _ => cases h

namespace LineReader

variable {row : Row}

theorem exists_cell_of_ne_empty {header? : Option String} (h : cell row header? ≠ "") :
    ∃ text ∈ row.cells.values, trimmed text = cell row header? := by
  unfold cell at h ⊢
  split at h
  · rename_i text htext
    obtain ⟨header, -, htext⟩ := Option.bind_eq_some_iff.1 htext
    exact ⟨text, Row.mem_values_of_cell? htext, rfl⟩
  · exact absurd rfl h

theorem documented_unflagged (r : LineReader) (statement : String) (row : Row) :
    (r.unflagged statement row).Documented :=
  Line.documented_of_unflagged rfl rfl

/-- The line that is read is unflagged, or it has no date and shows the text that is not one. -/
theorem read_cases (r : LineReader) (statement : String) (row : Row) :
    r.read statement row = r.unflagged statement row ∨
      (r.unflagged statement row).date? = none ∧
        ∃ text ∈ row.cells.values, trimmed text ≠ "" ∧ r.read statement row =
          (r.unflagged statement row).addFlag .invalidDate (.ofUnreadableDate (trimmed text)) := by
  unfold read
  dsimp only
  split
  · rename_i hunreadable
    have htext : cell row r.layout.dateHeader? ≠ "" := by
      intro hempty
      rw [hempty] at hunreadable
      exact DateTemplate.trim_ne_nil_of_isUnreadable hunreadable rfl
    obtain ⟨text, hmem, htrimmed⟩ := exists_cell_of_ne_empty htext
    refine .inr ⟨Calendar.DateCell.date?_of_isUnreadable hunreadable, text, hmem, ?_, ?_⟩
    · rwa [htrimmed]
    · rw [htrimmed]
  · exact .inl rfl

end LineReader

end Payables
