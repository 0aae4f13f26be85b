import Payables.Layout.Check
import Payables.Line.Basic
import Payables.Row

/-!
# Reading rows as lines

A `LineReader` is a layout that has passed its check, with its date template. It reads the cells of
a row through the layout. A date that cannot be read raises a flag and is never an error.
-/

namespace Payables

structure LineReader where
  layout : Layout
  template : DateTemplate
deriving DecidableEq, Repr

/-- The evidence that a text cannot be read as a date. -/
def Evidence.ofUnreadableDate (text : String) : Evidence :=
  { field := "date", issue := Flag.invalidDate.code, value? := some text }

namespace LineReader

open Text

def ofLayout (l : Layout) : Except Fault LineReader := do
  l.validate
  let template ← Layout.compileTemplate (← l.template)
  pure ⟨l, template⟩

/-- The trimmed text of a cell, empty if the row or the layout lacks it. -/
def cell (row : Row) (header? : Option String) : String :=
  match header? >>= row.cell? with
  | some text => trimmed text
  | none => ""

/-- The amounts that the row shows in the amount columns of the layout. -/
def amounts (r : LineReader) (row : Row) : Labelled Amount :=
  Labelled.ofList (r.layout.amountColumns.filterMap fun c =>
    let label := trimmed c.label
    (row.cell? label >>= r.layout.amountFormat.read?).map (label, ·))

/-- The line of a row before a flag is raised on it. -/
def unflagged (r : LineReader) (statement : String) (row : Row) : Line :=
  { id := Line.idFor statement row.ordinal
    statement
    ordinal := row.ordinal
    date? := (r.template.parse (cell row r.layout.dateHeader?)).date?
    dueDate? := (r.template.parse (cell row r.layout.dueDateHeader?)).date?
    number := cell row r.layout.numberHeader?
    reference := cell row r.layout.referenceHeader?
    amounts := r.amounts row
    cells := row.cells }

/-- The line of a row, flagged if its date cell is not blank and not a date. -/
def read (r : LineReader) (statement : String) (row : Row) : Line :=
  let dateText := cell row r.layout.dateHeader?
  let line := r.unflagged statement row
  if (r.template.parse dateText).isUnreadable then
    line.addFlag .invalidDate (.ofUnreadableDate dateText)
  else line

/-- Reads every row that is not blank. -/
def readAll (r : LineReader) (statement : String) (rows : List Row) : List Line :=
  (rows.filter (!·.isBlank)).map (r.read statement)

end LineReader

end Payables
