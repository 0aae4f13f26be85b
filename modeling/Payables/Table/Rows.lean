import Payables.Layout.Basic
import Payables.Row
import Payables.Table.Columns
import Payables.Table.Selection

/-!
# From tables to rows

The first kept table gives the header, the columns and their labels. Later tables are read through
the same columns, and a header that is repeated on top of them is passed over. Rows that are blank
in all kept columns are dropped, and the others are numbered from one.
-/

namespace Payables.Table

open Text

/-- Whether a row repeats at least half of the header's distinct labels. -/
def repeatsHeader (header row : List String) : Bool :=
  let forms := distinct ((header.map headerForm).filter (!·.isEmpty))
  !forms.isEmpty &&
    max (forms.length / 2) 1 ≤ (row.filter fun cell => forms.contains (headerForm cell)).length

/-- How the rows of a statement are read: the kept columns and the header over them. -/
structure Frame where
  kept : List Nat
  header : List String
deriving DecidableEq, Repr

namespace Frame

def ofTable (t : Table) (index : Nat) : Frame :=
  let kept := distinctColumns t.rows index
  ⟨kept, projectRow kept (t.rows.getD index [])⟩

/-- The data rows of a later table. -/
def continued (f : Frame) (t : Table) : List (List String) :=
  let data := project f.kept (t.rows.dropWhile isBlankRow)
  match data with
  | row :: rest => if repeatsHeader f.header row then rest else data
  | [] => []

end Frame

def dataRows (expected : List String) : List Table → List (List String)
  | [] => []
  | first :: later =>
    let index := headerRow first.rows expected
    let frame := Frame.ofTable first index
    let data := project frame.kept (first.rows.drop (index + 1)) ++ later.flatMap frame.continued
    data.filter (!isBlankRow ·)

def labelsOf (expected : List String) : List Table → List String
  | [] => []
  | first :: _ => columnLabels (Frame.ofTable first (headerRow first.rows expected)).header

def numbered (labels : List String) (data : List (List String)) : List Row :=
  data.zipIdx.map fun (cells, index) => ⟨index + 1, Labelled.ofList (labels.zip cells)⟩

/-- The rows of a statement that was extracted as tables. -/
def statementRows (l : Layout) (tables : List Table) : List Row :=
  let selected := select l.expectedHeaders tables
  numbered (labelsOf l.expectedHeaders selected) (dataRows l.expectedHeaders selected)

end Payables.Table
