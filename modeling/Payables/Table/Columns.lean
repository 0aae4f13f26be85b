import Payables.Amount.Cell
import Payables.Collection.Distinct
import Payables.Table.Basic
import Payables.Text.NormalForm

/-!
# Columns of a table

Extracted tables repeat columns. Two columns are the same when their headers have one normal form
and their other cells show equal amounts or have one normal form; the first of them is kept. The
kept columns get distinct labels.
-/

namespace Payables.Table

open Text

/-- What two cells have to agree in. -/
inductive CellForm
  | amount (normalForm : Int × Int)
  | words (form : String)
deriving DecidableEq, Repr

def cellForm (cell : String) : CellForm :=
  match ({} : AmountFormat).read? cell with
  | some a => .amount a.normalForm
  | none => .words (headerForm cell)

def cellAt (row : List String) (column : Nat) : String := row.getD column ""

def columnForm (rows : List (List String)) (header column : Nat) : List CellForm :=
  rows.zipIdx.map fun (row, index) =>
    let cell := cellAt row column
    if index = header then .words (headerForm cell) else cellForm cell

/-- The columns that are not the same as an earlier one. -/
def distinctColumns (rows : List (List String)) (header : Nat) : List Nat :=
  let columns := (List.range (widthOf rows)).map fun c => (c, columnForm rows header c)
  (firstOfEach Prod.snd columns).map Prod.fst

def projectRow (kept : List Nat) (row : List String) : List String := kept.map (cellAt row)

def project (kept : List Nat) (rows : List (List String)) : List (List String) :=
  rows.map (projectRow kept)

def withoutRepeats (rows : List (List String)) (header : Nat) : List (List String) :=
  project (distinctColumns rows header) rows

/-- The header of a column, the text of its cell or else its place. -/
def columnName (index : Nat) (cell : String) : String :=
  if trim cell.toList = [] then "column_" ++ String.ofList (digits index) else trimmed cell

def withIndex (name : String) (index : Nat) : String := name ++ "_" ++ String.ofList (digits index)

/-- The label of a column, its index added when an earlier label has the same normal form. -/
def columnLabel (seen : List String) (index : Nat) (cell : String) : String :=
  let name := columnName index cell
  if seen.contains (headerForm name) then withIndex name index else name

/-- Labels for the cells of a header row, given the normal forms of the labels before them. -/
def labelsAfter (seen : List String) (index : Nat) : List String → List String
  | [] => []
  | cell :: cells =>
    let label := columnLabel seen index cell
    label :: labelsAfter (headerForm label :: seen) (index + 1) cells

def columnLabels (header : List String) : List String := labelsAfter [] 0 header

end Payables.Table
