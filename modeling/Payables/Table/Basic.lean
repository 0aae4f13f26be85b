import Payables.Json.Form
import Payables.Text.Blank

/-!
# Tables

A table of a page as it was extracted: rows of cells, not all of one length.
-/

namespace Payables

structure Table where
  page : UInt32
  rows : List (List String)
deriving DecidableEq, Repr

namespace Table

def isBlankRow (row : List String) : Bool := row.all fun cell => Text.allBlank cell.toList

def widthOf (rows : List (List String)) : Nat := (rows.map List.length).foldl max 0

def width (t : Table) : Nat := widthOf t.rows

end Table

instance : JsonForm Table where
  toJson t := .object [("page", toJson t.page), ("rows", toJson t.rows)]
  ofJson? j := do
    let f ← j.fields? ["page", "rows"]
    pure {
      page := ← f.required "page"
      rows := ← f.required "rows" }

end Payables
