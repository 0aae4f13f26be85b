import Payables.Json.Form
import Payables.Text.NormalForm

/-!
# Rows of a statement

A row holds the text of each cell under its header. A cell is found by its header as it stands, or
by the normal form of the header.
-/

namespace Payables

structure Row where
  ordinal : Nat
  cells : Labelled String
deriving DecidableEq

namespace Row

open Text

def withCell (r : Row) (header text : String) : Row :=
  { r with cells := r.cells.insert header text }

def cell? (r : Row) (header : String) : Option String :=
  match r.cells.get? header with
  | some text => some text
  | none =>
    let form := headerForm header
    if form.isEmpty then none
    else (r.cells.entries.find? fun e => headerForm e.1 == form).map Prod.snd

def isBlank (r : Row) : Bool := r.cells.values.all fun text => allBlank text.toList

end Row

instance : JsonForm Row where
  toJson r := .object [("ordinal", toJson r.ordinal), ("cells", toJson r.cells)]
  ofJson? j := do
    let f ← j.fields? ["ordinal", "cells"]
    pure { ordinal := ← f.required "ordinal", cells := ← f.required "cells" }

end Payables
