import Payables.Amount.Numeral
import Payables.Amount.Real
import Payables.Calendar.IsoText
import Payables.Document
import Payables.Line.Flag

/-!
# Lines of a statement

A line is what a row of a statement means: its dates, number, reference and amounts, the kind of
document that it shows, and the flags raised on it. `completed` and `manualKind` belong to the user.
-/

namespace Payables

structure Line where
  id : String
  statement : String
  ordinal : Nat
  date? : Option Date := none
  dueDate? : Option Date := none
  number : String := ""
  reference : String := ""
  kind : DocumentKind := .unknown
  manualKind? : Option DocumentKind := none
  amounts : Labelled Amount := .empty
  cells : Labelled String := .empty
  flags : FlagSet := {}
  evidence : Std.ExtTreeMap String (List Evidence) := ∅
  completed : Bool := false
deriving DecidableEq

namespace Line

/-- The id of the line that a row of a statement becomes. -/
def idFor (statement : String) (ordinal : Nat) : String :=
  statement ++ "#item-" ++ String.ofList (Text.fixedWidth 4 ordinal)

def ofOrdinal (statement : String) (ordinal : Nat) : Line :=
  { id := idFor statement ordinal, statement, ordinal }

/-- Appends evidence that is not in the list yet. -/
def noteOnce (e : Evidence) (known : List Evidence) : List Evidence :=
  if known.contains e then known else known ++ [e]

def addFlag (l : Line) (flag : Flag) (e : Evidence) : Line :=
  { l with
    flags := l.flags.insert flag
    evidence := l.evidence.insert flag.code (noteOnce e (l.evidence.getD flag.code [])) }

def withCompleted (completed : Bool) (l : Line) : Line := { l with completed }

/-- Sets the kind of a line by hand. -/
def withKind (kind : DocumentKind) (l : Line) : Line := { l with manualKind? := some kind, kind }

/-- The kind of the line, a manual correction first. -/
def effectiveKind (l : Line) : DocumentKind := l.manualKind?.getD l.kind

end Line

instance : JsonForm Amount where
  toJson a := .string a.text
  ofJson?
    | .string s => Amount.ofText? s
    | .integer n => some (.ofInt n)
    | .real x => Amount.ofReal? x
    | _ => none

instance : JsonForm Date where
  toJson d := .string d.text
  ofJson?
    | .string s => Date.ofText? s
    | _ => none

instance : JsonForm Timestamp where
  toJson t := .string t.text
  ofJson?
    | .string s => Timestamp.ofText? s
    | _ => none

instance : JsonForm Line where
  toJson l := .object [("item_id", toJson l.id), ("statement_id", toJson l.statement),
    ("ordinal", toJson l.ordinal), ("date", toJson l.date?), ("due_date", toJson l.dueDate?),
    ("number", toJson l.number), ("reference", toJson l.reference),
    ("document_type", toJson l.kind), ("manual_document_type", toJson l.manualKind?),
    ("total", toJson l.amounts), ("raw", toJson l.cells), ("flags", toJson l.flags),
    ("flag_details", toJson l.evidence), ("completed", toJson l.completed)]
  ofJson? j := do
    let f ← j.fields? ["item_id", "statement_id", "ordinal", "date", "due_date", "number",
      "reference", "document_type", "manual_document_type", "total", "raw", "flags",
      "flag_details", "completed"]
    pure {
      id := ← f.required "item_id"
      statement := ← f.required "statement_id"
      ordinal := ← f.required "ordinal"
      date? := ← f.optional "date"
      dueDate? := ← f.optional "due_date"
      number := ← f.required "number"
      reference := ← f.required "reference"
      kind := ← f.required "document_type"
      manualKind? := ← f.withDefault "manual_document_type" none
      amounts := ← f.required "total"
      cells := ← f.required "raw"
      flags := ← f.required "flags"
      evidence := ← f.required "flag_details"
      completed := ← f.required "completed" }

end Payables
