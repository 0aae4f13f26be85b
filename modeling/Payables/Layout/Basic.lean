import Payables.Amount.Cell
import Payables.Calendar.Template
import Payables.Fault
import Payables.Json.Form
import Payables.Text.NormalForm

/-!
# Layouts of statements

A layout says in which columns of a supplier's statement the number, the dates, the reference and
the amounts stand, and how dates and amounts are written. An amount column counts for the side that
it is configured with, or for the side that its label tells.
-/

namespace Payables

/-- The side of the account that an amount counts for; a signed amount counts by its sign. -/
inductive Side
  | debit
  | credit
  | signed
deriving DecidableEq, Repr

namespace Side

def word : Side → String
  | debit => "debit"
  | credit => "credit"
  | signed => "signed"

def all : List Side := [debit, credit, signed]

def startsOrEndsWith (label : String) (hints : List String) : Bool :=
  hints.any fun h => h.toList.isPrefixOf label.toList || h.toList.isSuffixOf label.toList

/-- Whether the normal form of a label tells debits. -/
def looksDebit (label : String) : Bool := startsOrEndsWith label ["debit", "dr"]

/-- Whether the normal form of a label tells credits. -/
def looksCredit (label : String) : Bool := startsOrEndsWith label ["credit", "cr"]

def ofLabel (label : String) : Side :=
  let form := Text.labelForm label
  if looksDebit form then debit else if looksCredit form then credit else signed

end Side

structure AmountColumn where
  label : String
  side? : Option Side := none
deriving DecidableEq, Repr

def AmountColumn.side (c : AmountColumn) : Side := c.side?.getD (Side.ofLabel c.label)

structure Layout where
  number? : Option String := none
  date? : Option String := none
  dueDate? : Option String := none
  reference? : Option String := none
  amounts : List AmountColumn := []
  dateFormat? : Option String := none
  decimalMark : String := "."
  groupMark : String := ","
deriving DecidableEq, Repr

namespace Layout

open Text

def numberHeader? (l : Layout) : Option String := l.number? >>= nonBlank?

def dateHeader? (l : Layout) : Option String := l.date? >>= nonBlank?

def dueDateHeader? (l : Layout) : Option String := l.dueDate? >>= nonBlank?

def referenceHeader? (l : Layout) : Option String := l.reference? >>= nonBlank?

/-- The amount columns whose label is not blank. -/
def amountColumns (l : Layout) : List AmountColumn :=
  l.amounts.filter fun c => trim c.label.toList ≠ []

def template (l : Layout) : Except Fault String :=
  match l.dateFormat? >>= nonBlank? with
  | some t => .ok t
  | none => .error (.layout .noDateFormat)

def amountFormat (l : Layout) : AmountFormat := ⟨l.decimalMark, l.groupMark⟩

/-- The headers that a table of the statement should have. -/
def expectedHeaders (l : Layout) : List String :=
  [l.numberHeader?, l.dateHeader?, l.dueDateHeader?, l.referenceHeader?].filterMap id ++
    l.amountColumns.map (trimmed ·.label)

/-- A layout needs a date format, and a number column or an amount column. -/
def validate (l : Layout) : Except Fault Unit := do
  let _ ← l.template
  if l.numberHeader?.isNone ∧ l.amountColumns = [] then throw (.layout .nothingMapped)

end Layout

instance : JsonForm Side where
  toJson s := .string s.word
  ofJson? := Json.ofWord (Side.all.map fun s => (s.word, s))

instance : JsonForm AmountColumn where
  toJson c := .object [("column", toJson c.label), ("role", toJson c.side?)]
  ofJson? j := do
    let f ← j.fields? ["column", "role"]
    pure { label := ← f.required "column", side? := ← f.withDefault "role" none }

instance : JsonForm Layout where
  toJson l := .object [("number_column", toJson l.number?), ("date_column", toJson l.date?),
    ("due_date_column", toJson l.dueDate?), ("reference_column", toJson l.reference?),
    ("total_columns", toJson l.amounts), ("date_format", toJson l.dateFormat?),
    ("decimal_separator", toJson l.decimalMark), ("thousands_separator", toJson l.groupMark)]
  ofJson? j := do
    let f ← j.fields? ["number_column", "date_column", "due_date_column", "reference_column",
      "total_columns", "date_format", "decimal_separator", "thousands_separator"]
    pure {
      number? := ← f.withDefault "number_column" none
      date? := ← f.withDefault "date_column" none
      dueDate? := ← f.withDefault "due_date_column" none
      reference? := ← f.withDefault "reference_column" none
      amounts := ← f.withDefault "total_columns" []
      dateFormat? := ← f.withDefault "date_format" none
      decimalMark := ← f.withDefault "decimal_separator" "."
      groupMark := ← f.withDefault "thousands_separator" "," }

end Payables
