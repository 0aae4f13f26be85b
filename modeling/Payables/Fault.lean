import Payables.Text.Quoted

/-!
# What can go wrong

A `Fault` is the cause for which an operation refuses to run. Faults of the configuration have
causes of their own; `Fault.message` words them all.
-/

namespace Payables

/-- A configuration that cannot be used. -/
inductive LayoutFault
  | noDateFormat
  | nothingMapped
  | emptyTemplate
  | incompleteTemplate (template : String)
  | decimalMark (given : String)
  | groupMark (given : String)
  | sameMarks
  | emptyHeader
  | longHeader
deriving DecidableEq, Repr

inductive Fault
  | layout (cause : LayoutFault)
  | settings
  | notAcceptingWrites
  | statementNotFound (statement : String)
  | lineNotFound (line : String)
deriving DecidableEq, Repr

def decimalMarks : List String := [".", ","]

def groupMarks : List String := [",", ".", " ", "'", ""]

namespace LayoutFault

open Text

def detail : LayoutFault → String
  | noDateFormat => "date_format must be configured for this contact"
  | nothingMapped => "either number_column or at least one total column must be configured"
  | emptyTemplate => "date_format must not be empty"
  | incompleteTemplate template =>
    "date_format " ++ quoted template ++ " must contain year, month and day tokens"
  | decimalMark given =>
    "decimal_separator must be one of " ++ quotedList decimalMarks ++ ", got " ++ quoted given
  | groupMark given =>
    "thousands_separator must be one of " ++ quotedList groupMarks ++ ", got " ++ quoted given
  | sameMarks => "decimal_separator and thousands_separator must differ"
  | emptyHeader => "Column header cannot be empty"
  | longHeader => "Column header cannot exceed 200 characters"

end LayoutFault

namespace Fault

def message : Fault → String
  | layout cause => "Configuration error: " ++ cause.detail
  | settings => "Configuration error: invalid engine config: "
  | notAcceptingWrites => "Persistence error: storage is not accepting writes"
  | statementNotFound statement => "Statement not found: " ++ statement
  | lineNotFound line => "Line item not found: " ++ line

end Fault

end Payables
