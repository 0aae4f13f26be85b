import Payables.Json.Form

/-!
# Flags and their evidence

A line is flagged for a bad date, for a missing number, or because it looks like a balance rather
than a document. Each flag comes with evidence: the field, the issue, and perhaps the keyword and
the value that raised it.
-/

namespace Payables

inductive Flag
  | invalidDate
  | missingNumber
  | outlier
deriving DecidableEq, Repr

namespace Flag

def code : Flag → String
  | invalidDate => "invalid-date"
  | missingNumber => "missing-number"
  | outlier => "ml-outlier"

def all : List Flag := [invalidDate, missingNumber, outlier]

end Flag

structure Evidence where
  field : String
  issue : String
  keyword? : Option String := none
  value? : Option String := none
deriving DecidableEq, Repr

/-- A set of flags. -/
structure FlagSet where
  invalidDate : Bool := false
  missingNumber : Bool := false
  outlier : Bool := false
deriving DecidableEq, Repr

namespace FlagSet

def has (s : FlagSet) : Flag → Bool
  | .invalidDate => s.invalidDate
  | .missingNumber => s.missingNumber
  | .outlier => s.outlier

def insert (s : FlagSet) : Flag → FlagSet
  | .invalidDate => { s with invalidDate := true }
  | .missingNumber => { s with missingNumber := true }
  | .outlier => { s with outlier := true }

def toList (s : FlagSet) : List Flag := Flag.all.filter s.has

def ofList (flags : List Flag) : FlagSet := flags.foldl insert {}

end FlagSet

instance : JsonForm Flag where
  toJson f := .string f.code
  ofJson? := Json.ofWord (Flag.all.map fun f => (f.code, f))

instance : JsonForm FlagSet where
  toJson s := toJson s.toList
  ofJson? j := (ofJson? j : Option (List Flag)).map FlagSet.ofList

instance : JsonForm Evidence where
  toJson e := .object ([("field", toJson e.field), ("issue", toJson e.issue)] ++
    (e.keyword?.map fun k => ("keyword", toJson k)).toList ++
    (e.value?.map fun v => ("value", toJson v)).toList)
  ofJson? j := do
    let f ← j.fields? ["field", "issue", "keyword", "value"]
    pure {
      field := ← f.required "field"
      issue := ← f.required "issue"
      keyword? := ← f.withDefault "keyword" none
      value? := ← f.withDefault "value" none }

end Payables
