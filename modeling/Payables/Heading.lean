import Payables.Line.Basic

/-!
# Headings of statements

The heading of a statement names its tenant and contact and sums up its lines: how many there are,
and the dates between which they lie.
-/

namespace Payables

structure Heading where
  statement : String
  tenant : String
  contact : String
  earliest? : Option Date := none
  latest? : Option Date := none
  lineCount : Nat := 0
  completed : Bool := false
  job? : Option String := none
  createdAt : Timestamp
deriving DecidableEq

def earliestDate? (lines : List Line) : Option Date := Date.earliest? (lines.filterMap (·.date?))

def latestDate? (lines : List Line) : Option Date := Date.latest? (lines.filterMap (·.date?))

/-- Sums up the lines anew. -/
def Heading.recompute (h : Heading) (lines : List Line) : Heading :=
  { h with
    earliest? := earliestDate? lines
    latest? := latestDate? lines
    lineCount := lines.length }

instance : JsonForm Heading where
  toJson h := .object [("statement_id", toJson h.statement), ("tenant_id", toJson h.tenant),
    ("contact_id", toJson h.contact), ("earliest_item_date", toJson h.earliest?),
    ("latest_item_date", toJson h.latest?), ("item_count", toJson h.lineCount),
    ("completed", toJson h.completed), ("job_id", toJson h.job?),
    ("created_at", toJson h.createdAt)]
  ofJson? j := do
    let f ← j.fields? ["statement_id", "tenant_id", "contact_id", "earliest_item_date",
      "latest_item_date", "item_count", "completed", "job_id", "created_at"]
    pure {
      statement := ← f.required "statement_id"
      tenant := ← f.required "tenant_id"
      contact := ← f.required "contact_id"
      earliest? := ← f.optional "earliest_item_date"
      latest? := ← f.optional "latest_item_date"
      lineCount := ← f.required "item_count"
      completed := ← f.required "completed"
      job? := ← f.optional "job_id"
      createdAt := ← f.required "created_at" }

end Payables
