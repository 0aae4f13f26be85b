import Payables.Heading
import Payables.Reference.Check
import Payables.Screening

/-!
# Publications

What is handed on when a statement has been processed: its heading and lines, what the screening
found, and how its references compare with the source text.
-/

namespace Payables

structure Publication where
  heading : Heading
  lines : List Line
  screening : ScreeningSummary
  references : CheckOutcome
deriving DecidableEq

instance : JsonForm Publication where
  toJson p := .object [("header", toJson p.heading), ("items", toJson p.lines),
    ("anomalies", toJson p.screening), ("validation", toJson p.references)]
  ofJson? j := do
    let f ← j.fields? ["header", "items", "anomalies", "validation"]
    pure {
      heading := ← f.required "header"
      lines := ← f.required "items"
      screening := ← f.required "anomalies"
      references := ← f.required "validation" }

end Payables
