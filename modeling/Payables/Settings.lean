import Payables.Document
import Payables.Fault
import Payables.Json.Reader

/-!
# Settings

Thresholds for the classification of lines, for the screening of balance lines and for the check
against the source text. `Settings.ofText` reads them from a JSON text, where every field may be
left out.
-/

namespace Payables

structure ClassifierSettings where
  paymentConfidence : Binary64 := .ofRatio 6 10
  creditNoteConfidence : Binary64 := .ofRatio 65 100
  invoiceConfidence : Binary64 := 0
  shortSynonymCap : Binary64 := .ofRatio 8 10
deriving DecidableEq, Repr

/-- The score that a keyword for the kind has to reach. -/
def ClassifierSettings.confidence (s : ClassifierSettings) : DocumentKind → Binary64
  | .payment => s.paymentConfidence
  | .creditNote => s.creditNoteConfidence
  | .invoice => s.invoiceConfidence
  | .unknown => Binary64.infinity

structure ScreeningSettings where
  shortTextWords : Nat := 3
deriving DecidableEq, Repr

/-- The field of a line that is looked for in the source text. -/
inductive ReferenceField
  | number
  | reference
deriving DecidableEq, Repr

structure ReferenceSettings where
  field : ReferenceField := .number
  longestWindow : Nat := 5
  bucketDigits : Nat := 3
  bucketSamples : Nat := 3
  coverage : Binary64 := .ofRatio 6 10
deriving DecidableEq, Repr

structure Settings where
  classifier : ClassifierSettings := {}
  screening : ScreeningSettings := {}
  references : ReferenceSettings := {}
deriving DecidableEq, Repr

def ReferenceField.word : ReferenceField → String
  | .number => "number"
  | .reference => "reference"

instance : JsonForm ReferenceField where
  toJson f := .string f.word
  ofJson? := Json.ofWord [("number", .number), ("reference", .reference)]

instance : JsonForm ClassifierSettings where
  toJson s := .object [("payment_min_confidence", toJson s.paymentConfidence),
    ("credit_note_min_confidence", toJson s.creditNoteConfidence),
    ("invoice_min_confidence", toJson s.invoiceConfidence),
    ("short_token_score_cap", toJson s.shortSynonymCap)]
  ofJson? j := do
    let f ← j.fields? ["payment_min_confidence", "credit_note_min_confidence",
      "invoice_min_confidence", "short_token_score_cap"]
    let d : ClassifierSettings := {}
    pure {
      paymentConfidence := ← f.withDefault "payment_min_confidence" d.paymentConfidence
      creditNoteConfidence := ← f.withDefault "credit_note_min_confidence" d.creditNoteConfidence
      invoiceConfidence := ← f.withDefault "invoice_min_confidence" d.invoiceConfidence
      shortSynonymCap := ← f.withDefault "short_token_score_cap" d.shortSynonymCap }

instance : JsonForm ScreeningSettings where
  toJson s := .object [("short_text_max_tokens", toJson s.shortTextWords)]
  ofJson? j := do
    let f ← j.fields? ["short_text_max_tokens"]
    let d : ScreeningSettings := {}
    pure { shortTextWords := ← f.withDefault "short_text_max_tokens" d.shortTextWords }

instance : JsonForm ReferenceSettings where
  toJson s := .object [("reference_field", toJson s.field), ("ngram_max", toJson s.longestWindow),
    ("digit_prefix_len", toJson s.bucketDigits),
    ("min_samples_for_prefixing", toJson s.bucketSamples),
    ("coverage_threshold", toJson s.coverage)]
  ofJson? j := do
    let f ← j.fields? ["reference_field", "ngram_max", "digit_prefix_len",
      "min_samples_for_prefixing", "coverage_threshold"]
    let d : ReferenceSettings := {}
    pure {
      field := ← f.withDefault "reference_field" d.field
      longestWindow := ← f.withDefault "ngram_max" d.longestWindow
      bucketDigits := ← f.withDefault "digit_prefix_len" d.bucketDigits
      bucketSamples := ← f.withDefault "min_samples_for_prefixing" d.bucketSamples
      coverage := ← f.withDefault "coverage_threshold" d.coverage }

instance : JsonForm Settings where
  toJson s := .object [("classifier", toJson s.classifier), ("anomaly", toJson s.screening),
    ("validation", toJson s.references)]
  ofJson? j := do
    let f ← j.fields? ["classifier", "anomaly", "validation"]
    pure {
      classifier := ← f.withDefault "classifier" {}
      screening := ← f.withDefault "anomaly" {}
      references := ← f.withDefault "validation" {} }

def Settings.ofText (text : String) : Except Fault Settings :=
  match Json.read? text >>= ofJson? with
  | some s => .ok s
  | none => .error .settings

end Payables
