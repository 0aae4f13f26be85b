import Payables.Json.Form

/-!
# Kinds of documents

What a line of a statement may be, and the word that stands for each kind.
-/

namespace Payables

inductive DocumentKind
  | invoice
  | creditNote
  | payment
  | unknown
deriving DecidableEq, Repr, Inhabited

namespace DocumentKind

def word : DocumentKind → String
  | invoice => "invoice"
  | creditNote => "credit_note"
  | payment => "payment"
  | unknown => "unknown"

def all : List DocumentKind := [invoice, creditNote, payment, unknown]

end DocumentKind

instance : JsonForm DocumentKind where
  toJson k := .string k.word
  ofJson? := Json.ofWord (DocumentKind.all.map fun k => (k.word, k))

end Payables
