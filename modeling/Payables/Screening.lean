import Payables.Line.Basic
import Payables.Settings
import Payables.Text.NormalForm

/-!
# Screening out balance lines

Some rows of a statement are no documents: balances, totals, lines without a number. Screening
looks for the words of a list of rules, in any order, and flags the lines that it finds. Flags are
only ever added. The summary counts every finding by its issue.
-/

namespace Payables

open Text

/-- On which texts a rule applies. -/
inductive Scope
  | anyText
  | shortText
  | shortTextWithoutDigits
deriving DecidableEq, Repr

structure KeywordRule where
  words : List String
  label : String
  scope : Scope := .anyText
deriving DecidableEq, Repr

/-- A flag to raise, with its evidence. -/
structure Finding where
  flag : Flag
  evidence : Evidence
deriving DecidableEq, Repr

structure FlaggedLine where
  id : String
  ordinal : Nat
  issues : List String
deriving DecidableEq, Repr

/-- What the screening of a list of lines has found. -/
structure ScreeningSummary where
  total : Nat := 0
  flagged : Nat := 0
  issues : Std.ExtTreeMap String Nat := ∅
  lines : List FlaggedLine := []
deriving DecidableEq

namespace Screening

/-- The first rule whose words all occur decides. -/
def rules : List KeywordRule := [
  ⟨["brought", "forward"], "brought forward", .anyText⟩,
  ⟨["carried", "forward"], "carried forward", .anyText⟩,
  ⟨["balance", "forward"], "balance forward", .anyText⟩,
  ⟨["forward", "balance"], "forward balance", .anyText⟩,
  ⟨["balance", "b", "f"], "balance b/f", .anyText⟩,
  ⟨["balance", "c", "f"], "balance c/f", .anyText⟩,
  ⟨["balance", "bf"], "balance bf", .anyText⟩,
  ⟨["balance", "cf"], "balance cf", .anyText⟩,
  ⟨["closing", "balance"], "closing balance", .anyText⟩,
  ⟨["opening", "balance"], "opening balance", .anyText⟩,
  ⟨["previous", "balance"], "previous balance", .anyText⟩,
  ⟨["statement", "balance"], "statement balance", .anyText⟩,
  ⟨["statement", "total"], "statement total", .anyText⟩,
  ⟨["outstanding", "balance"], "outstanding balance", .anyText⟩,
  ⟨["ending", "balance"], "ending balance", .anyText⟩,
  ⟨["final", "balance"], "final balance", .anyText⟩,
  ⟨["amount", "due"], "amount due", .anyText⟩,
  ⟨["balance", "brought"], "balance brought", .anyText⟩,
  ⟨["balance", "carried"], "balance carried", .anyText⟩,
  ⟨["summary"], "summary", .shortText⟩,
  ⟨["balance"], "balance", .shortTextWithoutDigits⟩]

/-- The runs of ASCII letters and digits in the lower case of a text. -/
def keywords (text : String) : List String :=
  (runs isAsciiAlphanumeric (lower text.toList)).map String.ofList

def inScope (short digits : Bool) : Scope → Bool
  | .anyText => true
  | .shortText => short
  | .shortTextWithoutDigits => short && !digits

/-- The first rule that a text falls under, given its words and whether it has digits. -/
def rule? (settings : ScreeningSettings) (words : List String) (digits : Bool) :
    Option KeywordRule :=
  let short := words.length ≤ settings.shortTextWords
  rules.find? fun r => r.words.all words.contains && inScope short digits r.scope

/-- The label of the first rule that the text falls under. -/
def keywordHit (settings : ScreeningSettings) (text : String) : Option String :=
  let words := keywords text
  if words = [] then none
  else (rule? settings words (text.toList.any Char.isDigit)).map (·.label)

def fieldFinding (settings : ScreeningSettings) (field text : String) : List Finding :=
  match keywordHit settings text with
  | some keyword =>
    [⟨.outlier, ⟨field, "keyword-" ++ field, some keyword, some text⟩⟩]
  | none => []

/-- The findings on a line. -/
def inspect (settings : ScreeningSettings) (l : Line) : List Finding :=
  let number := trimmed l.number
  let onNumber :=
    if number.isEmpty then
      [⟨.missingNumber, { field := "number", issue := Flag.missingNumber.code }⟩]
    else fieldFinding settings "number" number
  onNumber ++ fieldFinding settings "reference" (trimmed l.reference)

def addFindings (l : Line) (found : List Finding) : Line :=
  found.foldl (fun l f => l.addFlag f.flag f.evidence) l

/-- Raises the flags that screening finds on a line. -/
def flag (settings : ScreeningSettings) (l : Line) : Line := addFindings l (inspect settings l)

def countIssue (issues : Std.ExtTreeMap String Nat) (issue : String) : Std.ExtTreeMap String Nat :=
  issues.insert issue (issues.getD issue 0 + 1)

/-- How a line is listed in the summary if something is found on it. -/
def entry (settings : ScreeningSettings) (l : Line) : FlaggedLine :=
  ⟨l.id, l.ordinal, (inspect settings l).map (·.evidence.issue)⟩

def noteLine (settings : ScreeningSettings) (s : ScreeningSummary) (l : Line) : ScreeningSummary :=
  match inspect settings l with
  | [] => { s with total := s.total + 1 }
  | _ =>
    { total := s.total + 1
      flagged := s.flagged + 1
      issues := (entry settings l).issues.foldl countIssue s.issues
      lines := s.lines ++ [entry settings l] }

def summary (settings : ScreeningSettings) (lines : List Line) : ScreeningSummary :=
  lines.foldl (noteLine settings) {}

end Screening

instance : JsonForm FlaggedLine where
  toJson l := .object [("item_id", toJson l.id), ("ordinal", toJson l.ordinal),
    ("issues", toJson l.issues)]
  ofJson? j := do
    let f ← j.fields? ["item_id", "ordinal", "issues"]
    pure {
      id := ← f.required "item_id"
      ordinal := ← f.required "ordinal"
      issues := ← f.required "issues" }

instance : JsonForm ScreeningSummary where
  toJson s := .object [("total", toJson s.total), ("flagged", toJson s.flagged),
    ("rules", toJson s.issues), ("flagged_items", toJson s.lines)]
  ofJson? j := do
    let f ← j.fields? ["total", "flagged", "rules", "flagged_items"]
    pure {
      total := ← f.required "total"
      flagged := ← f.required "flagged"
      issues := ← f.required "rules"
      lines := ← f.required "flagged_items" }

end Payables
