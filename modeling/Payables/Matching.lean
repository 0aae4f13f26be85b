import Payables.Collection.Distinct
import Payables.Ledger
import Payables.Line.Basic
import Payables.Text.NormalForm
import Payables.Text.Search

/-!
# Matching lines with the ledger

Lines compete under their trimmed numbers; of lines with one number the last one stands for it.
First the entries of the ledger go, in order, to the numbers that they equal. Then each number that
is left, in order of its first appearance, takes the entry with the longest compact number among
those that contain it or are contained in it. No entry is used twice.
-/

namespace Payables

open Text

/-- On what ground a line is matched. -/
inductive MatchGround
  | exact
  | substring
  | none
deriving DecidableEq, Repr

namespace MatchGround

def word : MatchGround → String
  | exact => "exact"
  | substring => "substring"
  | none => "none"

def all : List MatchGround := [exact, substring, none]

end MatchGround

/-- What the matching says of one line. -/
structure MatchResult where
  line : String
  number : String
  entryId? : Option String := none
  entryNumber? : Option String := none
  entryKind? : Option EntryKind := none
  ground : MatchGround := .none
  score? : Option Binary64 := none
deriving DecidableEq, Repr

namespace MatchResult

def matched (l : Line) (d : LedgerEntry) (ground : MatchGround) : MatchResult :=
  { line := l.id
    number := l.number
    entryId? := some d.id
    entryNumber? := some d.number
    entryKind? := some d.kind
    ground
    score? := some 1 }

def unmatched (l : Line) : MatchResult := { line := l.id, number := l.number }

def isMatched (r : MatchResult) : Bool := r.ground ≠ .none

end MatchResult

/-- The results of all lines, in their order, and the entries that they take. -/
structure MatchReport where
  results : List MatchResult
  taken : Taken
deriving DecidableEq

namespace MatchReport

def find? (r : MatchReport) (line : String) : Option MatchResult :=
  r.results.find? (·.line == line)

def matched (r : MatchReport) : List MatchResult := r.results.filter (·.isMatched)

def count (r : MatchReport) (ground : MatchGround) : Nat :=
  (r.results.filter (·.ground == ground)).length

end MatchReport

namespace Matching

/-- The number under which a line competes. -/
def key (l : Line) : String := trimmed l.number

def paymentWords : List String := ["payment", "paid", "remittance", "receipt"]

def isPaymentReference (number : String) : Bool :=
  let low := lower number.toList
  paymentWords.any fun w => occursIn w.toList low

/-- The numbers of the lines, in order of first appearance. -/
def contenders (lines : List Line) : List String :=
  distinct ((lines.map key).filter (!·.isEmpty))

/-- An entry and the ground on which it went to a number. -/
structure Award where
  number : String
  entry : LedgerEntry
  ground : MatchGround
deriving DecidableEq, Repr

structure Progress where
  taken : Taken := {}
  awards : List Award := []
deriving DecidableEq

namespace Progress

def award (p : Progress) (number : String) (d : LedgerEntry) (ground : MatchGround) : Progress :=
  ⟨p.taken.take d, p.awards ++ [⟨number, d, ground⟩]⟩

def award? (p : Progress) (number : String) : Option Award :=
  p.awards.find? (·.number == number)

end Progress

/-- Gives an entry to the number that it equals. -/
def exactStep (numbers : List String) (p : Progress) (d : LedgerEntry) : Progress :=
  if numbers.contains d.key && !p.taken.blocks d then p.award d.key d .exact else p

def compactKey (d : LedgerEntry) : String := compactForm d.key

/-- Whether the compact number of an entry contains the target or is contained in it. -/
def isRelated (target : String) (d : LedgerEntry) : Bool :=
  !(compactKey d).isEmpty && (contains (compactKey d) target || contains target (compactKey d))

def longer (best d : LedgerEntry) : LedgerEntry :=
  if (compactKey best).length < (compactKey d).length then d else best

/-- The first of the entries with the longest compact number. -/
def longest : List LedgerEntry → Option LedgerEntry
  | [] => none
  | d :: ds => some (ds.foldl longer d)

/-- The entry that a number takes by containment. -/
def bestRelated (ledger : List LedgerEntry) (taken : Taken) (target : String) :
    Option LedgerEntry :=
  longest (ledger.filter fun d => !taken.blocks d && isRelated target d)

def substringStep (ledger : List LedgerEntry) (p : Progress) (number : String) : Progress :=
  let target := compactForm number
  if (p.award? number).isSome || isPaymentReference number || target.isEmpty then p
  else match bestRelated ledger p.taken target with
    | some d => p.award number d .substring
    | none => p

def exactPhase (lines : List Line) (ledger : List LedgerEntry) : Progress :=
  ledger.foldl (exactStep (contenders lines)) {}

def substringPhase (lines : List Line) (ledger : List LedgerEntry) : Progress :=
  (contenders lines).foldl (substringStep ledger) (exactPhase lines ledger)

def resultOf (p : Progress) (l : Line) : MatchResult :=
  match p.award? (key l) with
  | some a => .matched l a.entry a.ground
  | none => .unmatched l

/-- The results, where only the last line with a number gets what the number was awarded. -/
def results (p : Progress) : List Line → List MatchResult
  | [] => []
  | l :: ls =>
    (if (ls.map key).contains (key l) then .unmatched l else resultOf p l) :: results p ls

end Matching

/-- One pass of matching. -/
def matchLines (lines : List Line) (ledger : List LedgerEntry) : MatchReport :=
  let p := Matching.substringPhase lines ledger
  ⟨Matching.results p lines, p.taken⟩

instance : JsonForm MatchGround where
  toJson g := .string g.word
  ofJson? := Json.ofWord (MatchGround.all.map fun g => (g.word, g))

instance : JsonForm MatchResult where
  toJson r := .object [("line_item_id", toJson r.line), ("statement_number", toJson r.number),
    ("matched_document_id", toJson r.entryId?), ("matched_document_number", toJson r.entryNumber?),
    ("matched_document_kind", toJson r.entryKind?), ("match_type", toJson r.ground),
    ("match_score", toJson r.score?)]
  ofJson? j := do
    let f ← j.fields? ["line_item_id", "statement_number", "matched_document_id",
      "matched_document_number", "matched_document_kind", "match_type", "match_score"]
    pure {
      line := ← f.required "line_item_id"
      number := ← f.required "statement_number"
      entryId? := ← f.optional "matched_document_id"
      entryNumber? := ← f.optional "matched_document_number"
      entryKind? := ← f.optional "matched_document_kind"
      ground := ← f.required "match_type"
      score? := ← f.optional "match_score" }

end Payables
