import Payables.Line.Basic
import Payables.Layout.Basic
import Payables.Settings
import Payables.Similarity

/-!
# Classifying lines

The sides on which a line carries an amount decide which kinds are possible. Keywords in its number
and reference choose between them: each kind has words of its own, a word counts fully where it
occurs, and otherwise as much as the most similar word of the text.
-/

namespace Payables

open Text

/-- What classification knows of a contact. -/
structure Classifier where
  sides : List (String × Side)
  amountFormat : AmountFormat
  settings : ClassifierSettings
deriving DecidableEq, Repr

/-- The sides on which a line carries an amount other than zero. -/
structure Buckets where
  debit : Bool := false
  credit : Bool := false
deriving DecidableEq, Repr

namespace Buckets

def addAmount (b : Buckets) (side : Side) (a : Amount) : Buckets :=
  if a.isZero then b
  else match side with
    | .debit => { b with debit := true }
    | .credit => { b with credit := true }
    | .signed => if a.isPositive then { b with debit := true } else { b with credit := true }

end Buckets

/-- A keyword, and the word of the text that comes closest to it unless the keyword occurs. -/
structure KeywordHit where
  kind : DocumentKind
  score : Binary64
  keyword : String
  word? : Option String
deriving DecidableEq, Repr

/-- The kind of a line with the evidence for it. -/
structure Classification where
  kind : DocumentKind
  buckets : Buckets
  score : Binary64 := 0
  keyword? : Option String := none
  word? : Option String := none
deriving DecidableEq, Repr

namespace Classifier

def keywords : List (DocumentKind × List String) :=
  [(.payment, ["payment", "paid", "receipt", "remittance", "banktransfer", "directdebit",
      "ddpayment", "cashreceipt"]),
    (.creditNote, ["creditnote", "credit", "creditmemo", "crn", "cr", "cn"]),
    (.invoice, ["invoice", "inv", "taxinvoice", "bill"])]

/-- Shorter keywords only count as whole words or as their beginnings. -/
def shortestContained : Nat := 4

/-- Longer keywords are not capped. -/
def longestShort : Nat := 2

def ofLayout (l : Layout) (settings : ClassifierSettings) : Classifier :=
  { sides := l.amountColumns.map fun c => (labelForm c.label, c.side)
    amountFormat := l.amountFormat
    settings }

/-- The side configured for the normal form of a label, the last one if there are several. -/
def configuredSide? (c : Classifier) (form : String) : Option Side :=
  c.sides.reverse.lookup form

def sideOf (c : Classifier) (label : String) : Side :=
  (c.configuredSide? (labelForm label)).getD (Side.ofLabel label)

/-- Counts a cell under a header that the layout does not configure. -/
def addCell (c : Classifier) (b : Buckets) (cell : String × String) : Buckets :=
  let form := labelForm cell.1
  if (c.configuredSide? form).isSome then b
  else if !b.debit && Side.looksDebit form && c.amountFormat.showsAmount cell.2 then
    { b with debit := true }
  else if !b.credit && Side.looksCredit form && c.amountFormat.showsAmount cell.2 then
    { b with credit := true }
  else b

def buckets (c : Classifier) (l : Line) : Buckets :=
  let fromAmounts := l.amounts.entries.foldl
    (fun b e => b.addAmount (c.sideOf e.1) e.2) {}
  l.cells.entries.foldl c.addCell fromAmounts

def startsWith (s p : String) : Bool := p.toList.isPrefixOf s.toList

/-- How well a word of the text fits a keyword, both in capitals. -/
def wordScore (c : Classifier) (word keyword : String) : Binary64 :=
  let score :=
    if word = keyword then 1
    else if 2 ≤ min word.length keyword.length &&
        (startsWith word keyword || startsWith keyword word) then .ofRatio 9 10
    else similarity word keyword
  if keyword.length ≤ longestShort then score.lesser c.settings.shortSynonymCap else score

/-- The first of the best scored words. -/
def bestWord (score : String → Binary64) : List String → Option (Binary64 × String)
  | [] => none
  | w :: ws => some (ws.foldl
      (fun best w => if best.1 < score w then (score w, w) else best) (score w, w))

/-- A keyword as it is looked for. -/
def capitals (keyword : String) : String := String.ofList (keyword.toList.map asciiUpper)

def keywordHit (c : Classifier) (compact : String) (words : List String) (kind : DocumentKind)
    (keyword : String) : Option KeywordHit :=
  let mark := capitals keyword
  if shortestContained ≤ mark.length && contains compact mark then
    some ⟨kind, 1, keyword, none⟩
  else (bestWord (c.wordScore · mark) words).map fun (score, word) =>
    ⟨kind, score, keyword, some word⟩

def textWords (text : String) : List String :=
  (runs isAsciiAlphanumeric text.toList).map fun w => String.ofList (w.map asciiUpper)

/-- The hits of a text among the keywords of the given kinds. -/
def hitsAmong (c : Classifier) (text : String) (kinds : List DocumentKind) : List KeywordHit :=
  let compact := compactForm text
  let words := textWords text
  (keywords.filter (kinds.contains ·.1)).flatMap fun (kind, ks) =>
    ks.filterMap (c.keywordHit compact words kind)

/-- The first of the best hits. -/
def bestHit (c : Classifier) (text : String) (kinds : List DocumentKind) : Option KeywordHit :=
  match c.hitsAmong text kinds with
  | [] => none
  | h :: hs => some (hs.foldl (fun best h => if best.score < h.score then h else best) h)

/-- The kinds that keywords choose between, and the kind without a keyword. -/
def candidates (b : Buckets) : List DocumentKind × DocumentKind :=
  match b.debit, b.credit with
  | true, false => ([], .invoice)
  | false, false => ([], .unknown)
  | false, true => ([.payment, .creditNote], .payment)
  | true, true => ([.payment, .creditNote, .invoice], .invoice)

def classify (c : Classifier) (l : Line) : Classification :=
  let b := c.buckets l
  let (kinds, default) := candidates b
  match c.bestHit (l.number ++ " " ++ l.reference) kinds with
  | some hit =>
    if 0 < hit.score ∧ c.settings.confidence hit.kind ≤ hit.score then
      { kind := hit.kind, buckets := b, score := hit.score, keyword? := some hit.keyword,
        word? := hit.word? }
    else { kind := default, buckets := b }
  | none => { kind := default, buckets := b }

/-- Gives a line the kind that it classifies as, unless the user has set one. -/
def apply (c : Classifier) (l : Line) : Line :=
  match l.manualKind? with
  | some kind => { l with kind }
  | none => { l with kind := (c.classify l).kind }

end Classifier

end Payables
