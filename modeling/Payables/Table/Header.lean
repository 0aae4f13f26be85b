import Payables.Table.Basic
import Payables.Text.DecimalDigit
import Payables.Text.NormalForm
import Payables.Text.Search
import Payables.Number.Binary64

/-!
# Header rows

The header row of a table is the one among its first rows in which most cells fit an expected
header. The score of a table says how much it looks like the lines of a statement: header cells,
rows that start with a date, and its size.
-/

namespace Payables.Table

open Text

/-- The rows in which a header is looked for. -/
def headerDepth : Nat := 5

/-- The normal forms of the expected headers, blank ones left out. -/
def usableHeaders (expected : List String) : List String :=
  (expected.map headerForm).filter (!·.isEmpty)

/-- Whether a cell and one of the headers contain one another, all in normal form. -/
def fitsHeader (headers : List String) (cell : String) : Bool :=
  let form := headerForm cell
  !form.isEmpty && headers.any fun h => h == form || contains h form || contains form h

def headerHits (headers : List String) (row : List String) : Nat :=
  (row.filter (fitsHeader headers)).length

/-- Notes the index and the hits of a row that has more hits than the best one so far. -/
def noteHits (headers : List String) (best : Nat × Nat) (r : List String × Nat) : Nat × Nat :=
  if best.2 < headerHits headers r.1 then (r.2, headerHits headers r.1) else best

/-- The first row with the most hits, the first row of all if there are no hits. -/
def mostHits (headers : List String) (rows : List (List String)) : Nat :=
  (rows.zipIdx.foldl (noteHits headers) (0, 0)).1

/-- The index of the header row; without expected headers the first row that is not blank. -/
def headerRow (rows : List (List String)) (expected : List String) : Nat :=
  match usableHeaders expected with
  | [] => (rows.findIdx? (!isBlankRow ·)).getD 0
  | headers => mostHits headers (rows.take headerDepth)

/-- A day, a month and a year in digits, divided by slashes. -/
def looksLikeDate (s : List Char) : Bool :=
  let (day, s) := s.span isDecimalDigit
  match s with
  | '/' :: s =>
    let (month, s) := s.span isDecimalDigit
    match s with
    | '/' :: year =>
      1 ≤ day.length && day.length ≤ 2 && 1 ≤ month.length && month.length ≤ 2 &&
        2 ≤ year.length && year.length ≤ 4 && year.all isDecimalDigit
    | _ => false
  | _ => false

def startsWithDate (row : List String) : Bool :=
  match row with
  | cell :: _ => looksLikeDate (trim cell.toList)
  | [] => false

/-- What is taken from the score of a table with no more than one data row. -/
def smallTablePenalty : Binary64 := .ofRatio 5 2

/-- The score of a table with rows, from its header and its data. -/
def scoreOf (headers : List String) (t : Table) (header : List String)
    (data : List (List String)) : Binary64 :=
  let hits := headerHits headers header
  let dated := (data.filter startsWithDate).length
  let size := Binary64.ofNat (t.rows.length * t.width) * .ofRatio 1 1000
  let penalty := if data.length ≤ 1 then smallTablePenalty else 0
  .ofNat hits * 10 + .ofNat dated * 2 + size - penalty

/-- How much a table looks like the lines of a statement; without rows, less than any other. -/
def score (headers : List String) (t : Table) : Binary64 :=
  if t.rows = [] then -.infinity
  else
    let index := headerRow t.rows headers
    scoreOf headers t (t.rows.getD index []) (t.rows.drop (index + 1))

end Payables.Table
