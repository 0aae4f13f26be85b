import Payables.Calendar.Cut
import Payables.Calendar.Date
import Payables.Text.Numeral

/-!
# Date templates

`format` writes a date through the parts of a template. `parse` cuts a text into one piece per part
and reads the components back; a component that is given twice has to agree with itself.
-/

namespace Payables.Calendar

open Text

/-- The components of a date that a text has shown so far. -/
structure Components where
  year : Option Nat := none
  month : Option Nat := none
  day : Option Nat := none
deriving DecidableEq, Repr

/-- Fills a component, or refuses a value other than the one it has. -/
def agree (known : Option Nat) (n : Nat) : Option (Option Nat) :=
  match known with
  | some m => if m = n then some (some n) else none
  | none => some (some n)

/-- The month whose name starts with the three letters. -/
def monthOfName? (s : List Char) : Option Nat :=
  if s.length < 3 then none
  else
    let lead := (s.take 3).map Char.toLower
    (monthNames.findIdx? fun name => (name.toList.take 3).map Char.toLower == lead).map (· + 1)

namespace Components

def note (known : Components) : Part → List Char → Option Components
  | .token .year4, s => (agree known.year (value s)).map ({ known with year := · })
  | .token .year2, s => (agree known.year (2000 + value s)).map ({ known with year := · })
  | .token .monthName, s | .token .monthAbbreviation, s => do
    let month ← monthOfName? s
    (agree known.month month).map ({ known with month := · })
  | .token .month2, s | .token .month1, s =>
    (agree known.month (value s)).map ({ known with month := · })
  | .token .day2, s | .token .day1, s | .token .dayOrdinal, s =>
    (agree known.day (value (s.takeWhile Char.isDigit))).map ({ known with day := · })
  | .token .weekday, _ | .literal _, _ => some known

def noteAll (known : Components) : List (Part × List Char) → Option Components
  | [] => some known
  | (p, s) :: rest => do (← known.note p s).noteAll rest

def date? (known : Components) : Option Date := do
  Date.of? (← known.year) (← known.month) (← known.day)

end Components

/-- The date that a trimmed text shows through the parts. -/
def readParts? (parts : List Part) (s : List Char) : Option Date := do
  let pieces ← cut? parts s
  let known ← Components.noteAll {} (parts.zip pieces)
  known.date?

def ordinalSuffix (day : Nat) : List Char :=
  if 11 ≤ day % 100 ∧ day % 100 ≤ 13 then ['t', 'h']
  else match day % 10 with
    | 1 => ['s', 't']
    | 2 => ['n', 'd']
    | 3 => ['r', 'd']
    | _ => ['t', 'h']

def Part.write (d : Date) : Part → List Char
  | .token .year4 => fixedWidthInt 4 d.year
  | .token .year2 => fixedWidth 2 (d.year % 100).toNat
  | .token .monthName => d.monthName.toList
  | .token .monthAbbreviation => d.monthName.toList.take 3
  | .token .month2 => fixedWidth 2 d.month
  | .token .month1 => digits d.month
  | .token .day2 => fixedWidth 2 d.day
  | .token .day1 => digits d.day
  | .token .dayOrdinal => digits d.day ++ ordinalSuffix d.day
  | .token .weekday => d.weekdayName.toList
  | .literal c => [c]

/-- The tokens among the parts. -/
def tokensOf (parts : List Part) : List Token :=
  parts.filterMap fun
    | .token t => some t
    | .literal _ => none

/-- What a date cell holds. -/
inductive DateCell
  | blank
  | date (d : Date)
  | unreadable
deriving DecidableEq

namespace DateCell

def date? : DateCell → Option Date
  | date d => some d
  | _ => none

def isUnreadable : DateCell → Bool
  | unreadable => true
  | _ => false

end DateCell

end Calendar

/-- A date template, trimmed and not empty. -/
structure DateTemplate where
  text : String
deriving DecidableEq, Repr

namespace DateTemplate

open Calendar Text

def of? (template : String) : Option DateTemplate := (nonBlank? template).map (⟨·⟩)

def parts (t : DateTemplate) : List Part := tokenize t.text.toList

def tokens (t : DateTemplate) : List Token := tokensOf t.parts

/-- Whether the template shows a year, a month and a day. -/
def isComplete (t : DateTemplate) : Bool :=
  t.tokens.any Token.showsYear && t.tokens.any Token.showsMonth && t.tokens.any Token.showsDay

def parse (t : DateTemplate) (cell : String) : DateCell :=
  let s := trim cell.toList
  if s = [] then .blank
  else match readParts? t.parts s with
    | some d => .date d
    | none => .unreadable

def format (t : DateTemplate) (d : Date) : String :=
  String.ofList (t.parts.flatMap (Part.write d))

end DateTemplate

end Payables
