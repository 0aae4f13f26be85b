import Payables.Calendar.Date
import Payables.Text.Blank
import Payables.Text.Numeral

/-!
# Dates and times as texts

Dates are written `YYYY-MM-DD`, with a sign on years outside four digits, and times of day follow
after a `T`. Reading allows white space around the numbers and fewer digits. A time keeps its
nanoseconds, written in groups of three digits as far as needed.
-/

namespace Payables

open Calendar Text

/-- A reader takes a value off the front of a text. -/
abbrev Reader (α : Type) := List Char → Option (α × List Char)

namespace Reader

/-- A number of at most `most` digits after optional white space. -/
def number (most : Nat) : Reader Nat := fun s =>
  let s := trimStart s
  let n := min most (s.takeWhile Char.isDigit).length
  if n = 0 then none else some (value (s.take n), s.drop n)

/-- A number of any length behind a sign, of at most four digits without one. -/
def year : Reader Int := fun s =>
  match trimStart s with
  | '-' :: r => (unspaced r).map fun (n, r) => (-(n : Int), r)
  | '+' :: r => (unspaced r).map fun (n, r) => ((n : Int), r)
  | s => (number 4 s).map fun (n, r) => ((n : Int), r)
where
  unspaced (s : List Char) : Option (Nat × List Char) :=
    let ds := s.takeWhile Char.isDigit
    if ds = [] then none else some (value ds, s.dropWhile Char.isDigit)

/-- One character after optional white space. -/
def mark (c : Char) : Reader Unit := fun s =>
  match trimStart s with
  | d :: r => if d = c then some ((), r) else none
  | [] => none

def date : Reader Date := fun s => do
  let (year, s) ← year s
  let ((), s) ← mark '-' s
  let (month, s) ← number 2 s
  let ((), s) ← mark '-' s
  let (day, s) ← number 2 s
  let d ← Date.of? year month day
  pure (d, s)

/-- The nanoseconds behind a point, none without one; digits after the ninth are passed over. -/
def fraction : Reader Nat := fun s =>
  match s with
  | '.' :: r =>
    let ds := r.takeWhile Char.isDigit
    if ds = [] then none
    else some (value (ds.take 9 ++ List.replicate (9 - ds.length) '0'), r.dropWhile Char.isDigit)
  | s => some (0, s)

/-- The value of a whole text, white space at its end allowed. -/
def whole {α : Type} (r : Reader α) (s : String) : Option α :=
  match r s.toList with
  | some (a, rest) => if allBlank rest then some a else none
  | none => none

end Reader

namespace Date

def ofText? (s : String) : Option Date := Reader.date.whole s

def yearChars (year : Int) : List Char :=
  if 0 ≤ year ∧ year ≤ 9999 then fixedWidth 4 year.toNat
  else (if year < 0 then '-' else '+') :: fixedWidth 4 year.natAbs

def chars (d : Date) : List Char :=
  yearChars d.year ++ '-' :: fixedWidth 2 d.month ++ '-' :: fixedWidth 2 d.day

def text (d : Date) : String := String.ofList d.chars

end Date

/-- A day and a time on it; the second may be a leap second. -/
structure Timestamp where
  date : Date
  hour : Nat
  minute : Nat
  second : Nat
  nanosecond : Nat
deriving DecidableEq

namespace Timestamp

def of? (date : Date) (hour minute second nanosecond : Nat) : Option Timestamp :=
  if hour < 24 ∧ minute < 60 ∧ second ≤ 60 then some ⟨date, hour, minute, second, nanosecond⟩
  else none

def reader : Reader Timestamp := fun s => do
  let (date, s) ← Reader.date s
  let ((), s) ← Reader.mark 'T' s
  let (hour, s) ← Reader.number 2 s
  let ((), s) ← Reader.mark ':' s
  let (minute, s) ← Reader.number 2 s
  let ((), s) ← Reader.mark ':' s
  let (second, s) ← Reader.number 2 s
  let (nanosecond, s) ← Reader.fraction s
  let t ← of? date hour minute second nanosecond
  pure (t, s)

def ofText? (s : String) : Option Timestamp := reader.whole s

def fractionChars (nanosecond : Nat) : List Char :=
  if nanosecond = 0 then []
  else if nanosecond % 1000000 = 0 then '.' :: fixedWidth 3 (nanosecond / 1000000)
  else if nanosecond % 1000 = 0 then '.' :: fixedWidth 6 (nanosecond / 1000)
  else '.' :: fixedWidth 9 nanosecond

def text (t : Timestamp) : String :=
  String.ofList (t.date.chars ++ 'T' :: fixedWidth 2 t.hour ++ ':' :: fixedWidth 2 t.minute ++
    ':' :: fixedWidth 2 t.second ++ fractionChars t.nanosecond)

end Timestamp

end Payables
