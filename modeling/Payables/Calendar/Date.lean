/-!
# Calendar dates

Dates of the Gregorian calendar, carried on before its beginning and with a year zero. The order of
dates is the order of `Date.key`.
-/

namespace Payables

namespace Calendar

def isLeapYear (year : Int) : Bool :=
  year % 4 == 0 && (year % 100 != 0 || year % 400 == 0)

def monthLength (year : Int) : Nat → Nat
  | 2 => if isLeapYear year then 29 else 28
  | 4 | 6 | 9 | 11 => 30
  | _ => 31

def firstYear : Int := -262143

def lastYear : Int := 262142

/-- The days that the calendar has. -/
structure IsDay (year : Int) (month day : Nat) : Prop where
  first_le : firstYear ≤ year
  le_last : year ≤ lastYear
  month_pos : 1 ≤ month
  month_le : month ≤ 12
  day_pos : 1 ≤ day
  day_le : day ≤ monthLength year month

instance (year : Int) (month day : Nat) : Decidable (IsDay year month day) :=
  decidable_of_iff
    (firstYear ≤ year ∧ year ≤ lastYear ∧ 1 ≤ month ∧ month ≤ 12 ∧ 1 ≤ day ∧
      day ≤ monthLength year month)
    ⟨fun ⟨h₁, h₂, h₃, h₄, h₅, h₆⟩ => ⟨h₁, h₂, h₃, h₄, h₅, h₆⟩,
      fun ⟨h₁, h₂, h₃, h₄, h₅, h₆⟩ => ⟨h₁, h₂, h₃, h₄, h₅, h₆⟩⟩

def monthNames : List String :=
  ["January", "February", "March", "April", "May", "June", "July", "August", "September",
    "October", "November", "December"]

def weekdayNames : List String :=
  ["Sunday", "Monday", "Tuesday", "Wednesday", "Thursday", "Friday", "Saturday"]

end Calendar

structure Date where
  year : Int
  month : Nat
  day : Nat
  isDay : Calendar.IsDay year month day
deriving DecidableEq

namespace Date

open Calendar

def of? (year : Int) (month day : Nat) : Option Date :=
  if h : IsDay year month day then some ⟨year, month, day, h⟩ else none

/-- The place of a date in the order of dates. -/
def key (d : Date) : Int := d.year * 512 + d.month * 32 + d.day

instance : LE Date := ⟨fun a b => a.key ≤ b.key⟩

instance (a b : Date) : Decidable (a ≤ b) := inferInstanceAs (Decidable (a.key ≤ b.key))

def earlier (a b : Date) : Date := if a ≤ b then a else b

def later (a b : Date) : Date := if a ≤ b then b else a

def earliest? : List Date → Option Date
  | [] => none
  | d :: ds => some (ds.foldl earlier d)

def latest? : List Date → Option Date
  | [] => none
  | d :: ds => some (ds.foldl later d)

/-- The number of a day, counted from the last day of the year zero. -/
def dayNumber (d : Date) : Int :=
  let past := d.year - 1
  let months := (List.range d.month).drop 1
  let days : Nat := (months.map (monthLength d.year)).foldl (· + ·) d.day
  past * 365 + past / 4 - past / 100 + past / 400 + days

def monthName (d : Date) : String := monthNames.getD (d.month - 1) ""

def weekdayName (d : Date) : String := weekdayNames.getD (d.dayNumber % 7).toNat ""

end Date

end Payables
