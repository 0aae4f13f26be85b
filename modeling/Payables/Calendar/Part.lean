import Payables.Text.Blank
import Payables.Text.Search

/-!
# Parts of a date template

A template such as `Do MMM YYYY` is a list of parts: tokens that show a component of a date, and
literal characters. A text shows a date through the parts if it can be cut into one piece for each;
`pieces?` is the first way to do so when every piece is as long as the rest of the text allows.
-/

namespace Payables.Calendar

open Text

inductive Token
  | year4
  | monthName
  | weekday
  | monthAbbreviation
  | month2
  | day2
  | year2
  | dayOrdinal
  | month1
  | day1
deriving DecidableEq, Repr

namespace Token

def spelling : Token → List Char
  | year4 => ['Y', 'Y', 'Y', 'Y']
  | monthName => ['M', 'M', 'M', 'M']
  | weekday => ['d', 'd', 'd', 'd']
  | monthAbbreviation => ['M', 'M', 'M']
  | month2 => ['M', 'M']
  | day2 => ['D', 'D']
  | year2 => ['Y', 'Y']
  | dayOrdinal => ['D', 'o']
  | month1 => ['M']
  | day1 => ['D']

/-- Longer spellings first. -/
def all : List Token :=
  [year4, monthName, weekday, monthAbbreviation, month2, day2, year2, dayOrdinal, month1, day1]

def showsYear : Token → Bool
  | year4 | year2 => true
  | _ => false

def showsMonth : Token → Bool
  | monthName | monthAbbreviation | month2 | month1 => true
  | _ => false

def showsDay : Token → Bool
  | day2 | day1 | dayOrdinal => true
  | _ => false

end Token

inductive Part
  | token (t : Token)
  | literal (c : Char)
deriving DecidableEq, Repr

def Part.spelling : Part → List Char
  | token t => t.spelling
  | literal c => [c]

/-- The part at the start of a text, and what it leaves. -/
def nextPart (c : Char) (cs : List Char) : Part × List Char :=
  match Token.all.findSome? fun t => (afterPrefix? t.spelling (c :: cs)).map (t, ·) with
  | some (t, rest) => (.token t, rest)
  | none => (.literal c, cs)

theorem nextPart_length (c : Char) (cs : List Char) :
    (nextPart c cs).2.length < (c :: cs).length := by
  unfold nextPart
  split
  · rename_i t rest h
    obtain ⟨u, -, hu⟩ := List.exists_of_findSome?_eq_some h
    simp only [Option.map_eq_some_iff, Prod.mk.injEq] at hu
    obtain ⟨r, hr, rfl, rfl⟩ := hu
    have hpos : 0 < u.spelling.length := by cases u <;> simp [Token.spelling]
    rw [afterPrefix?_eq_some_iff.1 hr, List.length_append]
    exact Nat.lt_add_of_pos_left hpos
  · simp

def tokenize : List Char → List Part
  | [] => []
  | c :: cs => (nextPart c cs).1 :: tokenize (nextPart c cs).2
termination_by s => s.length
decreasing_by exact nextPart_length c cs

def isLetter (c : Char) : Bool := c.isAlpha

/-- The lengths of the runs of a class at the start of a text, longest first, from `fewest` on. -/
def runLengths (p : Char → Bool) (fewest : Nat) (s : List Char) : List Nat :=
  let longest := (s.takeWhile p).length
  (List.range (longest + 1 - fewest)).map (longest - ·)

def ordinalSuffixes : List (List Char) := [['s', 't'], ['n', 'd'], ['r', 'd'], ['t', 'h']]

def startsWithOrdinalSuffix (s : List Char) : Bool :=
  ordinalSuffixes.contains ((s.take 2).map Char.toLower)

/-- The class of characters that a part takes a run of, without a limit to its length. -/
def Part.runClass? : Part → Option (Char → Bool)
  | .token .monthName | .token .weekday => some isLetter
  | .token _ => none
  | .literal c => if isBlank c then some isBlank else none

/-- The lengths that a piece for a part may have at the start of a text, longest first. -/
def Part.lengths : Part → List Char → List Nat
  | .token .year4, s => runLengths Char.isDigit 4 (s.take 4)
  | .token .year2, s | .token .month2, s | .token .day2, s => runLengths Char.isDigit 2 (s.take 2)
  | .token .month1, s | .token .day1, s => runLengths Char.isDigit 1 (s.take 2)
  | .token .monthAbbreviation, s => runLengths isLetter 3 (s.take 4)
  | .token .monthName, s | .token .weekday, s => runLengths isLetter 1 s
  | .token .dayOrdinal, s =>
    ((runLengths Char.isDigit 1 (s.take 2)).filter fun n =>
      startsWithOrdinalSuffix (s.drop n)).map (· + 2)
  | .literal c, s =>
    if isBlank c then runLengths isBlank 1 s else if s.head? = some c then [1] else []

theorem Part.lengths_eq_runLengths {p : Part} {q : Char → Bool} (h : p.runClass? = some q)
    (s : List Char) : p.lengths s = runLengths q 1 s := by
  unfold runClass? at h
  split at h
  · cases h; rfl
  · cases h; rfl
  · cases h
  · split at h
    · cases h; simp [lengths, *]
    · cases h

/-- The first way to cut the whole text into pieces for the parts. -/
def pieces? : List Part → List Char → Option (List (List Char))
  | [], [] => some []
  | [], _ :: _ => none
  | p :: ps, s => (p.lengths s).findSome? fun n => (pieces? ps (s.drop n)).map (s.take n :: ·)

end Payables.Calendar
