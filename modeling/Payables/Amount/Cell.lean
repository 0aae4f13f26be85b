import Payables.Amount.Numeral
import Payables.Text.Blank
import Payables.Text.Case
import Payables.Text.Search

/-!
# Amounts in the cells of a statement

A cell shows an amount with marks between the groups of digits and before the decimals, perhaps a
currency, a `CR` or `DR`, a minus or parentheses. `AmountFormat.read?` undresses it step by step in
one order and `AmountFormat.display` writes an amount with two decimals.
-/

namespace Payables

structure AmountFormat where
  decimalMark : String := "."
  groupMark : String := ","
deriving DecidableEq, Repr, Inhabited

namespace AmountFormat

open Text

/-- Texts that stand for a missing amount, in any case. -/
def placeholders : List (List Char) :=
  ["-", "--", "n/a", "na", "nil", "none", "null", "\u2014", "\u2013"].map String.toList

def currencies : List (List Char) :=
  ["$", "£", "€", "¥", "₹", "AUD", "NZD", "USD", "GBP", "EUR"].map String.toList

def isPlaceholder (s : List Char) : Bool := placeholders.contains (lower s)

def plainMinus (c : Char) : Char := if c = '\u2212' then '-' else c

/-- What parentheses around the whole text enclose. -/
def enclosed? : List Char → Option (List Char)
  | '(' :: s => if s.getLast? = some ')' then some s.dropLast else none
  | _ => none

def dropCurrency (s : List Char) : List Char :=
  match currencies.findSome? (afterPrefix? · s) with
  | some r => trimStart r
  | none => s

/-- Drops a `CR` or `DR` at the end. -/
def dropSide (s : List Char) : List Char :=
  let tail := (s.drop (s.length - 2)).map asciiLower
  if tail = ['c', 'r'] ∨ tail = ['d', 'r'] then s.take (s.length - 2) else s

/-- Takes out the group marks and puts a point for the decimal mark. -/
def plainNumeral (f : AmountFormat) (s : List Char) : List Char :=
  let decimal := f.decimalMark.toList
  let group := f.groupMark.toList
  let s := if trim group ≠ [] ∧ group ≠ decimal then replaceAll group [] s else s
  if decimal ≠ [] ∧ decimal ≠ ['.'] then replaceAll decimal ['.'] s else s

def unsigned? (f : AmountFormat) (s : List Char) : Option Amount :=
  let numeral := f.plainNumeral (dropBlanks (dropSide (dropCurrency s)))
  if numeral.any Amount.isDigit then Amount.ofChars? numeral else none

/-- The amount of a text that has no parentheses around it any more, perhaps behind a minus. -/
def withSign (f : AmountFormat) (negative : Bool) : List Char → Option Amount
  | '-' :: s => (f.unsigned? (trimStart s)).map Amount.negatedMagnitude
  | s => if negative then (f.unsigned? s).map Amount.negatedMagnitude else f.unsigned? s

def readChars? (f : AmountFormat) (cell : List Char) : Option Amount :=
  let s := (trim cell).map plainMinus
  if s = [] ∨ isPlaceholder s then none
  else match enclosed? s with
    | some inner => f.withSign true (trim inner)
    | none => f.withSign false s

/-- The amount that a cell shows, if it shows one. -/
def read? (f : AmountFormat) (cell : String) : Option Amount := f.readChars? cell.toList

def showsAmount (f : AmountFormat) (cell : String) : Bool :=
  match f.read? cell with
  | some a => !a.isZero
  | none => false

/-- Puts the mark in front of every group of three digits but the first. -/
def grouped (mark : List Char) : List Char → List Char
  | [] => []
  | c :: cs =>
    if cs ≠ [] ∧ cs.length % 3 = 0 then c :: mark ++ grouped mark cs else c :: grouped mark cs

/-- Hundredths as they are displayed, without a sign. -/
def shown (f : AmountFormat) (n : Nat) : List Char :=
  grouped f.groupMark.toList (digits (n / 100)) ++ f.decimalMark.toList ++ fixedWidth 2 (n % 100)

def displayChars (f : AmountFormat) (a : Amount) : List Char :=
  let sign := if a.unscaled < 0 ∧ a.hundredths ≠ 0 then ['-'] else []
  sign ++ f.shown a.hundredths

/-- The amount with two decimals and grouped digits. -/
def display (f : AmountFormat) (a : Amount) : String := String.ofList (f.displayChars a)

end AmountFormat

end Payables
