import Payables.Text.Numeral
import Payables.Text.Search

/-!
# Families of references

A family is a shape of references in normal form: a stem followed by a number of digits, or one of
several literal texts. A reference belongs to a family when it has one of its shapes as a whole.
`Family.text` writes the family as an anchored pattern.
-/

namespace Payables

/-- A shape of references. -/
inductive Shape
  | digits (stem : String) (least most : Nat)
  | literals (texts : List String)
deriving DecidableEq, Repr

structure Family where
  shapes : List Shape
deriving DecidableEq, Repr

open Text

namespace Shape

def fits : Shape → String → Bool
  | digits stem least most, s =>
    match afterPrefix? stem.toList s.toList with
    | some rest => rest.all Char.isDigit && least ≤ rest.length && rest.length ≤ most
    | none => false
  | literals texts, s => texts.contains s

/-- The characters that stand for something else in a pattern. -/
def special : List Char :=
  ['\\', '.', '+', '*', '?', '(', ')', '|', '[', ']', '\x7b', '\x7d', '^', '$', '#', '&', '-', '~']

def escape (s : List Char) : List Char :=
  s.flatMap fun c => if special.contains c then ['\\', c] else [c]

/-- The allowed number of repetitions. -/
def repetition (least most : Nat) : List Char :=
  ['\x7b'] ++ Text.digits least ++ (if least = most then [] else ',' :: Text.digits most) ++
    ['\x7d']

def anyOf (alternatives : List (List Char)) : List Char :=
  "(?:".toList ++ ['|'].intercalate alternatives ++ [')']

def text : Shape → List Char
  | digits stem least most => escape stem.toList ++ "[0-9]".toList ++ repetition least most
  | literals texts => anyOf (texts.map fun t => escape t.toList)

end Shape

namespace Family

def fits (f : Family) (s : String) : Bool := f.shapes.any (·.fits s)

def text (f : Family) : String :=
  String.ofList ('^' :: Shape.anyOf (f.shapes.map Shape.text) ++ ['$'])

end Family

end Payables
