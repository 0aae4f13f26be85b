import Payables.Text.CaseTable
import Payables.Text.SigmaTable

/-!
# Upper and lower case

The full case mappings of Unicode, where one character may become several. Lower case depends on
the context in one place: a capital sigma at the end of a word becomes `ς`, elsewhere `σ`.
`asciiLower` and `asciiUpper` touch the letters of ASCII only.
-/

namespace Payables.Text

def asciiLower (c : Char) : Char := c.toLower

def asciiUpper (c : Char) : Char := c.toUpper

def isAsciiAlphanumeric (c : Char) : Bool := c.isAlphanum

def isCased (c : Char) : Bool := inRanges casedRanges c

def isCaseIgnorable (c : Char) : Bool := inRanges caseIgnorableRanges c

/-- Whether the nearest character that is not case-ignorable has case. -/
def leadsToCased (s : List Char) : Bool :=
  match s.find? (!isCaseIgnorable ·) with
  | some c => isCased c
  | none => false

def lowerChar (c : Char) : List Char :=
  if c = 'İ' then ['i', Char.ofNat 0x307] else [Char.ofNat (mapCode lowerRanges c.toNat)]

/-- Lower case of a text that follows `before`, which is given backwards. -/
def lowerAfter : List Char → List Char → List Char
  | _, [] => []
  | before, c :: cs =>
    let here :=
      if c = 'Σ' then if leadsToCased before && !leadsToCased cs then ['ς'] else ['σ']
      else lowerChar c
    here ++ lowerAfter (c :: before) cs

def lower (s : List Char) : List Char := lowerAfter [] s

def upperChar (c : Char) : List Char :=
  match upperExpansions.lookup c.toNat with
  | some codes => codes.map Char.ofNat
  | none => [Char.ofNat (mapCode upperRanges c.toNat)]

def upper (s : List Char) : List Char := s.flatMap upperChar

end Payables.Text
