import Payables.Reference.Family
import Payables.Text.NormalForm
import Std.Data.ExtTreeSet

/-!
# References in a text

A text is searched for the members of a family. A candidate is made of neighbouring runs of letters
and digits, so that a reference is found even if it is written with separators; a colon or a point
between the runs keeps them apart.
-/

namespace Payables.Family

open Text

/-- Capital ASCII letters and digits. -/
def isSpanChar (c : Char) : Bool := c.isUpper || c.isDigit

def isHardSeparator (c : Char) : Bool := c == ':' || c == '.'

/-- The stretches of one to `longest` neighbouring pieces. -/
def windows (longest : Nat) : List Piece → List (List Piece)
  | [] => []
  | p :: ps =>
    (List.range ((p :: ps).take longest).length).map (fun n => (p :: ps).take (n + 1)) ++
      windows longest ps

/-- The normal form of a stretch, unless a hard separator stands in it. -/
def candidate? (window : List Piece) : Option String :=
  let segment := joinPieces window
  if segment.any isHardSeparator then none else some (referenceForm (String.ofList segment))

/-- The members of the family that stand in a text. -/
def candidates (f : Family) (longest : Nat) (text : String) : Std.ExtTreeSet String :=
  .ofList (((windows longest (split isSpanChar (upper text.toList)).pieces).filterMap
    candidate?).filter f.fits)

end Payables.Family
