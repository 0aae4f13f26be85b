/-!
# Runs of characters

`split p s` cuts a text at the boundaries of a class of characters: the part before the first run
of the class, and each run with the gap that follows it. `runs` keeps the runs alone.
-/

namespace Payables.Text

structure Piece where
  run : List Char
  gap : List Char
deriving DecidableEq, Repr

structure Pieces where
  lead : List Char := []
  pieces : List Piece := []
deriving DecidableEq, Repr

namespace Pieces

/-- Puts a character of the class in front. -/
def consRun (c : Char) : Pieces → Pieces
  | ⟨[], p :: ps⟩ => ⟨[], { p with run := c :: p.run } :: ps⟩
  | ⟨lead, ps⟩ => ⟨[], ⟨[c], lead⟩ :: ps⟩

def consGap (c : Char) (p : Pieces) : Pieces := { p with lead := c :: p.lead }

end Pieces

def split (p : Char → Bool) : List Char → Pieces
  | [] => {}
  | c :: cs => if p c then (split p cs).consRun c else (split p cs).consGap c

def runs (p : Char → Bool) (s : List Char) : List (List Char) := (split p s).pieces.map (·.run)

/-- The text from the first run to the last, with the gaps between them. -/
def joinPieces : List Piece → List Char
  | [] => []
  | [p] => p.run
  | p :: q :: ps => p.run ++ p.gap ++ joinPieces (q :: ps)

end Payables.Text
