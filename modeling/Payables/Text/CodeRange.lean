/-!
# Ranges of code points

A property of characters is a list of closed ranges. A case mapping is a list of runs: every
`step`-th code point from `first` to `last` moves by `shift`.
-/

namespace Payables.Text

def inRanges (ranges : List (Nat × Nat)) (c : Char) : Bool :=
  ranges.any fun r => r.1 ≤ c.toNat && c.toNat ≤ r.2

structure CaseRange where
  first : Nat
  last : Nat
  step : Nat
  shift : Int
deriving DecidableEq, Repr

namespace CaseRange

def covers (r : CaseRange) (n : Nat) : Bool :=
  r.first ≤ n && n ≤ r.last && (n - r.first) % r.step == 0

def move (r : CaseRange) (n : Nat) : Nat := (n + r.shift).toNat

end CaseRange

/-- The counterpart of a code point, itself when no run covers it. -/
def mapCode (ranges : List CaseRange) (n : Nat) : Nat :=
  match ranges.find? (·.covers n) with
  | some r => r.move n
  | none => n

end Payables.Text
