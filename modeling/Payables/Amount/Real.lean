import Payables.Amount.Basic
import Payables.Number.Binary64

/-!
# Reals as amounts

Every finite binary number has an exact decimal numeral. `Amount.ofReal?` gives the one with the
fewest decimals, except that a number below the normal ones keeps all decimals of the unit.
-/

namespace Payables.Amount

/-- How often two divides a number that is not zero, at most `most` times. -/
def twos : Nat → Nat → Nat
  | 0, _ => 0
  | most + 1, n => if n % 2 = 0 then twos most (n / 2) + 1 else 0

/-- The digits and the number of decimals of `n / 2 ^ below`. -/
def ofDyadic (n : Nat) (below : Nat) : Nat × Nat :=
  let shared := twos below n
  (n / twoTo shared * fiveTo (below - shared), below - shared)

def ofReal? (x : Binary64) : Option Amount :=
  if x.isInfinite then none
  else if x.magnitude = 0 then some (ofInt 0)
  else
    let p := Binary64.binade x.magnitude
    let n := Binary64.significand x.magnitude
    let (digits, decimals) :=
      if x.isSubnormal then (n * fiveTo 1074, 1074)
      else if 1074 ≤ p then (n * twoTo (p - 1074), 0)
      else ofDyadic n (1074 - p)
    of? (if x.negative then -digits else digits) decimals

end Payables.Amount
