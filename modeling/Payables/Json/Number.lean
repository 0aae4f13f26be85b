import Payables.Json.Basic
import Payables.Text.Numeral

/-!
# Numbers in JSON texts

A literal is a sign, a whole part, decimals and an exponent. A real takes as many leading digits as
fit 64 bits for its significand, and a division or multiplication by a power of ten scales it.
-/

namespace Payables.Json

structure Literal where
  negative : Bool
  whole : List Char
  decimals : List Char := []
  exponent : Option Int := none
deriving DecidableEq, Repr

namespace Literal

open Text

/-- Appends digits to a significand until one does not fit any more; the digits left over. -/
def extend (significand : Nat) : List Char → Nat × List Char
  | [] => (significand, [])
  | c :: cs =>
    let next := 10 * significand + digitValue c
    if next < wordBound then extend next cs else (significand, c :: cs)

/-- The largest power of ten that is scaled by in one step. -/
def largestStep : Nat := 308

/-- `x` times ten to the given power; infinite when it is out of range. -/
def scale (x : Binary64) (exponent : Int) : Binary64 :=
  if exponent.natAbs ≤ largestStep then
    let power := Binary64.ofNat (tenTo exponent.natAbs)
    if exponent < 0 then x / power else x * power
  else if x.magnitude = 0 then x
  else if 0 ≤ exponent then Binary64.infinity
  else scale (x / Binary64.ofNat (tenTo largestStep)) (exponent + largestStep)
termination_by exponent.natAbs
decreasing_by simp only [largestStep] at *; omega

def magnitude (l : Literal) : Binary64 :=
  let (head, rest) := extend 0 l.whole
  let (significand, unused) := extend head l.decimals
  let exponent := (rest.length : Int) - (l.decimals.length - unused.length) + l.exponent.getD 0
  scale (Binary64.ofNat significand) exponent

def real (l : Literal) : Binary64 := if l.negative then -l.magnitude else l.magnitude

def isInteger (l : Literal) : Bool := l.decimals.isEmpty && l.exponent.isNone

def toJson (l : Literal) : Json :=
  let n := value l.whole
  if !l.isInteger then .real l.real
  else if !l.negative then if n < wordBound then .integer n else .real l.real
  else if n = 0 ∨ (-n : Int) < leastInteger then .real l.real
  else .integer (-n)

end Literal

end Payables.Json
