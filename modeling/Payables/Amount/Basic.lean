import Payables.Number.Power
import Payables.Number.Rounding
import Payables.Text.Numeral

/-!
# Decimal amounts

An amount is `unscaled / 10 ^ scale`, where the scale fits 64 bits. Different amounts may have one
value: `12.5` and `12.50` are equal as numbers. `normalForm` takes out trailing zeros, so that it is
the same for amounts of one value. It counts the scale in 64 bits too, so that below the least scale
comes the greatest.
-/

namespace Payables

/-- Whether a scale fits 64 bits. -/
def ScaleFits (scale : Int) : Prop :=
  -9223372036854775808 ≤ scale ∧ scale < 9223372036854775808

instance (scale : Int) : Decidable (ScaleFits scale) := inferInstanceAs (Decidable (_ ∧ _))

structure Amount where
  unscaled : Int
  scale : Int
  scaleFits : ScaleFits scale
deriving DecidableEq

namespace Amount

def ofInt (n : Int) : Amount := ⟨n, 0, by decide⟩

instance : Inhabited Amount := ⟨ofInt 0⟩

def of? (unscaled scale : Int) : Option Amount :=
  if h : ScaleFits scale then some ⟨unscaled, scale, h⟩ else none

def isZero (a : Amount) : Bool := a.unscaled == 0

def isPositive (a : Amount) : Bool := 0 < a.unscaled

def negatedMagnitude (a : Amount) : Amount := { a with unscaled := -a.unscaled.natAbs }

def trailingZeros (n : Nat) : Nat := ((Text.digits n).reverse.takeWhile (· == '0')).length

/-- The scale that is `n` below another, in the circle of the scales of 64 bits. -/
def scaleBelow (scale : Int) (n : Nat) : Int := (scale - n).bmod 18446744073709551616

/-- The unscaled number and the scale without trailing zeros. -/
def normalForm (a : Amount) : Int × Int :=
  if a.unscaled = 0 then (0, 0)
  else
    let zeros := trailingZeros a.unscaled.natAbs
    (a.unscaled / tenTo zeros, scaleBelow a.scale zeros)

/-- The number of hundredths nearest to the magnitude, a half to the even one. -/
def hundredths (a : Amount) : Nat :=
  let n := a.unscaled.natAbs
  if n = 0 then 0
  else if a.scale ≤ 2 then n * tenTo (2 - a.scale).toNat
  else
    let cut := (a.scale - 2).toNat
    if (Text.digits n).length < cut then 0 else roundHalfEven n (tenTo cut)

/-- The amount rounded to two decimals. -/
def rounded (a : Amount) : Amount :=
  ⟨if a.unscaled < 0 then -a.hundredths else a.hundredths, 2, by decide⟩

end Amount

end Payables
