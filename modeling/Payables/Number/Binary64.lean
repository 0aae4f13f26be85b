import Payables.Number.Power
import Payables.Number.Rounding

/-!
# Binary floating point

A `Binary64` is a number of 53 significant bits or an infinity. It is kept as a sign and the
magnitude field of its 64-bit form, so that the order of numbers is the order of integers. Finite
numbers are multiples of the unit `2 ^ -1074`, and every operation rounds its exact result once, to
the nearest number and to the even one of two.
-/

namespace Payables

structure Binary64 where
  negative : Bool
  magnitude : Nat
deriving DecidableEq, Repr

namespace Binary64

/-- The magnitude field of infinity, above those of all finite numbers. -/
def infinityField : Nat := 2047 * twoTo 52

/-- The power of two that scales the significand of a magnitude field. -/
def binade (field : Nat) : Nat := field / twoTo 52 - 1

def significand (field : Nat) : Nat := field - binade field * twoTo 52

/-- A finite number in units. -/
def units (x : Binary64) : Int :=
  let n := significand x.magnitude * twoTo (binade x.magnitude)
  if x.negative then -n else n

def isInfinite (x : Binary64) : Bool := infinityField ≤ x.magnitude

/-- Whether the significand has fewer than 53 bits. -/
def isSubnormal (x : Binary64) : Bool := x.magnitude < twoTo 52

/-- The binade of `a / d` units. -/
def quotientBinade (a d : Nat) : Nat :=
  let p := a.log2 - (d.log2 + 52)
  if 0 < p ∧ a < d * twoTo (p + 52) then p - 1 else p

/-- The magnitude field nearest to `a / d` units. -/
def roundField (a d : Nat) : Nat :=
  let p := quotientBinade a d
  min (p * twoTo 52 + roundHalfEven a (d * twoTo p)) infinityField

def ofUnits (a : Int) (d : Nat) : Binary64 := ⟨decide (a < 0), roundField a.natAbs d⟩

def ofRatio (a b : Nat) : Binary64 := ofUnits (a * twoTo 1074) b

def ofNat (n : Nat) : Binary64 := ofRatio n 1

def infinity : Binary64 := ⟨false, infinityField⟩

instance (n : Nat) : OfNat Binary64 n := ⟨ofNat n⟩

def neg (x : Binary64) : Binary64 := { x with negative := !x.negative }

instance : Neg Binary64 := ⟨neg⟩

/-- The sum of finite numbers. -/
def add (x y : Binary64) : Binary64 := ofUnits (x.units + y.units) 1

instance : Add Binary64 := ⟨add⟩

instance : Sub Binary64 := ⟨fun x y => x + -y⟩

/-- The product of finite numbers. -/
def mul (x y : Binary64) : Binary64 := ofUnits (x.units * y.units) (twoTo 1074)

instance : Mul Binary64 := ⟨mul⟩

/-- The quotient of finite numbers, the divisor not zero. -/
def div (x y : Binary64) : Binary64 :=
  ofUnits (x.units * twoTo 1074 * y.units.sign) y.units.natAbs

instance : Div Binary64 := ⟨div⟩

/-- The place of a number in the order; the two zeros share theirs. -/
def key (x : Binary64) : Int := if x.negative then -x.magnitude else x.magnitude

instance : LE Binary64 := ⟨fun x y => x.key ≤ y.key⟩

instance : LT Binary64 := ⟨fun x y => x.key < y.key⟩

instance (x y : Binary64) : Decidable (x ≤ y) := inferInstanceAs (Decidable (x.key ≤ y.key))

instance (x y : Binary64) : Decidable (x < y) := inferInstanceAs (Decidable (x.key < y.key))

/-- The lesser of two numbers, the first of two equal ones. -/
def lesser (x y : Binary64) : Binary64 := if y < x then y else x

/-- The 64-bit form. -/
def bits (x : Binary64) : Nat := (if x.negative then twoTo 63 else 0) + x.magnitude

end Binary64

end Payables
