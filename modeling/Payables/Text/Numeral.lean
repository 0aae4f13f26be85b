/-!
# Decimal numerals

`digits` writes a number in decimal digits without leading zeros and `value` reads digits back.
`fixedWidth` pads with zeros on the left.
-/

namespace Payables.Text

def digits (n : Nat) : List Char := Nat.toDigits 10 n

def digitValue (c : Char) : Nat := c.toNat - '0'.toNat

def value (s : List Char) : Nat := s.foldl (fun n c => 10 * n + digitValue c) 0

def fixedWidth (width n : Nat) : List Char :=
  List.replicate (width - (digits n).length) '0' ++ digits n

/-- A number with its sign, `width` counting the sign. -/
def fixedWidthInt (width : Nat) (n : Int) : List Char :=
  if n < 0 then '-' :: fixedWidth (width - 1) n.natAbs else fixedWidth width n.natAbs

end Payables.Text
