/-!
# Rounding a quotient

`roundHalfEven a d` is the integer nearest to `a / d`, and the even one of two nearest integers.
-/

namespace Payables

def roundHalfEven (a d : Nat) : Nat :=
  let q := a / d
  let r := 2 * (a % d)
  if r < d then q else if d < r then q + 1 else q + q % 2

end Payables
