import Payables.Number.Binary64

/-!
# JSON values

Objects keep their members in order and may repeat a name. A number is an integer as long as it is
written as one and fits 64 bits, signed or unsigned; any other number is a real, infinite when it
is out of range. A garbled value is a string, or an object with a name, whose escapes leave half of
a surrogate pair alone: a reader may pass over it and can do nothing else with it.
-/

namespace Payables

inductive Json
  | null
  | bool (b : Bool)
  | integer (n : Int)
  | real (x : Binary64)
  | string (s : String)
  | array (elements : List Json)
  | object (members : List (String × Json))
  | garbled
deriving Inhabited

namespace Json

def leastInteger : Int := -9223372036854775808

def wordBound : Nat := 18446744073709551616

end Json

end Payables
