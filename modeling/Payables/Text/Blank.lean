/-!
# White space

`isBlank` is the Unicode property `White_Space`. `trim` drops it at both ends of a text.
-/

namespace Payables.Text

def isBlank (c : Char) : Bool :=
  let n := c.toNat
  (0x09 ≤ n && n ≤ 0x0D) || n == 0x20 || n == 0x85 || n == 0xA0 || n == 0x1680 ||
    (0x2000 ≤ n && n ≤ 0x200A) || n == 0x2028 || n == 0x2029 || n == 0x202F || n == 0x205F ||
    n == 0x3000

def allBlank (s : List Char) : Bool := s.all isBlank

def trimStart (s : List Char) : List Char := s.dropWhile isBlank

def trimEnd (s : List Char) : List Char := (s.reverse.dropWhile isBlank).reverse

def trim (s : List Char) : List Char := trimEnd (trimStart s)

def dropBlanks (s : List Char) : List Char := s.filter (!isBlank ·)

def trimmed (s : String) : String := String.ofList (trim s.toList)

/-- A text without white space at its ends, if anything is left of it. -/
def nonBlank? (s : String) : Option String :=
  if trim s.toList = [] then none else some (trimmed s)

end Payables.Text
