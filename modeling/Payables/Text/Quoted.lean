import Payables.Text.CodeRange
import Payables.Text.EscapeTable

/-!
# Quoted texts in messages

A quoted text stands between double quotes. Quotes and backslashes are escaped, the common controls
have short names, and any other character without a shape of its own is written by its number.
-/

namespace Payables.Text

def hexDigits (n : Nat) : List Char := Nat.toDigits 16 n

def isShapeless (c : Char) : Bool := inRanges shapelessRanges c

def escaped (c : Char) : List Char :=
  match c with
  | '"' => ['\\', '"']
  | '\\' => ['\\', '\\']
  | '\t' => ['\\', 't']
  | '\n' => ['\\', 'n']
  | '\r' => ['\\', 'r']
  | '\x00' => ['\\', '0']
  | c => if isShapeless c then ['\\', 'u', '\x7b'] ++ hexDigits c.toNat ++ ['\x7d'] else [c]

def quoted (s : String) : String := String.ofList ('"' :: s.toList.flatMap escaped ++ ['"'])

def quotedList (xs : List String) : String := "[" ++ ", ".intercalate (xs.map quoted) ++ "]"

end Payables.Text
