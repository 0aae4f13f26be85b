import Payables.Amount.Numeral
import Payables.Amount.Real
import Payables.Json.Basic

/-!
# Writing JSON texts

`Json.write` uses no white space. Inside strings it escapes quotes, backslashes and controls, and
it writes a real by its exact decimal numeral. An infinite real and a garbled value become `null`.
-/

namespace Payables.Json

def hexDigit (n : Nat) : Char := (Nat.digitChar n)

def writeChar (c : Char) : List Char :=
  match c with
  | '"' => ['\\', '"']
  | '\\' => ['\\', '\\']
  | '\x08' => ['\\', 'b']
  | '\x0c' => ['\\', 'f']
  | '\n' => ['\\', 'n']
  | '\r' => ['\\', 'r']
  | '\t' => ['\\', 't']
  | c =>
    if c.toNat < 0x20 then
      ['\\', 'u', '0', '0', hexDigit (c.toNat / 16), hexDigit (c.toNat % 16)]
    else [c]

def writeString (s : String) : List Char := '"' :: s.toList.flatMap writeChar ++ ['"']

def writeInteger (n : Int) : List Char :=
  if n < 0 then '-' :: Text.digits n.natAbs else Text.digits n.natAbs

def writeReal (x : Binary64) : List Char :=
  match Amount.ofReal? x with
  | some a => a.chars
  | none => "null".toList

mutual

def writeValue : Json → List Char
  | .null => "null".toList
  | .bool true => "true".toList
  | .bool false => "false".toList
  | .integer n => writeInteger n
  | .real x => writeReal x
  | .string s => writeString s
  | .array xs => '[' :: writeElements xs ++ [']']
  | .object ms => '\x7b' :: writeMembers ms ++ ['\x7d']
  | .garbled => "null".toList

def writeElements : List Json → List Char
  | [] => []
  | [x] => writeValue x
  | x :: y :: xs => writeValue x ++ ',' :: writeElements (y :: xs)

def writeMembers : List (String × Json) → List Char
  | [] => []
  | [(name, x)] => writeString name ++ ':' :: writeValue x
  | (name, x) :: m :: ms => writeString name ++ ':' :: writeValue x ++ ',' :: writeMembers (m :: ms)

end

def write (j : Json) : String := String.ofList (writeValue j)

end Payables.Json
