import Payables.Amount.Basic

/-!
# Amounts as numerals

`Amount.ofText?` reads a decimal numeral with an optional exponent. Underscores between digits are
ignored, and the scale is kept: `7.10` has two decimals. `Amount.text` writes the shortest of three
forms: plain digits, an exponent of ten below one when more than five zeros would follow the point,
and trailing zeros as an exponent when there are more than fifteen.
-/

namespace Payables.Amount

def isDigit (c : Char) : Bool := c.isDigit

/-- An integer with an optional sign. -/
def readInt? (s : List Char) : Option Int :=
  let (negative, body) := match s with
    | '-' :: r => (true, r)
    | '+' :: r => (false, r)
    | r => (false, r)
  if body.isEmpty || !body.all isDigit then none
  else some (if negative then -(Text.value body : Int) else Text.value body)

/-- An integer with an optional sign that starts with a digit and may hold underscores. -/
def readUnscaled? (s : List Char) : Option Int :=
  let (negative, body) := match s with
    | '-' :: r => (true, r)
    | '+' :: r => (false, r)
    | r => (false, r)
  match body with
  | [] => none
  | c :: cs =>
    if isDigit c && cs.all (fun d => isDigit d || d == '_') then
      let n : Int := Text.value (body.filter isDigit)
      some (if negative then -n else n)
    else none

def isExponentMark (c : Char) : Bool := c == 'e' || c == 'E'

/-- The digits of a numeral without its point, and the number of decimals. -/
def splitPoint (base : List Char) : List Char × Nat :=
  let lead := base.takeWhile (· != '.')
  match base.dropWhile (· != '.') with
  | [] => (lead, 0)
  | _ :: trail => (lead ++ trail, (trail.filter (· != '_')).length)

def ofChars? (s : List Char) : Option Amount := do
  let base := s.takeWhile (!isExponentMark ·)
  let exponent ← match s.dropWhile (!isExponentMark ·) with
    | [] => some 0
    | _ :: r => readInt? r
  let (digits, decimals) := splitPoint base
  let unscaled ← readUnscaled? digits
  of? unscaled (decimals - exponent)

def ofText? (s : String) : Option Amount := ofChars? s.toList

def leadingZeroLimit : Nat := 5

def trailingZeroLimit : Nat := 15

def zeros (n : Nat) : List Char := List.replicate n '0'

/-- The numeral of `n / 10 ^ scale`, with `n` not zero. -/
def magnitudeChars (n : Nat) (scale : Int) : List Char :=
  let ds := Text.digits n
  let s := scale.toNat
  if scale < -trailingZeroLimit then ds ++ ['e', '+'] ++ Text.digits (-scale).toNat
  else if scale ≤ 0 then ds ++ zeros (-scale).toNat
  else if ds.length + leadingZeroLimit < s then
    let exponent := ['E', '-'] ++ Text.digits (s + 1 - ds.length)
    match ds with
    | d :: e :: es => d :: '.' :: e :: es ++ exponent
    | ds => ds ++ exponent
  else if s < ds.length then ds.take (ds.length - s) ++ '.' :: ds.drop (ds.length - s)
  else '0' :: '.' :: zeros (s - ds.length) ++ ds

def chars (a : Amount) : List Char :=
  if a.unscaled = 0 then ['0']
  else
    let cs := magnitudeChars a.unscaled.natAbs a.scale
    if a.unscaled < 0 then '-' :: cs else cs

def text (a : Amount) : String := String.ofList a.chars

end Payables.Amount
