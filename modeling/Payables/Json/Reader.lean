import Payables.Json.Number

/-!
# Reading JSON texts

`Json.read?` accepts exactly one value with white space around it, by the strict grammar: no
comments, no trailing commas, no leading zeros, no control characters inside strings. Half of a
surrogate pair that stands alone makes its string garbled, or the object that it names a member of.
-/

namespace Payables.Json

def isSpace (c : Char) : Bool := c == ' ' || c == '\t' || c == '\n' || c == '\r'

def skipSpace (s : List Char) : List Char := s.dropWhile isSpace

def hexValue? (c : Char) : Option Nat :=
  if c.isDigit then some (c.toNat - '0'.toNat)
  else if 'a' ≤ c ∧ c ≤ 'f' then some (c.toNat - 'a'.toNat + 10)
  else if 'A' ≤ c ∧ c ≤ 'F' then some (c.toNat - 'A'.toNat + 10)
  else none

def hexCode? (a b c d : Char) : Option Nat := do
  pure ((← hexValue? a) * 4096 + (← hexValue? b) * 256 + (← hexValue? c) * 16 + (← hexValue? d))

def isHighSurrogate (n : Nat) : Bool := 0xD800 ≤ n && n < 0xDC00

def isLowSurrogate (n : Nat) : Bool := 0xDC00 ≤ n && n < 0xE000

def simpleEscape? : Char → Option Char
  | '"' => some '"'
  | '\\' => some '\\'
  | '/' => some '/'
  | 'b' => some '\x08'
  | 'f' => some '\x0c'
  | 'n' => some '\n'
  | 'r' => some '\r'
  | 't' => some '\t'
  | _ => none

/-- A character of a string, or a code that an escape names. -/
inductive StringUnit
  | char (c : Char)
  | code (n : Nat)
deriving DecidableEq, Repr

/-- The units of a string up to its closing quote. -/
def readString : List Char → Option (List StringUnit × List Char)
  | [] => none
  | '"' :: s => some ([], s)
  | '\\' :: 'u' :: a :: b :: c :: d :: s => do
    let n ← hexCode? a b c d
    let (us, r) ← readString s
    pure (.code n :: us, r)
  | '\\' :: e :: s => do
    let c ← simpleEscape? e
    let (us, r) ← readString s
    pure (.char c :: us, r)
  | c :: s =>
    if c.toNat < 0x20 then none
    else do
      let (us, r) ← readString s
      pure (.char c :: us, r)

def surrogatePair (high low : Nat) : Char :=
  Char.ofNat (0x10000 + (high - 0xD800) * 0x400 + (low - 0xDC00))

/-- The characters that the units spell, none for a lone half of a pair. -/
def spelledChars : List StringUnit → List (Option Char)
  | [] => []
  | .char c :: us => some c :: spelledChars us
  | .code m :: .code n :: us =>
    if isHighSurrogate m && isLowSurrogate n then some (surrogatePair m n) :: spelledChars us
    else (if isHighSurrogate m || isLowSurrogate m then none else some (Char.ofNat m)) ::
      spelledChars (.code n :: us)
  | .code n :: us =>
    (if isHighSurrogate n || isLowSurrogate n then none else some (Char.ofNat n)) ::
      spelledChars us

def text? (us : List StringUnit) : Option String :=
  ((spelledChars us).mapM id).map String.ofList

/-- The string that the units spell. -/
def ofUnits (us : List StringUnit) : Json :=
  match text? us with
  | some s => .string s
  | none => .garbled

/-- The object with the members, all of whose names have to be texts. -/
def ofMembers (ms : List (List StringUnit × Json)) : Json :=
  match ms.mapM fun m => (text? m.1).map (·, m.2) with
  | some ms => .object ms
  | none => .garbled

def readDigits (s : List Char) : List Char × List Char := s.span Char.isDigit

def readDecimals : List Char → Option (List Char × List Char)
  | '.' :: s =>
    match readDigits s with
    | ([], _) => none
    | (ds, r) => some (ds, r)
  | s => some ([], s)

def readExponentDigits (negative : Bool) (s : List Char) : Option (Int × List Char) :=
  match readDigits s with
  | ([], _) => none
  | (ds, r) => some (if negative then -(Text.value ds : Int) else Text.value ds, r)

def readExponent : List Char → Option (Option Int × List Char)
  | [] => some (none, [])
  | c :: s =>
    if c = 'e' ∨ c = 'E' then
      (match s with
        | '-' :: r => readExponentDigits true r
        | '+' :: r => readExponentDigits false r
        | r => readExponentDigits false r).map fun (n, r) => (some n, r)
    else some (none, c :: s)

def readUnsigned (negative : Bool) (s : List Char) : Option (Json × List Char) := do
  let (whole, s) ← match readDigits s with
    | ([], _) => none
    | (['0'], r) => some (['0'], r)
    | ('0' :: _, _) => none
    | (ds, r) => some (ds, r)
  let (decimals, s) ← readDecimals s
  let (exponent, s) ← readExponent s
  pure (Literal.toJson { negative, whole, decimals, exponent }, s)

def readNumber : List Char → Option (Json × List Char)
  | '-' :: s => readUnsigned true s
  | s => readUnsigned false s

mutual

/-- A value, white space in front allowed. Each call takes a character off the text, so that its
length bounds the depth of calls. -/
def readValue : Nat → List Char → Option (Json × List Char)
  | 0, _ => none
  | fuel + 1, s =>
    match skipSpace s with
    | 'n' :: 'u' :: 'l' :: 'l' :: r => some (.null, r)
    | 't' :: 'r' :: 'u' :: 'e' :: r => some (.bool true, r)
    | 'f' :: 'a' :: 'l' :: 's' :: 'e' :: r => some (.bool false, r)
    | '"' :: r => (readString r).map fun (us, r) => (ofUnits us, r)
    | '[' :: r =>
      match skipSpace r with
      | ']' :: r => some (.array [], r)
      | r => (readElements fuel r).map fun (xs, r) => (.array xs, r)
    | '\x7b' :: r =>
      match skipSpace r with
      | '\x7d' :: r => some (.object [], r)
      | r => (readMembers fuel r).map fun (ms, r) => (ofMembers ms, r)
    | r => readNumber r

def readElements : Nat → List Char → Option (List Json × List Char)
  | 0, _ => none
  | fuel + 1, s => do
    let (x, r) ← readValue fuel s
    match skipSpace r with
    | ']' :: r => pure ([x], r)
    | ',' :: r =>
      let (xs, r) ← readElements fuel r
      pure (x :: xs, r)
    | _ => none

def readMembers : Nat → List Char → Option (List (List StringUnit × Json) × List Char)
  | 0, _ => none
  | fuel + 1, s => do
    let (us, r) ← match skipSpace s with
      | '"' :: r => readString r
      | _ => none
    let r ← match skipSpace r with
      | ':' :: r => some r
      | _ => none
    let (x, r) ← readValue fuel r
    match skipSpace r with
    | '\x7d' :: r => pure ([(us, x)], r)
    | ',' :: r =>
      let (ms, r) ← readMembers fuel r
      pure ((us, x) :: ms, r)
    | _ => none

end

/-- The value of a whole text. -/
def read? (text : String) : Option Json :=
  match readValue (text.length + 1) text.toList with
  | some (j, rest) => if rest.all isSpace then some j else none
  | none => none

end Payables.Json
