import Payables.Collection.Labelled
import Payables.Json.Basic
import Std.Data.ExtTreeMap

/-!
# JSON forms

A type with a `JsonForm` is written as a JSON value and read back. A record is read from an object,
whose unknown members are ignored, or from an array that lists its fields in order. A field is
required, or optional (`null` stands for none, and so does a missing member), or has a default.
-/

namespace Payables

class JsonForm (α : Type) where
  toJson : α → Json
  ofJson? : Json → Option α

export JsonForm (toJson ofJson?)

namespace Json

/-- The fields that a JSON value gives to a record. -/
structure Fields where
  positional : Bool
  given : List (String × Json)

/-- Refuses an object that names a field twice and an array that is too long. -/
def fields? (names : List String) : Json → Option Fields
  | .object ms =>
    if names.all fun name => (ms.filter (·.1 == name)).length ≤ 1 then some ⟨false, ms⟩ else none
  | .array xs => if xs.length ≤ names.length then some ⟨true, names.zip xs⟩ else none
  | _ => none

namespace Fields

variable {α : Type} [JsonForm α]

def required (f : Fields) (name : String) : Option α := f.given.lookup name >>= ofJson?

def optional (f : Fields) (name : String) : Option (Option α) :=
  match f.given.lookup name with
  | some .null => some none
  | some j => (ofJson? j).map some
  | none => if f.positional then none else some none

def withDefault (f : Fields) (name : String) (default : α) : Option α :=
  match f.given.lookup name with
  | some j => ofJson? j
  | none => some default

end Fields

/-- The word that stands for a case without data; an object may give it a `null`. -/
def word? : Json → Option String
  | .string s => some s
  | .object [(s, .null)] => some s
  | _ => none

def ofWord {α : Type} (words : List (String × α)) (j : Json) : Option α :=
  j.word? >>= fun word => words.lookup word

end Json

section Instances

variable {α : Type} [JsonForm α]

instance : JsonForm Bool where
  toJson := .bool
  ofJson?
    | .bool b => some b
    | _ => none

instance : JsonForm String where
  toJson := .string
  ofJson?
    | .string s => some s
    | _ => none

instance : JsonForm Nat where
  toJson n := .integer n
  ofJson?
    | .integer n => if 0 ≤ n then some n.toNat else none
    | _ => none

instance : JsonForm UInt32 where
  toJson n := .integer n.toNat
  ofJson?
    | .integer n => if 0 ≤ n ∧ n.toNat < UInt32.size then some (.ofNat n.toNat) else none
    | _ => none

instance : JsonForm Binary64 where
  toJson := .real
  ofJson?
    | .integer n => some (if n < 0 then -Binary64.ofNat n.natAbs else Binary64.ofNat n.natAbs)
    | .real x => if x.isInfinite then none else some x
    | _ => none

instance : JsonForm (Option α) where
  toJson
    | some a => toJson a
    | none => .null
  ofJson?
    | .null => some none
    | j => (ofJson? j).map some

instance : JsonForm (List α) where
  toJson xs := .array (xs.map toJson)
  ofJson?
    | .array xs => xs.mapM ofJson?
    | _ => none

def members? : Json → Option (List (String × α))
  | .object ms => ms.mapM fun m => (ofJson? m.2).map (m.1, ·)
  | _ => none

instance : JsonForm (Labelled α) where
  toJson l := .object (l.entries.map fun e => (e.1, toJson e.2))
  ofJson? j := (members? j).map Labelled.ofList

instance : JsonForm (Std.ExtTreeMap String α) where
  toJson m := .object (m.toList.map fun e => (e.1, toJson e.2))
  ofJson? j := (members? j).map fun ms => ms.foldl (fun m e => m.insert e.1 e.2) ∅

end Instances

end Payables
