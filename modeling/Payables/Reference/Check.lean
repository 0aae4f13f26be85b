import Payables.Line.Basic
import Payables.Reference.Candidates
import Payables.Reference.Learning
import Payables.Text.Search

/-!
# Checking references against the source text

Every reference of a line should stand in the text of the statement, and the text should hold no
further reference of the same family. The check never fails: it says what it found. Without a text
it is skipped.
-/

namespace Payables

/-- How the references of the lines and of the text disagree. -/
structure Mismatch where
  checked : Nat
  found : Nat
  uniqueReferences : Nat
  missing : List String
  sourceOnly : List String
deriving DecidableEq, Repr

inductive CheckOutcome
  | skipped
  | passed (checked sourceCandidates : Nat)
  | mismatch (m : Mismatch)
deriving DecidableEq, Repr

open Text

def Mismatch.message (m : Mismatch) : String :=
  "extracted references disagree with source text: " ++ String.ofList (digits m.found) ++ " of " ++
    String.ofList (digits m.checked) ++ " found, " ++ String.ofList (digits m.missing.length) ++
    " missing, " ++ String.ofList (digits m.sourceOnly.length) ++ " only in source"

/-- The text of a line in which a reference is looked for. -/
def ReferenceField.textOf : ReferenceField → Line → String
  | .number, l => l.number
  | .reference, l => l.reference

namespace ReferenceSettings

/-- The reference of a line. -/
def referenceOf (s : ReferenceSettings) (l : Line) : String := trimmed (s.field.textOf l)

def references (s : ReferenceSettings) (lines : List Line) : List String :=
  (lines.map s.referenceOf).filter (!·.isEmpty)

/-- The references that do not stand in the text. -/
def missing (text : String) (refs : List String) : List String :=
  let form := referenceForm text
  refs.filter fun r => !contains form (referenceForm r)

def sourceCandidates (s : ReferenceSettings) (text : String) (refs : List String) :
    Std.ExtTreeSet String :=
  match Family.learn s refs with
  | some family => family.candidates s.longestWindow text
  | none => ∅

/-- Checks the lines against a text. -/
def checkText (s : ReferenceSettings) (text : String) (lines : List Line) : CheckOutcome :=
  let refs := s.references lines
  let unique := distinct (refs.map referenceForm)
  let missing := missing text refs
  let candidates := s.sourceCandidates text refs
  let sourceOnly := candidates.toList.filter (!unique.contains ·)
  if missing = [] ∧ sourceOnly = [] then .passed refs.length candidates.size
  else .mismatch {
    checked := refs.length
    found := refs.length - missing.length
    uniqueReferences := unique.length
    missing
    sourceOnly }

def check (s : ReferenceSettings) (text? : Option String) (lines : List Line) : CheckOutcome :=
  match text? with
  | some text => if trim text.toList = [] then .skipped else s.checkText text lines
  | none => .skipped

end ReferenceSettings

def Mismatch.members (m : Mismatch) : List (String × Json) :=
  [("checked", toJson m.checked), ("found", toJson m.found),
    ("unique_references", toJson m.uniqueReferences), ("missing", toJson m.missing),
    ("source_only", toJson m.sourceOnly)]

instance : JsonForm Mismatch where
  toJson m := .object m.members
  ofJson? j := do
    let f ← j.fields? ["checked", "found", "unique_references", "missing", "source_only"]
    pure {
      checked := ← f.required "checked"
      found := ← f.required "found"
      uniqueReferences := ← f.required "unique_references"
      missing := ← f.required "missing"
      sourceOnly := ← f.required "source_only" }

namespace CheckOutcome

/-- The status of an outcome and its other members, an object or a list. -/
def status? : Json → Option (String × Json)
  | .object ms =>
    match ms.filter (·.1 == "status") with
    | [(_, .string s)] => some (s, .object (ms.filter (·.1 != "status")))
    | _ => none
  | .array (.string s :: xs) => some (s, .array xs)
  | _ => none

def ofStatus? : String × Json → Option CheckOutcome
  | ("skipped", .array (_ :: _)) => none
  | ("skipped", _) => some .skipped
  | ("passed", j) => do
    let f ← j.fields? ["checked", "source_candidates"]
    pure (.passed (← f.required "checked") (← f.required "source_candidates"))
  | ("mismatch", j) => (ofJson? j).map .mismatch
  | _ => none

end CheckOutcome

instance : JsonForm CheckOutcome where
  toJson
    | .skipped => .object [("status", .string "skipped")]
    | .passed checked candidates => .object [("status", .string "passed"),
        ("checked", toJson checked), ("source_candidates", toJson candidates)]
    | .mismatch m => .object (("status", .string "mismatch") :: m.members)
  ofJson? j := CheckOutcome.status? j >>= CheckOutcome.ofStatus?

end Payables
