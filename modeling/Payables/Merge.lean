import Payables.Collection.Distinct
import Payables.Heading

/-!
# Merging a new extraction

When a statement is extracted again, the fresh lines replace the ones that were kept before. What
the user has done to a line (`completed`, a manual kind) is carried over by the id of the line. Of
fresh lines with one id the first counts, of kept lines with one id the last.
-/

namespace Payables

/-- The lines after a merge, and which ids came, stayed and went. -/
structure Merge where
  lines : List Line
  inserted : List String
  updated : List String
  removed : List String
  earliest? : Option Date
  latest? : Option Date
deriving DecidableEq

namespace Merge

/-- The kept line with an id, the last one if there are several. -/
def kept? (existing : List Line) (id : String) : Option Line := existing.reverse.find? (·.id == id)

/-- A fresh line with what the user has done to a kept line, if there is one. -/
def carry (prior? : Option Line) (fresh : Line) : Line :=
  { fresh with
    completed := prior?.any (·.completed)
    manualKind? := prior?.bind (·.manualKind?)
    kind := (prior?.bind (·.manualKind?)).getD fresh.kind }

def carryOver (existing : List Line) (fresh : Line) : Line :=
  carry (kept? existing fresh.id) fresh

/-- By ordinal, then by id. -/
def precedes (a b : Line) : Bool :=
  a.ordinal < b.ordinal || (a.ordinal == b.ordinal && (compare a.id b.id).isLE)

def ofLines (existing fresh : List Line) : Merge :=
  let firsts := firstOfEach Line.id fresh
  let lines := (firsts.map (carryOver existing)).mergeSort precedes
  let ids := firsts.map Line.id
  let isKnown (id : String) : Bool := (kept? existing id).isSome
  let gone := (existing.map Line.id).filter (!ids.contains ·)
  { lines
    inserted := ids.filter (!isKnown ·)
    updated := ids.filter isKnown
    removed := (distinct gone).mergeSort fun a b => (compare a b).isLE
    earliest? := earliestDate? lines
    latest? := latestDate? lines }

end Merge

instance : JsonForm Merge where
  toJson m := .object [("items", toJson m.lines), ("inserted", toJson m.inserted),
    ("updated", toJson m.updated), ("removed", toJson m.removed),
    ("earliest_item_date", toJson m.earliest?), ("latest_item_date", toJson m.latest?)]
  ofJson? j := do
    let f ← j.fields? ["items", "inserted", "updated", "removed", "earliest_item_date",
      "latest_item_date"]
    pure {
      lines := ← f.required "items"
      inserted := ← f.required "inserted"
      updated := ← f.required "updated"
      removed := ← f.required "removed"
      earliest? := ← f.optional "earliest_item_date"
      latest? := ← f.optional "latest_item_date" }

end Payables
