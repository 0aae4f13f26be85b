import Payables.Json.Form
import Payables.Text.Blank
import Std.Data.ExtTreeSet

/-!
# The ledger

Entries of the ledger are the invoices and credit notes that lines of a statement are matched with.
An entry that is taken blocks every entry with its id or with its trimmed number.
-/

namespace Payables

inductive EntryKind
  | invoice
  | creditNote
deriving DecidableEq, Repr

namespace EntryKind

def word : EntryKind → String
  | invoice => "invoice"
  | creditNote => "credit_note"

def all : List EntryKind := [invoice, creditNote]

end EntryKind

structure LedgerEntry where
  id : String
  number : String
  kind : EntryKind
deriving DecidableEq, Repr

/-- The number of an entry as it is compared. -/
def LedgerEntry.key (d : LedgerEntry) : String := Text.trimmed d.number

/-- The ids and trimmed numbers of the entries that are taken. -/
structure Taken where
  ids : Std.ExtTreeSet String := ∅
  numbers : Std.ExtTreeSet String := ∅
deriving DecidableEq

namespace Taken

def take (t : Taken) (d : LedgerEntry) : Taken := ⟨t.ids.insert d.id, t.numbers.insert d.key⟩

def blocks (t : Taken) (d : LedgerEntry) : Bool :=
  t.ids.contains d.id || t.numbers.contains d.key

def size (t : Taken) : Nat := t.ids.size

def isEmpty (t : Taken) : Bool := t.ids.isEmpty

end Taken

instance : JsonForm EntryKind where
  toJson k := .string k.word
  ofJson? := Json.ofWord (EntryKind.all.map fun k => (k.word, k))

instance : JsonForm LedgerEntry where
  toJson d := .object [("id", toJson d.id), ("number", toJson d.number), ("kind", toJson d.kind)]
  ofJson? j := do
    let f ← j.fields? ["id", "number", "kind"]
    pure {
      id := ← f.required "id"
      number := ← f.required "number"
      kind := ← f.required "kind" }

end Payables
