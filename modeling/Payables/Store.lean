import Payables.Fault
import Payables.Publication

/-!
# The store

The store keeps a record for each statement of each tenant: a heading, lines under their ids, and
the last publication. Every write is one call that passes a gate; a call that the gate turns away
or that fails leaves all records as they were.
-/

namespace Payables

structure StatementKey where
  tenant : String
  statement : String
deriving DecidableEq, Repr

/-- The key under which a heading is stored. -/
def Heading.key (h : Heading) : StatementKey := ⟨h.tenant, h.statement⟩

structure Record where
  heading? : Option Heading := none
  lines : Std.ExtTreeMap String Line := ∅
  published? : Option Publication := none

namespace Record

/-- The lines by ordinal, those of one ordinal by id. -/
def listed (r : Record) : List Line :=
  (r.lines.toList.map Prod.snd).mergeSort fun a b => a.ordinal ≤ b.ordinal

def putLine (r : Record) (l : Line) : Record := { r with lines := r.lines.insert l.id l }

def removeLines (r : Record) (ids : List String) : Record :=
  { r with lines := ids.foldl (fun ls id => ls.erase id) r.lines }

end Record

/-- Whether writes are let through: always, never, or for a number of calls. -/
inductive Gate
  | accepting
  | rejecting
  | acceptingFor (writes : Nat)
deriving DecidableEq, Repr

/-- Whether the gate lets a write through, and the gate after it. -/
def Gate.pass : Gate → Bool × Gate
  | accepting => (true, accepting)
  | rejecting => (false, rejecting)
  | acceptingFor 0 => (false, rejecting)
  | acceptingFor (n + 1) => (true, acceptingFor n)

structure Store where
  record : StatementKey → Record := fun _ => {}
  gate : Gate := .accepting

namespace Store

/-- What a write answers, with the store after it. -/
abbrev Written := Except Fault Unit × Store

def heading? (s : Store) (k : StatementKey) : Option Heading := (s.record k).heading?

def lines (s : Store) (k : StatementKey) : List Line := (s.record k).listed

def published? (s : Store) (k : StatementKey) : Option Publication := (s.record k).published?

def setGate (s : Store) (gate : Gate) : Store := { s with gate }

/-- Drops all records. -/
def clear (s : Store) : Store := { gate := s.gate }

def update (s : Store) (k : StatementKey) (f : Record → Record) : Store :=
  let r := f (s.record k)
  { s with record := fun k' => if k' = k then r else s.record k' }

@[simp] theorem record_update (s : Store) (k k' : StatementKey) (f : Record → Record) :
    (s.update k f).record k' = if k' = k then f (s.record k) else s.record k' := rfl

/-- One write call. -/
def write (s : Store) (change : Store → Except Fault Store) : Written :=
  match s.gate.pass with
  | (true, gate) =>
    match change (s.setGate gate) with
    | .ok s => (.ok (), s)
    | .error fault => (.error fault, s.setGate gate)
  | (false, gate) => (.error .notAcceptingWrites, s.setGate gate)

/-- A write that changes the record of one key. -/
def writeRecord (s : Store) (k : StatementKey) (f : Record → Record) : Written :=
  s.write fun s => .ok (s.update k f)

def saveHeading (s : Store) (h : Heading) : Written :=
  s.writeRecord h.key ({ · with heading? := some h })

/-- Files every line under its own statement and id. -/
def putLines (s : Store) (tenant : String) (lines : List Line) : Written :=
  s.write fun s =>
    .ok (lines.foldl (fun s l => s.update ⟨tenant, l.statement⟩ (·.putLine l)) s)

def removeLines (s : Store) (k : StatementKey) (ids : List String) : Written :=
  s.writeRecord k (·.removeLines ids)

/-- Changes a line that is stored under an id. -/
def changeLine (s : Store) (k : StatementKey) (id : String) (f : Line → Line) : Written :=
  s.write fun s =>
    match (s.record k).lines[id]? with
    | some l => .ok (s.update k fun r => { r with lines := r.lines.insert id (f l) })
    | none => .error (.lineNotFound id)

def setCompleted (s : Store) (k : StatementKey) (id : String) (completed : Bool) : Written :=
  s.changeLine k id (Line.withCompleted completed)

def setKind (s : Store) (k : StatementKey) (id : String) (kind : DocumentKind) : Written :=
  s.changeLine k id (Line.withKind kind)

def publish (s : Store) (k : StatementKey) (p : Publication) : Written :=
  s.writeRecord k ({ · with published? := some p })

end Store

end Payables
