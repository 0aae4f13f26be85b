import Payables.Matching
import Payables.Processing

/-!
# Sessions

A session is a list of commands that a desk carries out on one store: extractions to process,
questions, and the user's edits of stored statements.
-/

namespace Payables

inductive Command
  | process (e : Extraction) (now : Timestamp)
  | get (k : StatementKey)
  | matchLedger (k : StatementKey) (ledger : List LedgerEntry)
  | setCompleted (k : StatementKey) (line : String) (completed : Bool)
  | setAllCompleted (k : StatementKey) (completed : Bool)
  | setKind (k : StatementKey) (line : String) (kind : DocumentKind)
  | acceptWrites (accept : Bool)
  | clear
deriving DecidableEq

inductive Answer
  | report (r : Report)
  | statement (h : Heading) (lines : List Line)
  | matching (r : MatchReport)
  | done
deriving DecidableEq

namespace Store

/-- The heading and the lines of a statement. -/
def statement (s : Store) (k : StatementKey) : Except Fault (Heading × List Line) :=
  match s.heading? k with
  | some h => .ok (h, s.lines k)
  | none => .error (.statementNotFound k.statement)

def matchLedger (s : Store) (k : StatementKey) (ledger : List LedgerEntry) :
    Except Fault MatchReport :=
  (s.statement k).map fun (_, lines) => matchLines lines ledger

/-- Sets lines completed or not, one call for each, up to a call that fails. -/
def setEachCompleted (k : StatementKey) (completed : Bool) : List String → Store → Written
  | [], s => (.ok (), s)
  | id :: ids, s =>
    match s.setCompleted k id completed with
    | (.ok (), s) => setEachCompleted k completed ids s
    | (.error fault, s) => (.error fault, s)

/-- Sets all lines of a statement completed or not, and then its heading. -/
def setAllCompleted (s : Store) (k : StatementKey) (completed : Bool) : Written :=
  match s.statement k with
  | .ok (h, lines) =>
    match setEachCompleted k completed (lines.map (·.id)) s with
    | (.ok (), s) => s.saveHeading { h with completed }
    | (.error fault, s) => (.error fault, s)
  | .error fault => (.error fault, s)

end Store

namespace Desk

/-- An answer from a result, next to the store after it. -/
def answered {α : Type} (f : α → Answer) (r : Except Fault α × Store) :
    Except Fault Answer × Store := (r.1.map f, r.2)

/-- Carries out a command. -/
def execute (d : Desk) (s : Store) : Command → Except Fault Answer × Store
  | .process e now => answered .report (d.process s e now)
  | .get k => answered (fun (h, lines) => .statement h lines) (s.statement k, s)
  | .matchLedger k ledger => answered .matching (s.matchLedger k ledger, s)
  | .setCompleted k line completed => answered (fun _ => .done) (s.setCompleted k line completed)
  | .setAllCompleted k completed => answered (fun _ => .done) (s.setAllCompleted k completed)
  | .setKind k line kind => answered (fun _ => .done) (s.setKind k line kind)
  | .acceptWrites accept => (.ok .done, s.setGate (if accept then .accepting else .rejecting))
  | .clear => (.ok .done, s.clear)

/-- The answers to the commands of a session, and the store after it. -/
def run (d : Desk) (s : Store) : List Command → List (Except Fault Answer) × Store
  | [] => ([], s)
  | c :: cs =>
    let (answer, s) := d.execute s c
    let (answers, s) := d.run s cs
    (answer :: answers, s)

end Desk

end Payables
