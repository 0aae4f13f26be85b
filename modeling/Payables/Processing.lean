import Payables.Classification
import Payables.Line.Reading
import Payables.Merge
import Payables.Store

/-!
# Processing an extraction

An extraction is taken in without the store: its rows are read, classified and screened. Then it
goes through the store in single calls, each of them a `step`: the stored lines are merged with the
fresh ones, put back and cleared of those that are gone, the heading is brought up to date, and the
statement is published. A write that fails stops the processing where it stands.
-/

namespace Payables

/-- One extraction of a statement. -/
structure Extraction where
  tenant : String
  contact : String
  statement : String
  job? : Option String := none
  layout : Layout
  rows : List Row
  text? : Option String := none
deriving DecidableEq

def Extraction.key (e : Extraction) : StatementKey := ⟨e.tenant, e.statement⟩

/-- An extraction with its lines, classified and screened. -/
structure Intake where
  key : StatementKey
  contact : String
  job? : Option String
  text? : Option String
  lines : List Line
  screening : ScreeningSummary
deriving DecidableEq

/-- What the processing of an extraction answers. -/
structure Report where
  heading : Heading
  lines : List Line
  inserted : List String
  updated : List String
  removed : List String
  screening : ScreeningSummary
  references : CheckOutcome
deriving DecidableEq

/-- How extractions are processed. -/
structure Desk where
  check : Layout.Check := .basic
  settings : Settings := {}
deriving DecidableEq, Repr

namespace Desk

/-- Reads the rows of an extraction as lines, each with its kind and its flags. -/
def intake (d : Desk) (e : Extraction) : Except Fault Intake := do
  d.check.run e.layout
  let classifier := Classifier.ofLayout e.layout d.settings.classifier
  let reader ← LineReader.ofLayout e.layout
  let lines := (reader.readAll e.statement e.rows).map classifier.apply
  pure {
    key := e.key
    contact := e.contact
    job? := e.job?
    text? := e.text?
    lines := lines.map (Screening.flag d.settings.screening)
    screening := Screening.summary d.settings.screening lines }

end Desk

namespace Processing

/-- The storage call that comes next. -/
inductive Pending
  | listLines
  | putLines (m : Merge)
  | removeLines (m : Merge)
  | loadHeading (m : Merge)
  | saveHeading (m : Merge) (h : Heading)
  | publish (m : Merge) (h : Heading)
deriving DecidableEq

/-- A final answer on the left, a pending call on the right. -/
abbrev Stage := Except Fault Report ⊕ Pending

/-- The number of calls that may still come. -/
def Pending.left : Pending → Nat
  | listLines => 6
  | putLines _ => 5
  | removeLines _ => 4
  | loadHeading _ => 3
  | saveHeading _ _ => 2
  | publish _ _ => 1

/-- The heading of a statement that was not stored before. -/
def newHeading (i : Intake) (now : Timestamp) : Heading :=
  { statement := i.key.statement
    tenant := i.key.tenant
    contact := i.contact
    createdAt := now }

/-- The heading after the extraction, with its job if it has one. -/
def updatedHeading (i : Intake) (now : Timestamp) (stored? : Option Heading) (lines : List Line) :
    Heading :=
  let h := stored?.getD (newHeading i now)
  { h with job? := i.job? <|> h.job? }.recompute lines

def publication (settings : ReferenceSettings) (i : Intake) (m : Merge) (h : Heading) :
    Publication :=
  { heading := h
    lines := m.lines
    screening := i.screening
    references := settings.check i.text? m.lines }

def report (m : Merge) (p : Publication) : Report :=
  { heading := p.heading
    lines := p.lines
    inserted := m.inserted
    updated := m.updated
    removed := m.removed
    screening := p.screening
    references := p.references }

/-- Goes on unless the write has failed. -/
def after (written : Store.Written) (next : Stage) : Stage × Store :=
  match written with
  | (.ok (), s) => (next, s)
  | (.error fault, s) => (.inl (.error fault), s)

/-- One storage call. -/
def step (settings : ReferenceSettings) (i : Intake) (now : Timestamp) (s : Store) :
    Pending → Stage × Store
  | .listLines => (.inr (.putLines (.ofLines (s.lines i.key) i.lines)), s)
  | .putLines m =>
    after (s.putLines i.key.tenant m.lines)
      (.inr (if m.removed = [] then .loadHeading m else .removeLines m))
  | .removeLines m => after (s.removeLines i.key m.removed) (.inr (.loadHeading m))
  | .loadHeading m =>
    (.inr (.saveHeading m (updatedHeading i now (s.heading? i.key) m.lines)), s)
  | .saveHeading m h => after (s.saveHeading h) (.inr (.publish m h))
  | .publish m h =>
    let p := publication settings i m h
    after (s.publish i.key p) (.inl (.ok (report m p)))

theorem after_eq_inr {written : Store.Written} {next : Stage} {q : Pending} {s : Store}
    (h : after written next = (.inr q, s)) : next = .inr q := by
  rcases written with ⟨_ | _, _⟩ <;> simp_all [after]

theorem left_step_lt {settings : ReferenceSettings} {i : Intake} {now : Timestamp} {s s' : Store}
    {p q : Pending} (h : step settings i now s p = (.inr q, s')) : q.left < p.left := by
  cases p with
  | listLines => cases h; simp [Pending.left]
  | putLines m =>
    rw [← Sum.inr.inj (after_eq_inr h)]
    split <;> simp [Pending.left]
  | removeLines m => rw [← Sum.inr.inj (after_eq_inr h)]; simp [Pending.left]
  | loadHeading m => cases h; simp [Pending.left]
  | saveHeading m k => rw [← Sum.inr.inj (after_eq_inr h)]; simp [Pending.left]
  | publish m k => exact absurd (after_eq_inr h) (by simp)

/-- Makes all calls from a pending one on. -/
def finish (settings : ReferenceSettings) (i : Intake) (now : Timestamp) (s : Store)
    (p : Pending) : Except Fault Report × Store :=
  match _ : step settings i now s p with
  | (.inl answer, s') => (answer, s')
  | (.inr q, s') => finish settings i now s' q
termination_by p.left
decreasing_by exact left_step_lt ‹_›

end Processing

/-- Processes an extraction; `now` is the time at which a new heading is created. -/
def Desk.process (d : Desk) (s : Store) (e : Extraction) (now : Timestamp) :
    Except Fault Report × Store :=
  match d.intake e with
  | .ok i => Processing.finish d.settings.references i now s .listLines
  | .error fault => (.error fault, s)

instance : JsonForm Extraction where
  toJson e := .object [("tenant_id", toJson e.tenant), ("contact_id", toJson e.contact),
    ("statement_id", toJson e.statement), ("job_id", toJson e.job?), ("config", toJson e.layout),
    ("rows", toJson e.rows), ("source_text", toJson e.text?)]
  ofJson? j := do
    let f ← j.fields? ["tenant_id", "contact_id", "statement_id", "job_id", "config", "rows",
      "source_text"]
    pure {
      tenant := ← f.required "tenant_id"
      contact := ← f.required "contact_id"
      statement := ← f.required "statement_id"
      job? := ← f.optional "job_id"
      layout := ← f.required "config"
      rows := ← f.required "rows"
      text? := ← f.optional "source_text" }

end Payables
