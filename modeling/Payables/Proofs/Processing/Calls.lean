import Payables.Processing
import Payables.Proofs.Store.Records

/-!
# The storage calls of a processing

A call of a processing reads and writes the record of one statement. `effect` is what a call does
to that record if it is let through, and `next` is the stage after it; `step` is these two, unless
the gate turns the call away and nothing changes. With an open gate the calls run through, and
their joint effect on the store is known exactly.
-/

namespace Payables.Processing

/-- What a call that is let through does to the record of the statement. -/
def effect (settings : ReferenceSettings) (i : Intake) : Pending → Record → Record
  | .listLines, r => r
  | .putLines m, r => m.lines.foldl Record.putLine r
  | .removeLines m, r => r.removeLines m.removed
  | .loadHeading _, r => r
  | .saveHeading _ h, r => { r with heading? := some h }
  | .publish m h, r => { r with published? := some (publication settings i m h) }

/-- The stage after a call that is let through, on the record before it. -/
def next (settings : ReferenceSettings) (i : Intake) (now : Timestamp) : Pending → Record → Stage
  | .listLines, r => .inr (.putLines (.ofLines r.listed i.lines))
  | .putLines m, _ => .inr (if m.removed = [] then .loadHeading m else .removeLines m)
  | .removeLines m, _ => .inr (.loadHeading m)
  | .loadHeading m, r => .inr (.saveHeading m (updatedHeading i now r.heading? m.lines))
  | .saveHeading m h, _ => .inr (.publish m h)
  | .publish m h, _ => .inl (.ok (report m (publication settings i m h)))

def Pending.IsFor (k : StatementKey) : Pending → Prop
  | putLines m => ∀ l ∈ m.lines, l.statement = k.statement
  | saveHeading _ h => h.key = k
  | _ => True

variable {settings : ReferenceSettings} {i : Intake} {now : Timestamp} {s : Store} {p : Pending}

theorem step_eq_after (settings : ReferenceSettings) (now : Timestamp) (hp : p.IsFor i.key)
    (s : Store) :
    step settings i now s p =
        after (s.writeRecord i.key (effect settings i p)) (next settings i now p (s.record i.key)) ∨
      step settings i now s p = (next settings i now p (s.record i.key), s) ∧
        effect settings i p = fun r => r := by
  cases p with
  | listLines => exact .inr ⟨rfl, rfl⟩
  | putLines m =>
    refine .inl ?_
    rw [step, Store.putLines_eq_writeRecord hp]
    rfl
  | removeLines m => exact .inl rfl
  | loadHeading m => exact .inr ⟨rfl, rfl⟩
  | saveHeading m h =>
    refine .inl ?_
    rw [step, Store.saveHeading_eq_writeRecord hp]
    rfl
  | publish m h => exact .inl rfl

/-- A step is the effect of its call, or a write that is turned away. -/
theorem step_cases (settings : ReferenceSettings) (now : Timestamp) (hp : p.IsFor i.key)
    (s : Store) :
    (step settings i now s p).1 = next settings i now p (s.record i.key) ∧
        (step settings i now s p).2.record = (s.update i.key (effect settings i p)).record ∨
      (step settings i now s p).1 = .inl (.error .notAcceptingWrites) ∧
        (step settings i now s p).2.record = s.record := by
  rcases step_eq_after settings now hp s with heq | ⟨heq, heffect⟩
  · rw [heq]
    rcases s.writeRecord_cases i.key (effect settings i p) with ⟨hok, hrecord⟩ | ⟨herror, hrecord⟩
    · generalize s.writeRecord i.key (effect settings i p) = written at hok hrecord
      obtain ⟨_, s'⟩ := written
      subst hok
      exact .inl ⟨rfl, hrecord⟩
    · generalize s.writeRecord i.key (effect settings i p) = written at herror hrecord
      obtain ⟨_, s'⟩ := written
      subst herror
      exact .inr ⟨rfl, hrecord⟩
  · rw [heq, heffect, Store.update_id]
    exact .inl ⟨rfl, rfl⟩

theorem step_of_accepting (settings : ReferenceSettings) (now : Timestamp)
    (hgate : s.gate = .accepting) (hp : p.IsFor i.key) :
    step settings i now s p =
      (next settings i now p (s.record i.key), s.update i.key (effect settings i p)) := by
  rcases step_eq_after settings now hp s with heq | ⟨heq, heffect⟩
  · rw [heq, Store.writeRecord_of_accepting hgate]
    rfl
  · rw [heq, heffect, Store.update_id]

theorem finish_of_step_inr {s' : Store} {q : Pending}
    (h : step settings i now s p = (.inr q, s')) :
    finish settings i now s p = finish settings i now s' q := by
  rw [finish]
  split <;> rename_i heq
  · cases heq.symm.trans h
  · cases heq.symm.trans h
    rfl

theorem finish_of_step_inl {s' : Store} {answer : Except Fault Report}
    (h : step settings i now s p = (.inl answer, s')) :
    finish settings i now s p = (answer, s') := by
  rw [finish]
  split <;> rename_i heq
  · cases heq.symm.trans h
    rfl
  · cases heq.symm.trans h

theorem key_updatedHeading {stored? : Option Heading} (h : ∀ x, stored? = some x → x.key = i.key)
    (now : Timestamp) (ls : List Line) : (updatedHeading i now stored? ls).key = i.key := by
  cases stored? with
  | none => rfl
  | some x => exact h x rfl

/-- What a processing leaves of a record: the merged lines, a new heading, a new publication. -/
def settle (m : Merge) (h : Heading) (p : Publication) (r : Record) : Record :=
  { lines := ((m.lines.foldl Record.putLine r).removeLines m.removed).lines
    heading? := some h
    published? := some p }

theorem finish_of_accepting {m : Merge} {h : Heading} (hgate : s.gate = .accepting)
    (hm : m = .ofLines (s.lines i.key) i.lines)
    (hlines : ∀ l ∈ m.lines, l.statement = i.key.statement)
    (hh : h = updatedHeading i now (s.heading? i.key) m.lines) (hkey : h.key = i.key) :
    finish settings i now s .listLines =
      (.ok (report m (publication settings i m h)),
        s.update i.key (settle m h (publication settings i m h))) := by
  have hlist : step settings i now s .listLines = (.inr (.putLines m), s) := by rw [hm]; rfl
  have hput : step settings i now s (.putLines m) =
      (.inr (if m.removed = [] then .loadHeading m else .removeLines m),
        s.update i.key fun r => m.lines.foldl Record.putLine r) :=
    step_of_accepting settings now hgate hlines
  -- without lines to remove the removing call is left out, and would not have done anything
  have hremove : finish settings i now s (.putLines m) =
      finish settings i now (s.update i.key fun r =>
        (m.lines.foldl Record.putLine r).removeLines m.removed) (.loadHeading m) := by
    rw [finish_of_step_inr hput]
    split
    · rename_i hnone
      rw [hnone]
      rfl
    · have hremoved := step_of_accepting settings now (i := i)
        (s := s.update i.key fun r => m.lines.foldl Record.putLine r) hgate
        (p := .removeLines m) trivial
      rw [finish_of_step_inr hremoved, Store.update_update]
      rfl
  rw [finish_of_step_inr hlist, hremove]
  generalize hs' : (s.update i.key fun r =>
    (m.lines.foldl Record.putLine r).removeLines m.removed) = s'
  have hgate' : s'.gate = .accepting := by rw [← hs']; exact hgate
  have hload : step settings i now s' (.loadHeading m) = (.inr (.saveHeading m h), s') := by
    have hstored : s'.heading? i.key = s.heading? i.key := by
      rw [← hs']
      simp [Store.heading?, Record.removeLines, Record.heading?_foldl_putLine]
    rw [step, hstored, ← hh]
  have hsave := step_of_accepting settings now hgate' (p := .saveHeading m h) hkey
  have hpublish := step_of_accepting settings now (i := i)
    (s := s'.update i.key (effect settings i (.saveHeading m h))) hgate' (p := .publish m h) trivial
  rw [finish_of_step_inr hload, finish_of_step_inr hsave, finish_of_step_inl hpublish,
    Store.update_update, ← hs', Store.update_update]
  rfl

end Payables.Processing
