import Payables.Proofs.Processing.Intake
import Payables.Proofs.Store.Edits

/-!
# The stores that sessions lead to

A session starts from the empty store; each command may have a desk of its own. In every store that
a session leads to the records are filed and the gate is either open or closed, and from that the
outcome of the next command is known: with a closed gate no command changes a record, and with an
open gate each of them changes the record of its statement in one way.
-/

namespace Payables

/-- The commands carried out so far, the last one outermost. -/
inductive Session
  | start
  | andThen (past : Session) (desk : Desk) (command : Command)

def Session.store : Session → Store
  | start => {}
  | andThen past desk command => (desk.execute past.store command).2

/-- All records are filed, and the gate does not count writes. -/
structure Store.Kept (s : Store) : Prop where
  filed : ∀ k, (s.record k).Filed k
  gate : s.gate = .accepting ∨ s.gate = .rejecting

namespace Processing

variable {settings : ReferenceSettings} {i : Intake} {now : Timestamp} {s : Store}

theorem finish_of_rejecting (hgate : s.gate = .rejecting) :
    finish settings i now s .listLines = (.error .notAcceptingWrites, s) := by
  have hlist : step settings i now s .listLines =
      (.inr (.putLines (.ofLines (s.lines i.key) i.lines)), s) := rfl
  have hput : step settings i now s (.putLines (.ofLines (s.lines i.key) i.lines)) =
      (.inl (.error .notAcceptingWrites), s) := by
    rw [step, Store.putLines, Store.write_of_rejecting hgate]
    rfl
  rw [finish_of_step_inr hlist, finish_of_step_inl hput]

end Processing

namespace Desk

open Processing

variable {d : Desk} {e : Extraction} {i : Intake} {s : Store}

theorem process_of_intake (h : d.intake e = .ok i) (s : Store) (now : Timestamp) :
    d.process s e now = finish d.settings.references i now s .listLines := by
  rw [process, h]

theorem process_of_rejecting (hgate : s.gate = .rejecting) (d : Desk) (e : Extraction)
    (now : Timestamp) : ∃ fault, d.process s e now = (.error fault, s) := by
  cases h : d.intake e with
  | ok i => exact ⟨_, (process_of_intake h s now).trans (finish_of_rejecting hgate)⟩
  | error fault => exact ⟨fault, by rw [process, h]⟩

/-- With an open gate a processing runs through and settles the record of its statement. -/
theorem process_of_accepting (hgate : s.gate = .accepting) (hs : (s.record e.key).Filed e.key)
    (h : d.intake e = .ok i) (now : Timestamp) :
    d.process s e now =
      (.ok (report (settledMerge i (s.record e.key))
          (settledPublication d.settings.references i (s.record e.key) now)),
        s.update e.key (settle (settledMerge i (s.record e.key))
          (settledHeading i (s.record e.key) now)
          (settledPublication d.settings.references i (s.record e.key) now))) := by
  have hi : i.Filed := filed_of_intake h
  rw [← key_of_intake h] at hs ⊢
  rw [process_of_intake h]
  have hlines : ∀ l ∈ (settledMerge i (s.record i.key)).lines,
      l.statement = i.key.statement := by
    intro l hl
    exact (isFiled_of_mem_settledLines hi hs l hl).statement_eq
  exact finish_of_accepting hgate rfl hlines rfl (key_settledHeading hs now)

/-- Under any gate, a processing advances the record of its statement and changes no other; with a
report it has settled it. -/
theorem process_advances (hs : (s.record e.key).Filed e.key) (h : d.intake e = .ok i)
    (now : Timestamp) :
    Advances d.settings.references i (s.record e.key) (s.record e.key)
        ((d.process s e now).2.record e.key) ∧
      (∀ r, (d.process s e now).1 = .ok r →
        Settled d.settings.references i (s.record e.key) ((d.process s e now).2.record e.key)) ∧
      ∀ k ≠ e.key, (d.process s e now).2.record k = s.record k := by
  have hi : i.Filed := filed_of_intake h
  rw [← key_of_intake h] at hs ⊢
  rw [process_of_intake h]
  obtain ⟨hadvances, hanswer, hothers⟩ := finish_advances d.settings.references hi hs (.refl _)
    (p := .listLines) trivial now
  refine ⟨hadvances, fun r hr => ?_, hothers⟩
  rw [hr] at hanswer
  exact hanswer

theorem record_process_of_accepting (hgate : s.gate = .accepting)
    (hs : (s.record e.key).Filed e.key) (h : d.intake e = .ok i) (now : Timestamp) :
    (d.process s e now).2.record e.key =
      settle (settledMerge i (s.record e.key)) (settledHeading i (s.record e.key) now)
        (settledPublication d.settings.references i (s.record e.key) now) (s.record e.key) := by
  rw [process_of_accepting hgate hs h, Store.record_update, if_pos rfl]

theorem settled_of_accepting (hgate : s.gate = .accepting) (hs : (s.record e.key).Filed e.key)
    (h : d.intake e = .ok i) (now : Timestamp) :
    Settled d.settings.references i (s.record e.key) ((d.process s e now).2.record e.key) := by
  obtain ⟨-, hsettled, -⟩ := process_advances hs h now
  exact hsettled _ (by rw [process_of_accepting hgate hs h])

theorem filed_process (hs : ∀ k, (s.record k).Filed k) (d : Desk) (e : Extraction)
    (now : Timestamp) : ∀ k, ((d.process s e now).2.record k).Filed k := by
  intro k
  cases h : d.intake e with
  | error fault =>
    rw [process, h]
    exact hs k
  | ok i =>
    obtain ⟨hadvances, -, hothers⟩ := process_advances (hs e.key) h now
    by_cases hk : k = e.key
    · subst hk
      rw [← key_of_intake h] at hadvances ⊢
      exact hadvances.filed (filed_of_intake h) (hs i.key)
    · rw [hothers k hk]
      exact hs k

end Desk

namespace Store

variable {s : Store} {k : StatementKey}

theorem kept_empty : Store.Kept {} where
  filed := Record.filed_empty
  gate := .inl rfl

theorem Kept.update (hs : s.Kept) {f : Record → Record} (hf : (f (s.record k)).Filed k) :
    (s.update k f).Kept where
  filed k' := by
    rw [record_update]
    split
    · rename_i hk
      rw [hk]
      exact hf
    · exact hs.filed k'
  gate := hs.gate

/-- A change of a line fails and leaves the store, or the line is stored and is changed. -/
theorem Kept.changeLine_cases (hs : s.Kept) (k : StatementKey) (id : String) (f : Line → Line) :
    (∃ fault, s.changeLine k id f = (.error fault, s)) ∨
      id ∈ (s.record k).lines ∧
        s.changeLine k id f = (.ok (), s.update k fun r => r.changeLine f id) := by
  rcases hs.gate with hgate | hgate
  · cases hl : (s.record k).lines[id]? with
    | some l =>
      refine .inr ⟨?_, changeLine_of_some hgate hl f⟩
      rw [Std.ExtTreeMap.mem_iff_isSome_getElem?, hl]
      rfl
    | none => exact .inl ⟨_, changeLine_of_none hgate hl f⟩
  · exact .inl ⟨_, write_of_rejecting hgate _⟩

theorem Kept.setAllCompleted_cases (hs : s.Kept) (k : StatementKey) (completed : Bool) :
    (∃ fault, s.setAllCompleted k completed = (.error fault, s)) ∨
      (s.heading? k).isSome ∧ s.setAllCompleted k completed =
        (.ok (), s.update k fun r => r.setAllCompleted completed) := by
  cases hh : s.heading? k with
  | none => exact .inl ⟨_, setAllCompleted_of_none hh completed⟩
  | some h =>
    rcases hs.gate with hgate | hgate
    · exact .inr ⟨rfl, setAllCompleted_of_some hgate (hs.filed k) hh completed⟩
    · exact .inl ⟨_, setAllCompleted_of_rejecting hgate hh completed⟩

theorem Kept.process_cases (hs : s.Kept) (d : Desk) (e : Extraction) (now : Timestamp) :
    (∃ fault, d.process s e now = (.error fault, s)) ∨
      ∃ i r f, d.intake e = .ok i ∧ d.process s e now = (.ok r, s.update e.key f) := by
  rcases hs.gate with hgate | hgate
  · cases h : d.intake e with
    | ok i =>
      exact .inr ⟨i, _, _, rfl, Desk.process_of_accepting hgate (hs.filed e.key) h now⟩
    | error fault => exact .inl ⟨fault, by rw [Desk.process, h]⟩
  · exact .inl (Desk.process_of_rejecting hgate d e now)

theorem Kept.changeLine (hs : s.Kept) {f : Line → Line} (hf : Line.IsEdit f) (k : StatementKey)
    (id : String) : (s.changeLine k id f).2.Kept := by
  rcases hs.changeLine_cases k id f with ⟨fault, heq⟩ | ⟨-, heq⟩
  · rw [heq]
    exact hs
  · rw [heq]
    exact hs.update (f := fun r => r.changeLine f id) ((hs.filed k).changeLine hf id)

theorem Kept.setAllCompleted (hs : s.Kept) (k : StatementKey) (completed : Bool) :
    (s.setAllCompleted k completed).2.Kept := by
  rcases hs.setAllCompleted_cases k completed with ⟨fault, heq⟩ | ⟨-, heq⟩
  · rw [heq]
    exact hs
  · rw [heq]
    exact hs.update ((hs.filed k).setAllCompleted completed)

theorem Kept.process (hs : s.Kept) (d : Desk) (e : Extraction) (now : Timestamp) :
    (d.process s e now).2.Kept where
  filed := Desk.filed_process hs.filed d e now
  gate := by
    rcases hs.process_cases d e now with ⟨fault, heq⟩ | ⟨i, r, f, -, heq⟩ <;> rw [heq]
    · exact hs.gate
    · exact hs.gate

theorem Kept.execute (hs : s.Kept) (d : Desk) (c : Command) : (d.execute s c).2.Kept := by
  cases c with
  | process e now => exact hs.process d e now
  | get k => exact hs
  | matchLedger k ledger => exact hs
  | setCompleted k id completed => exact hs.changeLine (Line.isEdit_withCompleted completed) k id
  | setAllCompleted k completed => exact hs.setAllCompleted k completed
  | setKind k id kind => exact hs.changeLine (Line.isEdit_withKind kind) k id
  | acceptWrites accept =>
    refine ⟨hs.filed, ?_⟩
    cases accept
    · exact .inr rfl
    · exact .inl rfl
  | clear => exact ⟨Record.filed_empty, hs.gate⟩

end Store

/-- In every store that a session leads to, the records are filed. -/
theorem Session.store_kept (S : Session) : S.store.Kept := by
  induction S with
  | start => exact Store.kept_empty
  | andThen past desk command ih => exact ih.execute desk command

end Payables
