import Payables.Proofs.Session.Reachable
import Payables.Proofs.Store.Summary

/-!
# Records that hang together

Lines, heading and publication of a statement are written by different calls. A record is *coherent*
if they say the same: without a heading there is nothing, and with a heading there is a publication,
the heading sums up the lines, and the publication shows the lines and the heading but for what the
user has done since. Every command keeps the records coherent, also one that fails.
-/

namespace Payables

namespace Record

structure Coherent (k : StatementKey) (r : Record) : Prop extends Filed k r where
  unheaded : r.heading? = none → r.lines = ∅ ∧ r.published? = none
  sumsUp : ∀ h, r.heading? = some h → r.SumsUp h
  published : ∀ h, r.heading? = some h → ∃ p, r.published? = some p ∧
    p.heading.extracted = h.extracted ∧
    p.lines.map Line.extracted = r.listed.map Line.extracted

variable {k : StatementKey} {r r' : Record}

theorem coherent_empty (k : StatementKey) : Coherent k {} where
  toFiled := filed_empty k
  unheaded _ := ⟨rfl, rfl⟩
  sumsUp h hh := by cases hh
  published h hh := by cases hh

theorem Coherent.of_sameExtracted (h : r.Coherent k) (hr : r.SameExtracted r') (hr' : r'.Filed k) :
    r'.Coherent k := by
  have hheading : ∀ x', r'.heading? = some x' →
      ∃ x, r.heading? = some x ∧ x.extracted = x'.extracted := by
    intro x' hx'
    have hx := hr.heading
    rw [hx', Option.map_some, eq_comm, Option.map_eq_some_iff] at hx
    exact hx
  constructor
  case toFiled => exact hr'
  case unheaded =>
    intro hnone
    have hunheaded : r.heading? = none := by
      rw [← Option.map_eq_none_iff, ← hr.heading, hnone]
      rfl
    obtain ⟨hlines, hpublished⟩ := h.unheaded hunheaded
    exact ⟨hr.lines_eq_empty hlines, hr.published.trans hpublished⟩
  case sumsUp =>
    intro x' hx'
    obtain ⟨x, hx, hextracted⟩ := hheading x' hx'
    exact hr.sumsUp hextracted.symm (h.sumsUp x hx)
  case published =>
    intro x' hx'
    obtain ⟨x, hx, hextracted⟩ := hheading x' hx'
    obtain ⟨p, hp, hpheading, hplines⟩ := h.published x hx
    refine ⟨p, hr.published.trans hp, hpheading.trans hextracted, ?_⟩
    rw [hplines, hr.map_listed]

theorem coherent_of_recompute {x : Heading} {p : Publication} (hr : r.Filed k)
    (hheading : r.heading? = some (x.recompute r.listed)) (hpublished : r.published? = some p)
    (hpheading : p.heading = x.recompute r.listed) (hplines : p.lines = r.listed) :
    r.Coherent k where
  toFiled := hr
  unheaded hnone := by
    rw [hheading] at hnone
    cases hnone
  sumsUp x' hx' := by
    obtain rfl := Option.some.inj (hheading.symm.trans hx')
    exact r.sumsUp_recompute x
  published x' hx' := by
    obtain rfl := Option.some.inj (hheading.symm.trans hx')
    exact ⟨p, hpublished, by rw [hpheading], by rw [hplines]⟩

end Record

open Processing

theorem Desk.coherent_of_accepting {d : Desk} {e : Extraction} {i : Intake} {s : Store}
    (hs : s.Kept) (hgate : s.gate = .accepting) (h : d.intake e = .ok i) (now : Timestamp) :
    ((d.process s e now).2.record e.key).Coherent e.key := by
  have hi : i.Filed := filed_of_intake h
  have hkey := key_of_intake h
  have hr₀ : (s.record e.key).Filed i.key := hkey ▸ hs.filed e.key
  have hsettled := settled_of_accepting hgate (hs.filed e.key) h now
  have hfiled : ((d.process s e now).2.record e.key).Filed e.key :=
    (hs.process d e now).filed e.key
  -- the merged lines, from which the heading is made, are the lines that are listed afterwards
  have hlisted := hsettled.listed_eq hi hr₀ (hkey ▸ hfiled)
  have hrecord := record_process_of_accepting hgate (hs.filed e.key) h now
  generalize (d.process s e now).2.record e.key = r at hfiled hlisted hrecord
  have hheading : r.heading? = some (settledHeading i (s.record e.key) now) := by rw [hrecord]; rfl
  rw [settledHeading, updatedHeading, ← hlisted] at hheading
  refine Record.coherent_of_recompute hfiled hheading (by rw [hrecord]; rfl) ?_ hlisted.symm
  rw [settledPublication, publication, settledHeading, updatedHeading, hlisted]

namespace Store

variable {s : Store}

theorem coherent_update (h : ∀ k, (s.record k).Coherent k) {k : StatementKey}
    {f : Record → Record} (hf : (f (s.record k)).Coherent k) :
    ∀ k', ((s.update k f).record k').Coherent k' := by
  intro k'
  rw [record_update]
  split
  · rename_i hk
    rw [hk]
    exact hf
  · exact h k'

theorem Kept.coherent_changeLine (hs : s.Kept) (h : ∀ k, (s.record k).Coherent k)
    {f : Line → Line} (hf : Line.IsEdit f) (hextracted : ∀ l, (f l).extracted = l.extracted)
    (k : StatementKey) (id : String) :
    ∀ k', ((s.changeLine k id f).2.record k').Coherent k' := by
  rcases hs.changeLine_cases k id f with ⟨fault, heq⟩ | ⟨-, heq⟩ <;> rw [heq]
  · exact h
  · refine coherent_update h (f := fun r => r.changeLine f id) ?_
    exact (h k).of_sameExtracted (Record.sameExtracted_changeLine hextracted _ id)
      ((hs.filed k).changeLine hf id)

theorem Kept.coherent_setAllCompleted (hs : s.Kept) (h : ∀ k, (s.record k).Coherent k)
    (k : StatementKey) (completed : Bool) :
    ∀ k', ((s.setAllCompleted k completed).2.record k').Coherent k' := by
  rcases hs.setAllCompleted_cases k completed with ⟨fault, heq⟩ | ⟨-, heq⟩ <;> rw [heq]
  · exact h
  · refine coherent_update h ?_
    exact (h k).of_sameExtracted (Record.sameExtracted_setAllCompleted completed _)
      ((hs.filed k).setAllCompleted completed)

theorem Kept.coherent_process (hs : s.Kept) (h : ∀ k, (s.record k).Coherent k) (d : Desk)
    (e : Extraction) (now : Timestamp) : ∀ k, ((d.process s e now).2.record k).Coherent k := by
  rcases hs.gate with hgate | hgate
  · cases hi : d.intake e with
    | error fault =>
      rw [Desk.process, hi]
      exact h
    | ok i =>
      intro k
      obtain ⟨-, -, hothers⟩ := Desk.process_advances (hs.filed e.key) hi now
      by_cases hk : k = e.key
      · rw [hk]
        exact Desk.coherent_of_accepting hs hgate hi now
      · rw [hothers k hk]
        exact h k
  · obtain ⟨fault, heq⟩ := Desk.process_of_rejecting hgate d e now
    rw [heq]
    exact h

/-- Every command keeps the records coherent. -/
theorem Kept.coherent_execute (hs : s.Kept) (h : ∀ k, (s.record k).Coherent k) (d : Desk)
    (c : Command) : ∀ k, ((d.execute s c).2.record k).Coherent k := by
  cases c with
  | process e now => exact hs.coherent_process h d e now
  | get k => exact h
  | matchLedger k ledger => exact h
  | setCompleted k id completed =>
    exact hs.coherent_changeLine h (Line.isEdit_withCompleted completed)
      (extracted_withCompleted completed) k id
  | setAllCompleted k completed => exact hs.coherent_setAllCompleted h k completed
  | setKind k id kind =>
    exact hs.coherent_changeLine h (Line.isEdit_withKind kind) (extracted_withKind kind) k id
  | acceptWrites accept => exact h
  | clear => exact Record.coherent_empty

end Store

/-- In every store that a session leads to, all records are coherent. -/
theorem Session.store_coherent (S : Session) (k : StatementKey) :
    (S.store.record k).Coherent k := by
  induction S generalizing k with
  | start => exact Record.coherent_empty k
  | andThen past desk command ih => exact past.store_kept.coherent_execute ih desk command k

end Payables
