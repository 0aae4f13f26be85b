import Payables.Proofs.Layout.Acceptance
import Payables.Proofs.Session.Response

/-!
# When commands are refused

A command is refused for what it finds before it begins: a layout that does not pass the check,
writes that are not accepted, a statement or a line that is not there. `Desk.refusal?` lists these
reasons, the one that counts first to the left. In every session they are the only reasons, and a
command that is refused leaves the store as it was.
-/

namespace Payables

namespace Store

def gateFault? (s : Store) : Option Fault :=
  if s.gate = .rejecting then some .notAcceptingWrites else none

def statementFault? (s : Store) (k : StatementKey) : Option Fault :=
  if (s.heading? k).isSome then none else some (.statementNotFound k.statement)

def lineFault? (s : Store) (k : StatementKey) (id : String) : Option Fault :=
  if id ∈ (s.record k).lines then none else some (.lineNotFound id)

end Store

namespace Desk

def layoutFault? (d : Desk) (l : Layout) : Option Fault :=
  match d.check.run l with
  | .ok () => none
  | .error fault => some fault

/-- The fault with which a command is refused, if it is. -/
def refusal? (d : Desk) (s : Store) : Command → Option Fault
  | .process e _ => d.layoutFault? e.layout <|> s.gateFault?
  | .get k => s.statementFault? k
  | .matchLedger k _ => s.statementFault? k
  | .setCompleted k id _ => s.gateFault? <|> s.lineFault? k id
  | .setAllCompleted k _ => s.statementFault? k <|> s.gateFault?
  | .setKind k id _ => s.gateFault? <|> s.lineFault? k id
  | .acceptWrites _ => none
  | .clear => none

/-- Commands fail with the fault of their refusal and only then, and without changing the store. -/
structure RefusesExactly (d : Desk) (s : Store) : Prop where
  fault_iff : ∀ c fault, (d.execute s c).1 = .error fault ↔ d.refusal? s c = some fault
  answers : ∀ c, d.refusal? s c = none → ∃ answer, (d.execute s c).1 = .ok answer
  /-- The layout is blamed for exactly what the check refuses. -/
  layout_iff : ∀ e now, (∃ cause, (d.execute s (.process e now)).1 = .error (.layout cause)) ↔
    ∃ fault, d.check.run e.layout = .error fault
  unchanged : ∀ c fault, (d.execute s c).1 = .error fault → (d.execute s c).2 = s

variable {d : Desk} {s : Store} {k : StatementKey} {c : Command} {fault : Fault}

theorem error_settleResponse_iff {x : Except Fault (Answer × Record)} :
    (s.settleResponse k x).1 = .error fault ↔ x = .error fault := by
  cases x with
  | ok response => simp [Store.settleResponse]
  | error fault' => simp [Store.settleResponse]

theorem error_respondQuestion_iff {f : Heading → List Line → Answer} :
    (s.record k).respondQuestion k f = .error fault ↔ s.statementFault? k = some fault := by
  unfold Record.respondQuestion Store.statementFault? Store.heading?
  cases (s.record k).heading? <;> simp

theorem error_respondEdit_iff {id : String} {f : Line → Line} :
    (s.record k).respondEdit s.gate id f = .error fault ↔
      (s.gateFault? <|> s.lineFault? k id) = some fault := by
  unfold Record.respondEdit Store.gateFault? Store.lineFault?
  by_cases hgate : s.gate = .rejecting
  · simp [hgate]
  · by_cases hid : id ∈ (s.record k).lines <;> simp [hgate, hid]

theorem error_respond_setAllCompleted_iff {completed : Bool} :
    d.respond s.gate (s.record k) (.setAllCompleted k completed) = .error fault ↔
      (s.statementFault? k <|> s.gateFault?) = some fault := by
  unfold respond Store.statementFault? Store.gateFault? Store.heading?
  cases (s.record k).heading? with
  | none => simp
  | some h => by_cases hgate : s.gate = .rejecting <;> simp [hgate]

theorem error_respond_process_iff {e : Extraction} {now : Timestamp} {r : Record} :
    d.respond s.gate r (.process e now) = .error fault ↔
      (d.layoutFault? e.layout <|> s.gateFault?) = some fault := by
  unfold layoutFault? Store.gateFault?
  cases hrun : d.check.run e.layout with
  | error fault' => simp [respond, intake_of_run_error hrun]
  | ok =>
    obtain ⟨i, hi⟩ := exists_intake_of_run hrun
    by_cases hgate : s.gate = .rejecting <;> simp [respond, hi, hgate]

theorem error_respond_iff (hk : c.key? = some k) :
    d.respond s.gate (s.record k) c = .error fault ↔ d.refusal? s c = some fault := by
  cases c with
  | process e now => exact error_respond_process_iff
  | get k' =>
    obtain rfl := Option.some.inj hk
    exact error_respondQuestion_iff
  | matchLedger k' ledger =>
    obtain rfl := Option.some.inj hk
    exact error_respondQuestion_iff (f := fun _ lines => .matching (matchLines lines ledger))
  | setCompleted k' id completed =>
    obtain rfl := Option.some.inj hk
    exact error_respondEdit_iff
  | setAllCompleted k' completed =>
    obtain rfl := Option.some.inj hk
    exact error_respond_setAllCompleted_iff
  | setKind k' id kind =>
    obtain rfl := Option.some.inj hk
    exact error_respondEdit_iff
  | acceptWrites accept => cases hk
  | clear => cases hk

theorem fault_iff_of_kept (hs : s.Kept) :
    (d.execute s c).1 = .error fault ↔ d.refusal? s c = some fault := by
  cases hk : c.key? with
  | some k => rw [hs.execute_eq_respond d hk, error_settleResponse_iff, error_respond_iff hk]
  | none =>
    cases c with
    | acceptWrites accept => simp [execute, refusal?]
    | clear => simp [execute, refusal?]
    | _ => cases hk

theorem answers_of_kept (hs : s.Kept) (h : d.refusal? s c = none) :
    ∃ answer, (d.execute s c).1 = .ok answer := by
  cases hanswer : (d.execute s c).1 with
  | ok answer => exact ⟨answer, rfl⟩
  | error fault =>
    rw [fault_iff_of_kept hs, h] at hanswer
    cases hanswer

theorem unchanged_of_kept (hs : s.Kept) (h : (d.execute s c).1 = .error fault) :
    (d.execute s c).2 = s := by
  cases hk : c.key? with
  | some k =>
    rw [hs.execute_eq_respond d hk] at h ⊢
    rw [error_settleResponse_iff] at h
    rw [h]
    rfl
  | none =>
    cases c with
    | acceptWrites accept => cases h
    | clear => cases h
    | _ => cases hk

end Desk

/-- In every session, commands are refused for the reasons listed and change nothing then. -/
theorem Session.refusesExactly (S : Session) (d : Desk) : d.RefusesExactly S.store := by
  have hkept := S.store_kept
  refine ⟨fun c fault => Desk.fault_iff_of_kept hkept, fun c => Desk.answers_of_kept hkept,
    fun e now => ?_, fun c fault => Desk.unchanged_of_kept hkept⟩
  constructor
  · rintro ⟨cause, h⟩
    rw [Desk.fault_iff_of_kept hkept, Desk.refusal?, Desk.layoutFault?] at h
    cases hrun : d.check.run e.layout with
    | error fault => exact ⟨fault, rfl⟩
    | ok =>
      -- a gate that turns writes away does not blame the layout
      rw [hrun, Store.gateFault?] at h
      dsimp only at h
      split at h <;> cases h
  · rintro ⟨fault, hrun⟩
    obtain ⟨cause, rfl⟩ := d.check.blamesLayout_run e.layout fault hrun
    refine ⟨cause, (Desk.fault_iff_of_kept hkept).2 ?_⟩
    rw [Desk.refusal?, Desk.layoutFault?, hrun]
    rfl

end Payables
