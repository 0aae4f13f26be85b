import Payables.Proofs.Session.Reachable

/-!
# What a command makes of its statement

A command that is addressed to a statement sees the record of that statement and whether writes are
let through, and nothing else of the store. `Desk.respond` is what it answers and what it leaves of
the record; `Store.Kept.execute_eq_respond` says that carrying it out does just that, and that a
fault leaves the whole store as it was.
-/

namespace Payables

/-- The statement that a command is addressed to, unless it is addressed to the whole store. -/
def Command.key? : Command → Option StatementKey
  | process e _ => some e.key
  | get k => some k
  | matchLedger k _ => some k
  | setCompleted k _ _ => some k
  | setAllCompleted k _ => some k
  | setKind k _ _ => some k
  | acceptWrites _ => none
  | clear => none

namespace Record

def respondQuestion (k : StatementKey) (r : Record) (f : Heading → List Line → Answer) :
    Except Fault (Answer × Record) :=
  match r.heading? with
  | some h => .ok (f h r.listed, r)
  | none => .error (.statementNotFound k.statement)

def respondEdit (gate : Gate) (r : Record) (id : String) (f : Line → Line) :
    Except Fault (Answer × Record) :=
  if gate = .rejecting then .error .notAcceptingWrites
  else if id ∈ r.lines then .ok (.done, r.changeLine f id)
  else .error (.lineNotFound id)

end Record

open Processing

/-- The answer to a command and the record after it, or the fault that turns the command down. -/
def Desk.respond (d : Desk) (gate : Gate) (r : Record) : Command → Except Fault (Answer × Record)
  | .process e now =>
    match d.intake e with
    | .ok i =>
      if gate = .rejecting then .error .notAcceptingWrites
      else
        let m := settledMerge i r
        let p := settledPublication d.settings.references i r now
        .ok (.report (report m p), settle m (settledHeading i r now) p r)
    | .error fault => .error fault
  | .get k => r.respondQuestion k .statement
  | .matchLedger k ledger => r.respondQuestion k fun _ lines => .matching (matchLines lines ledger)
  | .setCompleted _ id completed => r.respondEdit gate id (Line.withCompleted completed)
  | .setAllCompleted k completed =>
    match r.heading? with
    | some _ =>
      if gate = .rejecting then .error .notAcceptingWrites
      else .ok (.done, r.setAllCompleted completed)
    | none => .error (.statementNotFound k.statement)
  | .setKind _ id kind => r.respondEdit gate id (Line.withKind kind)
  | .acceptWrites _ => .ok (.done, r)
  | .clear => .ok (.done, r)

namespace Store

def settleResponse (s : Store) (k : StatementKey) :
    Except Fault (Answer × Record) → Except Fault Answer × Store
  | .ok (answer, r) => (.ok answer, s.update k fun _ => r)
  | .error fault => (.error fault, s)

variable {s : Store} {k : StatementKey}

theorem update_const (s : Store) (k : StatementKey) (f : Record → Record) :
    s.update k f = s.update k fun _ => f (s.record k) :=
  update_congr rfl

theorem settleResponse_ok_self (s : Store) (k : StatementKey) (answer : Answer) :
    s.settleResponse k (.ok (answer, s.record k)) = (.ok answer, s) :=
  congrArg _ ((update_const s k fun r => r).symm.trans (update_id s k))

theorem answered_statement (s : Store) (k : StatementKey) (f : Heading → List Line → Answer) :
    Desk.answered (fun (h, lines) => f h lines) (s.statement k, s) =
      s.settleResponse k ((s.record k).respondQuestion k f) := by
  unfold Record.respondQuestion statement heading?
  cases (s.record k).heading? with
  | some h => exact (s.settleResponse_ok_self k _).symm
  | none => rfl

theorem answered_matchLedger (s : Store) (k : StatementKey) (ledger : List LedgerEntry) :
    Desk.answered .matching (s.matchLedger k ledger, s) =
      Desk.answered (fun (_, lines) => .matching (matchLines lines ledger)) (s.statement k, s) := by
  unfold matchLedger Desk.answered
  cases s.statement k <;> rfl

theorem Kept.changeLine_eq_respondEdit (hs : s.Kept) (k : StatementKey) (id : String)
    (f : Line → Line) : Desk.answered (fun _ => .done) (s.changeLine k id f) =
      s.settleResponse k ((s.record k).respondEdit s.gate id f) := by
  rcases hs.gate with hgate | hgate
  · rw [Record.respondEdit, hgate, if_neg (by decide)]
    split <;> rename_i hid
    · obtain ⟨l, hl⟩ :=
        Option.isSome_iff_exists.1 (Std.ExtTreeMap.mem_iff_isSome_getElem?.1 hid)
      rw [changeLine_of_some hgate hl, update_const]
      rfl
    · rw [changeLine_of_none hgate (Std.ExtTreeMap.getElem?_eq_none hid)]
      rfl
  · rw [Record.respondEdit, hgate, if_pos rfl, Store.changeLine, write_of_rejecting hgate]
    rfl

theorem Kept.setAllCompleted_eq_respond (hs : s.Kept) (d : Desk) (k : StatementKey)
    (completed : Bool) : Desk.answered (fun _ => .done) (s.setAllCompleted k completed) =
      s.settleResponse k (d.respond s.gate (s.record k) (.setAllCompleted k completed)) := by
  rw [Desk.respond]
  split <;> rename_i hh
  · rcases hs.gate with hgate | hgate
    · rw [setAllCompleted_of_some hgate (hs.filed k) hh, hgate, if_neg (by decide), update_const]
      rfl
    · rw [setAllCompleted_of_rejecting hgate hh, hgate, if_pos rfl]
      rfl
  · rw [setAllCompleted_of_none hh]
    rfl

theorem Kept.process_eq_respond (hs : s.Kept) (d : Desk) (e : Extraction) (now : Timestamp) :
    Desk.answered .report (d.process s e now) =
      s.settleResponse e.key (d.respond s.gate (s.record e.key) (.process e now)) := by
  rw [Desk.respond]
  split <;> rename_i h
  · rcases hs.gate with hgate | hgate
    · rw [Desk.process_of_accepting hgate (hs.filed e.key) h, hgate, if_neg (by decide),
        update_const]
      rfl
    · rw [Desk.process_of_intake h, finish_of_rejecting hgate, hgate, if_pos rfl]
      rfl
  · rw [Desk.process, h]
    rfl

/-- Carrying out a command is responding to it on the record of its statement. -/
theorem Kept.execute_eq_respond (hs : s.Kept) (d : Desk) {c : Command} (hk : c.key? = some k) :
    d.execute s c = s.settleResponse k (d.respond s.gate (s.record k) c) := by
  cases c with
  | process e now =>
    obtain rfl := Option.some.inj hk
    exact hs.process_eq_respond d e now
  | get k' =>
    obtain rfl := Option.some.inj hk
    exact s.answered_statement k' .statement
  | matchLedger k' ledger =>
    obtain rfl := Option.some.inj hk
    exact (s.answered_matchLedger k' ledger).trans
      (s.answered_statement k' fun _ lines => .matching (matchLines lines ledger))
  | setCompleted k' id completed =>
    obtain rfl := Option.some.inj hk
    exact hs.changeLine_eq_respondEdit k' id _
  | setAllCompleted k' completed =>
    obtain rfl := Option.some.inj hk
    exact hs.setAllCompleted_eq_respond d k' completed
  | setKind k' id kind =>
    obtain rfl := Option.some.inj hk
    exact hs.changeLine_eq_respondEdit k' id _
  | acceptWrites accept => cases hk
  | clear => cases hk

end Store

end Payables
