import Payables.Proofs.Session.History
import Payables.Proofs.Session.Interleaving
import Payables.Proofs.Session.Response

/-!
# Statements do not see one another

To one statement, a session is the commands that are addressed to it and those that are addressed to
the whole store. Leaving out all others changes neither what these are answered nor what is stored
of the statement in the end, also if the extractions are processed at other times, as long as times
of creation are left aside.
-/

namespace Payables

open Processing

/-- The command is addressed to the statement or to the whole store. -/
def Command.concerns (k : StatementKey) (c : Command) : Bool := c.key?.all (· == k)

def Command.atTime (t : Timestamp) : Command → Command
  | process e _ => process e t
  | c => c

def Report.atTime (t : Timestamp) (r : Report) : Report :=
  { r with heading := r.heading.atTime t }

def Answer.atTime (t : Timestamp) : Answer → Answer
  | report r => report (r.atTime t)
  | statement h lines => statement (h.atTime t) lines
  | matching r => matching r
  | done => done

def responseAtTime (t : Timestamp) :
    Except Fault (Answer × Record) → Except Fault (Answer × Record) :=
  Except.map (Prod.map (Answer.atTime t) (Record.atTime t))

@[simp] theorem Command.key?_atTime (t : Timestamp) (c : Command) :
    (c.atTime t).key? = c.key? := by
  cases c <;> rfl

theorem Command.atTime_of_key?_eq_none {t : Timestamp} {c : Command} (h : c.key? = none) :
    c.atTime t = c := by
  cases c with
  | process e now => cases h
  | _ => rfl

namespace Record

variable {k : StatementKey} (t : Timestamp) (r : Record)

@[simp] theorem heading?_atTime : (r.atTime t).heading? = r.heading?.map (Heading.atTime t) := rfl

@[simp] theorem lines_atTime : (r.atTime t).lines = r.lines := rfl

theorem atTime_atTime : (r.atTime t).atTime t = r.atTime t := by
  simp only [atTime, Option.map_map]
  rfl

theorem changeLine_atTime (f : Line → Line) (id : String) :
    (r.atTime t).changeLine f id = (r.changeLine f id).atTime t := by
  unfold changeLine
  rw [lines_atTime]
  cases r.lines[id]? <;> rfl

theorem setAllCompleted_atTime (completed : Bool) :
    (r.atTime t).setAllCompleted completed = (r.setAllCompleted completed).atTime t := by
  simp only [atTime, setAllCompleted, Option.map_map]
  rfl

theorem respondQuestion_atTime {f : Heading → List Line → Answer}
    (hf : ∀ h lines, (f (h.atTime t) lines).atTime t = (f h lines).atTime t) :
    responseAtTime t ((r.atTime t).respondQuestion k f) =
      responseAtTime t (r.respondQuestion k f) := by
  unfold respondQuestion
  rw [heading?_atTime]
  cases r.heading? with
  | none => rfl
  | some h => exact congrArg Except.ok (Prod.ext (hf h r.listed) (atTime_atTime t r))

theorem respondEdit_atTime (gate : Gate) (id : String) (f : Line → Line) :
    responseAtTime t ((r.atTime t).respondEdit gate id f) =
      responseAtTime t (r.respondEdit gate id f) := by
  unfold respondEdit
  rw [lines_atTime, changeLine_atTime]
  split
  · rfl
  · split
    · exact congrArg Except.ok (Prod.ext rfl (atTime_atTime t _))
    · rfl

end Record

namespace Processing

@[simp] theorem settledMerge_atTime (i : Intake) (r : Record) (t : Timestamp) :
    settledMerge i (r.atTime t) = settledMerge i r := rfl

theorem settledHeading_atTime (i : Intake) (r : Record) (now t : Timestamp) :
    (settledHeading i (r.atTime t) t).atTime t = (settledHeading i r now).atTime t := by
  unfold settledHeading updatedHeading
  rw [settledMerge_atTime, Record.heading?_atTime]
  cases r.heading? <;> rfl

theorem settledPublication_atTime (settings : ReferenceSettings) (i : Intake) (r : Record)
    (now t : Timestamp) : (settledPublication settings i (r.atTime t) t).atTime t =
      (settledPublication settings i r now).atTime t := by
  simp only [settledPublication, publication, Publication.atTime, settledMerge_atTime,
    settledHeading_atTime i r now t]

theorem atTime_settle (m : Merge) (h : Heading) (p : Publication) (r : Record) (t : Timestamp) :
    (settle m h p r).atTime t = settle m (h.atTime t) (p.atTime t) (r.atTime t) := by
  have hput : ∀ (r : Record) (l : Line), (r.atTime t).putLine l = (r.putLine l).atTime t :=
    fun _ _ => rfl
  unfold settle
  rw [List.foldl_hom (Record.atTime t) hput]
  rfl

theorem respond_process_atTime (d : Desk) (gate : Gate) (r : Record) (e : Extraction)
    (now t : Timestamp) : responseAtTime t (d.respond gate (r.atTime t) (.process e t)) =
      responseAtTime t (d.respond gate r (.process e now)) := by
  rw [Desk.respond, Desk.respond]
  cases d.intake e with
  | error fault => rfl
  | ok i =>
    dsimp only
    split
    · rfl
    · have hheading := settledHeading_atTime i r now t
      have hpublication := settledPublication_atTime d.settings.references i r now t
      refine congrArg Except.ok (Prod.ext ?_ ?_)
      · change Answer.report (report _ (Publication.atTime t _)) = _
        rw [settledMerge_atTime, hpublication]
        rfl
      · dsimp only [Prod.map]
        rw [atTime_settle, atTime_settle, settledMerge_atTime, hheading, hpublication,
          Record.atTime_atTime]

end Processing

/-- Up to times of creation, what is responded does not depend on them. -/
theorem Desk.respond_atTime (d : Desk) (gate : Gate) (r : Record) (c : Command) (t : Timestamp) :
    responseAtTime t (d.respond gate (r.atTime t) (c.atTime t)) =
      responseAtTime t (d.respond gate r c) := by
  cases c with
  | process e now => exact respond_process_atTime d gate r e now t
  | get k => exact r.respondQuestion_atTime t (f := .statement) fun _ _ => rfl
  | matchLedger k ledger =>
    exact r.respondQuestion_atTime t (f := fun _ lines => .matching (matchLines lines ledger))
      fun _ _ => rfl
  | setCompleted k id completed => exact r.respondEdit_atTime t gate id _
  | setAllCompleted k completed =>
    simp only [Command.atTime, respond, Record.heading?_atTime, Record.setAllCompleted_atTime]
    cases r.heading? with
    | none => rfl
    | some h =>
      dsimp only [Option.map_some]
      split
      · rfl
      · exact congrArg Except.ok (Prod.ext rfl (Record.atTime_atTime t _))
  | setKind k id kind => exact r.respondEdit_atTime t gate id _
  | acceptWrites accept => exact congrArg Except.ok (Prod.ext rfl (r.atTime_atTime t))
  | clear => exact congrArg Except.ok (Prod.ext rfl (r.atTime_atTime t))

namespace Store

/-- The stores let the same writes through and, up to times of creation, tell the same of a
statement. -/
structure Alike (k : StatementKey) (t : Timestamp) (s s' : Store) : Prop where
  left : s.Kept
  right : s'.Kept
  gate : s.gate = s'.gate
  record : (s.record k).atTime t = (s'.record k).atTime t

variable {s s' : Store} {k k' : StatementKey} {t : Timestamp} {c c' : Command}

theorem Kept.alike (hs : s.Kept) (k : StatementKey) (t : Timestamp) : s.Alike k t s :=
  ⟨hs, hs, rfl, rfl⟩

theorem gate_settleResponse (s : Store) (k : StatementKey) (x : Except Fault (Answer × Record)) :
    (s.settleResponse k x).2.gate = s.gate := by
  cases x <;> rfl

theorem record_settleResponse_of_ne (h : k ≠ k') (s : Store)
    (x : Except Fault (Answer × Record)) : (s.settleResponse k' x).2.record k = s.record k := by
  cases x with
  | error fault => rfl
  | ok response => exact if_neg h

theorem Alike.execute_left (h : s.Alike k t s') (d : Desk) (hc : c.concerns k = false) :
    (d.execute s c).2.Alike k t s' := by
  obtain ⟨k', hk', hne⟩ : ∃ k', c.key? = some k' ∧ k ≠ k' := by
    cases hk : c.key? with
    | none => simp [Command.concerns, hk] at hc
    | some k' =>
      refine ⟨k', rfl, fun heq => ?_⟩
      simp [Command.concerns, hk, heq] at hc
  refine ⟨h.left.execute d c, h.right, ?_, ?_⟩
  · rw [h.left.execute_eq_respond d hk', gate_settleResponse, h.gate]
  · rw [h.left.execute_eq_respond d hk', record_settleResponse_of_ne hne, h.record]

theorem settleResponse_alike {x x' : Except Fault (Answer × Record)}
    (h : (s.record k).atTime t = (s'.record k).atTime t)
    (hx : responseAtTime t x = responseAtTime t x') :
    (s.settleResponse k x).1.map (Answer.atTime t) =
        (s'.settleResponse k x').1.map (Answer.atTime t) ∧
      ((s.settleResponse k x).2.record k).atTime t =
        ((s'.settleResponse k x').2.record k).atTime t := by
  cases x with
  | error fault =>
    cases x' with
    | error fault' =>
      obtain rfl := Except.error.inj hx
      exact ⟨rfl, h⟩
    | ok response' => cases hx
  | ok response =>
    cases x' with
    | error fault' => cases hx
    | ok response' =>
      obtain ⟨hanswer, hrecord⟩ := Prod.ext_iff.1 (Except.ok.inj hx)
      refine ⟨congrArg Except.ok hanswer, ?_⟩
      simp only [settleResponse, record_update, if_pos]
      exact hrecord

theorem Alike.execute_of_key? (h : s.Alike k t s') (d : Desk) (hc : c.atTime t = c'.atTime t)
    (hk : c.key? = some k) :
    (d.execute s c).1.map (Answer.atTime t) = (d.execute s' c').1.map (Answer.atTime t) ∧
      (d.execute s c).2.Alike k t (d.execute s' c').2 := by
  have hk' : c'.key? = some k := by
    rw [← Command.key?_atTime t, ← hc, Command.key?_atTime, hk]
  -- both are the response to the one record and the one command that are left at one time
  have hresponse : responseAtTime t (d.respond s.gate (s.record k) c) =
      responseAtTime t (d.respond s'.gate (s'.record k) c') := by
    rw [← Desk.respond_atTime, h.record, hc, h.gate, Desk.respond_atTime]
  have hexecute := h.left.execute_eq_respond d hk
  have hexecute' := h.right.execute_eq_respond d hk'
  obtain ⟨hanswer, hrecord⟩ := settleResponse_alike h.record hresponse
  refine ⟨by rw [hexecute, hexecute', hanswer], h.left.execute d c, h.right.execute d c', ?_, ?_⟩
  · rw [hexecute, hexecute', gate_settleResponse, gate_settleResponse, h.gate]
  · rw [hexecute, hexecute', hrecord]

theorem Alike.execute_of_key?_eq_none (h : s.Alike k t s') (d : Desk) (hk : c.key? = none) :
    (d.execute s c).1.map (Answer.atTime t) = (d.execute s' c).1.map (Answer.atTime t) ∧
      (d.execute s c).2.Alike k t (d.execute s' c).2 := by
  cases c with
  | acceptWrites accept =>
    exact ⟨rfl, h.left.execute d (.acceptWrites accept), h.right.execute d (.acceptWrites accept),
      rfl, h.record⟩
  | clear => exact ⟨rfl, h.left.execute d .clear, h.right.execute d .clear, h.gate, rfl⟩
  | _ => cases hk

theorem Alike.execute (h : s.Alike k t s') (d : Desk) (hc : c.atTime t = c'.atTime t)
    (hconcerns : c.concerns k = true) :
    (d.execute s c).1.map (Answer.atTime t) = (d.execute s' c').1.map (Answer.atTime t) ∧
      (d.execute s c).2.Alike k t (d.execute s' c').2 := by
  cases hk : c.key? with
  | some k' =>
    obtain rfl : k' = k := by simpa [Command.concerns, hk] using hconcerns
    exact h.execute_of_key? d hc hk
  | none =>
    have hk' : c'.key? = none := by
      rw [← Command.key?_atTime t, ← hc, Command.key?_atTime, hk]
    rw [Command.atTime_of_key?_eq_none hk, Command.atTime_of_key?_eq_none hk'] at hc
    rw [← hc]
    exact h.execute_of_key?_eq_none d hk

end Store

def Event.answerAt (t : Timestamp) (ev : Event) : Except Fault Answer :=
  (ev.desk.execute ev.before ev.command).1.map (Answer.atTime t)

namespace Session

def atTime (t : Timestamp) : Session → Session
  | start => start
  | andThen past d c => (past.atTime t).andThen d (c.atTime t)

/-- The session without the commands that are addressed to other statements. -/
def concerning (k : StatementKey) : Session → Session
  | start => start
  | andThen past d c =>
    if c.concerns k then (past.concerning k).andThen d c else past.concerning k

variable {k : StatementKey} {t : Timestamp} {S S' : Session}

theorem eq_start_of_atTime (h : S.atTime t = start) : S = start := by
  cases S with
  | start => rfl
  | andThen past d c => cases h

theorem exists_of_atTime_eq_andThen {past : Session} {d : Desk} {c : Command}
    (h : S.atTime t = (past.andThen d c).atTime t) :
    ∃ (past' : Session) (c' : Command), S = past'.andThen d c' ∧
      past'.atTime t = past.atTime t ∧ c.atTime t = c'.atTime t := by
  cases S with
  | start => cases h
  | andThen past' d' c' =>
    obtain ⟨hpast, rfl, hc⟩ := Session.andThen.inj h
    exact ⟨past', c', rfl, hpast, hc.symm⟩

/-- The commands that concern the statement have been answered alike, and the stores are alike. -/
structure Mirrors (k : StatementKey) (t : Timestamp) (S S' : Session) : Prop where
  answers : (S.events.filter (·.command.concerns k)).map (Event.answerAt t) =
    S'.events.map (Event.answerAt t)
  stores : S.store.Alike k t S'.store

theorem Mirrors.andThen_left (h : S.Mirrors k t S') (d : Desk) {c : Command}
    (hc : c.concerns k = false) : (S.andThen d c).Mirrors k t S' where
  answers := by
    rw [events, List.filter_cons_of_neg (by simp [hc])]
    exact h.answers
  stores := h.stores.execute_left d hc

theorem Mirrors.andThen (h : S.Mirrors k t S') (d : Desk) {c c' : Command}
    (hc : c.atTime t = c'.atTime t) (hconcerns : c.concerns k = true) :
    (S.andThen d c).Mirrors k t (S'.andThen d c') := by
  obtain ⟨hanswer, hstores⟩ := h.stores.execute d hc hconcerns
  refine ⟨?_, hstores⟩
  have hfilter : (S.andThen d c).events.filter (·.command.concerns k) =
      ⟨d, c, S.store⟩ :: S.events.filter (·.command.concerns k) :=
    List.filter_cons_of_pos hconcerns
  rw [hfilter, events, List.map_cons, List.map_cons, h.answers]
  exact congrArg (· :: _) hanswer

/-- A session mirrors itself without the commands that are addressed to other statements. -/
theorem mirrors_of_concerning (h : S'.atTime t = (S.concerning k).atTime t) :
    S.Mirrors k t S' := by
  -- the other session takes a step whenever a command concerns the statement, and waits otherwise
  induction S generalizing S' with
  | start =>
    rw [eq_start_of_atTime h]
    exact ⟨rfl, Store.kept_empty.alike k t⟩
  | andThen past d c ih =>
    rw [concerning] at h
    split at h <;> rename_i hc
    · obtain ⟨past', c', rfl, hpast, hcommand⟩ := exists_of_atTime_eq_andThen h
      exact (ih hpast).andThen d hcommand hc
    · exact (ih h).andThen_left d (by simpa using hc)

/-- Leaving out the commands to other statements, at whatever times the extractions are processed
then, changes neither the answers to the others nor what is stored of the statement. -/
theorem isolated (S : Session) (h : S'.atTime t = (S.concerning k).atTime t) :
    S'.events.map (Event.answerAt t) =
        (S.events.filter (·.command.concerns k)).map (Event.answerAt t) ∧
      (S'.store.record k).atTime t = (S.store.record k).atTime t := by
  have hmirrors := mirrors_of_concerning h
  exact ⟨hmirrors.answers.symm, hmirrors.stores.record.symm⟩

def sampleAlone (now : Timestamp) : Session :=
  ((start.andThen {} (.process .sample now)).andThen {}
    (.setCompleted Extraction.sample.key (Line.idFor "2024-03" 1) true)).andThen {}
    (.get Extraction.sample.key)

/-- The same, with the statement of the same name of another tenant processed and edited. -/
def sampleBeside : Session :=
  let beside : Extraction := { Extraction.sample with tenant := "south" }
  ((((start.andThen {} (.process .sample .sample)).andThen {} (.process beside .sample)).andThen {}
    (.setCompleted Extraction.sample.key (Line.idFor "2024-03" 1) true)).andThen {}
    (.setAllCompleted beside.key true)).andThen {} (.get Extraction.sample.key)

/-- The other tenant is left out, and the sample is processed the day after. -/
theorem isolated_sample : ∃ now,
    (sampleAlone now).atTime .sample =
      (sampleBeside.concerning Extraction.sample.key).atTime .sample ∧
    (sampleAlone now).events.map (Event.answerAt .sample) =
      (sampleBeside.events.filter (·.command.concerns Extraction.sample.key)).map
        (Event.answerAt .sample) ∧
    ((sampleAlone now).store.record Extraction.sample.key).atTime .sample =
      (sampleBeside.store.record Extraction.sample.key).atTime .sample := by
  let now : Timestamp := ⟨⟨2024, 4, 1, by decide⟩, 9, 30, 0, 0⟩
  have h : (sampleAlone now).atTime .sample =
      (sampleBeside.concerning Extraction.sample.key).atTime .sample := rfl
  exact ⟨now, h, isolated sampleBeside h⟩

end Session

end Payables
