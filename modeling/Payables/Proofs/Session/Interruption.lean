import Payables.Proofs.Layout.Acceptance
import Payables.Proofs.Session.Coherence
import Payables.Proofs.Session.History
import Payables.Proofs.Session.Outcome

/-!
# Trying again after an interruption

A processing may be cut off after any number of its writes and leave a record behind that does not
hang together. Whatever the user and others do then, processing the extraction again makes up for
it: there are the lines of the extraction and no others, each with the edits since it entered the
store, be they from before the interruption or after it, and the heading sums them up.
-/

namespace Payables

/-- A store with the events that have led to it, the last one first. -/
structure Course where
  events : List Event
  store : Store

def Session.course (S : Session) : Course := ⟨S.events, S.store⟩

namespace Course

def setGate (C : Course) (gate : Gate) : Course := { C with store := C.store.setGate gate }

def andThen (C : Course) (d : Desk) (c : Command) : Course :=
  ⟨⟨d, c, C.store⟩ :: C.events, (d.execute C.store c).2⟩

def follow (C : Course) (d : Desk) (cs : List Command) : Course := cs.foldl (·.andThen d) C

/-- An extraction processed until a number of writes has been let through. -/
def interrupted (C : Course) (d : Desk) (e : Extraction) (now : Timestamp) (writes : Nat) :
    Course :=
  ((C.setGate (.acceptingFor writes)).andThen d (.process e now)).setGate .accepting

end Course

/-- The line with the edits that the user has made since it entered the store. -/
def Line.withEdits (k : StatementKey) (evs : List Event) (l : Line) : Line :=
  let manualKind? := (Event.sinceLine k l.id evs).findSome? (Event.manualKind? k l.id)
  { l with
    completed := ((Event.sinceLine k l.id evs).findSome? (Event.completion? k l.id)).getD false
    manualKind?
    kind := manualKind?.getD l.kind }

/-- What is stored of an extraction once it has come through. -/
structure Course.Settles (C : Course) (d : Desk) (e : Extraction) (reader : LineReader) :
    Prop where
  stored : ∀ n, (C.store.record e.key).lines[Line.idFor e.statement n]? =
    (e.row? n).map fun row => (d.freshLine e reader row).withEdits e.key C.events
  ids : ∀ (id : String) (l : Line), (C.store.record e.key).lines[id]? = some l →
    id = Line.idFor e.statement l.ordinal
  heading : ∃ h, C.store.heading? e.key = some h ∧ (C.store.record e.key).SumsUp h

namespace Course

/-- All records are filed and show the user's edits among the events. -/
structure Accounted (C : Course) : Prop where
  filed : ∀ k, (C.store.record k).Filed k
  showsEdits : ∀ k, (C.store.record k).ShowsEdits k C.events

variable {C : Course} {d : Desk} {e : Extraction}

theorem accounted_session (S : Session) : S.course.Accounted where
  filed := S.store_kept.filed
  showsEdits := S.showsEdits

theorem Accounted.setGate (h : C.Accounted) (gate : Gate) : (C.setGate gate).Accounted where
  filed := h.filed
  showsEdits := h.showsEdits

theorem Accounted.process (h : C.Accounted) (d : Desk) (e : Extraction) (now : Timestamp) :
    (C.andThen d (.process e now)).Accounted where
  filed := Desk.filed_process h.filed d e now
  showsEdits k := (h.showsEdits k).cons (Event.tells_process d (h.filed e.key) now k)

theorem Accounted.andThen (h : C.Accounted) (hs : C.store.Kept) (d : Desk) (c : Command) :
    (C.andThen d c).Accounted where
  filed := (hs.execute d c).filed
  showsEdits k := (h.showsEdits k).cons (Event.tells_execute hs d c k)

theorem Accounted.follow (h : C.Accounted) (hs : C.store.Kept) (d : Desk) (cs : List Command) :
    (C.follow d cs).Accounted := by
  induction cs generalizing C with
  | nil => exact h
  | cons c cs ih => exact ih (h.andThen hs d c) (hs.execute d c)

theorem Accounted.interrupted (h : C.Accounted) (d : Desk) (e : Extraction) (now : Timestamp)
    (writes : Nat) : (C.interrupted d e now writes).Accounted :=
  ((h.setGate _).process d e now).setGate _

end Course

open Processing

variable {d : Desk} {e : Extraction} {k : StatementKey}

/-- A line that carries what the user has done is the fresh line with the user's edits. -/
theorem Record.ShowsEdits.carry_eq_withEdits {r : Record} {evs : List Event}
    (h : r.ShowsEdits k evs) {prior? : Option Line} {l : Line}
    (hl : r.lines[l.id]? = some (Merge.carry prior? l)) :
    Merge.carry prior? l = l.withEdits k evs := by
  have hcompleted := h.completed l.id _ hl
  have hkind := h.manualKind l.id _ hl
  calc Merge.carry prior? l
      = { l with
          completed := (Merge.carry prior? l).completed
          manualKind? := (Merge.carry prior? l).manualKind?
          kind := (Merge.carry prior? l).manualKind?.getD l.kind } := rfl
    _ = l.withEdits k evs := by rw [hcompleted, hkind]; rfl

theorem Course.Accounted.settles {C : Course} (h : C.Accounted)
    (hgate : C.store.gate = .accepting) {i : Intake} (hi : d.intake e = .ok i) (now : Timestamp) :
    ∃ r reader, (d.process C.store e now).1 = .ok r ∧ LineReader.ofLayout e.layout = .ok reader ∧
      (C.andThen d (.process e now)).Settles d e reader := by
  have hs : C.store.Kept := ⟨h.filed, .inl hgate⟩
  have hafter := h.process d e now
  obtain ⟨reader, hreader, hkey, hlines⟩ := Desk.exists_reader_of_intake hi
  have hsettled := Desk.settled_of_accepting hgate (h.filed e.key) hi now
  refine ⟨_, reader, by rw [Desk.process_of_accepting hgate (h.filed e.key) hi], hreader, ?_⟩
  have hstore : (C.andThen d (.process e now)).store = (d.process C.store e now).2 := rfl
  constructor
  case stored =>
    intro n
    rw [hstore, hsettled.lines, settledLine?_idFor hlines]
    cases hrow : e.row? n with
    | none => rfl
    | some row =>
      refine congrArg some ((hafter.showsEdits e.key).carry_eq_withEdits ?_)
      -- the line stands under its own id, where the edits are looked for
      have hid : (d.freshLine e reader row).id = Line.idFor e.statement n := by
        rw [(d.isFiled_freshLine e reader row).id_eq, d.ordinal_freshLine, ordinal_of_row? hrow]
      rw [hstore, hsettled.lines, hid, settledLine?_idFor hlines, hrow]
      rfl
  case ids =>
    intro id l hl
    obtain ⟨rfl, hline⟩ := (hafter.filed e.key).lines id l hl
    exact hline.id_eq
  case heading =>
    obtain ⟨now', hheading⟩ := hsettled.heading
    exact ⟨_, hheading, (Desk.coherent_of_accepting hs hgate hi now).sumsUp _ hheading⟩

/-- After an interruption and whatever commands follow, the extraction comes through. -/
theorem Session.retry_settles (S : Session) (h : d.check.run e.layout = .ok ())
    (writes : Nat) (cs : List Command) (now now' : Timestamp) {C : Course}
    (hC : C = ((S.course.interrupted d e now writes).follow d cs).setGate .accepting) :
    ∃ r reader, (d.process C.store e now').1 = .ok r ∧
      LineReader.ofLayout e.layout = .ok reader ∧
      (C.andThen d (.process e now')).Settles d e reader := by
  obtain ⟨i, hi⟩ := Desk.exists_intake_of_run h
  have hbroken := (Course.accounted_session S).interrupted d e now writes
  have hfollowed := hbroken.follow ⟨hbroken.filed, .inl rfl⟩ d cs
  have hgate : C.store.gate = .accepting := by rw [hC]; rfl
  refine Course.Accounted.settles ?_ hgate hi now'
  rw [hC]
  exact hfollowed.setGate .accepting

/-- The sample processed again, cut off after two writes, and a line and all lines completed. -/
theorem Session.retry_settles_sample : ∃ C,
    ({} : Desk).check.run Extraction.sample.layout = .ok () ∧
    C = ((Session.sample.course.interrupted {} .sample .sample 2).follow {}
      [.setCompleted Extraction.sample.key (Line.idFor "2024-03" 1) true,
        .setAllCompleted Extraction.sample.key true]).setGate .accepting ∧
    ∃ r reader, (({} : Desk).process C.store .sample .sample).1 = .ok r ∧
      LineReader.ofLayout Extraction.sample.layout = .ok reader ∧
      (C.andThen {} (.process .sample .sample)).Settles {} .sample reader := by
  have hrun : ({} : Desk).check.run Extraction.sample.layout = .ok () := rfl
  exact ⟨_, hrun, rfl, retry_settles sample hrun 2 _ .sample .sample rfl⟩

end Payables
