import Payables.Proofs.Session.Reachable

/-!
# The user's edits through a session

A session keeps what the user has done. At every point the completion and the manual kind of a
stored line are those of the last edit that succeeded since the line entered the store, however
often its statement has been processed in between. The events of a session are listed with the last
one first; those since a line entered the store are the ones that found it there.
-/

namespace Payables

/-- A command carried out, with the store that it found. -/
structure Event where
  desk : Desk
  command : Command
  before : Store

namespace Event

def after (ev : Event) : Store := (ev.desk.execute ev.before ev.command).2

def succeeded (ev : Event) : Bool := (ev.desk.execute ev.before ev.command).1.isOk

/-- The completion to which an event sets a line, by itself or with all lines of the statement. -/
def completion? (k : StatementKey) (id : String) (ev : Event) : Option Bool :=
  if ev.succeeded then
    match ev.command with
    | .setCompleted k' id' completed => if k' = k ∧ id' = id then some completed else none
    | .setAllCompleted k' completed => if k' = k then some completed else none
    | _ => none
  else none

def manualKind? (k : StatementKey) (id : String) (ev : Event) : Option DocumentKind :=
  if ev.succeeded then
    match ev.command with
    | .setKind k' id' kind => if k' = k ∧ id' = id then some kind else none
    | _ => none
  else none

def headingCompletion? (k : StatementKey) (ev : Event) : Option Bool :=
  if ev.succeeded then
    match ev.command with
    | .setAllCompleted k' completed => if k' = k then some completed else none
    | _ => none
  else none

end Event

/-- What a line shows of an event, compared with the line that the event found under its id. -/
structure Line.Shows (prior? : Option Line) (completion? : Option Bool)
    (manualKind? : Option DocumentKind) (l : Line) : Prop where
  completed : l.completed = prior?.any fun prior => completion?.getD prior.completed
  manualKind : l.manualKind? = prior?.bind fun prior => manualKind?.or prior.manualKind?
  kind : (∀ prior m, prior? = some prior → prior.manualKind? = some m → prior.kind = m) →
    ∀ m, l.manualKind? = some m → l.kind = m

theorem Line.shows_self (l : Line) : l.Shows (some l) none none where
  completed := by simp
  manualKind := by simp
  kind h m hm := h l m rfl hm

theorem Line.shows_carry (prior? : Option Line) (l : Line) :
    (Merge.carry prior? l).Shows prior? none none where
  completed := by simp [Merge.carry]
  manualKind := by simp [Merge.carry]
  kind _ m hm := by
    change (prior?.bind (·.manualKind?)).getD l.kind = m
    rw [show prior?.bind (·.manualKind?) = some m from hm]
    rfl

theorem Line.shows_withCompleted (completed : Bool) (l : Line) :
    (l.withCompleted completed).Shows (some l) (some completed) none where
  completed := by simp [Line.withCompleted]
  manualKind := by simp [Line.withCompleted]
  kind h m hm := h l m rfl hm

theorem Line.shows_withKind (kind : DocumentKind) (l : Line) :
    (l.withKind kind).Shows (some l) none (some kind) where
  completed := by simp [Line.withKind]
  manualKind := by simp [Line.withKind]
  kind _ m hm := Option.some.inj hm

namespace Event

variable {d : Desk} {s : Store} {k : StatementKey} {id : String} {l : Line}

/-- The event does nothing to the lines and the heading of a statement but what it shows. -/
structure Tells (ev : Event) (k : StatementKey) : Prop where
  line : ∀ (id : String) (l : Line), (ev.after.record k).lines[id]? = some l →
    l.Shows (ev.before.record k).lines[id]? (ev.completion? k id) (ev.manualKind? k id)
  heading : ∀ h, ev.after.heading? k = some h →
    h.completed = (ev.before.heading? k).any fun prior =>
      (ev.headingCompletion? k).getD prior.completed

theorem tells_of_record_eq {ev : Event} (hrecord : ev.after.record k = ev.before.record k)
    (hcompletion : ∀ id, ev.completion? k id = none) (hkind : ∀ id, ev.manualKind? k id = none)
    (hheading : ev.headingCompletion? k = none) : ev.Tells k where
  line id l hl := by
    rw [hrecord] at hl
    rw [hl, hcompletion, hkind]
    exact l.shows_self
  heading h hh := by
    rw [Store.heading?, hrecord] at hh
    rw [Store.heading?, hh, hheading]
    simp

theorem tells_of_failed {ev : Event} (hfailed : ev.succeeded = false)
    (hrecord : ev.after.record k = ev.before.record k) : ev.Tells k :=
  tells_of_record_eq hrecord (fun id => by simp [completion?, hfailed])
    (fun id => by simp [manualKind?, hfailed]) (by simp [headingCompletion?, hfailed])

theorem tells_of_advances {ev : Event} {settings : ReferenceSettings} {i : Intake}
    (h : Processing.Advances settings i (ev.before.record k) (ev.before.record k)
      (ev.after.record k))
    (hcompletion : ∀ id, ev.completion? k id = none) (hkind : ∀ id, ev.manualKind? k id = none)
    (hheading : ev.headingCompletion? k = none) : ev.Tells k where
  line id l hl := by
    rw [hcompletion, hkind]
    rcases h.lines id with heq | hsettled
    · rw [← heq, hl]
      exact l.shows_self
    · rw [hsettled] at hl
      obtain ⟨f, -, rfl⟩ := Processing.settledLine?_eq_some_iff.1 hl
      exact Line.shows_carry _ f
  heading x hx := by
    rw [Store.heading?] at hx
    rw [hheading, Store.heading?]
    rcases h.heading with heq | ⟨now, hsettled⟩
    · rw [← heq, hx]
      simp
    · rw [hsettled] at hx
      rw [← Option.some.inj hx, Processing.completed_settledHeading]
      simp

/-- Whatever writes the gate lets through, processing leaves the user's edits as they are. -/
theorem tells_process (d : Desk) {e : Extraction} (hs : (s.record e.key).Filed e.key)
    (now : Timestamp) (k : StatementKey) : Tells ⟨d, .process e now, s⟩ k := by
  have hcompletion : ∀ id, completion? k id ⟨d, .process e now, s⟩ = none := by
    simp [completion?]
  have hkind : ∀ id, manualKind? k id ⟨d, .process e now, s⟩ = none := by simp [manualKind?]
  have hheading : headingCompletion? k ⟨d, .process e now, s⟩ = none := by
    simp [headingCompletion?]
  cases h : d.intake e with
  | error fault =>
    refine tells_of_record_eq ?_ hcompletion hkind hheading
    change (d.process s e now).2.record k = s.record k
    rw [Desk.process, h]
  | ok i =>
    obtain ⟨hadvances, -, hothers⟩ := Desk.process_advances hs h now
    by_cases hk : k = e.key
    · subst hk
      exact tells_of_advances hadvances hcompletion hkind hheading
    · exact tells_of_record_eq (hothers k hk) hcompletion hkind hheading

/-- An edit of one line tells of it if the event stands for what the edit does to that line, and
for nothing else. -/
theorem tells_of_changeLine {ev : Event} (hs : ev.before.Kept) {k' : StatementKey} {id' : String}
    {f : Line → Line} (hexecute : ev.desk.execute ev.before ev.command =
      Desk.answered (fun _ => .done) (ev.before.changeLine k' id' f))
    (hedit : ev.succeeded = true →
      ∀ l, (f l).Shows (some l) (ev.completion? k' id') (ev.manualKind? k' id'))
    (hother : ∀ id, ¬(k' = k ∧ id' = id) →
      ev.completion? k id = none ∧ ev.manualKind? k id = none)
    (hheading : ev.headingCompletion? k = none) : ev.Tells k := by
  rcases hs.changeLine_cases k' id' f with ⟨fault, heq⟩ | ⟨-, heq⟩ <;> rw [heq] at hexecute
  · exact tells_of_failed (by rw [succeeded, hexecute]; rfl) (by rw [after, hexecute]; rfl)
  · have hsucceeded : ev.succeeded = true := by rw [succeeded, hexecute]; rfl
    have hrecord : ev.after.record = (ev.before.update k' (·.changeLine f id')).record := by
      rw [after, hexecute]
      rfl
    by_cases hk : k = k'
    · subst hk
      refine ⟨fun id l hl => ?_, fun x hx => ?_⟩
      · rw [hrecord, Store.record_update, if_pos rfl, Record.getElem?_lines_changeLine] at hl
        split at hl
        · rename_i hid
          subst hid
          obtain ⟨l₀, hl₀, rfl⟩ := Option.map_eq_some_iff.1 hl
          rw [hl₀]
          exact hedit hsucceeded l₀
        · rename_i hid
          obtain ⟨hcompletion, hkind⟩ := hother id fun h => hid h.2
          rw [hl, hcompletion, hkind]
          exact l.shows_self
      · rw [Store.heading?, hrecord, Store.record_update, if_pos rfl,
          Record.heading?_changeLine] at hx
        rw [Store.heading?, hx, hheading]
        simp
    · refine tells_of_record_eq (by rw [hrecord, Store.record_update, if_neg hk])
        (fun id => (hother id fun h => hk h.1.symm).1)
        (fun id => (hother id fun h => hk h.1.symm).2) hheading

theorem tells_setCompleted (hs : s.Kept) (d : Desk) (k' : StatementKey) (id' : String)
    (completed : Bool) (k : StatementKey) : Tells ⟨d, .setCompleted k' id' completed, s⟩ k := by
  refine tells_of_changeLine (f := Line.withCompleted completed) hs rfl ?_ ?_ ?_
  · intro hsucceeded l
    simpa [completion?, manualKind?, hsucceeded] using l.shows_withCompleted completed
  · intro id hne
    simp [completion?, manualKind?, hne]
  · simp [headingCompletion?]

theorem tells_setKind (hs : s.Kept) (d : Desk) (k' : StatementKey) (id' : String)
    (kind : DocumentKind) (k : StatementKey) : Tells ⟨d, .setKind k' id' kind, s⟩ k := by
  refine tells_of_changeLine (f := Line.withKind kind) hs rfl ?_ ?_ ?_
  · intro hsucceeded l
    simpa [completion?, manualKind?, hsucceeded] using l.shows_withKind kind
  · intro id hne
    simp [completion?, manualKind?, hne]
  · simp [headingCompletion?]

theorem tells_setAllCompleted (hs : s.Kept) (d : Desk) (k' : StatementKey) (completed : Bool)
    (k : StatementKey) : Tells ⟨d, .setAllCompleted k' completed, s⟩ k := by
  have hexecute : d.execute s (.setAllCompleted k' completed) =
      Desk.answered (fun _ => .done) (s.setAllCompleted k' completed) := rfl
  rcases hs.setAllCompleted_cases k' completed with ⟨fault, heq⟩ | ⟨-, heq⟩ <;> rw [heq] at hexecute
  · exact tells_of_failed (by rw [succeeded, hexecute]; rfl) (by rw [after, hexecute]; rfl)
  · have hsucceeded : succeeded ⟨d, .setAllCompleted k' completed, s⟩ = true := by
      rw [succeeded, hexecute]
      rfl
    have hrecord : (after ⟨d, .setAllCompleted k' completed, s⟩).record =
        (s.update k' (·.setAllCompleted completed)).record := by
      rw [after, hexecute]
      rfl
    by_cases hk : k = k'
    · subst hk
      refine ⟨fun id l hl => ?_, fun x hx => ?_⟩
      · rw [hrecord, Store.record_update, if_pos rfl, Record.getElem?_lines_setAllCompleted] at hl
        obtain ⟨l₀, hl₀, rfl⟩ := Option.map_eq_some_iff.1 hl
        simpa [completion?, manualKind?, hsucceeded, hl₀] using l₀.shows_withCompleted completed
      · rw [Store.heading?, hrecord, Store.record_update, if_pos rfl] at hx
        obtain ⟨x₀, hx₀, rfl⟩ := Option.map_eq_some_iff.1 hx
        simp [headingCompletion?, hsucceeded, Store.heading?, hx₀]
    · refine tells_of_record_eq (by rw [hrecord, Store.record_update, if_neg hk]) ?_ ?_ ?_
      · simp [completion?, Ne.symm hk]
      · simp [manualKind?]
      · simp [headingCompletion?, Ne.symm hk]

theorem tells_execute (hs : s.Kept) (d : Desk) (c : Command) (k : StatementKey) :
    Tells ⟨d, c, s⟩ k := by
  cases c with
  | process e now => exact tells_process d (hs.filed e.key) now k
  | setCompleted k' id completed => exact tells_setCompleted hs d k' id completed k
  | setAllCompleted k' completed => exact tells_setAllCompleted hs d k' completed k
  | setKind k' id kind => exact tells_setKind hs d k' id kind k
  | clear =>
    refine ⟨fun id l hl => ?_, fun h hh => ?_⟩
    · simp [after, Desk.execute, Store.clear] at hl
    · cases hh
  | _ =>
    refine tells_of_record_eq rfl ?_ ?_ ?_ <;>
      simp [completion?, manualKind?, headingCompletion?]

/-- Of events with the last one first, those since a line last entered the store. -/
def sinceLine (k : StatementKey) (id : String) (evs : List Event) : List Event :=
  evs.takeWhile fun ev => (ev.before.record k).lines[id]?.isSome

def sinceHeading (k : StatementKey) (evs : List Event) : List Event :=
  evs.takeWhile fun ev => (ev.before.heading? k).isSome

end Event

/-- The record shows the user's edits among the events, and nothing else. -/
structure Record.ShowsEdits (k : StatementKey) (evs : List Event) (r : Record) : Prop where
  completed : ∀ (id : String) (l : Line), r.lines[id]? = some l →
    l.completed = ((Event.sinceLine k id evs).findSome? (Event.completion? k id)).getD false
  manualKind : ∀ (id : String) (l : Line), r.lines[id]? = some l →
    l.manualKind? = (Event.sinceLine k id evs).findSome? (Event.manualKind? k id)
  kind : ∀ (id : String) (l : Line), r.lines[id]? = some l →
    ∀ m, l.manualKind? = some m → l.kind = m
  heading : ∀ h, r.heading? = some h →
    h.completed = ((Event.sinceHeading k evs).findSome? (Event.headingCompletion? k)).getD false

variable {k : StatementKey}

theorem Record.showsEdits_empty (k : StatementKey) : Record.ShowsEdits k [] {} where
  completed id l hl := by simp at hl
  manualKind id l hl := by simp at hl
  kind id l hl := by simp at hl
  heading h hh := by cases hh

/-- The last event counts first, as long as it found what it tells about. -/
theorem findSome?_takeWhile_cons {α β : Type} {found : Event → Option β} (f : Event → Option α)
    (ev : Event) (evs : List Event) :
    ((ev :: evs).takeWhile fun ev => (found ev).isSome).findSome? f =
      (found ev).bind fun _ =>
        (f ev).or ((evs.takeWhile fun ev => (found ev).isSome).findSome? f) := by
  rw [List.takeWhile_cons]
  cases found ev with
  | none => rfl
  | some prior =>
    rw [Option.isSome_some, if_pos rfl, List.findSome?_cons, Option.bind_some]
    cases f ev <;> rfl

theorem Record.ShowsEdits.cons {ev : Event} {evs : List Event}
    (h : (ev.before.record k).ShowsEdits k evs) (htells : ev.Tells k) :
    (ev.after.record k).ShowsEdits k (ev :: evs) where
  completed id l hl := by
    rw [Event.sinceLine, findSome?_takeWhile_cons, (htells.line id l hl).completed]
    cases hprior : (ev.before.record k).lines[id]? with
    | none => rfl
    | some prior =>
      rw [Option.any_some, Option.bind_some, Option.getD_or, h.completed id prior hprior]
      rfl
  manualKind id l hl := by
    rw [Event.sinceLine, findSome?_takeWhile_cons, (htells.line id l hl).manualKind]
    cases hprior : (ev.before.record k).lines[id]? with
    | none => rfl
    | some prior =>
      rw [Option.bind_some, Option.bind_some, h.manualKind id prior hprior]
      rfl
  kind id l hl := by
    refine (htells.line id l hl).kind fun prior m hprior => ?_
    exact h.kind id prior hprior m
  heading x hx := by
    rw [Event.sinceHeading, findSome?_takeWhile_cons, htells.heading x hx]
    cases hprior : ev.before.heading? k with
    | none => rfl
    | some prior =>
      rw [Option.any_some, Option.bind_some, Option.getD_or, h.heading prior hprior]
      rfl

/-- What has happened, the last event first. -/
def Session.events : Session → List Event
  | start => []
  | andThen past desk command => ⟨desk, command, past.store⟩ :: past.events

theorem Session.showsEdits (S : Session) (k : StatementKey) :
    (S.store.record k).ShowsEdits k S.events := by
  induction S with
  | start => exact Record.showsEdits_empty k
  | andThen past d c ih => exact ih.cons (Event.tells_execute past.store_kept d c k)

/-- What is stored shows the user's edits of the session, and nothing else. -/
structure Session.KeepsEdits (S : Session) : Prop where
  completed : ∀ (k : StatementKey) (id : String) (l : Line),
    (S.store.record k).lines[id]? = some l →
      l.completed = ((Event.sinceLine k id S.events).findSome? (Event.completion? k id)).getD false
  manualKind : ∀ (k : StatementKey) (id : String) (l : Line),
    (S.store.record k).lines[id]? = some l →
      l.manualKind? = (Event.sinceLine k id S.events).findSome? (Event.manualKind? k id)
  kind : ∀ (k : StatementKey) (id : String) (l : Line),
    (S.store.record k).lines[id]? = some l → ∀ m, l.manualKind? = some m → l.kind = m
  heading : ∀ (k : StatementKey) (h : Heading), S.store.heading? k = some h →
    h.completed =
      ((Event.sinceHeading k S.events).findSome? (Event.headingCompletion? k)).getD false

/-- In every session, what the user has done is kept, and nothing that the user has not done. -/
theorem Session.keepsEdits (S : Session) : S.KeepsEdits where
  completed k := (S.showsEdits k).completed
  manualKind k := (S.showsEdits k).manualKind
  kind k := (S.showsEdits k).kind
  heading k := (S.showsEdits k).heading

end Payables
