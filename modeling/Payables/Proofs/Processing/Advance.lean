import Payables.Proofs.Processing.Calls

/-!
# What the calls of a processing work towards

Fix an intake and a record before it. The intake decides what every part of the record is going to
be: the line under each id, and the heading and the publication up to the time at which the heading
is created. A call leaves each part as it finds it or *settles* it for good, so the calls of several
processings of the intake do not undo one another, in whatever order they come. `Stage.Fits` is what
a processing can rely on at each of its stages, and other processings preserve it.
-/

namespace Payables

/-- The fresh lines belong to the statement, each with the id of its ordinal. -/
def Intake.Filed (i : Intake) : Prop := ∀ l ∈ i.lines, l.IsFiled i.key.statement

namespace Processing

variable {settings : ReferenceSettings} {i : Intake} {r₀ r r' r'' : Record} {now : Timestamp}
  {id : String}

/-- The line under an id after the intake: the first fresh line, carrying what was stored before. -/
def settledLine? (i : Intake) (r₀ : Record) (id : String) : Option Line :=
  (i.lines.find? (·.id == id)).map (Merge.carry r₀.lines[id]?)

def settledMerge (i : Intake) (r₀ : Record) : Merge := .ofLines r₀.listed i.lines

def settledHeading (i : Intake) (r₀ : Record) (now : Timestamp) : Heading :=
  updatedHeading i now r₀.heading? (settledMerge i r₀).lines

def settledPublication (settings : ReferenceSettings) (i : Intake) (r₀ : Record)
    (now : Timestamp) : Publication :=
  publication settings i (settledMerge i r₀) (settledHeading i r₀ now)

def Moves {α : Type} (IsSettled : α → Prop) (a b : α) : Prop := b = a ∨ IsSettled b

/-- Each part of the record is unchanged or settled. -/
structure Advances (settings : ReferenceSettings) (i : Intake) (r₀ r r' : Record) : Prop where
  lines : ∀ id : String, Moves (· = settledLine? i r₀ id) r.lines[id]? r'.lines[id]?
  heading : Moves (fun h? => ∃ now, h? = some (settledHeading i r₀ now)) r.heading? r'.heading?
  published : Moves (fun p? => ∃ now, p? = some (settledPublication settings i r₀ now))
    r.published? r'.published?

structure Settled (settings : ReferenceSettings) (i : Intake) (r₀ r : Record) : Prop where
  lines : ∀ id : String, r.lines[id]? = settledLine? i r₀ id
  heading : ∃ now, r.heading? = some (settledHeading i r₀ now)
  published : ∃ now, r.published? = some (settledPublication settings i r₀ now)

section Moves

variable {α : Type} {IsSettled : α → Prop} {a b c : α}

theorem Moves.refl (a : α) : Moves IsSettled a a := .inl rfl

theorem Moves.trans (h : Moves IsSettled a b) (h' : Moves IsSettled b c) :
    Moves IsSettled a c := by
  rcases h' with rfl | hc
  · exact h
  · exact .inr hc

theorem Moves.isSettled (h : Moves IsSettled a b) (ha : IsSettled a) : IsSettled b := by
  rcases h with rfl | hb
  · exact ha
  · exact hb

end Moves

theorem Advances.refl (r : Record) : Advances settings i r₀ r r where
  lines _ := .refl _
  heading := .refl _
  published := .refl _

theorem Advances.trans (h : Advances settings i r₀ r r') (h' : Advances settings i r₀ r' r'') :
    Advances settings i r₀ r r'' where
  lines id := (h.lines id).trans (h'.lines id)
  heading := h.heading.trans h'.heading
  published := h.published.trans h'.published

theorem Settled.advances (h : Settled settings i r₀ r) (h' : Advances settings i r₀ r r') :
    Settled settings i r₀ r' where
  lines id := (h'.lines id).isSettled (h.lines id)
  heading := h'.heading.isSettled h.heading
  published := h'.published.isSettled h.published

theorem settledLine?_eq_some_iff {l : Line} : settledLine? i r₀ id = some l ↔
    ∃ f, i.lines.find? (·.id == id) = some f ∧ l = Merge.carry r₀.lines[id]? f := by
  rw [settledLine?, Option.map_eq_some_iff]
  exact exists_congr fun f => and_congr_right fun _ => eq_comm

theorem settledLine?_eq_none_iff : settledLine? i r₀ id = none ↔ id ∉ i.lines.map Line.id := by
  simp [settledLine?]

theorem mem_settledLines_iff (h₀ : r₀.Filed i.key) {l : Line} :
    l ∈ (settledMerge i r₀).lines ↔ settledLine? i r₀ l.id = some l := by
  rw [settledMerge, Merge.mem_lines_iff, h₀.kept?_listed, settledLine?_eq_some_iff]

theorem id_of_settledLine? {l : Line} (h : settledLine? i r₀ id = some l) : l.id = id := by
  obtain ⟨f, hf, rfl⟩ := settledLine?_eq_some_iff.1 h
  simpa using List.find?_some hf

theorem isFiled_of_settledLine? (hi : i.Filed) {l : Line} (h : settledLine? i r₀ id = some l) :
    l.IsFiled i.key.statement := by
  obtain ⟨f, hf, rfl⟩ := settledLine?_eq_some_iff.1 h
  obtain ⟨hstatement, hid⟩ := hi f (List.mem_of_find?_eq_some hf)
  exact ⟨hstatement, hid⟩

theorem find?_settledLines (h₀ : r₀.Filed i.key) (id : String) :
    (settledMerge i r₀).lines.find? (·.id == id) = settledLine? i r₀ id := by
  have hids : ((settledMerge i r₀).lines.map Line.id).Nodup := Merge.nodup_ids_lines _ _
  refine Option.ext fun l => ?_
  rw [find?_key_eq_some_iff Line.id hids]
  constructor
  · rintro ⟨hl, rfl⟩
    exact (mem_settledLines_iff h₀).1 hl
  · intro hl
    obtain rfl := id_of_settledLine? hl
    exact ⟨(mem_settledLines_iff h₀).2 hl, rfl⟩

theorem isFiled_of_mem_settledLines (hi : i.Filed) (h₀ : r₀.Filed i.key) :
    ∀ l ∈ (settledMerge i r₀).lines, l.IsFiled i.key.statement := by
  intro l hl
  exact isFiled_of_settledLine? hi ((mem_settledLines_iff h₀).1 hl)

theorem pairwise_settledLines (hi : i.Filed) (h₀ : r₀.Filed i.key) :
    (settledMerge i r₀).lines.Pairwise fun a b => a.ordinal < b.ordinal := by
  refine Record.pairwise_ordinal_lt (isFiled_of_mem_settledLines hi h₀)
    (Merge.nodup_ids_lines _ _) ?_
  refine (Merge.pairwise_lines _ _).imp fun hab => ?_
  exact (Merge.precedes_iff.1 hab).elim Nat.le_of_lt fun heq => Nat.le_of_eq heq.1

theorem key_settledHeading (h₀ : r₀.Filed i.key) (now : Timestamp) :
    (settledHeading i r₀ now).key = i.key :=
  key_updatedHeading h₀.heading now _

theorem completed_settledHeading (i : Intake) (r₀ : Record) (now : Timestamp) :
    (settledHeading i r₀ now).completed = r₀.heading?.any (·.completed) := by
  unfold settledHeading updatedHeading
  cases r₀.heading? <;> rfl

theorem Advances.filed (hi : i.Filed) (h₀ : r₀.Filed i.key) (h : Advances settings i r₀ r₀ r) :
    r.Filed i.key where
  lines id l hl := by
    rcases h.lines id with heq | hsettled
    · exact h₀.lines id l (heq ▸ hl)
    · rw [hsettled] at hl
      exact ⟨id_of_settledLine? hl, isFiled_of_settledLine? hi hl⟩
  heading k hk := by
    rcases h.heading with heq | ⟨now, hsettled⟩
    · exact h₀.heading k (heq ▸ hk)
    · cases hsettled.symm.trans hk
      exact key_settledHeading h₀ now

theorem Settled.listed_eq (hi : i.Filed) (h₀ : r₀.Filed i.key) (hr : r.Filed i.key)
    (h : Settled settings i r₀ r) : r.listed = (settledMerge i r₀).lines := by
  refine Record.eq_of_pairwise_ordinal_lt hr.pairwise_listed (pairwise_settledLines hi h₀) ?_
  intro l
  rw [hr.mem_listed_iff, mem_settledLines_iff h₀, h.lines]

/-- Settled or not, the record makes the merge carry over the same. -/
theorem carry_of_advances (h : Advances settings i r₀ r₀ r) {f : Line}
    (hf : i.lines.find? (·.id == f.id) = some f) :
    Merge.carry r.lines[f.id]? f = Merge.carry r₀.lines[f.id]? f := by
  rcases h.lines f.id with heq | hsettled
  · rw [heq]
  · rw [hsettled, settledLine?, hf, Option.map_some, Merge.carry_carry]

theorem lines_ofLines_of_advances (hi : i.Filed) (h₀ : r₀.Filed i.key)
    (h : Advances settings i r₀ r₀ r) :
    (Merge.ofLines r.listed i.lines).lines = (settledMerge i r₀).lines := by
  refine Merge.lines_congr fun f hf => ?_
  rw [(h.filed hi h₀).kept?_listed, h₀.kept?_listed]
  exact carry_of_advances h hf

theorem updatedHeading_settledHeading (now now' : Timestamp) :
    updatedHeading i now (some (settledHeading i r₀ now')) (settledMerge i r₀).lines =
      settledHeading i r₀ now' := by
  have hjob : ∀ job? : Option String, (i.job? <|> i.job? <|> job?) = (i.job? <|> job?) := by
    intro job?
    cases i.job? <;> rfl
  simp only [settledHeading, updatedHeading, Heading.recompute, Option.getD_some, hjob]

theorem updatedHeading_of_advances (h : Advances settings i r₀ r₀ r) (now : Timestamp) :
    ∃ now', updatedHeading i now r.heading? (settledMerge i r₀).lines =
      settledHeading i r₀ now' := by
  rcases h.heading with heq | ⟨now', hsettled⟩
  · exact ⟨now, by rw [heq]; rfl⟩
  · exact ⟨now', by rw [hsettled, updatedHeading_settledHeading]⟩

/-- The merge has the settled lines and takes away what is stored beyond them. -/
structure Clears (i : Intake) (r₀ r : Record) (m : Merge) : Prop where
  lines : m.lines = (settledMerge i r₀).lines
  stale : ∀ id : String, settledLine? i r₀ id = none → id ∈ m.removed ∨ r.lines[id]? = none
  removed : ∀ id ∈ m.removed, settledLine? i r₀ id = none

/-- What a processing at a stage can rely on, whatever other processings of the intake do. -/
def Stage.Fits (settings : ReferenceSettings) (i : Intake) (r₀ r : Record) : Stage → Prop
  | .inr .listLines => True
  | .inr (.putLines m) => Clears i r₀ r m
  | .inr (.removeLines m) => Clears i r₀ r m ∧
      ∀ (id : String) (l : Line), settledLine? i r₀ id = some l → r.lines[id]? = some l
  | .inr (.loadHeading m) => m.lines = (settledMerge i r₀).lines ∧
      ∀ id : String, r.lines[id]? = settledLine? i r₀ id
  | .inr (.saveHeading m h) => m.lines = (settledMerge i r₀).lines ∧
      (∀ id : String, r.lines[id]? = settledLine? i r₀ id) ∧
      ∃ now, h = settledHeading i r₀ now
  | .inr (.publish m h) => m.lines = (settledMerge i r₀).lines ∧
      (∀ id : String, r.lines[id]? = settledLine? i r₀ id) ∧
      (∃ now, r.heading? = some (settledHeading i r₀ now)) ∧
      ∃ now, h = settledHeading i r₀ now
  | .inl (.ok _) => Settled settings i r₀ r
  | .inl (.error _) => True

theorem Clears.advances {m : Merge} (hm : Clears i r₀ r m) (h : Advances settings i r₀ r r') :
    Clears i r₀ r' m where
  lines := hm.lines
  stale id hid := by
    rcases h.lines id with heq | hsettled
    · rw [heq]
      exact hm.stale id hid
    · exact .inr (hsettled.trans hid)
  removed := hm.removed

/-- What a processing relies on survives the calls of the others. -/
theorem Stage.Fits.advances {q : Stage} (hq : q.Fits settings i r₀ r)
    (h : Advances settings i r₀ r r') : q.Fits settings i r₀ r' := by
  rcases q with (_ | _) | p
  · trivial
  · exact Settled.advances hq h
  · cases p with
    | listLines => trivial
    | putLines m => exact Clears.advances hq h
    | removeLines m =>
      obtain ⟨hm, hput⟩ := hq
      refine ⟨hm.advances h, fun id l hl => ?_⟩
      rw [← hl]
      exact (h.lines id).isSettled ((hput id l hl).trans hl.symm)
    | loadHeading m =>
      obtain ⟨hm, hlines⟩ := hq
      exact ⟨hm, fun id => (h.lines id).isSettled (hlines id)⟩
    | saveHeading m k =>
      obtain ⟨hm, hlines, hk⟩ := hq
      exact ⟨hm, fun id => (h.lines id).isSettled (hlines id), hk⟩
    | publish m k =>
      obtain ⟨hm, hlines, hheading, hk⟩ := hq
      exact ⟨hm, fun id => (h.lines id).isSettled (hlines id), h.heading.isSettled hheading, hk⟩

theorem Stage.Fits.isFor {p : Pending} (hi : i.Filed) (h₀ : r₀.Filed i.key)
    (hp : Stage.Fits settings i r₀ r (.inr p)) : p.IsFor i.key := by
  cases p with
  | putLines m =>
    have hlines : m.lines = (settledMerge i r₀).lines := hp.lines
    intro l hl
    rw [hlines] at hl
    exact (isFiled_of_mem_settledLines hi h₀ l hl).statement_eq
  | saveHeading m h =>
    obtain ⟨-, -, now, rfl⟩ := hp
    exact key_settledHeading h₀ now
  | _ => trivial

theorem getElem?_lines_effect_putLines (settings : ReferenceSettings) (h₀ : r₀.Filed i.key)
    {m : Merge} (hm : Clears i r₀ r m) (id : String) :
    (effect settings i (.putLines m) r).lines[id]? =
      (settledLine? i r₀ id).or r.lines[id]? := by
  have hids : ((settledMerge i r₀).lines.map Line.id).Nodup := Merge.nodup_ids_lines _ _
  rw [effect, hm.lines, Record.getElem?_lines_foldl_putLine hids, find?_settledLines h₀]

theorem advances_effect_putLines (settings : ReferenceSettings) (h₀ : r₀.Filed i.key) {m : Merge}
    (hm : Clears i r₀ r m) :
    Advances settings i r₀ r (effect settings i (.putLines m) r) where
  lines id := by
    rw [getElem?_lines_effect_putLines settings h₀ hm]
    cases settledLine? i r₀ id with
    | none => exact .inl rfl
    | some l => exact .inr rfl
  heading := .inl (Record.heading?_foldl_putLine _ _)
  published := .inl (Record.published?_foldl_putLine _ _)

theorem advances_effect_removeLines {m : Merge} (hm : Clears i r₀ r m) :
    Advances settings i r₀ r (effect settings i (.removeLines m) r) where
  lines id := by
    rw [effect, Record.getElem?_lines_removeLines]
    split
    · rename_i hid
      exact .inr (hm.removed id hid).symm
    · exact .inl rfl
  heading := .inl rfl
  published := .inl rfl

theorem advances_effect (h₀ : r₀.Filed i.key) {p : Pending}
    (hp : Stage.Fits settings i r₀ r (.inr p)) :
    Advances settings i r₀ r (effect settings i p r) := by
  cases p with
  | listLines => exact .refl r
  | putLines m => exact advances_effect_putLines settings h₀ hp
  | removeLines m => exact advances_effect_removeLines hp.1
  | loadHeading m => exact .refl r
  | saveHeading m h =>
    obtain ⟨-, -, now, rfl⟩ := hp
    exact ⟨fun id => .inl rfl, .inr ⟨now, rfl⟩, .inl rfl⟩
  | publish m h =>
    obtain ⟨hm, -, -, now, rfl⟩ := hp
    refine ⟨fun id => .inl rfl, .inl rfl, .inr ⟨now, ?_⟩⟩
    simp only [effect, publication, settledPublication, hm]

theorem fits_next_putLines (h₀ : r₀.Filed i.key) {m : Merge} (hm : Clears i r₀ r m) :
    (next settings i now (.putLines m) r).Fits settings i r₀
      (effect settings i (.putLines m) r) := by
  have hline := getElem?_lines_effect_putLines settings h₀ hm
  simp only [next]
  split
  · rename_i hnone
    refine ⟨hm.lines, fun id => ?_⟩
    rw [hline]
    cases hid : settledLine? i r₀ id with
    | some l => rfl
    | none =>
      rcases hm.stale id hid with hremoved | hstored
      · rw [hnone] at hremoved
        cases hremoved
      · exact hstored
  · refine ⟨hm.advances (advances_effect_putLines settings h₀ hm), fun id l hl => ?_⟩
    rw [hline, hl]
    rfl

theorem fits_next_removeLines {m : Merge} (hm : Clears i r₀ r m)
    (hput : ∀ (id : String) (l : Line), settledLine? i r₀ id = some l → r.lines[id]? = some l) :
    (next settings i now (.removeLines m) r).Fits settings i r₀
      (effect settings i (.removeLines m) r) := by
  refine ⟨hm.lines, fun id => ?_⟩
  rw [effect, Record.getElem?_lines_removeLines]
  split
  · rename_i hid
    exact (hm.removed id hid).symm
  · rename_i hid
    cases hsettled : settledLine? i r₀ id with
    | some l => exact hput id l hsettled
    | none => exact (hm.stale id hsettled).resolve_left hid

theorem fits_next (hi : i.Filed) (h₀ : r₀.Filed i.key) (h : Advances settings i r₀ r₀ r)
    {p : Pending} (hp : Stage.Fits settings i r₀ r (.inr p)) :
    (next settings i now p r).Fits settings i r₀ (effect settings i p r) := by
  cases p with
  | listLines =>
    -- what is settled is merged with itself, so the merge has the settled lines all the same
    have hr : r.Filed i.key := h.filed hi h₀
    refine ⟨lines_ofLines_of_advances hi h₀ h, fun id hid => ?_, fun id hid => ?_⟩
    · rw [Merge.mem_removed_iff, hr.mem_ids_listed_iff]
      by_cases hstored : id ∈ r.lines
      · exact .inl ⟨hstored, settledLine?_eq_none_iff.1 hid⟩
      · exact .inr (Std.ExtTreeMap.getElem?_eq_none hstored)
    · exact settledLine?_eq_none_iff.2 (Merge.mem_removed_iff.1 hid).2
  | putLines m => exact fits_next_putLines h₀ hp
  | removeLines m => exact fits_next_removeLines hp.1 hp.2
  | loadHeading m =>
    obtain ⟨hm, hlines⟩ := hp
    refine ⟨hm, hlines, ?_⟩
    rw [hm]
    exact updatedHeading_of_advances h now
  | saveHeading m k =>
    obtain ⟨hm, hlines, now', rfl⟩ := hp
    exact ⟨hm, hlines, ⟨now', rfl⟩, now', rfl⟩
  | publish m k =>
    obtain ⟨hm, hlines, hheading, now', rfl⟩ := hp
    refine ⟨hlines, hheading, now', ?_⟩
    simp only [effect, publication, settledPublication, hm]

variable {s : Store}

/-- One call of a processing: it advances the record of the statement, goes on to a stage that fits
and leaves all other records alone. -/
theorem step_advances (hi : i.Filed) (h₀ : r₀.Filed i.key)
    (h : Advances settings i r₀ r₀ (s.record i.key)) {p : Pending}
    (hp : Stage.Fits settings i r₀ (s.record i.key) (.inr p)) (now : Timestamp) :
    Advances settings i r₀ (s.record i.key) ((step settings i now s p).2.record i.key) ∧
      Stage.Fits settings i r₀ ((step settings i now s p).2.record i.key)
        (step settings i now s p).1 ∧
      ∀ k ≠ i.key, (step settings i now s p).2.record k = s.record k := by
  rcases step_cases settings now (hp.isFor hi h₀) s with
    ⟨hstage, hrecord⟩ | ⟨hstage, hrecord⟩
  · rw [hstage, hrecord, Store.record_update, if_pos rfl]
    exact ⟨advances_effect h₀ hp, fits_next hi h₀ h hp, fun k hk => by simp [hk]⟩
  · rw [hstage, hrecord]
    exact ⟨.refl _, trivial, fun k _ => rfl⟩

theorem finish_advances (settings : ReferenceSettings) (hi : i.Filed) (h₀ : r₀.Filed i.key)
    (h : Advances settings i r₀ r₀ (s.record i.key)) {p : Pending}
    (hp : Stage.Fits settings i r₀ (s.record i.key) (.inr p)) (now : Timestamp) :
    Advances settings i r₀ r₀ ((finish settings i now s p).2.record i.key) ∧
      Stage.Fits settings i r₀ ((finish settings i now s p).2.record i.key)
        (.inl (finish settings i now s p).1) ∧
      ∀ k ≠ i.key, (finish settings i now s p).2.record k = s.record k := by
  induction s, p using finish.induct settings i now with
  | case1 s p answer s' heq =>
    have hstep := step_advances hi h₀ h hp now
    rw [heq] at hstep
    rw [finish_of_step_inl heq]
    exact ⟨h.trans hstep.1, hstep.2⟩
  | case2 s p q s' heq ih =>
    obtain ⟨hadvances, hfits, hothers⟩ := step_advances hi h₀ h hp now
    rw [heq] at hadvances hfits hothers
    obtain ⟨hadvances', hanswer, hothers'⟩ := ih (h.trans hadvances) hfits
    rw [finish_of_step_inr heq]
    exact ⟨hadvances', hanswer, fun k hk => (hothers' k hk).trans (hothers k hk)⟩

end Processing

end Payables
