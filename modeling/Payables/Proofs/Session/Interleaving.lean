import Payables.Proofs.Session.Outcome

/-!
# Processing an extraction several times at once

Several processings of one extraction share a store and take turns, a storage call at a time. On
each turn the gate is set anew, so that any write may be turned away and end its processing. As soon
as one of them has come through, the record of the statement is what a single processing would have
made of it, up to the times of creation, and it stays that way whatever the others still do.
-/

namespace Payables

def Heading.atTime (t : Timestamp) (h : Heading) : Heading := { h with createdAt := t }

def Publication.atTime (t : Timestamp) (p : Publication) : Publication :=
  { p with heading := p.heading.atTime t }

/-- The record with one time for all that it says was created. -/
def Record.atTime (t : Timestamp) (r : Record) : Record :=
  { r with
    heading? := r.heading?.map (Heading.atTime t)
    published? := r.published?.map (Publication.atTime t) }

namespace Processing

variable {settings : ReferenceSettings} {i : Intake} {r₀ r r' : Record} {s₀ : Store}

theorem atTime_settledHeading (i : Intake) (r₀ : Record) (now now' t : Timestamp) :
    (settledHeading i r₀ now).atTime t = (settledHeading i r₀ now').atTime t := by
  unfold settledHeading updatedHeading
  cases r₀.heading? <;> rfl

theorem atTime_settledPublication (now now' t : Timestamp) :
    (settledPublication settings i r₀ now).atTime t =
      (settledPublication settings i r₀ now').atTime t := by
  simp only [settledPublication, publication, Publication.atTime,
    atTime_settledHeading i r₀ now now' t]

theorem Settled.atTime_eq (h : Settled settings i r₀ r) (h' : Settled settings i r₀ r')
    (t : Timestamp) : r.atTime t = r'.atTime t := by
  have hlines : r.lines = r'.lines := by
    refine Std.ExtTreeMap.ext_getElem? fun id => ?_
    rw [h.lines, h'.lines]
  obtain ⟨now, hheading⟩ := h.heading
  obtain ⟨now', hheading'⟩ := h'.heading
  obtain ⟨then_, hpublished⟩ := h.published
  obtain ⟨then_', hpublished'⟩ := h'.published
  simp only [Record.atTime, hlines, hheading, hheading', hpublished, hpublished', Option.map_some,
    atTime_settledHeading i r₀ now now' t, atTime_settledPublication then_ then_' t]

/-- A turn of one processing, with the gate that its call meets and the time. -/
structure Turn where
  runner : Nat
  gate : Gate
  now : Timestamp

/-- Several processings of one intake on a store. -/
structure Race where
  store : Store
  stages : List Stage

namespace Race

def start (s : Store) (runners : Nat) : Race := ⟨s, List.replicate runners (.inr .listLines)⟩

/-- The call that a processing has pending; one that has stopped lets its turn pass. -/
def turn (settings : ReferenceSettings) (i : Intake) (race : Race) (t : Turn) : Race :=
  match race.stages[t.runner]? with
  | some (.inr p) =>
    let (stage, s) := step settings i t.now (race.store.setGate t.gate) p
    ⟨s, race.stages.set t.runner stage⟩
  | _ => race

def run (settings : ReferenceSettings) (i : Intake) (race : Race) (turns : List Turn) : Race :=
  turns.foldl (turn settings i) race

/-- All processings can go on, and no other statement is touched. -/
structure Fits (settings : ReferenceSettings) (i : Intake) (s₀ : Store) (race : Race) : Prop where
  advances : Advances settings i (s₀.record i.key) (s₀.record i.key) (race.store.record i.key)
  stages : ∀ q ∈ race.stages,
    Stage.Fits settings i (s₀.record i.key) (race.store.record i.key) q
  others : ∀ k ≠ i.key, race.store.record k = s₀.record k

variable {race : Race}

theorem fits_start (s₀ : Store) (runners : Nat) : (start s₀ runners).Fits settings i s₀ where
  advances := .refl _
  stages q hq := by
    rw [List.eq_of_mem_replicate hq]
    trivial
  others _ _ := rfl

theorem Fits.turn (hi : i.Filed) (h₀ : (s₀.record i.key).Filed i.key)
    (h : race.Fits settings i s₀) (t : Turn) : (race.turn settings i t).Fits settings i s₀ := by
  unfold Race.turn
  split
  · rename_i p hp
    have hfits := h.stages _ (List.mem_of_getElem? hp)
    obtain ⟨hadvances, hnext, hothers⟩ :=
      step_advances (s := race.store.setGate t.gate) hi h₀ h.advances hfits t.now
    refine ⟨h.advances.trans hadvances, fun q hq => ?_, fun k hk => ?_⟩
    · -- the other processings rely only on what no call can take back
      rcases List.mem_or_eq_of_mem_set hq with hq | rfl
      · exact (h.stages q hq).advances hadvances
      · exact hnext
    · exact (hothers k hk).trans (h.others k hk)
  · exact h

theorem Fits.run (hi : i.Filed) (h₀ : (s₀.record i.key).Filed i.key)
    (h : race.Fits settings i s₀) (turns : List Turn) :
    (race.run settings i turns).Fits settings i s₀ := by
  induction turns generalizing race with
  | nil => exact h
  | cons t turns ih => exact ih (h.turn hi h₀ t)

theorem run_append (race : Race) (turns turns' : List Turn) :
    race.run settings i (turns ++ turns') = (race.run settings i turns).run settings i turns' :=
  List.foldl_append

theorem run_of_stopped (settings : ReferenceSettings) (i : Intake) {answer : Except Fault Report}
    {runner : Nat} (h : race.stages[runner]? = some (.inl answer)) (gate : Gate) (now : Timestamp)
    (n : Nat) : race.run settings i (List.replicate n ⟨runner, gate, now⟩) = race := by
  induction n with
  | zero => rfl
  | succ n ih =>
    have hturn : race.turn settings i ⟨runner, gate, now⟩ = race := by
      rw [Race.turn]
      simp only [h]
    rw [List.replicate_succ, run, List.foldl_cons, hturn]
    exact ih

theorem stages_turn_of_ne {t : Turn} {runner : Nat} (h : t.runner ≠ runner) (race : Race) :
    (race.turn settings i t).stages[runner]? = race.stages[runner]? := by
  unfold Race.turn
  split
  · exact List.getElem?_set_ne h
  · rfl

theorem Fits.isFor (hrace : race.Fits settings i s₀) (hi : i.Filed)
    (h₀ : (s₀.record i.key).Filed i.key) {runner : Nat} {p : Pending}
    (hp : race.stages[runner]? = some (.inr p)) : p.IsFor i.key := by
  have hfits := hrace.stages _ (List.mem_of_getElem? hp)
  exact hfits.isFor hi h₀

theorem turn_of_accepting (hi : i.Filed) (h₀ : (s₀.record i.key).Filed i.key)
    (hrace : race.Fits settings i s₀) {runner : Nat} {p : Pending}
    (hp : race.stages[runner]? = some (.inr p)) (now : Timestamp) :
    (race.turn settings i ⟨runner, .accepting, now⟩).stages[runner]? =
      some (next settings i now p (race.store.record i.key)) := by
  have hfor : p.IsFor i.key := hrace.isFor hi h₀ hp
  have hstep := step_of_accepting settings now (s := race.store.setGate .accepting) rfl hfor
  have hrunner : runner < race.stages.length := (List.getElem?_eq_some_iff.1 hp).1
  rw [Race.turn]
  simp only [hp, hstep]
  exact List.getElem?_set_self hrunner

theorem left_next_lt {p q : Pending} {now : Timestamp} {r : Record} (hp : p.IsFor i.key)
    (h : next settings i now p r = .inr q) : q.left < p.left := by
  have hstep := step_of_accepting settings now (s := { record := fun _ => r }) rfl hp
  rw [h] at hstep
  exact left_step_lt hstep

theorem exists_ok_of_next_eq_inl {p : Pending} {now : Timestamp} {r : Record}
    {answer : Except Fault Report} (h : next settings i now p r = .inl answer) :
    ∃ report, answer = .ok report := by
  cases p with
  | publish m k => cases h; exact ⟨_, rfl⟩
  | _ => cases h

theorem exists_ok_of_turns (hi : i.Filed) (h₀ : (s₀.record i.key).Filed i.key)
    (hrace : race.Fits settings i s₀) {runner : Nat} {p : Pending}
    (hp : race.stages[runner]? = some (.inr p)) (now : Timestamp) {n : Nat} (hn : p.left ≤ n) :
    ∃ report, (race.run settings i (List.replicate n ⟨runner, .accepting, now⟩)).stages[runner]? =
      some (.inl (.ok report)) := by
  induction n generalizing race p with
  | zero => cases p <;> simp [Pending.left] at hn
  | succ n ih =>
    have hfor : p.IsFor i.key := hrace.isFor hi h₀ hp
    have hturn := turn_of_accepting hi h₀ hrace hp now
    rw [List.replicate_succ, run, List.foldl_cons]
    cases hnext : next settings i now p (race.store.record i.key) with
    | inl answer =>
      obtain ⟨report, rfl⟩ := exists_ok_of_next_eq_inl hnext
      rw [hnext] at hturn
      have hstopped := run_of_stopped settings i hturn .accepting now n
      rw [run] at hstopped
      exact ⟨report, by rw [hstopped, hturn]⟩
    | inr q =>
      rw [hnext] at hturn
      have hleft := left_next_lt hfor hnext
      exact ih (hrace.turn hi h₀ ⟨runner, .accepting, now⟩) hturn (by omega)

end Race

end Processing

open Processing

variable {d : Desk} {e : Extraction} {i : Intake}

/-- Whatever the turns, once a processing has come through the store is as after a single one. -/
theorem Session.race_settles (S : Session) (h : d.intake e = .ok i) {runners : Nat}
    {turns : List Turn} {race : Race}
    (hrace : race = (Race.start S.store runners).run d.settings.references i turns)
    {r : Report} (hr : .inl (.ok r) ∈ race.stages) (now : Timestamp) :
    (∃ r', (d.process (S.store.setGate .accepting) e now).1 = .ok r') ∧
      (∀ t, (race.store.record e.key).atTime t =
        ((d.process (S.store.setGate .accepting) e now).2.record e.key).atTime t) ∧
      ∀ k ≠ e.key, race.store.record k = S.store.record k := by
  have hi : i.Filed := Desk.filed_of_intake h
  have hfiled : (S.store.record e.key).Filed e.key := S.store_kept.filed e.key
  have hkey := Desk.key_of_intake h
  have halone := Desk.process_of_accepting (s := S.store.setGate .accepting) rfl hfiled h now
  obtain ⟨-, hsettled, -⟩ :=
    Desk.process_advances (s := S.store.setGate .accepting) hfiled h now
  specialize hsettled _ (by rw [halone])
  rw [← hkey] at hfiled hsettled ⊢
  have hfits : race.Fits d.settings.references i S.store := by
    rw [hrace]
    exact (Race.fits_start _ _).run hi hfiled turns
  refine ⟨⟨_, by rw [halone]⟩, fun t => ?_, hfits.others⟩
  exact Settled.atTime_eq (hfits.stages _ hr) hsettled t

/-- Two processings of the sample, the second one stopped at its first write. -/
theorem Session.race_settles_sample : ∃ i race r, ({} : Desk).intake .sample = .ok i ∧
    race = (Race.start Session.sample.store 2).run ({} : Desk).settings.references i
      ([⟨1, .accepting, .sample⟩, ⟨1, .rejecting, .sample⟩] ++
        List.replicate 6 ⟨0, .accepting, .sample⟩) ∧
    .inl (.ok r) ∈ race.stages ∧
    (∃ r', (({} : Desk).process (Session.sample.store.setGate .accepting) .sample .sample).1 =
      .ok r') ∧
    (∀ t, (race.store.record Extraction.sample.key).atTime t =
      ((({} : Desk).process (Session.sample.store.setGate .accepting) .sample .sample).2.record
        Extraction.sample.key).atTime t) ∧
    ∀ k ≠ Extraction.sample.key, race.store.record k = Session.sample.store.record k := by
  obtain ⟨i, h⟩ := Extraction.exists_intake_sample
  have hi : i.Filed := Desk.filed_of_intake h
  have h₀ : (Session.sample.store.record i.key).Filed i.key := Session.sample.store_kept.filed _
  let settings := ({} : Desk).settings.references
  let begun := (Race.start Session.sample.store 2).run settings i
    [⟨1, .accepting, .sample⟩, ⟨1, .rejecting, .sample⟩]
  have hbegun : begun.Fits settings i Session.sample.store :=
    (Race.fits_start _ _).run hi h₀ _
  have hfirst : begun.stages[0]? = some (.inr .listLines) := by
    simp only [begun, Race.run, List.foldl_cons, List.foldl_nil]
    rw [Race.stages_turn_of_ne (by decide), Race.stages_turn_of_ne (by decide)]
    rfl
  obtain ⟨r, hr⟩ := Race.exists_ok_of_turns hi h₀ hbegun hfirst .sample (Nat.le_refl 6)
  have hmem : .inl (.ok r) ∈ ((Race.start Session.sample.store 2).run settings i
      ([⟨1, .accepting, .sample⟩, ⟨1, .rejecting, .sample⟩] ++
        List.replicate 6 ⟨0, .accepting, .sample⟩)).stages := by
    rw [Race.run_append]
    exact List.mem_of_getElem? hr
  exact ⟨i, _, r, h, rfl, hmem, Session.race_settles Session.sample h rfl hmem .sample⟩

end Payables
