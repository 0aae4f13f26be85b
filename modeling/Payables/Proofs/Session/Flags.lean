import Payables.Proofs.Line.Reading
import Payables.Proofs.Screening.Findings
import Payables.Proofs.Session.Coherence
import Payables.Proofs.Session.Outcome

/-!
# The flags of the lines that are stored

A line is flagged when its row is read and when it is screened, and never again: what a merge
carries over and what the user edits are other parts of the line. So whatever commands a desk
carries out, the flags of a stored line tell what its number, its reference and its cells show, and
the evidence is that for its flags.
-/

namespace Payables

open Text Processing

namespace Line

/-- The line has no date, and the evidence for that is the text of one of its cells. -/
def ShowsBadDate (l : Line) : Prop :=
  l.date? = none ∧ ∃ text ∈ l.cells.values, trimmed text ≠ "" ∧
    l.evidence[Flag.invalidDate.code]? = some [.ofUnreadableDate (trimmed text)]

/-- The flags of a line that has been read and not yet screened. -/
structure FlaggedByReading (l : Line) : Prop extends Documented l where
  eq_invalidDate : ∀ f, l.flags.has f = true → f = .invalidDate
  showsBadDate : l.flags.has .invalidDate = true → l.ShowsBadDate

/-- The flags of a line say what it shows, and there is evidence for them and for nothing else. -/
structure FlaggedRightly (settings : ScreeningSettings) (l : Line) : Prop extends Documented l where
  missingNumber_iff : l.flags.has .missingNumber = true ↔ trimmed l.number = ""
  outlier_iff : l.flags.has .outlier = true ↔ Screening.ShowsKeyword settings l
  showsBadDate : l.flags.has .invalidDate = true → l.ShowsBadDate

variable {settings : ScreeningSettings} {l l' : Line}

/-- The user's part of a line has no say in its flags. -/
theorem flaggedRightly_extracted :
    l.extracted.FlaggedRightly settings ↔ l.FlaggedRightly settings :=
  ⟨fun h => ⟨⟨h.1.1, h.1.2, h.1.3⟩, h.2, h.3, h.4⟩, fun h => ⟨⟨h.1.1, h.1.2, h.1.3⟩, h.2, h.3, h.4⟩⟩

theorem FlaggedRightly.of_extracted_eq (h : l.FlaggedRightly settings)
    (heq : l'.extracted = l.extracted) : l'.FlaggedRightly settings := by
  rwa [← flaggedRightly_extracted, heq, flaggedRightly_extracted]

theorem flaggedByReading_read (r : LineReader) (statement : String) (row : Row) :
    (r.read statement row).FlaggedByReading := by
  have hplain := r.documented_unflagged statement row
  have hnone : ∀ f, (r.unflagged statement row).flags.has f = true → f = .invalidDate := by
    intro f hf
    cases f <;> cases hf
  rcases r.read_cases statement row with heq | ⟨hdate, text, hmem, htext, heq⟩ <;> rw [heq]
  · exact ⟨hplain, hnone, fun h => by cases h⟩
  · refine ⟨hplain.addFlag _ _, ?_, fun _ => ⟨hdate, text, hmem, htext, ?_⟩⟩
    · intro f hf
      rcases has_addFlag_iff.1 hf with hf | hf
      · exact hf.symm
      · exact hnone f hf
    · rw [getElem?_evidence_addFlag_self]
      rfl

theorem FlaggedByReading.classify (h : l.FlaggedByReading) (c : Classifier) :
    (c.apply l).FlaggedByReading := by
  unfold Classifier.apply
  split <;> exact ⟨⟨h.1.1, h.1.2, h.1.3⟩, h.2, h.3⟩

theorem FlaggedByReading.screen (h : l.FlaggedByReading) (settings : ScreeningSettings) :
    (Screening.flag settings l).FlaggedRightly settings := by
  have hdocumented : (Screening.flag settings l).Documented :=
    Screening.documented_addFindings h.toDocumented _
  have hdate : (Screening.flag settings l).ShowsBadDate ↔ l.ShowsBadDate := by
    simp only [ShowsBadDate, Screening.flag, Screening.date?_addFindings,
      Screening.cells_addFindings,
      Screening.getElem?_evidence_addFindings fun _ => Screening.flag_ne_invalidDate]
  have hkeyword : Screening.ShowsKeyword settings (Screening.flag settings l) ↔
      Screening.ShowsKeyword settings l := by
    simp only [Screening.ShowsKeyword, Screening.flag, Screening.number_addFindings,
      Screening.reference_addFindings]
  have hnumber : (Screening.flag settings l).number = l.number :=
    Screening.number_addFindings l _
  refine ⟨hdocumented, ?_, ?_, ?_⟩
  · rw [Screening.has_flag_iff, hnumber]
    constructor
    · rintro (hf | ⟨-, hempty⟩ | ⟨hf, -⟩)
      · cases h.eq_invalidDate _ hf
      · exact hempty
      · cases hf
    · exact fun hempty => .inr (.inl ⟨rfl, hempty⟩)
  · rw [Screening.has_flag_iff, hkeyword]
    constructor
    · rintro (hf | ⟨hf, -⟩ | ⟨-, hshows⟩)
      · cases h.eq_invalidDate _ hf
      · cases hf
      · exact hshows
    · exact fun hshows => .inr (.inr ⟨rfl, hshows⟩)
  · rw [Screening.has_flag_iff, hdate]
    rintro (hf | ⟨hf, -⟩ | ⟨hf, -⟩)
    · exact h.showsBadDate hf
    · cases hf
    · cases hf

end Line

theorem Desk.flaggedRightly_freshLine (d : Desk) (e : Extraction) (reader : LineReader)
    (row : Row) : (d.freshLine e reader row).FlaggedRightly d.settings.screening :=
  ((Line.flaggedByReading_read reader e.statement row).classify _).screen d.settings.screening

theorem Merge.extracted_carry (prior? : Option Line) (l : Line) :
    (carry prior? l).extracted = l.extracted := rfl

theorem Processing.flaggedRightly_of_settledLine? {d : Desk} {e : Extraction} {i : Intake}
    (h : d.intake e = .ok i) {r₀ : Record} {id : String} {l : Line}
    (hl : settledLine? i r₀ id = some l) : l.FlaggedRightly d.settings.screening := by
  obtain ⟨reader, -, -, hlines⟩ := Desk.exists_reader_of_intake h
  obtain ⟨f, hf, rfl⟩ := settledLine?_eq_some_iff.1 hl
  have hmem : f ∈ i.lines := List.mem_of_find?_eq_some hf
  rw [hlines] at hmem
  obtain ⟨row, -, rfl⟩ := List.mem_map.1 hmem
  exact (d.flaggedRightly_freshLine e reader row).of_extracted_eq (Merge.extracted_carry _ _)

namespace Store

def FlaggedRightly (settings : ScreeningSettings) (s : Store) : Prop :=
  ∀ (k : StatementKey) (id : String) (l : Line), (s.record k).lines[id]? = some l →
    l.FlaggedRightly settings

variable {settings : ScreeningSettings} {s : Store}

theorem flaggedRightly_empty (settings : ScreeningSettings) : FlaggedRightly settings {} := by
  intro k id l hl
  simp at hl

theorem FlaggedRightly.update (h : s.FlaggedRightly settings) {k : StatementKey}
    {f : Record → Record} (hf : ∀ (id : String) (l : Line), (f (s.record k)).lines[id]? = some l →
      l.FlaggedRightly settings) : (s.update k f).FlaggedRightly settings := by
  intro k' id l hl
  rw [record_update] at hl
  split at hl
  · exact hf id l hl
  · exact h k' id l hl

theorem FlaggedRightly.changeLine (h : s.FlaggedRightly settings) (hs : s.Kept) {f : Line → Line}
    (hf : ∀ l, (f l).extracted = l.extracted) (k : StatementKey) (id : String) :
    (s.changeLine k id f).2.FlaggedRightly settings := by
  rcases hs.changeLine_cases k id f with ⟨fault, heq⟩ | ⟨-, heq⟩ <;> rw [heq]
  · exact h
  · refine h.update (f := fun r => r.changeLine f id) fun id' l hl => ?_
    rw [Record.getElem?_lines_changeLine] at hl
    split at hl
    · obtain ⟨l₀, hl₀, rfl⟩ := Option.map_eq_some_iff.1 hl
      exact (h k id l₀ hl₀).of_extracted_eq (hf l₀)
    · exact h k id' l hl

theorem FlaggedRightly.setAllCompleted (h : s.FlaggedRightly settings) (hs : s.Kept)
    (k : StatementKey) (completed : Bool) :
    (s.setAllCompleted k completed).2.FlaggedRightly settings := by
  rcases hs.setAllCompleted_cases k completed with ⟨fault, heq⟩ | ⟨-, heq⟩ <;> rw [heq]
  · exact h
  · refine h.update fun id l hl => ?_
    rw [Record.getElem?_lines_setAllCompleted] at hl
    obtain ⟨l₀, hl₀, rfl⟩ := Option.map_eq_some_iff.1 hl
    exact (h k id l₀ hl₀).of_extracted_eq (extracted_withCompleted completed l₀)

/-- A processing puts fresh lines in place of stored ones, or leaves them. -/
theorem FlaggedRightly.process {d : Desk} (h : s.FlaggedRightly d.settings.screening) (hs : s.Kept)
    (e : Extraction) (now : Timestamp) :
    (d.process s e now).2.FlaggedRightly d.settings.screening := by
  cases hi : d.intake e with
  | error fault =>
    rw [Desk.process, hi]
    exact h
  | ok i =>
    obtain ⟨hadvances, -, hothers⟩ := Desk.process_advances (hs.filed e.key) hi now
    intro k id l hl
    by_cases hk : k = e.key
    · subst hk
      rcases hadvances.lines id with heq | hsettled
      · exact h e.key id l (heq ▸ hl)
      · exact flaggedRightly_of_settledLine? hi (hsettled ▸ hl)
    · rw [hothers k hk] at hl
      exact h k id l hl

theorem FlaggedRightly.execute {d : Desk} (h : s.FlaggedRightly d.settings.screening)
    (hs : s.Kept) (c : Command) : (d.execute s c).2.FlaggedRightly d.settings.screening := by
  cases c with
  | process e now => exact h.process hs e now
  | get k => exact h
  | matchLedger k ledger => exact h
  | setCompleted k id completed => exact h.changeLine hs (extracted_withCompleted completed) k id
  | setAllCompleted k completed => exact h.setAllCompleted hs k completed
  | setKind k id kind => exact h.changeLine hs (extracted_withKind kind) k id
  | acceptWrites accept => exact h
  | clear => exact flaggedRightly_empty _

theorem FlaggedRightly.run {d : Desk} (h : s.FlaggedRightly d.settings.screening) (hs : s.Kept)
    (cs : List Command) : (d.run s cs).2.FlaggedRightly d.settings.screening := by
  induction cs generalizing s with
  | nil => exact h
  | cons c cs ih => exact ih (h.execute hs c) (hs.execute d c)

end Store

def Extraction.unclear : Extraction :=
  { tenant := "north"
    contact := "supplier"
    statement := "2024-04"
    layout :=
      { number? := some "No"
        date? := some "Date"
        reference? := some "Text"
        dateFormat? := some "DD/MM/YYYY" }
    rows := [⟨1, .ofList [("No", ""), ("Date", " end of April "), ("Text", "Closing balance")]⟩] }

theorem Extraction.exists_intake_unclear : ∃ i l, ({} : Desk).intake .unclear = .ok i ∧
    i.lines = [l] ∧ l.id = "2024-04#item-0001" ∧ l.flags = ⟨true, true, true⟩ := by
  have hlines : (({} : Desk).intake .unclear).toOption.map
      (fun i => i.lines.map fun l => (l.id, l.flags)) =
        some [("2024-04#item-0001", ⟨true, true, true⟩)] := by decide +kernel
  cases hi : ({} : Desk).intake .unclear with
  | error fault => rw [hi] at hlines; cases hlines
  | ok i =>
    rw [hi] at hlines
    obtain ⟨l, hl, heq⟩ := List.map_eq_singleton_iff.1 (Option.some.inj hlines)
    exact ⟨i, l, rfl, hl, congrArg Prod.fst heq, congrArg Prod.snd heq⟩

end Payables
