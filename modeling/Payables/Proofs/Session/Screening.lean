import Payables.Proofs.Screening.Summary
import Payables.Proofs.Session.Flags

/-!
# The screening that a processing reports

The screening of an extraction comes before the merge: it sums up the lines of all rows that are
not blank. The report shows it next to the merged lines, of which there is one for each ordinal. It
misses none of their flags, and it describes these lines iff no ordinal is repeated among the rows.
-/

namespace Payables

open Processing Screening

namespace Desk

def freshLines (d : Desk) (e : Extraction) (reader : LineReader) : List Line :=
  (e.rows.filter (!·.isBlank)).map (d.freshLine e reader)

/-- How the screening of a report stands to the rows of the extraction and to the reported lines. -/
structure ScreensRows (d : Desk) (e : Extraction) (reader : LineReader) (r : Report) : Prop where
  total : r.screening.total = (d.freshLines e reader).length
  lines : r.screening.lines =
    ((d.freshLines e reader).filter (·.IsScreened)).map (entry d.settings.screening)
  named : ∀ l ∈ r.lines, l.IsScreened → l.id ∈ r.screening.lines.map FlaggedLine.id
  describes_iff : r.screening.Describes r.lines ↔
    ((e.rows.filter (!·.isBlank)).map Row.ordinal).Nodup

variable {d : Desk} {e : Extraction} {i : Intake} {reader : LineReader}

theorem screening_of_intake (h : d.intake e = .ok i) :
    i.screening = summary d.settings.screening i.lines := by
  obtain ⟨reader, lines, -, -, rfl⟩ := exists_eq_of_intake h
  rw [summary_map_flag]

theorem isScreened_freshLine_iff (d : Desk) (e : Extraction) (reader : LineReader) (row : Row) :
    (d.freshLine e reader row).IsScreened ↔
      inspect d.settings.screening (d.freshLine e reader row) ≠ [] := by
  have hflagged := d.flaggedRightly_freshLine e reader row
  rw [inspect_ne_nil_iff, Line.IsScreened, hflagged.missingNumber_iff, hflagged.outlier_iff]

theorem nodup_ids_freshLines_iff : ((d.freshLines e reader).map Line.id).Nodup ↔
    ((e.rows.filter (!·.isBlank)).map Row.ordinal).Nodup := by
  have hids : (d.freshLines e reader).map Line.id =
      ((e.rows.filter (!·.isBlank)).map Row.ordinal).map (Line.idFor e.statement) := by
    simp only [freshLines, List.map_map]
    refine List.map_congr_left fun row _ => ?_
    rw [Function.comp_apply, (d.isFiled_freshLine e reader row).id_eq, ordinal_freshLine]
    rfl
  rw [hids]
  exact List.nodup_map_iff fun _ _ => Line.idFor_inj.1

end Desk

namespace Session

variable {d : Desk} {e : Extraction} {now : Timestamp} {r : Report}

/-- A report shows the merged lines next to the screening of the intake. -/
theorem exists_intake_of_report (S : Session) (h : (d.process S.store e now).1 = .ok r) :
    ∃ i, d.intake e = .ok i ∧ r.screening = i.screening ∧
      r.lines = (Merge.ofLines (S.store.lines e.key) i.lines).lines := by
  have hkept := S.store_kept
  rcases hkept.gate with hgate | hgate
  · cases hi : d.intake e with
    | error fault =>
      rw [Desk.process, hi] at h
      cases h
    | ok i =>
      rw [Desk.process_of_accepting hgate (hkept.filed e.key) hi now] at h
      obtain rfl := Except.ok.inj h
      exact ⟨i, rfl, rfl, rfl⟩
  · obtain ⟨fault, heq⟩ := Desk.process_of_rejecting hgate d e now
    rw [heq] at h
    cases h

/-- In any session, a report shows the screening of all rows of the extraction. -/
theorem process_screens (S : Session) (h : (d.process S.store e now).1 = .ok r) :
    ∃ reader, LineReader.ofLayout e.layout = .ok reader ∧ d.ScreensRows e reader r := by
  obtain ⟨i, hi, hscreening, hmerged⟩ := S.exists_intake_of_report h
  obtain ⟨reader, hreader, -, hlines⟩ := Desk.exists_reader_of_intake hi
  have htells : ∀ l ∈ i.lines, l.IsScreened ↔ inspect d.settings.screening l ≠ [] := by
    intro l hl
    rw [hlines] at hl
    obtain ⟨row, -, rfl⟩ := List.mem_map.1 hl
    exact d.isScreened_freshLine_iff e reader row
  rw [Desk.screening_of_intake hi] at hscreening
  refine ⟨reader, hreader, ?_⟩
  constructor
  case total => rw [hscreening, total_summary, hlines, Desk.freshLines]
  case lines => rw [hscreening, lines_summary_eq_filter_isScreened htells, hlines, Desk.freshLines]
  case named =>
    intro l hl hflagged
    rw [hscreening]
    exact id_mem_lines_summary_of_mem_merge htells (hmerged ▸ hl) hflagged
  case describes_iff =>
    rw [hscreening, hmerged, describes_ofLines_iff htells, ← Desk.nodup_ids_freshLines_iff, hlines,
      Desk.freshLines]

theorem process_screens_sample : ∃ r reader,
    (({} : Desk).process Session.sample.store .sample .sample).1 = .ok r ∧
      LineReader.ofLayout Extraction.sample.layout = .ok reader ∧
      ({} : Desk).ScreensRows .sample reader r := by
  obtain ⟨i, hi⟩ := Extraction.exists_intake_sample
  have hok := congrArg Prod.fst
    (Desk.process_of_accepting gate_sample (sample.store_kept.filed _) hi .sample)
  obtain ⟨reader, hreader, hscreens⟩ := process_screens sample hok
  exact ⟨_, reader, hok, hreader, hscreens⟩

end Session

/-- Two rows of one ordinal, of which the second is a balance. -/
def Extraction.repeated : Extraction :=
  { tenant := "north"
    contact := "supplier"
    statement := "2024-05"
    layout := { number? := some "No", dateFormat? := some "DD/MM/YYYY" }
    rows := [⟨1, .ofList [("No", "INV-1")]⟩, ⟨1, .ofList [("No", "Closing balance")]⟩] }

theorem Extraction.exists_intake_repeated : ∃ i first second,
    ({} : Desk).intake .repeated = .ok i ∧ i.lines = [first, second] ∧
      first.id = "2024-05#item-0001" ∧ second.id = "2024-05#item-0001" ∧ first.flags = {} ∧
      i.screening.total = 2 ∧ i.screening.lines.map FlaggedLine.id = ["2024-05#item-0001"] := by
  have hintake : (({} : Desk).intake .repeated).toOption.map (fun i =>
      (i.lines.map (fun l => (l.id, l.flags)), i.screening.total,
        i.screening.lines.map FlaggedLine.id)) =
      some ([("2024-05#item-0001", {}), ("2024-05#item-0001", { outlier := true })], 2,
        ["2024-05#item-0001"]) := by decide +kernel
  cases hi : ({} : Desk).intake .repeated with
  | error fault => rw [hi] at hintake; cases hintake
  | ok i =>
    rw [hi] at hintake
    obtain ⟨hlines, hsummary⟩ := Prod.mk.inj (Option.some.inj hintake)
    obtain ⟨htotal, hnamed⟩ := Prod.mk.inj hsummary
    obtain ⟨first, rest, hcons, hfirst, hrest⟩ := List.map_eq_cons_iff.1 hlines
    obtain ⟨second, hsecond, heq⟩ := List.map_eq_singleton_iff.1 hrest
    rw [hsecond] at hcons
    exact ⟨i, first, second, rfl, hcons, congrArg Prod.fst hfirst, congrArg Prod.fst heq,
      congrArg Prod.snd hfirst, htotal, hnamed⟩

/-- One line is reported, it carries no flag, and the screening counts two and names it. -/
theorem Session.screening_names_unflagged : ∃ r l,
    (({} : Desk).process start.store .repeated .sample).1 = .ok r ∧ r.lines = [l] ∧
      r.screening.total = 2 ∧ r.screening.lines.map FlaggedLine.id = [l.id] ∧ l.flags = {} ∧
      ¬ r.screening.Describes r.lines := by
  obtain ⟨i, first, second, hi, hlines, hid, hid', hflags, htotal, hnamed⟩ :=
    Extraction.exists_intake_repeated
  have hok := congrArg Prod.fst
    (Desk.process_of_accepting rfl (start.store_kept.filed _) hi .sample)
  have hmerged : (settledMerge i {}).lines =
      [Merge.carry (Merge.kept? (Record.listed {}) first.id) first] := by
    refine List.perm_singleton.1 ((Merge.lines_perm _ _).trans (.of_eq ?_))
    rw [hlines, firstOfEach, firstOfEach, List.filter_cons_of_neg (by simp [hid, hid'])]
    rfl
  refine ⟨_, _, hok, hmerged, htotal, hnamed.trans (by rw [← hid]; rfl), hflags, ?_⟩
  intro hdescribes
  have hcount : i.screening.total = (settledMerge i {}).lines.length := hdescribes.total
  rw [htotal, hmerged] at hcount
  cases hcount

end Payables
