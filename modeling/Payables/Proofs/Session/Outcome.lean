import Payables.Proofs.Session.Reachable

/-!
# What a processing leaves behind

A processing that is let through replaces the lines of its statement: for each ordinal among the
rows there is afterwards one line, that of the first such row, with what the user had done to the
line stored under its id. The report says the same of the lines, the heading and the ids that came,
stayed and went, and no other statement is touched.
-/

namespace Payables

namespace Desk

/-- What the store looks like after a report, compared with the store before. -/
structure Outcome (d : Desk) (e : Extraction) (reader : LineReader) (s : Store) (r : Report)
    (s' : Store) : Prop where
  /-- Under the id of an ordinal stands the line of its first row. -/
  stored : ∀ n, (s'.record e.key).lines[Line.idFor e.statement n]? =
    (e.row? n).map fun row =>
      Merge.carry (s.record e.key).lines[Line.idFor e.statement n]? (d.freshLine e reader row)
  ids : ∀ (id : String) (l : Line), (s'.record e.key).lines[id]? = some l →
    id = Line.idFor e.statement l.ordinal
  ordinals : ∀ n, n ∈ r.lines.map Line.ordinal ↔
    ∃ row ∈ e.rows, row.isBlank = false ∧ row.ordinal = n
  ordered : r.lines.Pairwise fun a b => a.ordinal < b.ordinal
  listed : s'.lines e.key = r.lines
  heading : s'.heading? e.key = some r.heading
  published : s'.published? e.key = some
    { heading := r.heading, lines := r.lines, screening := r.screening, references := r.references }
  inserted : ∀ id, id ∈ r.inserted ↔
    id ∈ (s'.record e.key).lines ∧ id ∉ (s.record e.key).lines
  updated : ∀ id, id ∈ r.updated ↔
    id ∈ (s'.record e.key).lines ∧ id ∈ (s.record e.key).lines
  removed : ∀ id, id ∈ r.removed ↔
    id ∉ (s'.record e.key).lines ∧ id ∈ (s.record e.key).lines
  nodup : r.inserted.Nodup ∧ r.updated.Nodup ∧ r.removed.Nodup
  others : ∀ k ≠ e.key, s'.record k = s.record k

end Desk

open Processing

variable {settings : ReferenceSettings} {d : Desk} {e : Extraction} {i : Intake}
  {reader : LineReader} {r r₀ : Record} {id : String}

theorem settledLine?_idFor
    (hlines : i.lines = (e.rows.filter (!·.isBlank)).map (d.freshLine e reader))
    (r₀ : Record) (n : Nat) :
    settledLine? i r₀ (Line.idFor e.statement n) = (e.row? n).map fun row =>
      Merge.carry r₀.lines[Line.idFor e.statement n]? (d.freshLine e reader row) := by
  rw [settledLine?, hlines, d.find?_freshLines, Option.map_map]
  rfl

theorem isSome_row?_iff (e : Extraction) (n : Nat) :
    (e.row? n).isSome ↔ ∃ row ∈ e.rows, row.isBlank = false ∧ row.ordinal = n := by
  simp [Extraction.row?, List.find?_isSome]

theorem ordinal_of_row? {row : Row} {n : Nat} (h : e.row? n = some row) : row.ordinal = n := by
  have hfound : row.isBlank = false ∧ row.ordinal = n := by simpa using List.find?_some h
  exact hfound.2

theorem mem_lines_iff_of_settled (h : Settled settings i r₀ r) :
    id ∈ r.lines ↔ id ∈ i.lines.map Line.id := by
  rw [Std.ExtTreeMap.mem_iff_isSome_getElem?, h.lines, ← Option.ne_none_iff_isSome, ne_eq,
    settledLine?_eq_none_iff, not_not]

theorem mem_ordinals_settledLines_iff (hi : i.Filed) (h₀ : r₀.Filed i.key) {n : Nat} :
    n ∈ (settledMerge i r₀).lines.map Line.ordinal ↔
      (settledLine? i r₀ (Line.idFor i.key.statement n)).isSome := by
  rw [List.mem_map, Option.isSome_iff_exists]
  constructor
  · rintro ⟨l, hl, rfl⟩
    have hid : l.id = _ := (isFiled_of_mem_settledLines hi h₀ l hl).id_eq
    exact ⟨l, hid ▸ (mem_settledLines_iff h₀).1 hl⟩
  · rintro ⟨l, hl⟩
    have hid : l.id = _ := id_of_settledLine? hl
    refine ⟨l, (mem_settledLines_iff h₀).2 (hid ▸ hl), ?_⟩
    exact Line.idFor_inj.1 ((isFiled_of_settledLine? hi hl).id_eq.symm.trans hid)

/-- Three rows and a blank one; two rows have the same ordinal. -/
def Extraction.sample : Extraction :=
  { tenant := "north"
    contact := "supplier"
    statement := "2024-03"
    layout :=
      { number? := some "No"
        date? := some "Date"
        dateFormat? := some "DD/MM/YYYY"
        amounts := [{ label := "Debit" }] }
    rows := [
      ⟨2, .ofList [("No", "INV-2"), ("Date", "02/03/2024"), ("Debit", "20.00")]⟩,
      ⟨1, .ofList [("No", "INV-1"), ("Date", "01/03/2024"), ("Debit", "10.00")]⟩,
      ⟨2, .ofList [("No", "INV-3"), ("Date", "03/03/2024"), ("Debit", "30.00")]⟩,
      ⟨3, .ofList [("No", " ")]⟩] }

theorem Extraction.exists_intake_sample : ∃ i, ({} : Desk).intake .sample = .ok i := by
  have hok : (({} : Desk).intake .sample).isOk = true := by decide +kernel
  cases h : ({} : Desk).intake .sample with
  | ok i => exact ⟨i, rfl⟩
  | error fault => rw [h] at hok; cases hok

def Timestamp.sample : Timestamp := ⟨⟨2024, 3, 31, by decide⟩, 9, 30, 0, 0⟩

def Session.sample : Session := start.andThen {} (.process .sample .sample)

theorem Session.gate_sample : Session.sample.store.gate = .accepting := by
  obtain ⟨i, hi⟩ := Extraction.exists_intake_sample
  change (({} : Desk).process {} .sample .sample).2.gate = _
  rw [Desk.process_of_accepting rfl (Record.filed_empty _) hi]
  rfl

end Payables
