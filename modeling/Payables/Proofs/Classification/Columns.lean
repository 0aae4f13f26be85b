import Payables.Line.Reading
import Payables.Proofs.Classification.Buckets
import Payables.Proofs.Collection.Labelled
import Payables.Proofs.Text.Trimming

/-!
# The side of a column

Columns are configured under the letters and digits of their labels, and rows are read by headers,
where other characters count too. So an amount counts for the side of the last column with the
letters and digits of its label (`Decides`), and a cell may be read for a column and still count as
a cell under a header that is not configured (`IsStray`). Where labels with the same letters and
digits have one side and every header of a column has the letters and digits of a label, each amount
counts for the side of its own column (`buckets_read`); otherwise it may not
(`buckets_read_signLabels`).
-/

namespace Payables

open Text

namespace Layout

/-- The last amount column whose label has the letters and digits of a label. -/
def Decides (l : Layout) (d : AmountColumn) (label : String) : Prop :=
  ∃ earlier later, l.amountColumns = earlier ++ d :: later ∧
    labelForm d.label = labelForm label ∧ ∀ c ∈ later, labelForm c.label ≠ labelForm label

/-- A cell with an amount that is read for an amount column although its header does not have the
letters and digits of a label. -/
structure IsStray (l : Layout) (cell : String × String) : Prop where
  header : ∃ c ∈ l.amountColumns, headerForm c.label = headerForm cell.1
  unlabelled : ∀ c ∈ l.amountColumns, labelForm c.label ≠ labelForm cell.1
  shows : l.amountFormat.showsAmount cell.2 = true

def IsStrayDebit (l : Layout) (cell : String × String) : Prop :=
  l.IsStray cell ∧ Side.looksDebit (labelForm cell.1) = true

def IsStrayCredit (l : Layout) (cell : String × String) : Prop :=
  l.IsStray cell ∧ Side.looksCredit (labelForm cell.1) = true

/-- Headers that are not those of amount columns tell neither debits nor credits. -/
def OthersPlain (l : Layout) (row : Row) : Prop :=
  ∀ cell ∈ row.cells.entries, (∀ c ∈ l.amountColumns, headerForm c.label ≠ headerForm cell.1) →
    Side.looksDebit (labelForm cell.1) = false ∧ Side.looksCredit (labelForm cell.1) = false

/-- Labels with the same letters and digits have one side, and a header of an amount column has the
letters and digits of a label. -/
structure LabelsAgree (l : Layout) (row : Row) : Prop where
  sides : ∀ c ∈ l.amountColumns, ∀ d ∈ l.amountColumns,
    labelForm c.label = labelForm d.label → c.side = d.side
  headers : ∀ cell ∈ row.cells.entries, ∀ c ∈ l.amountColumns,
    headerForm c.label = headerForm cell.1 →
      ∃ d ∈ l.amountColumns, labelForm d.label = labelForm cell.1

def ShowsDebit (l : Layout) (line : Line) : Prop :=
  ∃ e ∈ line.amounts.entries, ∃ d, l.Decides d e.1 ∧ d.side.CountsAsDebit e.2

def ShowsCredit (l : Layout) (line : Line) : Prop :=
  ∃ e ∈ line.amounts.entries, ∃ d, l.Decides d e.1 ∧ d.side.CountsAsCredit e.2

/-- An amount counts for the side of the last column with the letters and digits of its label, and a
stray cell for the side that its header tells, a debit first if it tells both. -/
structure LastSidesDecide (l : Layout) (line : Line) (b : Buckets) : Prop where
  debit : b.debit = true ↔
    l.ShowsDebit line ∨ ∃ cell ∈ line.cells.entries, l.IsStrayDebit cell
  credit : b.credit = true ↔
    l.ShowsCredit line ∨ ∃ earlier cell later, line.cells.entries = earlier ++ cell :: later ∧
      l.IsStrayCredit cell ∧ (l.IsStrayDebit cell →
        l.ShowsDebit line ∨ ∃ cell ∈ earlier, l.IsStrayDebit cell)

/-- Every amount counts for the side of its own column, and nothing else counts. -/
structure OwnSidesDecide (l : Layout) (line : Line) (b : Buckets) : Prop where
  debit : b.debit = true ↔ ∃ e ∈ line.amounts.entries, ∃ c ∈ l.amountColumns,
    trimmed c.label = e.1 ∧ c.side.CountsAsDebit e.2
  credit : b.credit = true ↔ ∃ e ∈ line.amounts.entries, ∃ c ∈ l.amountColumns,
    trimmed c.label = e.1 ∧ c.side.CountsAsCredit e.2

variable {l : Layout} {row : Row} {d : AmountColumn} {label : String} {cell : String × String}

instance (l : Layout) (row : Row) : Decidable (l.OthersPlain row) :=
  inferInstanceAs (Decidable (∀ cell ∈ row.cells.entries, _ → _))

theorem Decides.mem (h : l.Decides d label) : d ∈ l.amountColumns := by
  obtain ⟨earlier, later, heq, -, -⟩ := h
  simp [heq]

theorem Decides.labelForm_eq (h : l.Decides d label) : labelForm d.label = labelForm label := by
  obtain ⟨_, _, -, hform, -⟩ := h
  exact hform

theorem LabelsAgree.not_isStray (h : l.LabelsAgree row) (hcell : cell ∈ row.cells.entries) :
    ¬ l.IsStray cell := by
  rintro ⟨⟨c, hc, hheader⟩, hunlabelled, -⟩
  obtain ⟨d, hd, hform⟩ := h.headers cell hcell c hc hheader
  exact hunlabelled d hd hform

end Layout

namespace Classifier

variable {l : Layout} {settings : ClassifierSettings} {label : String} {row : Row}
  {d : AmountColumn} {cell : String × String}

theorem configuredSide?_eq_some_iff {side : Side} :
    (ofLayout l settings).configuredSide? (labelForm label) = some side ↔
      ∃ d, l.Decides d label ∧ d.side = side := by
  -- the columns are looked up from the last, so what comes before in the lookup comes later here
  rw [configuredSide?, ofLayout, ← List.map_reverse, List.lookup_eq_some_iff]
  constructor
  · rintro ⟨_, _, heq, hlater⟩
    obtain ⟨later, rest, hsplit, rfl, hrest⟩ := List.map_eq_append_iff.1 heq
    obtain ⟨d, earlier, rfl, hd, rfl⟩ := List.map_eq_cons_iff.1 hrest
    obtain ⟨hform, hside⟩ := Prod.mk.inj hd
    refine ⟨d, ⟨earlier.reverse, later.reverse, ?_, hform, fun c hc => ?_⟩, hside⟩
    · simpa using congrArg List.reverse hsplit
    · have hne := hlater _ (List.mem_map_of_mem (List.mem_reverse.1 hc))
      exact fun h => by simp [h] at hne
  · rintro ⟨d, ⟨earlier, later, heq, hform, hlater⟩, rfl⟩
    refine ⟨later.reverse.map fun c => (labelForm c.label, c.side),
      earlier.reverse.map fun c => (labelForm c.label, c.side), ?_, ?_⟩
    · simp [heq, hform]
    · intro e he
      obtain ⟨c, hc, rfl⟩ := List.mem_map.1 he
      simpa using (hlater c (List.mem_reverse.1 hc)).symm

theorem configuredSide?_eq_none_iff :
    (ofLayout l settings).configuredSide? (labelForm label) = none ↔
      ∀ c ∈ l.amountColumns, labelForm c.label ≠ labelForm label := by
  rw [configuredSide?, ofLayout, List.lookup_eq_none_iff]
  simp [ne_comm]

theorem sideOf_of_decides (h : l.Decides d label) :
    (ofLayout l settings).sideOf label = d.side := by
  rw [sideOf, configuredSide?_eq_some_iff.2 ⟨d, h, rfl⟩, Option.getD_some]

theorem exists_decides {c : AmountColumn} (hc : c ∈ l.amountColumns)
    (hform : labelForm c.label = labelForm label) : ∃ d, l.Decides d label := by
  cases h : (ofLayout l {}).configuredSide? (labelForm label) with
  | none => exact absurd hform (configuredSide?_eq_none_iff.1 h c hc)
  | some side => exact (configuredSide?_eq_some_iff.1 h).imp fun _ hd => hd.1

theorem isStray_iff (hothers : l.OthersPlain row) (hcell : cell ∈ row.cells.entries)
    (htells : Side.looksDebit (labelForm cell.1) = true ∨
      Side.looksCredit (labelForm cell.1) = true) :
    l.IsStray cell ↔ (ofLayout l settings).configuredSide? (labelForm cell.1) = none ∧
      l.amountFormat.showsAmount cell.2 = true := by
  rw [configuredSide?_eq_none_iff]
  refine ⟨fun h => ⟨h.unlabelled, h.shows⟩, fun ⟨hunlabelled, hshows⟩ => ⟨?_, hunlabelled, hshows⟩⟩
  by_contra hnone
  obtain ⟨hdebit, hcredit⟩ := hothers cell hcell fun c hc hform => hnone ⟨c, hc, hform⟩
  simp [hdebit, hcredit] at htells

theorem isDebitCell_iff (hothers : l.OthersPlain row) (hcell : cell ∈ row.cells.entries) :
    (ofLayout l settings).isDebitCell cell = true ↔ l.IsStrayDebit cell := by
  rw [isDebitCell, Bool.and_eq_true, Bool.and_eq_true, Option.isNone_iff_eq_none, and_right_comm,
    Layout.IsStrayDebit]
  exact and_congr_left fun h => (isStray_iff hothers hcell (.inl h)).symm

theorem isCreditCell_iff (hothers : l.OthersPlain row) (hcell : cell ∈ row.cells.entries) :
    (ofLayout l settings).isCreditCell cell = true ↔ l.IsStrayCredit cell := by
  rw [isCreditCell, Bool.and_eq_true, Bool.and_eq_true, Option.isNone_iff_eq_none, and_right_comm,
    Layout.IsStrayCredit]
  exact and_congr_left fun h => (isStray_iff hothers hcell (.inr h)).symm

end Classifier

namespace LineReader

variable {r : LineReader} {settings : ClassifierSettings} {statement : String} {row : Row}
  {e : String × Amount}

theorem amounts_read (r : LineReader) (statement : String) (row : Row) :
    (r.read statement row).amounts = r.amounts row := by
  unfold read
  dsimp only
  split <;> rfl

theorem cells_read (r : LineReader) (statement : String) (row : Row) :
    (r.read statement row).cells = row.cells := by
  unfold read
  dsimp only
  split <;> rfl

theorem exists_column_of_mem (he : e ∈ (r.read statement row).amounts.entries) :
    ∃ c ∈ r.layout.amountColumns, trimmed c.label = e.1 := by
  rw [amounts_read, amounts] at he
  have hlabel := Labelled.mem_labels_ofList.1 (List.mem_map_of_mem he)
  obtain ⟨_, hfound, hfst⟩ := List.mem_map.1 hlabel
  obtain ⟨c, hc, hread⟩ := List.mem_filterMap.1 hfound
  obtain ⟨_, -, rfl⟩ := Option.map_eq_some_iff.1 hread
  exact ⟨c, hc, hfst⟩

theorem exists_decides_of_mem (he : e ∈ (r.read statement row).amounts.entries) :
    ∃ d, r.layout.Decides d e.1 := by
  obtain ⟨c, hc, hlabel⟩ := exists_column_of_mem he
  exact Classifier.exists_decides hc (by rw [← hlabel, labelForm_trimmed])

/-- A property of the side of an amount is one of the side of the column that decides. -/
theorem exists_sideOf_iff {P : Side → Amount → Prop} :
    (∃ e ∈ (r.read statement row).amounts.entries,
        P ((Classifier.ofLayout r.layout settings).sideOf e.1) e.2) ↔
      ∃ e ∈ (r.read statement row).amounts.entries,
        ∃ d, r.layout.Decides d e.1 ∧ P d.side e.2 := by
  refine exists_congr fun e => and_congr_right fun he => ?_
  obtain ⟨d, hd⟩ := exists_decides_of_mem he
  constructor
  · rw [Classifier.sideOf_of_decides hd]
    exact fun h => ⟨d, hd, h⟩
  · rintro ⟨d', hd', h⟩
    rwa [Classifier.sideOf_of_decides hd']

/-- Where labels agree, the column that decides has the side of the own column. -/
theorem exists_decides_iff (h : r.layout.LabelsAgree row) {P : Side → Amount → Prop} :
    (∃ e ∈ (r.read statement row).amounts.entries, ∃ d, r.layout.Decides d e.1 ∧ P d.side e.2) ↔
      ∃ e ∈ (r.read statement row).amounts.entries,
        ∃ c ∈ r.layout.amountColumns, trimmed c.label = e.1 ∧ P c.side e.2 := by
  have hside : ∀ {c d : AmountColumn} {label : String}, c ∈ r.layout.amountColumns →
      trimmed c.label = label → r.layout.Decides d label → d.side = c.side := by
    intro c d label hc hlabel hd
    exact h.sides d hd.mem c hc (by rw [hd.labelForm_eq, ← hlabel, labelForm_trimmed])
  refine exists_congr fun e => and_congr_right fun he => ?_
  constructor
  · rintro ⟨d, hd, hP⟩
    obtain ⟨c, hc, hlabel⟩ := exists_column_of_mem he
    exact ⟨c, hc, hlabel, hside hc hlabel hd ▸ hP⟩
  · rintro ⟨c, hc, hlabel, hP⟩
    obtain ⟨d, hd⟩ := exists_decides_of_mem he
    exact ⟨d, hd, hside hc hlabel hd ▸ hP⟩

theorem lastSidesDecide_read (hothers : r.layout.OthersPlain row) :
    r.layout.LastSidesDecide (r.read statement row)
      ((Classifier.ofLayout r.layout settings).buckets (r.read statement row)) where
  debit := by
    rw [Classifier.debit_buckets_iff, exists_sideOf_iff, cells_read, Layout.ShowsDebit]
    refine or_congr_right (exists_congr fun cell => and_congr_right fun hcell => ?_)
    exact Classifier.isDebitCell_iff hothers hcell
  credit := by
    rw [Classifier.credit_buckets_iff, exists_sideOf_iff, exists_sideOf_iff, cells_read,
      Layout.ShowsCredit, Layout.ShowsDebit]
    refine or_congr_right (exists_congr fun earlier => exists_congr fun cell =>
      exists_congr fun later => and_congr_right fun heq => ?_)
    have hmem : ∀ {c}, c ∈ earlier ++ cell :: later → c ∈ row.cells.entries := fun h => heq ▸ h
    rw [Classifier.isCreditCell_iff hothers (hmem (by simp)),
      Classifier.isDebitCell_iff hothers (hmem (by simp))]
    refine and_congr_right fun _ => imp_congr_right fun _ => or_congr_right ?_
    refine exists_congr fun c => and_congr_right fun hc => ?_
    exact Classifier.isDebitCell_iff hothers (hmem (List.mem_append_left _ hc))

theorem ownSidesDecide_read (hothers : r.layout.OthersPlain row)
    (hagree : r.layout.LabelsAgree row) :
    r.layout.OwnSidesDecide (r.read statement row)
      ((Classifier.ofLayout r.layout settings).buckets (r.read statement row)) where
  debit := by
    rw [(lastSidesDecide_read hothers).debit, Layout.ShowsDebit, exists_decides_iff hagree,
      cells_read, or_iff_left]
    rintro ⟨cell, hcell, hstray, -⟩
    exact hagree.not_isStray hcell hstray
  credit := by
    rw [(lastSidesDecide_read hothers).credit, Layout.ShowsCredit, exists_decides_iff hagree,
      cells_read, or_iff_left]
    rintro ⟨earlier, cell, later, heq, ⟨hstray, -⟩, -⟩
    exact hagree.not_isStray (by simp [heq]) hstray

/-- The sides of a line are those of the columns that decide, and those of its own columns if the
labels agree. -/
theorem buckets_read (hothers : r.layout.OthersPlain row) (settings : ClassifierSettings)
    (statement : String) :
    let line := r.read statement row
    let b := (Classifier.ofLayout r.layout settings).buckets line
    r.layout.LastSidesDecide line b ∧ (r.layout.LabelsAgree row → r.layout.OwnSidesDecide line b) :=
  ⟨lastSidesDecide_read hothers, ownSidesDecide_read hothers⟩

def twoSided : LineReader :=
  { layout :=
      { number? := some "No", dateFormat? := some "DD/MM/YYYY"
        amounts := [⟨"Charges", some .debit⟩, ⟨"Receipts", some .credit⟩] }
    template := ⟨"DD/MM/YYYY"⟩ }

def twoSidedRow : Row :=
  { ordinal := 1, cells := .ofList [("No", "A-1"), ("Charges", ""), ("Receipts", "100.00")] }

theorem buckets_read_twoSided :
    let line := twoSided.read "S" twoSidedRow
    let b := (Classifier.ofLayout twoSided.layout {}).buckets line
    twoSided.layout.OthersPlain twoSidedRow ∧ twoSided.layout.LabelsAgree twoSidedRow ∧
      b = { debit := false, credit := true } ∧ twoSided.layout.OwnSidesDecide line b := by
  have hothers : twoSided.layout.OthersPlain twoSidedRow := by decide +kernel
  have hagree : twoSided.layout.LabelsAgree twoSidedRow := by
    constructor <;> decide +kernel
  exact ⟨hothers, hagree, by decide +kernel, (buckets_read hothers {} "S").2 hagree⟩

def signLabelled : LineReader :=
  { layout :=
      { number? := some "No", dateFormat? := some "DD/MM/YYYY"
        amounts := [⟨"Amount (+)", some .debit⟩, ⟨"Amount (-)", some .credit⟩] }
    template := ⟨"DD/MM/YYYY"⟩ }

def signLabelledRow : Row :=
  { ordinal := 1, cells := .ofList [("No", "A-1"), ("Amount (+)", "100")] }

/-- The headers of the columns are apart, but not the letters and digits of their labels: an amount
of the column of debits counts as a credit. -/
theorem buckets_read_signLabels :
    LineReader.ofLayout signLabelled.layout = .ok signLabelled ∧
      (signLabelled.layout.amountColumns.map (headerForm ·.label)).Nodup ∧
      signLabelled.layout.OthersPlain signLabelledRow ∧
      ¬ signLabelled.layout.OwnSidesDecide (signLabelled.read "S" signLabelledRow)
        ((Classifier.ofLayout signLabelled.layout {}).buckets
          (signLabelled.read "S" signLabelledRow)) := by
  refine ⟨by decide +kernel, by decide +kernel, by decide +kernel, fun h => ?_⟩
  have hdebit := h.debit.2 (by decide +kernel)
  revert hdebit
  decide +kernel

end LineReader

end Payables
