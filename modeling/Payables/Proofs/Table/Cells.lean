import Mathlib.Data.List.Forall2
import Payables.Proofs.Collection.Labelled
import Payables.Proofs.Table.Labels
import Payables.Table.Rows

/-!
# Cells of the rows

The rows of a statement come from rows of its tables, in their order, and each should hold the text
of every kept column under a label of its own (`KeepsCells`). It does so iff the labels of the
columns stay apart, and otherwise one column takes the place of another: with the headers `a_2`, `a`
and `a` the third column is called `a_2` too, and the text of the first is lost
(`statementRows_lose_a_cell`).
-/

namespace Payables.Table

open Text

def frameOf (expected : List String) : List Table → Frame
  | [] => ⟨[], []⟩
  | first :: _ => Frame.ofTable first (headerRow first.rows expected)

theorem frameOf_cons (expected : List String) (first : Table) (later : List Table) :
    frameOf expected (first :: later) = Frame.ofTable first (headerRow first.rows expected) := rfl

/-- The cells hold the texts of a source row in the kept columns, in their order, under labels with
different normal forms. -/
structure KeepsCells (kept : List Nat) (source : List String) (r : Row) : Prop where
  texts : r.cells.values = kept.map (cellAt source)
  nodup_forms : (r.cells.entries.map fun e => headerForm e.1).Nodup

/-- The rows keep the cells of rows of the tables, in their order. -/
def CellsKept (expected : List String) (tables : List Table) (rows : List Row) : Prop :=
  ∃ sources, sources.Sublist (tables.flatMap (·.rows)) ∧
    List.Forall₂ (KeepsCells (frameOf expected tables).kept) sources rows

theorem length_header_frameOf (expected : List String) (tables : List Table) :
    (frameOf expected tables).header.length = (frameOf expected tables).kept.length := by
  cases tables with
  | nil => rfl
  | cons first later => exact List.length_map _

theorem labelsOf_eq (expected : List String) (tables : List Table) :
    labelsOf expected tables = columnLabels (frameOf expected tables).header := by
  cases tables with
  | nil => rfl
  | cons first later => rfl

theorem dataRows_cons (expected : List String) (first : Table) (later : List Table) :
    dataRows expected (first :: later) =
      (project (frameOf expected (first :: later)).kept
        (first.rows.drop (headerRow first.rows expected + 1)) ++
          later.flatMap (frameOf expected (first :: later)).continued).filter (!isBlankRow ·) :=
  rfl

theorem Frame.continued_eq (f : Frame) {t : Table} {first : List String} {rest : List (List String)}
    (h : t.rows.dropWhile isBlankRow = first :: rest) : f.continued t =
      if repeatsHeader f.header (projectRow f.kept first) then project f.kept rest
      else project f.kept (first :: rest) := by
  rw [Frame.continued, h]
  rfl

theorem exists_continued_eq (f : Frame) (t : Table) :
    ∃ sources, sources.Sublist t.rows ∧ f.continued t = project f.kept sources := by
  cases hdata : t.rows.dropWhile isBlankRow with
  | nil =>
    refine ⟨[], List.nil_sublist _, ?_⟩
    rw [Frame.continued, hdata]
    rfl
  | cons first rest =>
    have hsub : (first :: rest).Sublist t.rows := hdata ▸ List.dropWhile_sublist _
    rw [f.continued_eq hdata]
    split
    · exact ⟨rest, (List.sublist_cons_self first rest).trans hsub, rfl⟩
    · exact ⟨first :: rest, hsub, rfl⟩

theorem exists_flatMap_continued_eq (f : Frame) (ts : List Table) :
    ∃ sources, sources.Sublist (ts.flatMap (·.rows)) ∧
      ts.flatMap f.continued = project f.kept sources := by
  induction ts with
  | nil => exact ⟨[], List.nil_sublist _, rfl⟩
  | cons t ts ih =>
    obtain ⟨us, hus, heq⟩ := exists_continued_eq f t
    obtain ⟨vs, hvs, heq'⟩ := ih
    refine ⟨us ++ vs, ?_, ?_⟩
    · rw [List.flatMap_cons]
      exact hus.append hvs
    · rw [List.flatMap_cons, heq, heq']
      exact List.map_append.symm

theorem exists_dataRows_eq (expected : List String) (tables : List Table) :
    ∃ sources, sources.Sublist (tables.flatMap (·.rows)) ∧
      dataRows expected tables = project (frameOf expected tables).kept sources := by
  cases tables with
  | nil => exact ⟨[], List.nil_sublist _, rfl⟩
  | cons first later =>
    obtain ⟨us, hus, heq⟩ := exists_flatMap_continued_eq (frameOf expected (first :: later)) later
    refine ⟨(first.rows.drop (headerRow first.rows expected + 1) ++ us).filter fun row =>
      !isBlankRow (projectRow (frameOf expected (first :: later)).kept row), ?_, ?_⟩
    · rw [List.flatMap_cons]
      exact List.filter_sublist.trans ((List.drop_sublist _ _).append hus)
    · rw [dataRows_cons, heq, project, project, ← List.map_append, List.filter_map]
      rfl

theorem forall₂_numbered (labels : List String) (data : List (List String)) :
    List.Forall₂ (fun row r => r.cells = Labelled.ofList (labels.zip row)) data
      (numbered labels data) := by
  refine List.forall₂_iff_get.2 ⟨by simp [numbered], fun i _ _ => ?_⟩
  simp [numbered]

theorem keepsCells_iff_nodup {labels : List String} {kept : List Nat} {source : List String}
    {r : Row} (hlength : labels.length = kept.length)
    (hr : r.cells = Labelled.ofList (labels.zip (projectRow kept source))) :
    KeepsCells kept source r ↔ (labels.map headerForm).Nodup := by
  have hlength' : labels.length = (projectRow kept source).length := by
    rw [projectRow, List.length_map, hlength]
  have hfst : (labels.zip (projectRow kept source)).map Prod.fst = labels :=
    List.map_fst_zip (Nat.le_of_eq hlength')
  have hsnd : (labels.zip (projectRow kept source)).map Prod.snd = projectRow kept source :=
    List.map_snd_zip (Nat.le_of_eq hlength'.symm)
  have hforms : ((labels.zip (projectRow kept source)).map fun e => headerForm e.1) =
      labels.map headerForm := by
    rw [← hfst, List.map_map, hfst]
    rfl
  constructor
  · intro h
    have hcount : r.cells.entries.length = (labels.zip (projectRow kept source)).length := by
      have htexts := congrArg List.length (h.texts.trans hsnd.symm)
      rwa [Labelled.values, List.length_map, List.length_map] at htexts
    rw [hr] at hcount
    have hnodup := h.nodup_forms
    rw [hr, Labelled.entries_ofList (Labelled.nodup_of_length_ofList hcount), hforms] at hnodup
    exact hnodup
  · intro h
    have hentries : r.cells.entries = labels.zip (projectRow kept source) := by
      rw [hr, Labelled.entries_ofList]
      rw [hfst]
      exact h.of_map
    refine ⟨?_, ?_⟩
    · rw [Labelled.values, hentries, hsnd, projectRow]
    · rwa [hentries, hforms]

/-- The rows of a statement come from rows of its tables, in their order, and each keeps the cells
of its source iff the labels of the columns stay apart. -/
theorem statementRows_keepsCells_iff (l : Layout) (tables : List Table) :
    ∃ sources, sources.Sublist ((select l.expectedHeaders tables).flatMap (·.rows)) ∧
      List.Forall₂ (fun source r =>
          KeepsCells (frameOf l.expectedHeaders (select l.expectedHeaders tables)).kept source r ↔
            LabelsApart (frameOf l.expectedHeaders (select l.expectedHeaders tables)).header)
        sources (statementRows l tables) := by
  rw [statementRows]
  generalize select l.expectedHeaders tables = selected
  obtain ⟨sources, hsub, hdata⟩ := exists_dataRows_eq l.expectedHeaders selected
  refine ⟨sources, hsub, ?_⟩
  have hlength : (labelsOf l.expectedHeaders selected).length =
      (frameOf l.expectedHeaders selected).kept.length := by
    rw [labelsOf_eq, length_columnLabels, length_header_frameOf]
  have hrows := forall₂_numbered (labelsOf l.expectedHeaders selected)
    (dataRows l.expectedHeaders selected)
  rw [hdata, project, List.forall₂_map_left_iff] at hrows
  rw [hdata]
  refine hrows.imp fun source r hr => ?_
  rw [keepsCells_iff_nodup hlength hr, labelsOf_eq, nodup_forms_columnLabels_iff]

def amountLayout : Layout := { number? := some "a", dateFormat? := some "DD/MM/YYYY" }

def repeatedHeaders : Table := ⟨1, [["a", "", "A"], ["1", "2", "3", "4"], ["", "5"]]⟩

theorem cellsKept_repeatedHeaders :
    (statementRows amountLayout [repeatedHeaders]).length = 2 ∧
      CellsKept amountLayout.expectedHeaders (select amountLayout.expectedHeaders [repeatedHeaders])
        (statementRows amountLayout [repeatedHeaders]) := by
  have hforms : ((columnLabels (frameOf amountLayout.expectedHeaders
      (select amountLayout.expectedHeaders [repeatedHeaders])).header).map headerForm).Nodup := by
    decide +kernel
  obtain ⟨sources, hsub, hrows⟩ := statementRows_keepsCells_iff amountLayout [repeatedHeaders]
  exact ⟨by decide +kernel, sources, hsub,
    hrows.imp fun _ _ hkeeps => hkeeps.2 (nodup_forms_columnLabels_iff.1 hforms)⟩

def spelledOutLabel : Table := ⟨1, [["a_2", "a", "a"], ["1", "2", "3"]]⟩

/-- The label of the third column is the header of the first, and the text `1` is lost. -/
theorem statementRows_lose_a_cell :
    ¬ CellsKept amountLayout.expectedHeaders (select amountLayout.expectedHeaders [spelledOutLabel])
      (statementRows amountLayout [spelledOutLabel]) := by
  have hrows : statementRows amountLayout [spelledOutLabel] =
      [⟨1, .ofList [("a_2", "3"), ("a", "2")]⟩] := by
    decide +kernel
  have hkept : (frameOf amountLayout.expectedHeaders
      (select amountLayout.expectedHeaders [spelledOutLabel])).kept = [0, 1, 2] := by decide +kernel
  rintro ⟨sources, -, hkeeps⟩
  rw [hrows, hkept] at hkeeps
  cases hkeeps with
  | cons h _ =>
    have hcount : 2 = 3 := congrArg List.length h.texts
    exact absurd hcount (by decide)

end Payables.Table
