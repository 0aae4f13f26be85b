import Payables.Proofs.Table.BlankRows
import Payables.Proofs.Text.NormalForm

/-!
# The header row

Tables are scored against headers that are in normal form already, and they are read against the
headers as they are configured. Both ways find the same header row, since normal forms stay as they
are: the first of the rows looked at with the most hits, and always a row of a table that has rows
(`headerRow_agrees`). So no access to a row goes beyond the rows: with accesses that may fail,
scoring and reading still succeed, and with the same answers (`score?_eq`, `statementRows?_eq`).
-/

namespace Payables.Table

open Text

variable {headers expected : List String} {rows : List (List String)} {t : Table} {index : Nat}

theorem headerForm_of_mem_usableHeaders {form : String} (h : form ∈ usableHeaders expected) :
    headerForm form = form := by
  obtain ⟨header, -, rfl⟩ := List.mem_map.1 (List.mem_of_mem_filter h)
  exact headerForm_headerForm header

theorem usableHeaders_usableHeaders (expected : List String) :
    usableHeaders (usableHeaders expected) = usableHeaders expected := by
  have hforms : (usableHeaders expected).map headerForm = usableHeaders expected :=
    (List.map_congr_left fun _ => headerForm_of_mem_usableHeaders).trans (List.map_id _)
  rw [usableHeaders, hforms, usableHeaders, List.filter_filter]
  simp only [Bool.and_self]

theorem headerRow_usableHeaders (rows : List (List String)) (expected : List String) :
    headerRow rows (usableHeaders expected) = headerRow rows expected := by
  rw [headerRow, headerRow, usableHeaders_usableHeaders]

/-- No row has more hits than the row at the index, and the rows before it have fewer. -/
def IsFirstMost (headers : List String) (rows : List (List String)) (index : Nat) : Prop :=
  ∃ row, rows[index]? = some row ∧ (∀ r ∈ rows, headerHits headers r ≤ headerHits headers row) ∧
    ∀ r ∈ rows.take index, headerHits headers r < headerHits headers row

/-- What the search has noted: the most hits of a row and the first row that has them, or nothing
as long as there are no hits. -/
structure NotesMost (headers : List String) (rows : List (List String)) (best : Nat × Nat) :
    Prop where
  le : ∀ r ∈ rows, headerHits headers r ≤ best.2
  first : best = (0, 0) ∨ ∃ row, rows[best.1]? = some row ∧ headerHits headers row = best.2 ∧
    ∀ r ∈ rows.take best.1, headerHits headers r < best.2

theorem NotesMost.concat {best : Nat × Nat} (h : NotesMost headers rows best)
    (row : List String) :
    NotesMost headers (rows ++ [row]) (noteHits headers best (row, rows.length)) := by
  rw [noteHits]
  split
  case isTrue hmore =>
    have hlt : ∀ r ∈ rows, headerHits headers r < headerHits headers row := by
      intro r hr
      exact Nat.lt_of_le_of_lt (h.le r hr) hmore
    constructor
    case le =>
      rw [List.forall_mem_append]
      exact ⟨fun r hr => Nat.le_of_lt (hlt r hr), by simp⟩
    case first =>
      refine .inr ⟨row, by simp, rfl, ?_⟩
      rwa [List.take_left]
  case isFalse hnot =>
    constructor
    case le =>
      rw [List.forall_mem_append]
      exact ⟨h.le, by simpa using hnot⟩
    case first =>
      rcases h.first with hnone | ⟨first, hfirst, hhits, hbefore⟩
      · exact .inl hnone
      · have hlt : best.1 < rows.length := (List.getElem?_eq_some_iff.1 hfirst).1
        refine .inr ⟨first, ?_, hhits, ?_⟩
        · rw [List.getElem?_append_left hlt, hfirst]
        · rwa [List.take_append_of_le_length (Nat.le_of_lt hlt)]

theorem notesMost_foldl (headers : List String) (rows : List (List String)) :
    NotesMost headers rows (rows.zipIdx.foldl (noteHits headers) (0, 0)) := by
  induction rows using List.reverseRecOn with
  | nil => exact ⟨List.forall_mem_nil _, .inl rfl⟩
  | append_singleton rows row ih =>
    rw [List.zipIdx_append, List.foldl_append, List.zipIdx_singleton, Nat.zero_add]
    exact ih.concat row

theorem isFirstMost_mostHits (headers : List String) (hrows : rows ≠ []) :
    IsFirstMost headers rows (mostHits headers rows) := by
  have hmost := notesMost_foldl headers rows
  rw [mostHits]
  rcases hmost.first with hnone | ⟨row, hrow, hhits, hbefore⟩
  · -- nothing is noted, so no row has hits, and the first row stands for them
    rw [hnone] at hmost ⊢
    obtain ⟨row, rest, rfl⟩ := List.exists_cons_of_ne_nil hrows
    refine ⟨row, rfl, fun r hr => ?_, by simp⟩
    exact (hmost.le r hr).trans (Nat.zero_le _)
  · refine ⟨row, hrow, ?_, ?_⟩
    · rw [hhits]
      exact hmost.le
    · rwa [hhits]

theorem mostHits_eq_zero (h : ∀ r ∈ rows, headerHits headers r = 0) :
    mostHits headers rows = 0 := by
  rw [mostHits, foldl_noteHits_of_le fun r hr => Nat.le_of_eq (h r hr)]

theorem headerRow_of_usable (h : usableHeaders expected ≠ []) (rows : List (List String)) :
    headerRow rows expected = mostHits (usableHeaders expected) (rows.take headerDepth) := by
  rw [headerRow]
  split
  · contradiction
  · rfl

theorem take_headerDepth_ne_nil (hrows : rows ≠ []) : rows.take headerDepth ≠ [] := by
  rw [Ne, List.take_eq_nil_iff]
  simp [headerDepth, hrows]

theorem headerRow_lt (expected : List String) (hrows : rows ≠ []) :
    headerRow rows expected < rows.length := by
  have hpos : 0 < rows.length := List.length_pos_of_ne_nil hrows
  by_cases husable : usableHeaders expected = []
  · rw [headerRow, husable]
    cases hfind : rows.findIdx? (!isBlankRow ·) with
    | none => exact hpos
    | some k => exact (List.findIdx?_eq_some_iff_getElem.1 hfind).1
  · obtain ⟨row, hrow, -, -⟩ :=
      isFirstMost_mostHits (usableHeaders expected) (take_headerDepth_ne_nil hrows)
    have hlt := (List.getElem?_eq_some_iff.1 hrow).1
    rw [headerRow_of_usable husable]
    exact Nat.lt_of_lt_of_le hlt (List.length_take_le' _ _)

def rowsFrom? (rows : List (List String)) (index : Nat) : Option (List (List String)) :=
  if index ≤ rows.length then some (rows.drop index) else none

theorem rowsFrom?_eq_some (h : index ≤ rows.length) :
    rowsFrom? rows index = some (rows.drop index) :=
  if_pos h

theorem getElem?_eq_some_getD (h : index < rows.length) :
    rows[index]? = some (rows.getD index []) := by
  rw [List.getD_eq_getElem?_getD, List.getElem?_eq_getElem h, Option.getD_some]

/-- The score of a table, if its header row and the rows below it are there. -/
def score? (headers : List String) (t : Table) : Option Binary64 :=
  if t.rows = [] then some (-.infinity)
  else do
    let index := headerRow t.rows headers
    let header ← t.rows[index]?
    let data ← rowsFrom? t.rows (index + 1)
    return scoreOf headers t header data

theorem score?_eq (headers : List String) (t : Table) :
    score? headers t = some (score headers t) := by
  rw [score?, score]
  split
  case isTrue => rfl
  case isFalse hrows =>
    have hlt := headerRow_lt headers hrows
    dsimp only
    rw [getElem?_eq_some_getD hlt, rowsFrom?_eq_some hlt]
    rfl

def Frame.continued? (f : Frame) (t : Table) : Option (List (List String)) := do
  let start := (t.rows.findIdx? (!isBlankRow ·)).getD t.rows.length
  let data ← rowsFrom? (project f.kept t.rows) start
  match data with
  | row :: _ => if repeatsHeader f.header row then rowsFrom? data 1 else return data
  | [] => return []

theorem Frame.continued?_eq (f : Frame) (t : Table) : f.continued? t = some (f.continued t) := by
  cases hdata : t.rows.dropWhile isBlankRow with
  | nil =>
    have hblanks := List.dropWhile_eq_nil_iff.1 hdata
    have hfind : t.rows.findIdx? (!isBlankRow ·) = none := by simpa using hblanks
    have hlength : t.rows.length = (project f.kept t.rows).length := (List.length_map _).symm
    rw [continued?, continued, hfind, hdata, Option.getD_none, hlength,
      rowsFrom?_eq_some (Nat.le_refl _), List.drop_length]
    rfl
  | cons first rest =>
    obtain ⟨blanks, hrows, -, hfind⟩ := exists_blanks_before hdata
    have hlength : blanks.length ≤ (project f.kept t.rows).length := by
      rw [project, List.length_map, hrows, List.length_append]
      exact Nat.le_add_right _ _
    have hdrop : (project f.kept t.rows).drop blanks.length =
        projectRow f.kept first :: project f.kept rest := by
      rw [project, ← List.map_drop, hrows, List.drop_left]
      rfl
    rw [continued?, hfind, Option.getD_some, rowsFrom?_eq_some hlength, hdrop,
      f.continued_eq hdata]
    change (if repeatsHeader f.header (projectRow f.kept first) then _ else _) = _
    split
    · rfl
    · rfl

/-- The rows of a statement, if its header row and all rows that are read are there. -/
def statementRows? (l : Layout) (tables : List Table) : Option (List Row) :=
  match select l.expectedHeaders tables with
  | [] => some []
  | first :: later => do
    let index := headerRow first.rows l.expectedHeaders
    let kept := distinctColumns first.rows index
    let grid := project kept first.rows
    let header ← grid[index]?
    let data ← rowsFrom? grid (index + 1)
    let rest ← later.mapM (Frame.continued? ⟨kept, header⟩)
    return numbered (columnLabels header) ((data ++ rest.flatten).filter (!isBlankRow ·))

theorem statementRows?_eq (l : Layout) (tables : List Table) :
    statementRows? l tables = some (statementRows l tables) := by
  have hselected := (selectsByPage_select l.expectedHeaders tables).isOf
  rw [statementRows?, statementRows, labelsOf_eq]
  cases hselect : select l.expectedHeaders tables with
  | nil => rfl
  | cons first later =>
    rw [hselect] at hselected
    have hlt := headerRow_lt l.expectedHeaders (hselected first List.mem_cons_self).2
    have hlength (kept : List Nat) :
        headerRow first.rows l.expectedHeaders + 1 ≤ (project kept first.rows).length := by
      rwa [project, List.length_map]
    have hheader (kept : List Nat) :
        (project kept first.rows)[headerRow first.rows l.expectedHeaders]? =
          some (projectRow kept (first.rows.getD (headerRow first.rows l.expectedHeaders) [])) := by
      rw [project, List.getElem?_map, getElem?_eq_some_getD hlt]
      rfl
    have hlater (f : Frame) : later.mapM f.continued? = some (later.map f.continued) := by
      rw [funext f.continued?_eq]
      exact List.mapM_pure
    rw [dataRows_cons, frameOf_cons, Frame.ofTable, project, List.map_drop]
    simp only [hheader, rowsFrom?_eq_some (hlength _), hlater, Option.bind_eq_bind,
      Option.bind_some]
    rfl

/-- The header row is found in the same way for configured headers and for their usable forms. With
a usable header it is the first of the rows looked at with the most hits, the first row of all if
there are none; and a table that has rows has it, so that every row that the score looks at is
there. -/
structure FindsHeader (expected : List String) (t : Table) : Prop where
  same : headerRow t.rows (usableHeaders expected) = headerRow t.rows expected
  isFirstMost : usableHeaders expected ≠ [] → t.rows ≠ [] →
    IsFirstMost (usableHeaders expected) (t.rows.take headerDepth) (headerRow t.rows expected)
  eq_zero : usableHeaders expected ≠ [] →
    (∀ r ∈ t.rows.take headerDepth, headerHits (usableHeaders expected) r = 0) →
      headerRow t.rows expected = 0
  lt_length : t.rows ≠ [] → headerRow t.rows expected < t.rows.length
  score?_eq : score? (usableHeaders expected) t = some (score (usableHeaders expected) t)

/-- For any headers and any table the header row is found, and for any layout and any tables the
rows are read without an access that fails. -/
theorem headerRow_agrees (expected : List String) (t : Table) (l : Layout) (tables : List Table) :
    FindsHeader expected t ∧ statementRows? l tables = some (statementRows l tables) := by
  constructor
  · constructor
    case same => exact headerRow_usableHeaders t.rows expected
    case isFirstMost =>
      intro husable hrows
      rw [headerRow_of_usable husable]
      exact isFirstMost_mostHits (usableHeaders expected) (take_headerDepth_ne_nil hrows)
    case eq_zero =>
      intro husable hnone
      rw [headerRow_of_usable husable]
      exact mostHits_eq_zero hnone
    case lt_length => exact headerRow_lt expected
    case score?_eq => exact Table.score?_eq (usableHeaders expected) t
  · exact statementRows?_eq l tables

end Payables.Table
