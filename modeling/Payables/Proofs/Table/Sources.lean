import Mathlib.Data.Finset.Card
import Mathlib.Data.List.Forall2
import Payables.Proofs.Table.Cells
import Payables.Proofs.Table.Columns
import Payables.Proofs.Table.Selection

/-!
# Which rows are read

The rows of a statement are numbered from one, and they come one for one, in page order and row
order, from rows of the selected tables. A row of a table is passed over if it does not stand below
the header, if it is blank in all kept columns, or if it is the first written row of a later page
and shows the header once more; every other row is read (`statementRows_readsTables`).
-/

namespace Payables.Table

open Text

def headerForms (header : List String) : Finset String := (header.map headerForm).toFinset.erase ""

/-- The row shows at least half of the header's forms, counted cell by cell, and at least one. -/
def ShowsHeader (header row : List String) : Prop :=
  max 1 ((headerForms header).card / 2) ≤
    row.countP fun cell => headerForm cell ∈ headerForms header

instance (header row : List String) : Decidable (ShowsHeader header row) :=
  inferInstanceAs (Decidable (_ ≤ _))

theorem mem_headerForms_iff {header : List String} {form : String} :
    form ∈ headerForms header ↔ form ∈ distinct ((header.map headerForm).filter (!·.isEmpty)) := by
  simp [headerForms, mem_distinct, and_comm]

theorem card_headerForms (header : List String) : (headerForms header).card =
    (distinct ((header.map headerForm).filter (!·.isEmpty))).length := by
  rw [← List.toFinset_card_of_nodup (nodup_distinct _)]
  congr 1
  ext form
  rw [List.mem_toFinset, mem_headerForms_iff]

theorem repeatsHeader_iff {header row : List String} :
    repeatsHeader header row = true ↔ ShowsHeader header row := by
  have hcount : (row.filter fun cell =>
      (distinct ((header.map headerForm).filter (!·.isEmpty))).contains (headerForm cell)).length =
        row.countP fun cell => headerForm cell ∈ headerForms header := by
    rw [← List.countP_eq_length_filter]
    refine List.countP_congr fun cell _ => ?_
    rw [List.contains_iff_mem, ← mem_headerForms_iff, decide_eq_true_iff]
  simp only [repeatsHeader, Bool.and_eq_true, decide_eq_true_eq, hcount, ← card_headerForms,
    ShowsHeader, max_comm]
  -- a header without forms is not shown, since at least one cell has to show it
  refine and_iff_right_of_imp fun hshows => ?_
  obtain ⟨cell, -, hcell⟩ := List.countP_pos_iff.1 (Nat.lt_of_lt_of_le Nat.zero_lt_one
    ((Nat.le_max_left 1 _).trans hshows))
  rw [decide_eq_true_iff, mem_headerForms_iff] at hcell
  simpa using List.ne_nil_of_mem hcell

/-- A row of a table, with the page of the table and the index of the row. -/
structure Source where
  page : UInt32
  index : Nat
  row : List String
deriving DecidableEq

namespace Source

def Before (a b : Source) : Prop := a.page < b.page ∨ a.page = b.page ∧ a.index < b.index

def IsIn (tables : List Table) (s : Source) : Prop :=
  ∃ t ∈ tables, t.page = s.page ∧ t.rows[s.index]? = some s.row

end Source

/-- Why a row is passed over: it does not stand below the header of the first table, it is blank in
all kept columns, or it is the first written row of a later table and shows the header. -/
def PassedOver (expected : List String) (tables : List Table) (t : Table) (index : Nat)
    (row : List String) : Prop :=
  (tables.head? = some t ∧ index ≤ headerRow t.rows expected) ∨
    isBlankRow (projectRow (frameOf expected tables).kept row) = true ∨
    (tables.head? ≠ some t ∧ t.rows.findIdx? (!isBlankRow ·) = some index ∧
      ShowsHeader (frameOf expected tables).header
        (projectRow (frameOf expected tables).kept row))

instance (expected : List String) (tables : List Table) (t : Table) (index : Nat)
    (row : List String) : Decidable (PassedOver expected tables t index row) :=
  inferInstanceAs (Decidable (_ ∨ _ ∨ _))

def sourcesOf (expected : List String) (tables : List Table) : List Source :=
  tables.flatMap fun t =>
    (t.rows.zipIdx.filter fun r => ¬ PassedOver expected tables t r.2 r.1).map fun r =>
      ⟨t.page, r.2, r.1⟩

/-- The rows of a statement are read from the tables: numbered from one, one for one from sources
that stand in the order of the pages and rows, and from all rows that are not passed over. -/
structure ReadsTables (expected : List String) (tables : List Table) (sources : List Source)
    (rows : List Row) : Prop where
  ordinals : rows.map (·.ordinal) = List.range' 1 rows.length
  cells : List.Forall₂ (fun s r => r.cells =
    .ofList ((labelsOf expected tables).zip (projectRow (frameOf expected tables).kept s.row)))
    sources rows
  ordered : sources.Pairwise Source.Before
  isIn : ∀ s ∈ sources, s.IsIn tables
  mem_iff : ∀ t ∈ tables, ∀ (i : Nat) (row : List String), t.rows[i]? = some row →
    (⟨t.page, i, row⟩ ∈ sources ↔ ¬ PassedOver expected tables t i row)
  /-- Of a later table at most one row with a text in a kept column is left out. -/
  eq_of_left_out : ∀ t ∈ tables.tail, ∀ (i j : Nat) (row row' : List String),
    t.rows[i]? = some row → t.rows[j]? = some row' →
    isBlankRow (projectRow (frameOf expected tables).kept row) = false →
    isBlankRow (projectRow (frameOf expected tables).kept row') = false →
    ⟨t.page, i, row⟩ ∉ sources → ⟨t.page, j, row'⟩ ∉ sources → i = j

variable {expected : List String} {tables : List Table}

theorem mem_sourcesOf_iff {s : Source} : s ∈ sourcesOf expected tables ↔
    ∃ t ∈ tables, t.page = s.page ∧ t.rows[s.index]? = some s.row ∧
      ¬ PassedOver expected tables t s.index s.row := by
  obtain ⟨page, index, row⟩ := s
  simp only [sourcesOf, List.mem_flatMap, List.mem_map, List.mem_filter, Prod.exists,
    List.mem_zipIdx_iff_getElem?, decide_eq_true_eq, Source.mk.injEq]
  constructor
  · rintro ⟨t, ht, row, index, ⟨hrow, hread⟩, rfl, rfl, rfl⟩
    exact ⟨t, ht, rfl, hrow, hread⟩
  · rintro ⟨t, ht, rfl, hrow, hread⟩
    exact ⟨t, ht, row, index, ⟨hrow, hread⟩, rfl, rfl, rfl⟩

theorem pairwise_sourcesOf (hpages : tables.Pairwise fun a b => a.page < b.page) :
    (sourcesOf expected tables).Pairwise Source.Before := by
  refine List.pairwise_flatMap.2 ⟨fun t _ => ?_, hpages.imp fun {a b} hlt => ?_⟩
  · refine List.pairwise_map.2 (List.Pairwise.filter _ ?_)
    have hidx : (t.rows.zipIdx.map Prod.snd).Pairwise (· < ·) := by
      rw [List.zipIdx_map_snd]
      exact List.pairwise_lt_range'
    exact (List.pairwise_map.1 hidx).imp fun hlt => .inr ⟨rfl, hlt⟩
  · intro x hx y hy
    obtain ⟨r, -, rfl⟩ := List.mem_map.1 hx
    obtain ⟨r', -, rfl⟩ := List.mem_map.1 hy
    exact .inl hlt

theorem drop_eq_map_filter_zipIdx {α : Type} (as : List α) (m n : Nat) :
    as.drop (m - n) = ((as.zipIdx n).filter fun r => m ≤ r.2).map Prod.fst := by
  induction as generalizing n with
  | nil => simp
  | cons a as ih =>
    rw [List.zipIdx_cons]
    by_cases h : m ≤ n
    · rw [List.filter_cons_of_pos (by simpa using h), List.map_cons, ← ih (n + 1)]
      have hzero : m - n = 0 ∧ m - (n + 1) = 0 := by omega
      rw [hzero.1, hzero.2, List.drop_zero, List.drop_zero]
    · rw [List.filter_cons_of_neg (by simpa using h), ← ih (n + 1)]
      have hsucc : m - n = m - (n + 1) + 1 := by omega
      rw [hsucc, List.drop_succ_cons]

theorem map_filter_zipIdx {α β : Type} (p : α → Bool) (g : α → β) (as : List α) (n : Nat) :
    ((as.zipIdx n).filter fun r => p r.1).map (fun r => g r.1) = (as.filter p).map g := by
  conv_rhs => rw [← List.zipIdx_map_fst n as, List.filter_map, List.map_map]
  rfl

theorem exists_blanks_before {rows : List (List String)} {first : List String}
    {rest : List (List String)} (h : rows.dropWhile isBlankRow = first :: rest) :
    ∃ blanks, rows = blanks ++ first :: rest ∧ (∀ row ∈ blanks, isBlankRow row = true) ∧
      rows.findIdx? (!isBlankRow ·) = some blanks.length := by
  induction rows with
  | nil => cases h
  | cons row rows ih =>
    rw [List.dropWhile_cons] at h
    split at h <;> rename_i hrow
    · obtain ⟨blanks, hrows, hblanks, hfind⟩ := ih h
      refine ⟨row :: blanks, by rw [hrows, List.cons_append], ?_, ?_⟩
      · exact List.forall_mem_cons.2 ⟨hrow, hblanks⟩
      · rw [List.findIdx?_cons, hrow, hfind]
        rfl
    · obtain ⟨rfl, rfl⟩ := List.cons.inj h
      refine ⟨[], rfl, by simp, ?_⟩
      rw [List.findIdx?_cons, Bool.eq_false_iff.2 hrow]
      rfl

theorem filter_project_drop (f : Frame) (rows : List (List String)) (index : Nat) :
    (project f.kept (rows.drop (index + 1))).filter (!isBlankRow ·) =
      (rows.zipIdx.filter fun r => index < r.2 ∧ isBlankRow (projectRow f.kept r.1) = false).map
        fun r => projectRow f.kept r.1 := by
  have hdrop := drop_eq_map_filter_zipIdx rows (index + 1) 0
  rw [Nat.sub_zero] at hdrop
  rw [project, List.filter_map, hdrop, List.filter_map, List.map_map, List.filter_filter]
  refine congrArg (List.map _) (List.filter_congr fun r _ => ?_)
  rw [Bool.eq_iff_iff]
  simp only [Function.comp_apply, Bool.and_eq_true, Bool.not_eq_true', decide_eq_true_eq,
    Nat.succ_le_iff, and_comm]

theorem filter_zipIdx_of_blank (f : Frame) (top? : Option Nat) {rows : List (List String)}
    (h : ∀ row ∈ rows, isBlankRow row = true) (n : Nat) :
    ((rows.zipIdx n).filter fun r => isBlankRow (projectRow f.kept r.1) = false ∧
      ¬ (top? = some r.2 ∧ ShowsHeader f.header (projectRow f.kept r.1))) = [] := by
  refine List.filter_eq_nil_iff.2 fun r hr => ?_
  have hrow : r.1 ∈ rows := by
    rw [← List.zipIdx_map_fst n rows]
    exact List.mem_map_of_mem hr
  simp [isBlankRow_projectRow (h r.1 hrow)]

theorem filter_continued (f : Frame) (t : Table) :
    (f.continued t).filter (!isBlankRow ·) =
      (t.rows.zipIdx.filter fun r => isBlankRow (projectRow f.kept r.1) = false ∧
        ¬ (t.rows.findIdx? (!isBlankRow ·) = some r.2 ∧
          ShowsHeader f.header (projectRow f.kept r.1))).map fun r => projectRow f.kept r.1 := by
  cases hdata : t.rows.dropWhile isBlankRow with
  | nil =>
    rw [filter_zipIdx_of_blank f _ (List.dropWhile_eq_nil_iff.1 hdata), Frame.continued, hdata]
    rfl
  | cons first rest =>
    obtain ⟨blanks, hrows, hblanks, hfind⟩ := exists_blanks_before hdata
    -- below the first written row nothing is compared with the header
    have hrest : ((rest.zipIdx (blanks.length + 1)).filter fun r =>
        isBlankRow (projectRow f.kept r.1) = false ∧ ¬ (some blanks.length = some r.2 ∧
          ShowsHeader f.header (projectRow f.kept r.1))).map (fun r => projectRow f.kept r.1) =
        (project f.kept rest).filter (!isBlankRow ·) := by
      rw [project, List.filter_map, ← map_filter_zipIdx _ _ rest (blanks.length + 1)]
      refine congrArg (List.map _) (List.filter_congr fun r hr => ?_)
      have hlt := List.le_snd_of_mem_zipIdx hr
      have hne : blanks.length ≠ r.2 := by omega
      simp [hne]
    rw [hfind, hrows, List.zipIdx_append, List.filter_append,
      filter_zipIdx_of_blank f _ hblanks, List.nil_append, Nat.zero_add, List.zipIdx_cons]
    have hcontinued : f.continued t =
        if repeatsHeader f.header (projectRow f.kept first) then project f.kept rest
        else projectRow f.kept first :: project f.kept rest := f.continued_eq hdata
    by_cases hshows : ShowsHeader f.header (projectRow f.kept first)
    · rw [List.filter_cons_of_neg (by simp [hshows]), hrest, hcontinued,
        if_pos (repeatsHeader_iff.2 hshows)]
    · rw [hcontinued, if_neg fun h => hshows (repeatsHeader_iff.1 h)]
      cases hblank : isBlankRow (projectRow f.kept first) with
      | true =>
        rw [List.filter_cons_of_neg (by simp [hblank]), List.filter_cons_of_neg (by simp [hblank]),
          hrest]
      | false =>
        rw [List.filter_cons_of_pos (by simp [hblank]),
          List.filter_cons_of_pos (by simp [hblank, hshows]), List.map_cons, hrest]

variable {t : Table} {i : Nat} {row : List String}

theorem passedOver_first_iff {later : List Table} : PassedOver expected (t :: later) t i row ↔
    ¬ (headerRow t.rows expected < i ∧
      isBlankRow (projectRow (frameOf expected (t :: later)).kept row) = false) := by
  simp [PassedOver, imp_iff_not_or]

theorem passedOver_later_iff (h : tables.head? ≠ some t) : PassedOver expected tables t i row ↔
    ¬ (isBlankRow (projectRow (frameOf expected tables).kept row) = false ∧
      ¬ (t.rows.findIdx? (!isBlankRow ·) = some i ∧ ShowsHeader (frameOf expected tables).header
        (projectRow (frameOf expected tables).kept row))) := by
  simp [PassedOver, h, imp_iff_not_or]

theorem mk_mem_sourcesOf_iff (hpages : tables.Pairwise fun a b => a.page < b.page)
    (ht : t ∈ tables) (hrow : t.rows[i]? = some row) :
    ⟨t.page, i, row⟩ ∈ sourcesOf expected tables ↔ ¬ PassedOver expected tables t i row := by
  have hnodup : (tables.map (·.page)).Nodup :=
    List.pairwise_map.2 (hpages.imp fun hlt => UInt32.ne_of_lt hlt)
  rw [mem_sourcesOf_iff]
  constructor
  · rintro ⟨t', ht', hpage, -, hread⟩
    obtain rfl := List.inj_on_of_nodup_map hnodup ht' ht hpage
    exact hread
  · exact fun hread => ⟨t, ht, rfl, hrow, hread⟩

theorem head?_ne_of_mem_tail (hpages : tables.Pairwise fun a b => a.page < b.page)
    (ht : t ∈ tables.tail) : tables.head? ≠ some t := by
  cases tables with
  | nil => cases ht
  | cons first later =>
    intro hfirst
    obtain rfl := Option.some.inj hfirst
    exact UInt32.lt_irrefl _ (List.rel_of_pairwise_cons hpages ht)

theorem dataRows_eq_map_sourcesOf (hpages : tables.Pairwise fun a b => a.page < b.page) :
    dataRows expected tables =
      (sourcesOf expected tables).map fun s => projectRow (frameOf expected tables).kept s.row := by
  cases tables with
  | nil => rfl
  | cons first later =>
    rw [dataRows_cons, List.filter_append, filter_project_drop, List.filter_flatMap, sourcesOf,
      List.flatMap_cons, List.map_append, List.map_flatMap, List.map_map]
    refine congrArg₂ (· ++ ·) ?_ (List.flatMap_congr fun t ht => ?_)
    · refine congrArg (List.map _) (List.filter_congr fun r _ => decide_eq_decide.2 ?_)
      rw [passedOver_first_iff, not_not]
    · rw [filter_continued, List.map_map]
      refine congrArg (List.map _) (List.filter_congr fun r _ => decide_eq_decide.2 ?_)
      rw [passedOver_later_iff (head?_ne_of_mem_tail hpages ht), not_not]

theorem ordinals_numbered (labels : List String) (data : List (List String)) :
    (numbered labels data).map (·.ordinal) = List.range' 1 (numbered labels data).length := by
  calc (numbered labels data).map (·.ordinal) = (data.zipIdx.map Prod.snd).map (· + 1) := by
        rw [numbered, List.map_map, List.map_map]
        rfl
    _ = List.range' 1 (numbered labels data).length := by
        rw [List.zipIdx_map_snd, ← List.range'_succ_left, numbered, List.length_map,
          List.length_zipIdx]

/-- Of a later table only a row that repeats the header is passed over if it is not blank. -/
theorem findIdx?_of_passedOver (hpages : tables.Pairwise fun a b => a.page < b.page)
    (ht : t ∈ tables.tail)
    (hwritten : isBlankRow (projectRow (frameOf expected tables).kept row) = false)
    (hpassed : PassedOver expected tables t i row) :
    t.rows.findIdx? (!isBlankRow ·) = some i := by
  rw [passedOver_later_iff (head?_ne_of_mem_tail hpages ht), not_and_not_right] at hpassed
  exact (hpassed hwritten).1

/-- For any layout and any tables: the selected tables are tables of the statement in page order,
and the rows are read from them. -/
theorem statementRows_readsTables (l : Layout) (tables : List Table) :
    (∀ t ∈ select l.expectedHeaders tables, t ∈ tables) ∧
      ((select l.expectedHeaders tables).Pairwise fun a b => a.page < b.page) ∧
      ∃ sources, ReadsTables l.expectedHeaders (select l.expectedHeaders tables) sources
        (statementRows l tables) := by
  have hpages := pairwise_page_select l.expectedHeaders tables
  refine ⟨fun _ => mem_of_mem_select, hpages, ?_⟩
  rw [statementRows]
  generalize select l.expectedHeaders tables = selected at hpages
  refine ⟨sourcesOf l.expectedHeaders selected, ?_⟩
  constructor
  case ordinals => exact ordinals_numbered _ _
  case cells =>
    have hrows := forall₂_numbered (labelsOf l.expectedHeaders selected)
      (dataRows l.expectedHeaders selected)
    have hdata := @dataRows_eq_map_sourcesOf l.expectedHeaders selected hpages
    rwa [hdata, List.forall₂_map_left_iff, ← hdata] at hrows
  case ordered => exact pairwise_sourcesOf hpages
  case isIn =>
    intro s hs
    obtain ⟨t, ht, hpage, hrow, -⟩ := mem_sourcesOf_iff.1 hs
    exact ⟨t, ht, hpage, hrow⟩
  case mem_iff => exact fun t ht i row => mk_mem_sourcesOf_iff hpages ht
  case eq_of_left_out =>
    intro t ht i j row row' hi hj hwritten hwritten' hleft hleft'
    rw [mk_mem_sourcesOf_iff hpages (List.mem_of_mem_tail ht) hi, not_not] at hleft
    rw [mk_mem_sourcesOf_iff hpages (List.mem_of_mem_tail ht) hj, not_not] at hleft'
    have htop := findIdx?_of_passedOver hpages ht hwritten hleft
    rw [findIdx?_of_passedOver hpages ht hwritten' hleft'] at htop
    exact (Option.some.inj htop).symm

end Payables.Table
