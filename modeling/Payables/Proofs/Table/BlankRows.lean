import Payables.Proofs.Table.Arrival
import Payables.Proofs.Table.Sources

/-!
# Blank rows

A blank row may be put below the header of the first table, or anywhere into the table of a later
page, and the rows of the statement stay the same (`statementRows_insertBlank`). It has no hits in
the search for the header row, which stays above it; it tells no columns apart; and whatever is read
of it is dropped.
-/

namespace Payables.Table

open Text

variable {headers expected : List String} {above below below' : List (List String)}
  {blank : List String} {header : Nat}

theorem le_fst_foldl_noteHits {n k : Nat} {best : Nat × Nat} (hbest : n ≤ best.1) (hk : n ≤ k)
    (rows : List (List String)) : n ≤ ((rows.zipIdx k).foldl (noteHits headers) best).1 := by
  induction rows generalizing k best with
  | nil => exact hbest
  | cons row rows ih =>
    rw [List.zipIdx_cons, List.foldl_cons, noteHits]
    split
    · exact ih hk (Nat.le_succ_of_le hk)
    · exact ih hbest (Nat.le_succ_of_le hk)

/-- The best row stays the best if no later row has more hits, and only then. -/
theorem foldl_noteHits_of_le {k : Nat} {best : Nat × Nat} {rows : List (List String)}
    (h : ∀ row ∈ rows, headerHits headers row ≤ best.2) :
    (rows.zipIdx k).foldl (noteHits headers) best = best := by
  induction rows generalizing k with
  | nil => rfl
  | cons row rows ih =>
    obtain ⟨hrow, hrows⟩ := List.forall_mem_cons.1 h
    rw [List.zipIdx_cons, List.foldl_cons, noteHits, if_neg (Nat.not_lt.2 hrow), ih hrows]

theorem hits_le_of_fst_lt {k : Nat} {best : Nat × Nat} {rows : List (List String)}
    (h : ((rows.zipIdx k).foldl (noteHits headers) best).1 < k) :
    ∀ row ∈ rows, headerHits headers row ≤ best.2 := by
  induction rows generalizing k best with
  | nil => simp
  | cons row rows ih =>
    rw [List.zipIdx_cons, List.foldl_cons, noteHits] at h
    split at h <;> rename_i hrow
    · have hle : k ≤
          ((rows.zipIdx (k + 1)).foldl (noteHits headers) (k, headerHits headers row)).1 :=
        le_fst_foldl_noteHits (Nat.le_refl k) (Nat.le_succ k) rows
      exact absurd h (Nat.not_lt.2 hle)
    · exact List.forall_mem_cons.2 ⟨Nat.not_lt.1 hrow, ih (Nat.lt_succ_of_lt h)⟩

/-- Rows below the best one can be replaced by rows that have no more hits. -/
theorem mostHits_append (h : mostHits headers (above ++ below) < above.length)
    (hrows : ∀ row ∈ below', row ∈ below ∨ headerHits headers row = 0) :
    mostHits headers (above ++ below') = mostHits headers (above ++ below) := by
  rw [mostHits, List.zipIdx_append, List.foldl_append, Nat.zero_add] at h
  have hle := hits_le_of_fst_lt h
  have hle' : ∀ row ∈ below',
      headerHits headers row ≤ (above.zipIdx.foldl (noteHits headers) (0, 0)).2 := by
    intro row hrow
    rcases hrows row hrow with hmem | hzero
    · exact hle row hmem
    · rw [hzero]
      exact Nat.zero_le _
  rw [mostHits, mostHits, List.zipIdx_append, List.zipIdx_append, List.foldl_append,
    List.foldl_append, foldl_noteHits_of_le hle, foldl_noteHits_of_le hle']

theorem headerHits_of_blank (headers : List String) (h : isBlankRow blank = true) :
    headerHits headers blank = 0 := by
  rw [headerHits, List.length_eq_zero_iff, List.filter_eq_nil_iff]
  intro cell hcell
  have hform : headerForm cell = "" := headerForm_of_blank (List.all_eq_true.1 h cell hcell)
  simp [fitsHeader, hform]

theorem headerRow_insert (hblank : isBlankRow blank = true)
    (h : headerRow (above ++ below) expected < above.length) :
    headerRow (above ++ blank :: below) expected = headerRow (above ++ below) expected := by
  unfold headerRow at h ⊢
  split at h
  · rw [List.findIdx?_append] at h
    rw [List.findIdx?_append, List.findIdx?_append, List.findIdx?_cons, hblank]
    cases habove : above.findIdx? (!isBlankRow ·) with
    | some k => rfl
    | none =>
      cases hbelow : below.findIdx? (!isBlankRow ·) with
      | none => rfl
      | some k =>
        rw [habove, hbelow] at h
        exact absurd h (Nat.not_lt.2 (Nat.le_add_left _ _))
  · rw [List.take_append] at h
    rw [List.take_append, List.take_append]
    by_cases hdepth : headerDepth ≤ above.length
    · rw [Nat.sub_eq_zero_of_le hdepth]
      rfl
    · have htake : above.take headerDepth = above := List.take_of_length_le (by omega)
      rw [htake] at h ⊢
      refine mostHits_append h fun row hrow => ?_
      obtain ⟨m, hm⟩ := Nat.exists_eq_add_of_lt (Nat.not_le.1 hdepth)
      have hleft : headerDepth - above.length = m + 1 := by omega
      rw [hleft, List.take_succ_cons, List.mem_cons] at hrow
      rw [hleft]
      rcases hrow with rfl | hrow
      · exact .inr (headerHits_of_blank _ hblank)
      · exact .inl ((List.take_prefix_take_left (Nat.le_succ m)).mem hrow)

theorem widthOf_insert (hlength : blank.length ≤ widthOf (above ++ below)) :
    widthOf (above ++ blank :: below) = widthOf (above ++ below) := by
  apply Nat.le_antisymm
  · refine widthOf_le_iff.2 fun row hrow => ?_
    rcases List.mem_append.1 hrow with hrow | hrow
    · exact length_le_widthOf (List.mem_append_left _ hrow)
    · rcases List.mem_cons.1 hrow with rfl | hrow
      · exact hlength
      · exact length_le_widthOf (List.mem_append_right _ hrow)
  · refine widthOf_le_iff.2 fun row hrow => length_le_widthOf ?_
    rcases List.mem_append.1 hrow with hrow | hrow
    · exact List.mem_append_left _ hrow
    · exact List.mem_append_right _ (List.mem_cons_of_mem _ hrow)

theorem columnForm_append (h : header < above.length) (below : List (List String)) (i : Nat) :
    columnForm (above ++ below) header i =
      columnForm above header i ++ below.map fun row => cellForm (cellAt row i) := by
  rw [columnForm, List.zipIdx_append, List.map_append, columnForm, Nat.zero_add]
  refine congrArg _ ?_
  rw [← List.zipIdx_map_fst above.length below, List.map_map, List.zipIdx_map_fst]
  refine List.map_congr_left fun r hr => if_neg ?_
  have hle := List.le_snd_of_mem_zipIdx hr
  omega

theorem columnForm_append_eq_iff (h : header < above.length) {i j : Nat} :
    columnForm (above ++ below) header i = columnForm (above ++ below) header j ↔
      columnForm above header i = columnForm above header j ∧
        ∀ row ∈ below, cellForm (cellAt row i) = cellForm (cellAt row j) := by
  have hlength : (columnForm above header i).length = (columnForm above header j).length := by
    simp [columnForm]
  rw [columnForm_append h, columnForm_append h, ← List.map_inj_left]
  constructor
  · exact fun heq => List.append_inj heq hlength
  · rintro ⟨habove, hbelow⟩
    rw [habove, hbelow]

theorem columnForm_insert_eq_iff (hblank : isBlankRow blank = true)
    (hheader : header < above.length) {i j : Nat} :
    columnForm (above ++ blank :: below) header i = columnForm (above ++ blank :: below) header j ↔
      columnForm (above ++ below) header i = columnForm (above ++ below) header j := by
  have hcells : cellForm (cellAt blank i) = cellForm (cellAt blank j) := by
    rw [cellForm_of_blank (allBlank_cellAt hblank i), cellForm_of_blank (allBlank_cellAt hblank j)]
  rw [columnForm_append_eq_iff hheader, columnForm_append_eq_iff hheader, List.forall_mem_cons,
    and_iff_right hcells]

theorem distinctColumns_insert (hblank : isBlankRow blank = true)
    (hlength : blank.length ≤ widthOf (above ++ below)) (hheader : header < above.length) :
    distinctColumns (above ++ blank :: below) header = distinctColumns (above ++ below) header :=
  distinctColumns_congr (widthOf_insert hlength) fun _ _ =>
    columnForm_insert_eq_iff hblank hheader

theorem filter_project_insert (kept : List Nat) (hblank : isBlankRow blank = true)
    (above below : List (List String)) :
    (project kept (above ++ blank :: below)).filter (!isBlankRow ·) =
      (project kept (above ++ below)).filter (!isBlankRow ·) := by
  have hdropped : ¬ (!isBlankRow (projectRow kept blank)) = true := by
    simp [isBlankRow_projectRow hblank]
  rw [project, project, List.map_append, List.map_append, List.map_cons, List.filter_append,
    List.filter_append, List.filter_cons, if_neg hdropped]

theorem filter_continued_insert (f : Frame) (hblank : isBlankRow blank = true) (page : UInt32)
    (above below : List (List String)) :
    (f.continued ⟨page, above ++ blank :: below⟩).filter (!isBlankRow ·) =
      (f.continued ⟨page, above ++ below⟩).filter (!isBlankRow ·) := by
  cases habove : above.dropWhile isBlankRow with
  | nil =>
    have hblanks : ∀ row ∈ above, isBlankRow row = true := List.dropWhile_eq_nil_iff.1 habove
    rw [Frame.continued, Frame.continued, List.dropWhile_append_of_pos hblanks,
      List.dropWhile_append_of_pos hblanks, List.dropWhile_cons, if_pos hblank]
  | cons first rest =>
    have hrows (below : List (List String)) :
        (above ++ below).dropWhile isBlankRow = first :: (rest ++ below) := by
      rw [List.dropWhile_append, habove]
      rfl
    rw [f.continued_eq (hrows _), f.continued_eq (hrows _)]
    split
    · exact filter_project_insert f.kept hblank rest below
    · exact filter_project_insert f.kept hblank (first :: rest) below

def insertRow (t : Table) (index : Nat) (row : List String) : Table :=
  { t with rows := t.rows.insertIdx index row }

/-- What comes after the header of the statement: in the first table that has rows the place below
the header row, and every place in a table of a later page. -/
inductive AfterHeader (expected : List String) (others : List Table) (t : Table) (index : Nat) :
    Prop
  | first (hpages : ∀ u ∈ others, u.rows ≠ [] → t.page < u.page)
      (hheader : headerRow t.rows expected < index)
  | later (u : Table) (hu : u ∈ others) (hrows : u.rows ≠ []) (hpage : u.page < t.page)

variable {t : Table} {index : Nat}

theorem exists_insertRow_eq (t : Table) (blank : List String) (hindex : index ≤ t.rows.length) :
    ∃ above below, t.rows = above ++ below ∧ above.length = index ∧
      t.insertRow index blank = ⟨t.page, above ++ blank :: below⟩ := by
  obtain ⟨above, below, hrows, hlength, hinsert⟩ :=
    List.exists_of_modifyTailIdx (List.cons blank) hindex
  exact ⟨above, below, hrows, hlength, congrArg (Table.mk t.page) hinsert⟩

theorem rows_insertRow_ne_nil (t : Table) (blank : List String) (hindex : index ≤ t.rows.length) :
    (t.insertRow index blank).rows ≠ [] := by
  obtain ⟨above, below, -, -, hinsert⟩ := exists_insertRow_eq t blank hindex
  simp [hinsert]

theorem filter_continued_insertRow (f : Frame) (hblank : isBlankRow blank = true)
    (hindex : index ≤ t.rows.length) :
    (f.continued (t.insertRow index blank)).filter (!isBlankRow ·) =
      (f.continued t).filter (!isBlankRow ·) := by
  obtain ⟨above, below, hrows, -, hinsert⟩ := exists_insertRow_eq t blank hindex
  rw [hinsert, filter_continued_insert f hblank, ← hrows]

theorem first_insertRow (hblank : isBlankRow blank = true) (hlength : blank.length ≤ t.width)
    (hindex : index ≤ t.rows.length) (hheader : headerRow t.rows expected < index)
    (later : List Table) :
    frameOf expected (t.insertRow index blank :: later) = frameOf expected (t :: later) ∧
      dataRows expected (t.insertRow index blank :: later) = dataRows expected (t :: later) := by
  obtain ⟨page, rows⟩ := t
  obtain ⟨above, below, rfl, rfl, hinsert⟩ := exists_insertRow_eq _ blank hindex
  rw [hinsert]
  have hrow := headerRow_insert hblank hheader
  have hframe : frameOf expected (⟨page, above ++ blank :: below⟩ :: later) =
      frameOf expected (⟨page, above ++ below⟩ :: later) := by
    rw [frameOf_cons, frameOf_cons, hrow, Frame.ofTable, Frame.ofTable,
      distinctColumns_insert hblank hlength hheader, List.getD_eq_getElem?_getD,
      List.getD_eq_getElem?_getD, List.getElem?_append_left hheader,
      List.getElem?_append_left hheader]
  refine ⟨hframe, ?_⟩
  rw [dataRows_cons, dataRows_cons, hframe, hrow, List.drop_append_of_le_length hheader,
    List.drop_append_of_le_length hheader, List.filter_append, filter_project_insert _ hblank,
    ← List.filter_append]

/-- A page whose table has no rows adds nothing, as if it had been left out. -/
theorem flatMap_continued_select (f : Frame) (t : Table) :
    (select expected [t]).flatMap f.continued = f.continued t := by
  by_cases hrows : t.rows = []
  · rw [select_of_no_rows (by simpa using hrows), Frame.continued, hrows]
    rfl
  · rw [select_singleton expected hrows, List.flatMap_singleton]

theorem dataRows_insertRow (hblank : isBlankRow blank = true) (hindex : index ≤ t.rows.length)
    (first : Table) (lower higher : List Table) :
    dataRows expected (first :: (lower ++ (select expected [t.insertRow index blank] ++ higher))) =
      dataRows expected (first :: (lower ++ (select expected [t] ++ higher))) := by
  simp only [dataRows_cons, frameOf_cons, List.flatMap_append, flatMap_continued_select,
    List.filter_append, filter_continued_insertRow _ hblank hindex]

theorem select_lowerPages_eq_nil {others : List Table}
    (hpages : ∀ u ∈ others, u.rows ≠ [] → t.page < u.page) :
    select expected (lowerPages t.page others) = [] := by
  refine select_of_no_rows fun u hu => ?_
  obtain ⟨hmem, hlt⟩ := mem_lowerPages_iff.1 hu
  by_contra hrows
  exact UInt32.lt_asymm hlt (hpages u hmem hrows)

theorem exists_select_lowerPages_eq_cons {others : List Table} {u : Table} (hu : u ∈ others)
    (hrows : u.rows ≠ []) (hpage : u.page < t.page) :
    ∃ first rest, select expected (lowerPages t.page others) = first :: rest := by
  have hlower : u ∈ lowerPages t.page others := mem_lowerPages_iff.2 ⟨hu, hpage⟩
  obtain ⟨v, hv, -⟩ := exists_mem_select expected hlower hrows
  exact List.exists_cons_of_ne_nil (List.ne_nil_of_mem hv)

/-- For any layout: put into the only table of a page, below the header of the first table that has
rows or anywhere into a later one, a blank row that is no longer than the longest row of the table
leaves the rows of the statement as they are. -/
theorem statementRows_insertBlank (l : Layout) (before after : List Table) {t : Table}
    {index : Nat} {blank : List String} (hpage : ∀ u ∈ before ++ after, u.page ≠ t.page)
    (hblank : isBlankRow blank = true) (hlength : blank.length ≤ t.width)
    (hindex : index ≤ t.rows.length)
    (hplace : AfterHeader l.expectedHeaders (before ++ after) t index) :
    statementRows l (before ++ t.insertRow index blank :: after) =
      statementRows l (before ++ t :: after) := by
  have hselect := select_around l.expectedHeaders hpage
  have hselect' : select l.expectedHeaders (before ++ t.insertRow index blank :: after) =
      select l.expectedHeaders (lowerPages t.page (before ++ after)) ++
        (select l.expectedHeaders [t.insertRow index blank] ++
          select l.expectedHeaders (higherPages t.page (before ++ after))) :=
    select_around l.expectedHeaders hpage
  rw [statementRows, statementRows, labelsOf_eq, labelsOf_eq, hselect, hselect']
  cases hplace with
  | first hpages hheader =>
    have hrows : t.rows ≠ [] := by
      intro hnil
      rw [hnil] at hindex
      exact Nat.not_lt_zero _ (Nat.lt_of_lt_of_le hheader hindex)
    rw [select_lowerPages_eq_nil hpages, List.nil_append, List.nil_append,
      select_singleton _ (rows_insertRow_ne_nil t blank hindex), select_singleton _ hrows,
      List.singleton_append, List.singleton_append]
    obtain ⟨hframe, hdata⟩ := first_insertRow hblank hlength hindex hheader
      (select l.expectedHeaders (higherPages t.page (before ++ after)))
    rw [hframe, hdata]
  | later u hu hrows hlt =>
    obtain ⟨first, lower, hlower⟩ := exists_select_lowerPages_eq_cons hu hrows hlt
    rw [hlower, List.cons_append, List.cons_append, dataRows_insertRow hblank hindex,
      frameOf_cons, frameOf_cons]

/-- Right below the header of the first sheet, and above that of the second, which repeats it. -/
theorem statementRows_insertBlank_sheets :
    statementRows pagedLayout [creditSheet, invoiceSheet.insertRow 1 [" "]] =
        statementRows pagedLayout [creditSheet, invoiceSheet] ∧
      statementRows pagedLayout [creditSheet.insertRow 0 [""], invoiceSheet] =
        statementRows pagedLayout [creditSheet, invoiceSheet] ∧
      (statementRows pagedLayout [creditSheet, invoiceSheet]).length = 4 := by
  refine ⟨?_, ?_, by decide +kernel⟩
  · refine statementRows_insertBlank pagedLayout [creditSheet] [] (by decide) (by decide +kernel)
      (by decide) (by decide) (.first (by decide) ?_)
    decide +kernel
  · refine statementRows_insertBlank pagedLayout [] [invoiceSheet] (by decide) (by decide +kernel)
      (by decide) (by decide) ?_
    exact .later invoiceSheet (by decide) (by decide) (by decide)

end Payables.Table
