import Payables.Proofs.Table.Pages

/-!
# The order in which tables arrive

What is selected for a page depends on the tables of that page alone: of those that have rows it is
the first of the best. So there is one table for every page that has one with rows, and tables of
different pages may arrive in any order between one another (`select_byPage`). The only table of a
page is selected between those of the pages before and after it (`select_around`).
-/

namespace Payables.Table

variable {expected : List String} {tables tables' : List Table} {t : Table}

/-- The selected tables stand in strict page order, one for every page with a table that has rows,
and each is the first of the best tables of its page. -/
structure SelectsByPage (expected : List String) (tables selected : List Table) : Prop where
  increasing : selected.Pairwise fun a b => a.page < b.page
  isOf : ∀ t ∈ selected, t ∈ tables ∧ t.rows ≠ []
  existsUnique : ∀ t ∈ tables, t.rows ≠ [] → ∃! u, u ∈ selected ∧ u.page = t.page
  first_best : ∀ t ∈ selected,
    IsFirstBestOf (score (usableHeaders expected)) (ofPage t.page tables) t

theorem exists_mem_select (expected : List String) (ht : t ∈ tables) (hrows : t.rows ≠ []) :
    ∃ u, u ∈ select expected tables ∧ u.page = t.page := by
  have hne : ofPage t.page tables ≠ [] := List.ne_nil_of_mem (mem_ofPage_iff.2 ⟨ht, rfl, hrows⟩)
  obtain ⟨u, hu⟩ := Option.isSome_iff_exists.1 (isSome_best? (usableHeaders expected) hne)
  have hpage := page_of_best? hu
  refine ⟨u, mem_select_iff.2 ?_, hpage⟩
  rw [hpage, hu]

theorem eq_of_mem_select {u : Table} (ht : t ∈ select expected tables)
    (hu : u ∈ select expected tables) (hpage : u.page = t.page) : u = t := by
  rw [mem_select_iff] at ht hu
  rw [hpage, ht] at hu
  exact (Option.some.inj hu).symm

theorem selectsByPage_select (expected : List String) (tables : List Table) :
    SelectsByPage expected tables (select expected tables) where
  increasing := pairwise_page_select expected tables
  isOf t ht := by
    obtain ⟨hmem, -, hrows⟩ := mem_ofPage_iff.1 (mem_ofPage_of_mem_select ht)
    exact ⟨hmem, hrows⟩
  existsUnique t ht hrows := by
    obtain ⟨u, hu, hpage⟩ := exists_mem_select expected ht hrows
    refine ⟨u, ⟨hu, hpage⟩, fun v hv => ?_⟩
    exact eq_of_mem_select hu hv.1 (hv.2.trans hpage.symm)
  first_best _ ht := isFirstBestOf_best? (mem_select_iff.1 ht)

theorem select_congr (h : ∀ page, ofPage page tables = ofPage page tables') :
    select expected tables = select expected tables' := by
  apply eq_of_pairwise_page_lt
  · exact pairwise_page_select expected tables
  · exact pairwise_page_select expected tables'
  · intro t
    rw [mem_select_iff, mem_select_iff, h]

/-- For any headers and any tables, one table is selected for every page that has a table with rows,
and nothing changes when the same tables arrive in another order, those of each page in the same. -/
theorem select_byPage (expected : List String) (tables : List Table) :
    SelectsByPage expected tables (select expected tables) ∧
      ∀ tables' : List Table,
        (∀ page, tables.filter (·.page = page) = tables'.filter (·.page = page)) →
        select expected tables = select expected tables' ∧
          ∀ l : Layout, statementRows l tables = statementRows l tables' := by
  refine ⟨selectsByPage_select expected tables, fun tables' h => ?_⟩
  have hpages : ∀ page, ofPage page tables = ofPage page tables' := fun page => by
    rw [ofPage_eq_filter, h, ofPage_eq_filter]
  refine ⟨select_congr hpages, fun l => ?_⟩
  rw [statementRows, statementRows, select_congr hpages]

def coverSheet : Table := ⟨1, [["To pay"]]⟩

def invoiceSheet : Table := ⟨1, [["No"], ["A1"], ["A2"]]⟩

def creditSheet : Table := ⟨2, [["No"], ["C1"], ["C2"]]⟩

/-- As good as the sheet above, but it comes after it. -/
def reminderSheet : Table := ⟨2, [["No"], ["R1"], ["R2"]]⟩

theorem filter_page_sheets (page : UInt32) :
    [⟨1, []⟩, coverSheet, invoiceSheet, creditSheet, reminderSheet].filter (·.page = page) =
      [creditSheet, ⟨1, []⟩, coverSheet, reminderSheet, invoiceSheet].filter (·.page = page) := by
  by_cases hfirst : page = 1
  · subst hfirst
    rfl
  · by_cases hsecond : page = 2
    · subst hsecond
      rfl
    · simp [coverSheet, invoiceSheet, creditSheet, reminderSheet, Ne.symm hfirst, Ne.symm hsecond]

theorem select_byPage_sheets :
    (∀ page, [⟨1, []⟩, coverSheet, invoiceSheet, creditSheet, reminderSheet].filter
        (·.page = page) =
      [creditSheet, ⟨1, []⟩, coverSheet, reminderSheet, invoiceSheet].filter (·.page = page)) ∧
    select pagedLayout.expectedHeaders
        [creditSheet, ⟨1, []⟩, coverSheet, reminderSheet, invoiceSheet] =
      [invoiceSheet, creditSheet] ∧
    (statementRows pagedLayout
      [creditSheet, ⟨1, []⟩, coverSheet, reminderSheet, invoiceSheet]).length = 4 := by
  obtain ⟨hselect, hrows⟩ := (select_byPage pagedLayout.expectedHeaders
    [⟨1, []⟩, coverSheet, invoiceSheet, creditSheet, reminderSheet]).2 _ filter_page_sheets
  have hsheets : select pagedLayout.expectedHeaders
      [⟨1, []⟩, coverSheet, invoiceSheet, creditSheet, reminderSheet] =
        [invoiceSheet, creditSheet] := by
    decide +kernel
  refine ⟨filter_page_sheets, hselect.symm.trans hsheets, ?_⟩
  rw [← hrows, statementRows, hsheets]
  decide +kernel

theorem select_of_no_rows (h : ∀ t ∈ tables, t.rows = []) : select expected tables = [] := by
  refine List.eq_nil_iff_forall_not_mem.2 fun t ht => ?_
  obtain ⟨hmem, hrows⟩ := (selectsByPage_select expected tables).isOf t ht
  exact hrows (h t hmem)

theorem select_singleton (expected : List String) (hrows : t.rows ≠ []) :
    select expected [t] = [t] := by
  apply eq_of_pairwise_page_lt
  · exact pairwise_page_select expected [t]
  · exact List.pairwise_singleton _ t
  · refine fun u => ⟨mem_of_mem_select, fun hu => ?_⟩
    obtain ⟨v, hv, -⟩ := exists_mem_select expected (List.mem_singleton_self t) hrows
    obtain rfl := List.mem_singleton.1 (mem_of_mem_select hv)
    rwa [List.mem_singleton.1 hu]

def lowerPages (page : UInt32) (tables : List Table) : List Table :=
  tables.filter (·.page < page)

def higherPages (page : UInt32) (tables : List Table) : List Table :=
  tables.filter (page < ·.page)

theorem mem_lowerPages_iff {page : UInt32} :
    t ∈ lowerPages page tables ↔ t ∈ tables ∧ t.page < page := by
  rw [lowerPages, List.mem_filter, decide_eq_true_eq]

theorem mem_higherPages_iff {page : UInt32} :
    t ∈ higherPages page tables ↔ t ∈ tables ∧ page < t.page := by
  rw [higherPages, List.mem_filter, decide_eq_true_eq]

theorem ofPage_filter {q : Table → Bool} {page : UInt32} (h : ∀ t, t.page = page → q t = true)
    (tables : List Table) : ofPage page (tables.filter q) = ofPage page tables := by
  rw [ofPage, List.filter_filter, ofPage]
  refine List.filter_congr fun t _ => ?_
  by_cases hpage : t.page = page
  · simp [h t hpage]
  · simp [hpage]

theorem ofPage_lowerPages {page bound : UInt32} (tables : List Table) :
    ofPage page (lowerPages bound tables) = if page < bound then ofPage page tables else [] := by
  split <;> rename_i hlt
  · exact ofPage_filter (fun t ht => decide_eq_true (ht ▸ hlt)) tables
  · exact ofPage_eq_nil fun t ht hpage => hlt (hpage ▸ (mem_lowerPages_iff.1 ht).2)

theorem ofPage_higherPages {page bound : UInt32} (tables : List Table) :
    ofPage page (higherPages bound tables) = if bound < page then ofPage page tables else [] := by
  split <;> rename_i hlt
  · exact ofPage_filter (fun t ht => decide_eq_true (ht ▸ hlt)) tables
  · exact ofPage_eq_nil fun t ht hpage => hlt (hpage ▸ (mem_higherPages_iff.1 ht).2)

theorem ofPage_around {before after : List Table} (hpage : ∀ u ∈ before ++ after, u.page ≠ t.page)
    (page : UInt32) : ofPage page (before ++ t :: after) =
      ofPage page (lowerPages t.page (before ++ after)) ++ (ofPage page [t] ++
        ofPage page (higherPages t.page (before ++ after))) := by
  have hmiddle : ofPage page (before ++ t :: after) =
      ofPage page before ++ (ofPage page [t] ++ ofPage page after) := by
    rw [ofPage_append, ← List.singleton_append, ofPage_append]
  rw [hmiddle, ofPage_lowerPages, ofPage_higherPages]
  by_cases heq : page = t.page
  · have hbefore : ofPage page before = [] := ofPage_eq_nil fun u hu =>
      heq ▸ hpage u (List.mem_append_left _ hu)
    have hafter : ofPage page after = [] := ofPage_eq_nil fun u hu =>
      heq ▸ hpage u (List.mem_append_right _ hu)
    have hirrefl : ¬ t.page < t.page := UInt32.lt_irrefl t.page
    rw [hbefore, hafter, heq, if_neg hirrefl]
  · have hone : ofPage page [t] = [] := ofPage_eq_nil (by simpa using Ne.symm heq)
    rw [hone, List.nil_append, List.nil_append, ← ofPage_append]
    rcases UInt32.lt_or_lt_of_ne heq with hlt | hlt
    · rw [if_pos hlt, if_neg (UInt32.lt_asymm hlt), List.append_nil]
    · rw [if_neg (UInt32.lt_asymm hlt), if_pos hlt, List.nil_append]

theorem select_around {before after : List Table} (expected : List String)
    (hpage : ∀ u ∈ before ++ after, u.page ≠ t.page) :
    select expected (before ++ t :: after) =
      select expected (lowerPages t.page (before ++ after)) ++ (select expected [t] ++
        select expected (higherPages t.page (before ++ after))) := by
  rw [← select_append, ← select_append]
  · refine select_congr fun page => ?_
    rw [ofPage_around hpage, ofPage_append, ofPage_append]
  · intro a ha b hb
    have hlower := (mem_lowerPages_iff.1 ha).2
    rcases List.mem_append.1 hb with hb | hb
    · rwa [List.mem_singleton.1 hb]
    · exact UInt32.lt_trans hlower (mem_higherPages_iff.1 hb).2
  · intro a ha b hb
    rw [List.mem_singleton.1 ha]
    exact (mem_higherPages_iff.1 hb).2

end Payables.Table
