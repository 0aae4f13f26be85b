import Mathlib.Data.List.Basic
import Mathlib.Data.List.Induction
import Payables.Proofs.Number.Quotient
import Payables.Table.Selection

/-!
# One table for each page

The tables under a page are those of that page in their order (`getD_byPage`). A table with rows
scores more than a table without (`neg_infinity_lt_score`), so the best table of a page is left out
only if none of its tables has rows: what is selected for a page is the best of its tables that have
rows (`mem_select_iff`). Each of these is one of the tables, and their pages increase.
-/

namespace Payables.Table

variable {expected headers : List String} {tables : List Table} {t : Table} {page : UInt32}

theorem getD_byPage (tables : List Table) (page : UInt32) :
    (byPage tables).getD page [] = tables.filter (·.page = page) := by
  induction tables using List.reverseRecOn with
  | nil => exact Std.ExtTreeMap.getD_empty
  | append_singleton tables t ih =>
    have hlast : byPage (tables ++ [t]) = addToPage (byPage tables) t := List.foldl_concat ..
    rw [hlast, addToPage, Std.ExtTreeMap.getD_insert, List.filter_append, List.filter_singleton,
      ← ih]
    by_cases hpage : t.page = page
    · subst hpage
      simp
    · simp [hpage]

theorem best?_nil (headers : List String) : best? headers [] = none := rfl

theorem best?_concat (headers : List String) (tables : List Table) (t : Table) :
    best? headers (tables ++ [t]) = some (better headers (best? headers tables) t) :=
  List.foldl_concat ..

theorem isSome_best? (headers : List String) (h : tables ≠ []) :
    (best? headers tables).isSome = true := by
  obtain ⟨before, t, rfl⟩ := (List.eq_nil_or_concat tables).resolve_left h
  rw [List.concat_eq_append, best?_concat, Option.isSome_some]

theorem isFirstBestOf_best? (h : best? headers tables = some t) :
    IsFirstBestOf (score headers) tables t := by
  induction tables using List.reverseRecOn generalizing t with
  | nil => cases h
  | append_singleton tables u ih =>
    rw [best?_concat, Option.some_inj] at h
    subst h
    cases hbest : best? headers tables with
    | none =>
      obtain rfl : tables = [] := by
        by_contra hne
        have hsome := isSome_best? headers hne
        rw [hbest] at hsome
        cases hsome
      exact .singleton (score headers) u
    | some best =>
      unfold better
      dsimp only
      split
      · exact (ih hbest).concat_of_lt ‹_›
      · exact (ih hbest).concat_of_not_lt ‹_›

theorem mem_of_best? (h : best? headers tables = some t) : t ∈ tables := (isFirstBestOf_best? h).mem

theorem score_of_no_rows (headers : List String) (h : t.rows = []) :
    score headers t = -.infinity :=
  if_pos h

/-- Only the penalty counts against a table, and it is finite. -/
theorem neg_infinity_lt_score (headers : List String) (h : t.rows ≠ []) :
    -.infinity < score headers t := by
  rw [score, if_neg h]
  have part (a b c d : Nat) : 0 ≤ (Binary64.ofRatio a b * .ofRatio c d).units :=
    Binary64.units_mul_nonneg (Binary64.units_ofRatio_nonneg ..) (Binary64.units_ofRatio_nonneg ..)
  refine Binary64.lt_of_lt_of_le ?_ (Binary64.ofUnits_neg_le_sub ?_ _)
  · split
    · decide +kernel
    · decide +kernel
  · exact Binary64.units_add_nonneg (Binary64.units_add_nonneg (part ..) (part ..)) (part ..)

theorem neg_infinity_le_score (headers : List String) (t : Table) :
    -.infinity ≤ score headers t := by
  by_cases h : t.rows = []
  · rw [score_of_no_rows headers h]
    exact Binary64.le_refl _
  · exact Binary64.le_of_lt (neg_infinity_lt_score headers h)

theorem better_of_no_rows (headers : List String) (best : Table) (h : t.rows = []) :
    better headers (some best) t = best := by
  refine if_neg ?_
  rw [score_of_no_rows headers h]
  exact Binary64.not_lt_of_le (neg_infinity_le_score headers best)

theorem better_of_best_no_rows (headers : List String) {best : Table} (hbest : best.rows = [])
    (h : t.rows ≠ []) : better headers (some best) t = t := by
  refine if_pos ?_
  rw [score_of_no_rows headers hbest]
  exact neg_infinity_lt_score headers h

theorem filter_rows_of_rows (h : t.rows ≠ []) : (some t).filter (·.rows ≠ []) = some t :=
  if_pos (decide_eq_true h)

theorem filter_rows_of_no_rows (h : t.rows = []) : (some t).filter (·.rows ≠ []) = none :=
  if_neg (by simpa using h)

/-- To a table with rows it makes no difference whether the best one so far has none. -/
theorem better_filter_rows (headers : List String) (best? : Option Table) (h : t.rows ≠ []) :
    (some (better headers best? t)).filter (·.rows ≠ []) =
      some (better headers (best?.filter (·.rows ≠ [])) t) := by
  cases best? with
  | none => exact filter_rows_of_rows h
  | some best =>
    by_cases hbest : best.rows = []
    · rw [better_of_best_no_rows headers hbest h, filter_rows_of_no_rows hbest]
      exact filter_rows_of_rows h
    · rw [filter_rows_of_rows hbest]
      refine filter_rows_of_rows ?_
      unfold better
      dsimp only
      split
      · exact h
      · exact hbest

/-- Tables without rows come to nothing: the best table has none only if no table has any. -/
theorem best?_filter_rows (headers : List String) (tables : List Table) :
    best? headers (tables.filter (·.rows ≠ [])) = (best? headers tables).filter (·.rows ≠ []) := by
  induction tables using List.reverseRecOn with
  | nil => rfl
  | append_singleton tables t ih =>
    rw [List.filter_append, List.filter_cons, List.filter_nil, best?_concat]
    by_cases hrows : t.rows = []
    · rw [if_neg (by simpa using hrows), List.append_nil, ih]
      cases best? headers tables with
      | none => exact (filter_rows_of_no_rows hrows).symm
      | some best => rw [better_of_no_rows headers best hrows]
    · rw [if_pos (decide_eq_true hrows), best?_concat, ih, better_filter_rows headers _ hrows]

/-- The tables of a page that have rows. -/
def ofPage (page : UInt32) (tables : List Table) : List Table :=
  tables.filter fun t => t.page = page ∧ t.rows ≠ []

theorem mem_ofPage_iff : t ∈ ofPage page tables ↔ t ∈ tables ∧ t.page = page ∧ t.rows ≠ [] := by
  rw [ofPage, List.mem_filter, decide_eq_true_eq]

theorem ofPage_eq_filter (page : UInt32) (tables : List Table) :
    ofPage page tables = (tables.filter (·.page = page)).filter (·.rows ≠ []) := by
  rw [List.filter_filter, ofPage]
  refine List.filter_congr fun t _ => ?_
  simp [Bool.and_comm]

theorem ofPage_append (page : UInt32) (us vs : List Table) :
    ofPage page (us ++ vs) = ofPage page us ++ ofPage page vs :=
  List.filter_append ..

theorem ofPage_eq_nil (h : ∀ t ∈ tables, t.page ≠ page) : ofPage page tables = [] :=
  List.filter_eq_nil_iff.2 fun t ht => by simp [h t ht]

theorem best?_ofPage (headers : List String) (page : UInt32) (tables : List Table) :
    best? headers (ofPage page tables) =
      (best? headers ((byPage tables).getD page [])).filter (·.rows ≠ []) := by
  rw [ofPage_eq_filter, best?_filter_rows, getD_byPage]

theorem page_of_best? (h : best? headers (ofPage page tables) = some t) : t.page = page :=
  (mem_ofPage_iff.1 (mem_of_best? h)).2.1

theorem best?_getElem?_byPage {ofPage : List Table} (h : (byPage tables)[page]? = some ofPage) :
    (best? headers ofPage).filter (·.rows ≠ []) = best? headers (Table.ofPage page tables) := by
  rw [best?_ofPage, Std.ExtTreeMap.getD_eq_getD_getElem?, h, Option.getD_some]

theorem mem_select_iff : t ∈ select expected tables ↔
    best? (usableHeaders expected) (ofPage t.page tables) = some t := by
  rw [select, List.mem_filterMap]
  constructor
  · rintro ⟨⟨page, ts⟩, hmem, hbest⟩
    have hpage := Std.ExtTreeMap.mem_toList_iff_getElem?_eq_some.1 hmem
    have hbest := (best?_getElem?_byPage hpage).symm.trans hbest
    rwa [page_of_best? hbest]
  · intro h
    cases hpage : (byPage tables)[t.page]? with
    | none =>
      rw [best?_ofPage, Std.ExtTreeMap.getD_eq_getD_getElem?, hpage] at h
      cases h
    | some ts =>
      refine ⟨(t.page, ts), Std.ExtTreeMap.mem_toList_iff_getElem?_eq_some.2 hpage, ?_⟩
      exact (best?_getElem?_byPage hpage).trans h

theorem mem_ofPage_of_mem_select (h : t ∈ select expected tables) : t ∈ ofPage t.page tables :=
  mem_of_best? (mem_select_iff.1 h)

theorem mem_of_mem_select (h : t ∈ select expected tables) : t ∈ tables :=
  (mem_ofPage_iff.1 (mem_ofPage_of_mem_select h)).1

theorem pairwise_page_select (expected : List String) (tables : List Table) :
    (select expected tables).Pairwise fun a b => a.page < b.page := by
  refine List.pairwise_filterMap.2 ((byPage tables).ordered_keys_toList.imp_of_mem ?_)
  rintro ⟨page, ts⟩ ⟨page', ts'⟩ hts hts' hlt t ht t' ht'
  have hpage := Std.ExtTreeMap.mem_toList_iff_getElem?_eq_some.1 hts
  have hpage' := Std.ExtTreeMap.mem_toList_iff_getElem?_eq_some.1 hts'
  rw [page_of_best? ((best?_getElem?_byPage hpage).symm.trans ht),
    page_of_best? ((best?_getElem?_byPage hpage').symm.trans ht')]
  exact Std.compare_eq_lt.1 hlt

end Payables.Table
