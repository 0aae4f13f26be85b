import Mathlib.Data.List.Sort
import Payables.Line.Reading
import Payables.Proofs.Table.Cells
import Payables.Proofs.Table.Selection

/-!
# Pages that are added

The table of a page is selected among the tables of that page alone, so tables of later pages are
selected behind those that were there, and what they hold comes behind the rows that were there.
The frame is that of the first table; the rows before keep their cells and their ordinals, and the
lines that are read from them keep their ids (`statementRows_prefix_append`).
-/

namespace Payables.Table

variable {expected : List String} {tables later : List Table}

theorem eq_of_pairwise_page_lt {ts us : List Table}
    (hts : ts.Pairwise fun a b => a.page < b.page) (hus : us.Pairwise fun a b => a.page < b.page)
    (hmem : ∀ t, t ∈ ts ↔ t ∈ us) : ts = us := by
  have : Std.Irrefl fun a b : Table => a.page < b.page := ⟨fun t => UInt32.lt_irrefl t.page⟩
  have : Std.Antisymm fun a b : Table => a.page < b.page :=
    ⟨fun a b hab hba => absurd hab (UInt32.lt_asymm hba)⟩
  exact hts.eq_of_mem_iff hus hmem

theorem select_append (expected : List String)
    (h : ∀ a ∈ tables, ∀ b ∈ later, a.page < b.page) :
    select expected (tables ++ later) = select expected tables ++ select expected later := by
  apply eq_of_pairwise_page_lt
  · exact pairwise_page_select expected (tables ++ later)
  · apply List.pairwise_append.2
    refine ⟨pairwise_page_select expected tables, pairwise_page_select expected later, ?_⟩
    exact fun a ha b hb => h a (mem_of_mem_select ha) b (mem_of_mem_select hb)
  · intro t
    rw [List.mem_append, mem_select_iff, mem_select_iff, mem_select_iff, ofPage_append]
    -- a page has no table both before and among the later ones
    by_cases hbefore : ∃ a ∈ tables, a.page = t.page
    · obtain ⟨a, ha, hpage⟩ := hbefore
      have hlater : ofPage t.page later = [] := ofPage_eq_nil fun b hb =>
        hpage ▸ (UInt32.ne_of_lt (h a ha b hb)).symm
      rw [hlater, List.append_nil, best?_nil, or_iff_left (Option.some_ne_none t).symm]
    · have hnone : ofPage t.page tables = [] := ofPage_eq_nil (by simpa using hbefore)
      rw [hnone, List.nil_append, best?_nil, or_iff_right (Option.some_ne_none t).symm]

theorem dataRows_prefix_append (expected : List String) (selected more : List Table) :
    dataRows expected selected <+: dataRows expected (selected ++ more) := by
  cases selected with
  | nil => exact List.nil_prefix
  | cons first rest =>
    rw [List.cons_append, dataRows_cons, dataRows_cons, frameOf_cons, frameOf_cons,
      List.flatMap_append, ← List.append_assoc]
    exact (List.prefix_append _ _).filter _

theorem numbered_prefix_append (labels : List String) (data more : List (List String)) :
    numbered labels data <+: numbered labels (data ++ more) := by
  rw [numbered, numbered, List.zipIdx_append, List.map_append]
  exact List.prefix_append _ _

/-- Without a selected table there are no rows, so it does not matter that there are no labels. -/
theorem numbered_labelsOf_prefix (expected : List String) (selected more : List Table) :
    numbered (labelsOf expected selected) (dataRows expected selected) <+:
      numbered (labelsOf expected (selected ++ more)) (dataRows expected (selected ++ more)) := by
  cases selected with
  | nil => exact List.nil_prefix
  | cons first rest =>
    obtain ⟨added, hadded⟩ := dataRows_prefix_append expected (first :: rest) more
    have hlabels : labelsOf expected (first :: rest ++ more) = labelsOf expected (first :: rest) :=
      rfl
    rw [← hadded, hlabels]
    exact numbered_prefix_append _ _ added

theorem readAll_prefix {rows rows' : List Row} (h : rows <+: rows') (reader : LineReader)
    (statement : String) : reader.readAll statement rows <+: reader.readAll statement rows' :=
  (h.filter _).map _

/-- Tables of later pages add rows behind those that are there, which keep their ordinals and cells;
so the lines of these rows, however they are read, keep their ids and come first. -/
theorem statementRows_prefix_append (l : Layout) {tables later : List Table}
    (h : ∀ a ∈ tables, ∀ b ∈ later, a.page < b.page) :
    statementRows l tables <+: statementRows l (tables ++ later) ∧
      ∀ (reader : LineReader) (statement : String),
        reader.readAll statement (statementRows l tables) <+:
          reader.readAll statement (statementRows l (tables ++ later)) ∧
        (reader.readAll statement (statementRows l tables)).map Line.id <+:
          (reader.readAll statement (statementRows l (tables ++ later))).map Line.id := by
  have hrows : statementRows l tables <+: statementRows l (tables ++ later) := by
    rw [statementRows, statementRows, select_append l.expectedHeaders h]
    exact numbered_labelsOf_prefix l.expectedHeaders _ _
  refine ⟨hrows, fun reader statement => ?_⟩
  have hlines := readAll_prefix hrows reader statement
  exact ⟨hlines, hlines.map Line.id⟩

/-- Two pages, one of them without a table that has rows. -/
def firstPages : List Table :=
  [⟨2, [["No", "Date"], ["INV-1", "01/03/2024"]]⟩, ⟨1, []⟩]

/-- Two more pages; one repeats the header, and its second row is blank. -/
def addedPages : List Table :=
  [⟨5, [["INV-3"]]⟩, ⟨4, [["no", "DATE"], [" ", ""], ["INV-2", "02/03/2024"]]⟩]

def pagedLayout : Layout :=
  { number? := some "No", date? := some "Date", dateFormat? := some "DD/MM/YYYY" }

theorem statementRows_prefix_append_pages :
    (∀ a ∈ firstPages, ∀ b ∈ addedPages, a.page < b.page) ∧
      (statementRows pagedLayout firstPages).length = 1 ∧
      (statementRows pagedLayout (firstPages ++ addedPages)).length = 3 ∧
      statementRows pagedLayout firstPages <+:
        statementRows pagedLayout (firstPages ++ addedPages) :=
  have hpages : ∀ a ∈ firstPages, ∀ b ∈ addedPages, a.page < b.page := by decide
  ⟨hpages, by decide +kernel, by decide +kernel,
    (statementRows_prefix_append pagedLayout hpages).1⟩

end Payables.Table
