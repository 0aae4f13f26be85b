import Payables.Table.Header
import Std.Data.ExtTreeMap

/-!
# The table of each page

Of the tables on a page the one with the highest score is kept, the first of equal ones. The kept
tables stand in page order, and pages without a row have none.
-/

namespace Payables.Table

/-- Puts a table behind the others of its page. -/
def addToPage (pages : Std.ExtTreeMap UInt32 (List Table)) (t : Table) :
    Std.ExtTreeMap UInt32 (List Table) :=
  pages.insert t.page (pages.getD t.page [] ++ [t])

/-- The tables of each page, in the order in which they arrive. -/
def byPage (tables : List Table) : Std.ExtTreeMap UInt32 (List Table) :=
  tables.foldl addToPage ∅

/-- The better one of two tables, the first if their scores are equal. -/
def better (headers : List String) (best? : Option Table) (t : Table) : Table :=
  match best? with
  | some best => if score headers best < score headers t then t else best
  | none => t

/-- The first of the tables with the highest score. -/
def best? (headers : List String) (tables : List Table) : Option Table :=
  tables.foldl (fun best? t => some (better headers best? t)) none

/-- The best table of each page in page order. A page whose best table has no rows has none. -/
def select (expected : List String) (tables : List Table) : List Table :=
  (byPage tables).toList.filterMap fun (_, ofPage) =>
    (best? (usableHeaders expected) ofPage).filter (·.rows ≠ [])

end Payables.Table
