import Payables.Proofs.Calendar.Order
import Payables.Proofs.Store.Edits

/-!
# Headings that sum up the lines

A heading sums up a record if it counts the lines of the record and names the first and the last of
their dates. Bringing a heading up to date with the listed lines makes it do so, and it goes on
doing so as long as nothing but the user's part of a line is changed.
-/

namespace Payables

/-- The line without what the user has done to it. -/
def Line.extracted (l : Line) : Line :=
  { l with completed := false, manualKind? := none, kind := .unknown }

/-- The heading without what the user has done to it. -/
def Heading.extracted (h : Heading) : Heading := { h with completed := false }

theorem extracted_withCompleted (completed : Bool) (l : Line) :
    (l.withCompleted completed).extracted = l.extracted := rfl

theorem extracted_withKind (kind : DocumentKind) (l : Line) :
    (l.withKind kind).extracted = l.extracted := rfl

namespace Record

def dates (r : Record) : Set Date :=
  {d | ∃ (id : String) (l : Line), r.lines[id]? = some l ∧ l.date? = some d}

/-- The heading tells how many lines there are and between which dates they lie. -/
structure SumsUp (r : Record) (h : Heading) : Prop where
  lineCount : h.lineCount = r.lines.size
  earliest : ∀ d, h.earliest? = some d ↔ IsLeast r.dates d
  latest : ∀ d, h.latest? = some d ↔ IsGreatest r.dates d
  earliest_eq_none_iff : h.earliest? = none ↔ r.dates = ∅
  latest_eq_none_iff : h.latest? = none ↔ r.dates = ∅

variable {r r' : Record}

theorem length_listed (r : Record) : r.listed.length = r.lines.size := by
  rw [listed, List.length_mergeSort, List.length_map, Std.ExtTreeMap.length_toList]

theorem dates_eq (r : Record) : r.dates = {d | d ∈ r.listed.filterMap (·.date?)} := by
  ext d
  simp only [dates, Set.mem_ofPred_eq, List.mem_filterMap, mem_listed_iff]
  exact ⟨fun ⟨id, l, hl, hd⟩ => ⟨l, ⟨id, hl⟩, hd⟩, fun ⟨l, ⟨id, hl⟩, hd⟩ => ⟨id, l, hl, hd⟩⟩

theorem dates_eq_empty_iff : r.dates = ∅ ↔ r.listed.filterMap (·.date?) = [] := by
  rw [dates_eq, Set.eq_empty_iff_forall_notMem, List.eq_nil_iff_forall_not_mem]
  rfl

theorem sumsUp_recompute (r : Record) (h : Heading) : r.SumsUp (h.recompute r.listed) where
  lineCount := r.length_listed
  earliest d := by
    rw [dates_eq]
    exact Date.earliest?_eq_some_iff
  latest d := by
    rw [dates_eq]
    exact Date.latest?_eq_some_iff
  earliest_eq_none_iff := Date.earliest?_eq_none_iff.trans dates_eq_empty_iff.symm
  latest_eq_none_iff := Date.latest?_eq_none_iff.trans dates_eq_empty_iff.symm

/-- The records differ at most in what the user has done to lines and headings. -/
structure SameExtracted (r r' : Record) : Prop where
  lines : (r'.lines.map fun _ => Line.extracted) = r.lines.map fun _ => Line.extracted
  heading : r'.heading?.map Heading.extracted = r.heading?.map Heading.extracted
  published : r'.published? = r.published?

theorem sameExtracted_changeLine {f : Line → Line} (hf : ∀ l, (f l).extracted = l.extracted)
    (r : Record) (id : String) : r.SameExtracted (r.changeLine f id) where
  lines := by
    refine Std.ExtTreeMap.ext_getElem? fun id' => ?_
    rw [Std.ExtTreeMap.getElem?_map, Std.ExtTreeMap.getElem?_map, getElem?_lines_changeLine]
    split <;> rename_i hid
    · rw [← hid, Option.map_map]
      exact congrFun (congrArg _ (funext hf)) _
    · rfl
  heading := by rw [heading?_changeLine]
  published := published?_changeLine f r id

theorem sameExtracted_setAllCompleted (completed : Bool) (r : Record) :
    r.SameExtracted (r.setAllCompleted completed) where
  lines := by
    refine Std.ExtTreeMap.ext_getElem? fun id => ?_
    rw [Std.ExtTreeMap.getElem?_map, Std.ExtTreeMap.getElem?_map, getElem?_lines_setAllCompleted,
      Option.map_map]
    rfl
  heading := by
    rw [setAllCompleted, Option.map_map]
    rfl
  published := rfl

theorem map_extracted_listed (r : Record) : r.listed.map Line.extracted =
    ((r.lines.map fun _ => Line.extracted).toList.map Prod.snd).mergeSort
      fun a b => a.ordinal ≤ b.ordinal := by
  -- the order goes by ordinals, which the user does not change
  rw [listed, List.map_mergeSort, Std.ExtTreeMap.toList_map, List.map_map, List.map_map]
  · rfl
  · exact fun a _ b _ => rfl

theorem SameExtracted.map_listed (h : r.SameExtracted r') :
    r'.listed.map Line.extracted = r.listed.map Line.extracted := by
  rw [map_extracted_listed, map_extracted_listed, h.lines]

theorem SameExtracted.lines_eq_empty (h : r.SameExtracted r') (hr : r.lines = ∅) :
    r'.lines = ∅ := by
  refine Std.ExtTreeMap.ext_getElem? fun id => ?_
  have hid := congrArg (·[id]?) h.lines
  simpa [hr] using hid

theorem SameExtracted.size_lines_eq (h : r.SameExtracted r') : r'.lines.size = r.lines.size := by
  simpa using congrArg Std.ExtTreeMap.size h.lines

theorem SameExtracted.dates_eq (h : r.SameExtracted r') : r'.dates = r.dates := by
  have hdates := congrArg (List.filterMap (·.date?)) h.map_listed
  rw [List.filterMap_map, List.filterMap_map] at hdates
  rw [Record.dates_eq, Record.dates_eq]
  exact congrArg (fun ds => {d | d ∈ ds}) hdates

theorem SameExtracted.sumsUp (h : r.SameExtracted r') {x x' : Heading}
    (hx : x'.extracted = x.extracted) (hsum : r.SumsUp x) : r'.SumsUp x' := by
  have hcount : x'.lineCount = x.lineCount := (congrArg Heading.lineCount hx :)
  have hearliest : x'.earliest? = x.earliest? := (congrArg Heading.earliest? hx :)
  have hlatest : x'.latest? = x.latest? := (congrArg Heading.latest? hx :)
  constructor
  case lineCount => rw [hcount, h.size_lines_eq, hsum.lineCount]
  case earliest => exact fun d => by rw [hearliest, h.dates_eq, hsum.earliest]
  case latest => exact fun d => by rw [hlatest, h.dates_eq, hsum.latest]
  case earliest_eq_none_iff => rw [hearliest, h.dates_eq, hsum.earliest_eq_none_iff]
  case latest_eq_none_iff => rw [hlatest, h.dates_eq, hsum.latest_eq_none_iff]

end Record

end Payables
