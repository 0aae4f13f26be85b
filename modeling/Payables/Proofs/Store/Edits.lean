import Payables.Proofs.Store.Records
import Payables.Session

/-!
# The user's edits

With a closed gate a write answers with a fault and leaves the store as it is. With an open gate an
edit changes the lines it is meant for and no others; it fails only if there is nothing to edit.
-/

namespace Payables

namespace Line

/-- The edit keeps apart what it finds apart. -/
structure IsEdit (f : Line → Line) : Prop where
  id_eq : ∀ l, (f l).id = l.id
  statement_eq : ∀ l, (f l).statement = l.statement
  ordinal_eq : ∀ l, (f l).ordinal = l.ordinal

theorem isEdit_withCompleted (completed : Bool) : IsEdit (withCompleted completed) where
  id_eq _ := rfl
  statement_eq _ := rfl
  ordinal_eq _ := rfl

theorem isEdit_withKind (kind : DocumentKind) : IsEdit (withKind kind) where
  id_eq _ := rfl
  statement_eq _ := rfl
  ordinal_eq _ := rfl

theorem IsFiled.edit {statement : String} {l : Line} (h : l.IsFiled statement) {f : Line → Line}
    (hf : IsEdit f) : (f l).IsFiled statement where
  statement_eq := by rw [hf.statement_eq, h.statement_eq]
  id_eq := by rw [hf.id_eq, hf.ordinal_eq, h.id_eq]

end Line

namespace Record

def changeLine (f : Line → Line) (r : Record) (id : String) : Record :=
  match r.lines[id]? with
  | some l => { r with lines := r.lines.insert id (f l) }
  | none => r

def setAllCompleted (completed : Bool) (r : Record) : Record :=
  { r with
    heading? := r.heading?.map ({ · with completed })
    lines := r.lines.map fun _ => Line.withCompleted completed }

variable {k : StatementKey} {r : Record} {f : Line → Line}

theorem getElem?_lines_changeLine (f : Line → Line) (r : Record) (id id' : String) :
    (r.changeLine f id).lines[id']? = if id = id' then r.lines[id]?.map f else r.lines[id']? := by
  unfold changeLine
  split <;> rename_i h
  · rw [Std.ExtTreeMap.getElem?_insert, h]
    simp
  · by_cases hid : id = id'
    · rw [if_pos hid, ← hid, h]
      rfl
    · rw [if_neg hid]

@[simp] theorem heading?_changeLine (f : Line → Line) (r : Record) (id : String) :
    (r.changeLine f id).heading? = r.heading? := by
  unfold changeLine
  split <;> rfl

@[simp] theorem published?_changeLine (f : Line → Line) (r : Record) (id : String) :
    (r.changeLine f id).published? = r.published? := by
  unfold changeLine
  split <;> rfl

theorem getElem?_lines_setAllCompleted (completed : Bool) (r : Record) (id : String) :
    (r.setAllCompleted completed).lines[id]? = r.lines[id]?.map (Line.withCompleted completed) :=
  Std.ExtTreeMap.getElem?_map

theorem Filed.changeLine (h : r.Filed k) (hf : Line.IsEdit f) (id : String) :
    (r.changeLine f id).Filed k where
  lines id' l hl := by
    rw [getElem?_lines_changeLine] at hl
    split at hl
    · rename_i hid
      obtain ⟨l₀, hl₀, rfl⟩ := Option.map_eq_some_iff.1 hl
      obtain ⟨hkey, hfiled⟩ := h.lines id l₀ hl₀
      exact ⟨by rw [hf.id_eq, hkey, hid], hfiled.edit hf⟩
    · exact h.lines id' l hl
  heading x hx := by
    rw [heading?_changeLine] at hx
    exact h.heading x hx

theorem Filed.setAllCompleted (h : r.Filed k) (completed : Bool) :
    (r.setAllCompleted completed).Filed k where
  lines id l hl := by
    rw [getElem?_lines_setAllCompleted] at hl
    obtain ⟨l₀, hl₀, rfl⟩ := Option.map_eq_some_iff.1 hl
    obtain ⟨hkey, hfiled⟩ := h.lines id l₀ hl₀
    exact ⟨hkey, hfiled.edit (Line.isEdit_withCompleted completed)⟩
  heading x hx := by
    obtain ⟨y, hy, rfl⟩ := Option.map_eq_some_iff.1 hx
    exact h.heading y hy

theorem published?_foldl_changeLine (f : Line → Line) (ids : List String) (r : Record) :
    (ids.foldl (changeLine f) r).published? = r.published? := by
  induction ids generalizing r with
  | nil => rfl
  | cons a ids ih => rw [List.foldl_cons, ih, published?_changeLine]

/-- A change that can be repeated may be made twice to the same line. -/
theorem getElem?_lines_foldl_changeLine (hf : ∀ l, f (f l) = f l) (ids : List String) (r : Record)
    (id : String) : (ids.foldl (changeLine f) r).lines[id]? =
      if id ∈ ids then r.lines[id]?.map f else r.lines[id]? := by
  induction ids generalizing r with
  | nil => simp
  | cons a ids ih =>
    rw [List.foldl_cons, ih, getElem?_lines_changeLine]
    by_cases ha : a = id
    · subst ha
      by_cases hmem : a ∈ ids <;> simp [hmem, Function.comp_def, hf]
    · simp [ha, Ne.symm ha]

theorem Filed.lines_foldl_changeLine (h : r.Filed k) (hf : ∀ l, f (f l) = f l) :
    ((r.listed.map Line.id).foldl (Record.changeLine f) r).lines = r.lines.map fun _ => f := by
  refine Std.ExtTreeMap.ext_getElem? fun id => ?_
  rw [getElem?_lines_foldl_changeLine hf, Std.ExtTreeMap.getElem?_map]
  split <;> rename_i hid
  · rfl
  · rw [h.mem_ids_listed_iff] at hid
    rw [Std.ExtTreeMap.getElem?_eq_none hid]
    rfl

end Record

namespace Store

variable {s : Store} {k : StatementKey} {id : String}

theorem write_of_rejecting (h : s.gate = .rejecting) (change : Store → Except Fault Store) :
    s.write change = (.error .notAcceptingWrites, s) := by
  obtain ⟨record, gate⟩ := s
  cases h
  rfl

theorem write_of_accepting (h : s.gate = .accepting) (change : Store → Except Fault Store) :
    s.write change = match change s with
      | .ok s' => (.ok (), s')
      | .error fault => (.error fault, s) := by
  obtain ⟨record, gate⟩ := s
  cases h
  rfl

theorem update_congr {f g : Record → Record} (h : f (s.record k) = g (s.record k)) :
    s.update k f = s.update k g := by
  simp only [update, h]

theorem changeLine_of_some (hgate : s.gate = .accepting) {l : Line}
    (hl : (s.record k).lines[id]? = some l) (f : Line → Line) :
    s.changeLine k id f = (.ok (), s.update k (·.changeLine f id)) := by
  rw [changeLine, write_of_accepting hgate]
  simp only [hl, update, Record.changeLine]

theorem changeLine_of_none (hgate : s.gate = .accepting) (hl : (s.record k).lines[id]? = none)
    (f : Line → Line) : s.changeLine k id f = (.error (.lineNotFound id), s) := by
  rw [changeLine, write_of_accepting hgate]
  simp only [hl]

theorem setEachCompleted_of_accepting {completed : Bool} {ids : List String}
    (hgate : s.gate = .accepting) (hids : ∀ id ∈ ids, id ∈ (s.record k).lines) :
    setEachCompleted k completed ids s =
      (.ok (), s.update k (ids.foldl (Record.changeLine (Line.withCompleted completed)))) := by
  induction ids generalizing s with
  | nil => exact congrArg _ (update_id s k).symm
  | cons id ids ih =>
    obtain ⟨hid, hrest⟩ := List.forall_mem_cons.1 hids
    obtain ⟨l, hl⟩ := Option.isSome_iff_exists.1 (Std.ExtTreeMap.mem_iff_isSome_getElem?.1 hid)
    rw [setEachCompleted, setCompleted, changeLine_of_some hgate hl]
    generalize hs' : (s.update k (·.changeLine (Line.withCompleted completed) id)) = s'
    have hgate' : s'.gate = .accepting := by rw [← hs', gate_update, hgate]
    have hkept : ∀ id' ∈ ids, id' ∈ (s'.record k).lines := by
      intro id' hid'
      rw [← hs', record_update, if_pos rfl, Std.ExtTreeMap.mem_iff_isSome_getElem?,
        Record.getElem?_lines_changeLine]
      split
      · rw [hl]
        rfl
      · exact Std.ExtTreeMap.mem_iff_isSome_getElem?.1 (hrest id' hid')
    dsimp only
    rw [ih hgate' hkept, ← hs', update_update]
    rfl

theorem setAllCompleted_of_some (hgate : s.gate = .accepting) (hr : (s.record k).Filed k)
    {h : Heading} (hh : (s.record k).heading? = some h) (completed : Bool) :
    s.setAllCompleted k completed = (.ok (), s.update k (·.setAllCompleted completed)) := by
  have hstatement : s.statement k = .ok (h, s.lines k) := by
    rw [statement, heading?, hh]
  have hids : ∀ id ∈ (s.lines k).map Line.id, id ∈ (s.record k).lines := by
    intro id hid
    exact hr.mem_ids_listed_iff.1 hid
  have hkey : Heading.key { h with completed } = k := hr.heading h hh
  have hlines := hr.lines_foldl_changeLine (f := Line.withCompleted completed) fun _ => rfl
  rw [setAllCompleted, hstatement]
  dsimp only
  rw [setEachCompleted_of_accepting hgate hids]
  dsimp only
  rw [saveHeading_eq_writeRecord hkey, writeRecord_of_accepting (by exact hgate), update_update]
  refine congrArg _ (update_congr ?_)
  simp only [Function.comp_apply, Record.setAllCompleted, lines, hlines,
    Record.published?_foldl_changeLine, hh, Option.map_some]

theorem setAllCompleted_of_none (hh : (s.record k).heading? = none) (completed : Bool) :
    s.setAllCompleted k completed = (.error (.statementNotFound k.statement), s) := by
  rw [setAllCompleted, statement, heading?, hh]

/-- With a closed gate nothing is set: the first write, of a line or of the heading, is refused. -/
theorem setAllCompleted_of_rejecting (hgate : s.gate = .rejecting) {h : Heading}
    (hh : (s.record k).heading? = some h) (completed : Bool) :
    s.setAllCompleted k completed = (.error .notAcceptingWrites, s) := by
  rw [setAllCompleted, statement, heading?, hh]
  dsimp only
  cases s.lines k with
  | nil =>
    rw [List.map_nil, setEachCompleted]
    dsimp only
    rw [saveHeading, writeRecord, write_of_rejecting hgate]
  | cons l lines =>
    rw [List.map_cons, setEachCompleted, setCompleted, changeLine, write_of_rejecting hgate]

end Store

end Payables
