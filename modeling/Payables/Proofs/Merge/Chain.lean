import Payables.Proofs.Merge.Outcome

/-!
# Merging again and again

Each extraction of a statement is merged into the lines that the one before it left. What the user
had done to a line at the outset survives exactly if every extraction but the last had a line of
that id (`survivor?`): one extraction without it is enough to lose it, and a line that comes back is
a new one. The last extraction decides which lines there are, and merging it once more changes
nothing.
-/

namespace Payables.Merge

/-- The lines after some extractions, each merged into the lines that the one before it left. -/
def afterPasses (existing : List Line) (passes : List (List Line)) : List Line :=
  passes.foldl (fun kept fresh => (ofLines kept fresh).lines) existing

/-- The existing line of an id, the last one if there are several, if all passes have the id. -/
def survivor? (existing : List Line) (passes : List (List Line)) (id : String) : Option Line :=
  if ∀ fresh ∈ passes, id ∈ fresh.map Line.id then existing.reverse.find? (·.id == id) else none

/-- The lines that a last extraction leaves after some earlier ones. -/
structure ChainsTo (existing : List Line) (earlier : List (List Line)) (last lines : List Line) :
    Prop where
  mem_ids : ∀ id, id ∈ lines.map Line.id ↔ id ∈ last.map Line.id
  nodup_ids : (lines.map Line.id).Nodup
  ordered : lines.Pairwise Before
  carried : ∀ l ∈ lines, ∃ f, last.find? (·.id == l.id) = some f ∧
    l = carry (survivor? existing earlier l.id) f

/-- A second merge that has nothing to do after a first one. -/
structure IsRepeatedBy (m again : Merge) : Prop where
  lines_eq : again.lines = m.lines
  earliest?_eq : again.earliest? = m.earliest?
  latest?_eq : again.latest? = m.latest?
  inserted_eq : again.inserted = []
  removed_eq : again.removed = []
  updated_perm : again.updated.Perm (m.lines.map Line.id)

variable {id : String}

/-- What one merge has carried over, the next one carries over from it. -/
theorem kept?_lines (existing fresh : List Line) (id : String) :
    kept? (ofLines existing fresh).lines id =
      (fresh.find? (·.id == id)).map (carry (kept? existing id)) := by
  have hnodup := nodup_ids_lines existing fresh
  refine Option.ext fun l => ?_
  rw [kept?_eq_some_iff hnodup, ← find?_lines, find?_key_eq_some_iff Line.id hnodup]

theorem carry_kept?_lines (existing fresh : List Line) (id : String) (l : Line) :
    carry (kept? (ofLines existing fresh).lines id) l =
      carry (if id ∈ fresh.map Line.id then kept? existing id else none) l := by
  rw [kept?_lines]
  cases hfind : fresh.find? (·.id == id) with
  | some f =>
    have hmem : id ∈ fresh.map Line.id :=
      List.mem_map.2 ⟨f, List.mem_of_find?_eq_some hfind, by simpa using List.find?_some hfind⟩
    rw [if_pos hmem, Option.map_some, carry_carry]
  | none =>
    have hmem : id ∉ fresh.map Line.id := by simpa using hfind
    rw [if_neg hmem, Option.map_none]

theorem survivor?_cons (existing fresh : List Line) (passes : List (List Line)) (id : String)
    (l : Line) : carry (survivor? (ofLines existing fresh).lines passes id) l =
      carry (survivor? existing (fresh :: passes) id) l := by
  simp only [survivor?, List.forall_mem_cons]
  by_cases hpasses : ∀ f ∈ passes, id ∈ f.map Line.id
  · simp only [if_pos hpasses, and_iff_left hpasses]
    exact carry_kept?_lines existing fresh id l
  · rw [if_neg hpasses, if_neg fun h => hpasses h.2]

theorem carry_kept?_afterPasses (existing : List Line) (passes : List (List Line)) (id : String)
    (l : Line) :
    carry (kept? (afterPasses existing passes) id) l = carry (survivor? existing passes id) l := by
  induction passes generalizing existing with
  | nil => rfl
  | cons fresh passes ih =>
    rw [afterPasses, List.foldl_cons, ← survivor?_cons]
    exact ih (ofLines existing fresh).lines

theorem afterPasses_concat (existing : List Line) (earlier : List (List Line)) (last : List Line) :
    afterPasses existing (earlier ++ [last]) =
      (ofLines (afterPasses existing earlier) last).lines :=
  List.foldl_concat ..

theorem chainsTo_afterPasses (existing : List Line) (earlier : List (List Line))
    (last : List Line) :
    ChainsTo existing earlier last (afterPasses existing (earlier ++ [last])) := by
  rw [afterPasses_concat]
  refine ⟨fun _ => mem_ids_lines_iff, nodup_ids_lines _ last, pairwise_before_lines _ last, ?_⟩
  intro l hl
  obtain ⟨f, hf, hcarry⟩ := mem_lines_iff.1 hl
  refine ⟨f, hf, ?_⟩
  rwa [carry_kept?_afterPasses] at hcarry

theorem lines_again (existing fresh : List Line) :
    (ofLines (ofLines existing fresh).lines fresh).lines = (ofLines existing fresh).lines := by
  refine lines_congr fun f hf => ?_
  rw [kept?_lines, hf, Option.map_some, carry_carry]

theorem isRepeatedBy_again (existing fresh : List Line) :
    (ofLines existing fresh).IsRepeatedBy (ofLines (ofLines existing fresh).lines fresh) where
  lines_eq := lines_again existing fresh
  earliest?_eq := congrArg earliestDate? (lines_again existing fresh)
  latest?_eq := congrArg latestDate? (lines_again existing fresh)
  inserted_eq := List.eq_nil_iff_forall_not_mem.2 fun _ hid =>
    (mem_inserted_iff.1 hid).2 (mem_ids_lines_iff.2 (mem_inserted_iff.1 hid).1)
  removed_eq := List.eq_nil_iff_forall_not_mem.2 fun _ hid =>
    (mem_removed_iff.1 hid).2 (mem_ids_lines_iff.1 (mem_removed_iff.1 hid).1)
  updated_perm := by
    refine (List.perm_ext_iff_of_nodup (nodup_updated _ _) (nodup_ids_lines _ _)).2 fun id => ?_
    rw [mem_updated_iff, mem_ids_lines_iff, and_self]

end Payables.Merge
