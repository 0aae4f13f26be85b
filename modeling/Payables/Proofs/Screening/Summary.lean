import Mathlib.Data.List.Induction
import Payables.Proofs.Merge.Lines
import Payables.Proofs.Screening.Findings

/-!
# What a screening sums up

The summary of a list of lines counts all of them and lists those on which something is found, in
their order. It is a summary of *these* lines: after a merge, which keeps one line of each id, it
describes the merged lines iff the lines that it was made from had distinct ids.
-/

namespace Payables

/-- The line carries a flag that screening raises. -/
def Line.IsScreened (l : Line) : Prop :=
  l.flags.has .missingNumber = true ∨ l.flags.has .outlier = true

instance (l : Line) : Decidable l.IsScreened := inferInstanceAs (Decidable (_ ∨ _))

/-- The summary counts the lines and names those that carry a flag of the screening, and no others,
each of them once. -/
structure ScreeningSummary.Describes (s : ScreeningSummary) (ls : List Line) : Prop where
  total : s.total = ls.length
  nodup : (s.lines.map FlaggedLine.id).Nodup
  named : ∀ l ∈ ls, l.IsScreened → l.id ∈ s.lines.map FlaggedLine.id
  flagged : ∀ x ∈ s.lines, ∃ l ∈ ls, l.IsScreened ∧ l.id = x.id

namespace Screening

variable {settings : ScreeningSettings} {l : Line} {ls : List Line}

/-- The entries of a summary, one for each line on which something is found. -/
def entries (settings : ScreeningSettings) (ls : List Line) : List FlaggedLine :=
  (ls.filter fun l => inspect settings l ≠ []).map (entry settings)

theorem entries_append (settings : ScreeningSettings) (ls ls' : List Line) :
    entries settings (ls ++ ls') = entries settings ls ++ entries settings ls' := by
  rw [entries, List.filter_append, List.map_append, ← entries, ← entries]

theorem summary_concat (settings : ScreeningSettings) (ls : List Line) (l : Line) :
    summary settings (ls ++ [l]) = noteLine settings (summary settings ls) l :=
  List.foldl_concat ..

theorem noteLine_eq (settings : ScreeningSettings) (s : ScreeningSummary) (l : Line) :
    noteLine settings s l =
      { total := s.total + 1
        flagged := s.flagged + (entries settings [l]).length
        issues := ((entries settings [l]).flatMap FlaggedLine.issues).foldl countIssue s.issues
        lines := s.lines ++ entries settings [l] } := by
  unfold noteLine
  split
  · rename_i hnone
    have hentries : entries settings [l] = [] := by
      rw [entries, List.filter_cons_of_neg (by simpa using hnone)]
      rfl
    simp only [hentries, List.length_nil, Nat.add_zero, List.flatMap_nil, List.foldl_nil,
      List.append_nil]
  · rename_i hsome
    have hentries : entries settings [l] = [entry settings l] := by
      rw [entries, List.filter_cons_of_pos (by simpa using hsome)]
      rfl
    simp only [hentries, List.length_singleton, List.flatMap_singleton]

theorem total_summary (settings : ScreeningSettings) (ls : List Line) :
    (summary settings ls).total = ls.length := by
  induction ls using List.reverseRecOn with
  | nil => rfl
  | append_singleton ls l ih =>
    rw [summary_concat, noteLine_eq, List.length_append, ← ih]
    rfl

theorem lines_summary (settings : ScreeningSettings) (ls : List Line) :
    (summary settings ls).lines = entries settings ls := by
  induction ls using List.reverseRecOn with
  | nil => rfl
  | append_singleton ls l ih => rw [summary_concat, noteLine_eq, entries_append, ← ih]

theorem inspect_flag (settings : ScreeningSettings) (l : Line) :
    inspect settings (flag settings l) = inspect settings l := by
  simp only [inspect, flag, number_addFindings, reference_addFindings]

/-- The flags that screening raises do not change what it sums up. -/
theorem summary_map_flag (settings : ScreeningSettings) (ls : List Line) :
    summary settings (ls.map (flag settings)) = summary settings ls := by
  have hnote : ∀ s l, noteLine settings s (flag settings l) = noteLine settings s l := by
    intro s l
    have hid : (flag settings l).id = l.id := by rw [flag, addFindings_eq]
    have hordinal : (flag settings l).ordinal = l.ordinal := by rw [flag, addFindings_eq]
    simp only [noteLine, entry, inspect_flag, hid, hordinal]
  rw [summary, List.foldl_map]
  simp only [hnote, summary]

section

variable (h : ∀ l ∈ ls, l.IsScreened ↔ inspect settings l ≠ [])
include h

theorem lines_summary_eq_filter_isScreened :
    (summary settings ls).lines = (ls.filter (·.IsScreened)).map (entry settings) := by
  have hfilter : ls.filter (inspect settings · ≠ []) = ls.filter (·.IsScreened) :=
    List.filter_congr fun l hl => decide_eq_decide.2 (h l hl).symm
  rw [lines_summary, entries, hfilter]

theorem mem_ids_lines_summary_iff {id : String} :
    id ∈ (summary settings ls).lines.map FlaggedLine.id ↔ ∃ l ∈ ls, l.IsScreened ∧ l.id = id := by
  rw [lines_summary_eq_filter_isScreened h, List.map_map]
  simp only [List.mem_map, List.mem_filter, decide_eq_true_eq, and_assoc]
  rfl

/-- A merged line with a flag of the screening is named, whatever ids the lines have. -/
theorem id_mem_lines_summary_of_mem_merge {existing : List Line}
    (hl : l ∈ (Merge.ofLines existing ls).lines) (hscreened : l.IsScreened) :
    l.id ∈ (summary settings ls).lines.map FlaggedLine.id := by
  obtain ⟨f, hf, heq⟩ := Merge.mem_lines_iff.1 hl
  have hid : f.id = l.id := by simpa using List.find?_some hf
  rw [heq] at hscreened
  exact (mem_ids_lines_summary_iff h).2 ⟨f, List.mem_of_find?_eq_some hf, hscreened, hid⟩

end

theorem perm_carry_of_nodup_ids (h : (ls.map Line.id).Nodup) (existing : List Line) :
    (Merge.ofLines existing ls).lines.Perm
      (ls.map fun l => Merge.carry (Merge.kept? existing l.id) l) := by
  have hperm := Merge.lines_perm existing ls
  rwa [firstOfEach_eq_self Line.id h] at hperm

/-- The summary describes the merged lines iff no line was dropped in the merge. -/
theorem describes_ofLines_iff (h : ∀ l ∈ ls, l.IsScreened ↔ inspect settings l ≠ [])
    (existing : List Line) :
    (summary settings ls).Describes (Merge.ofLines existing ls).lines ↔
      (ls.map Line.id).Nodup := by
  constructor
  · intro hdescribes
    have hkept : (firstOfEach Line.id ls).length = ls.length := by
      rw [← total_summary settings ls, hdescribes.total,
        (Merge.lines_perm existing ls).length_eq, List.length_map]
    rw [← (firstOfEach_sublist Line.id ls).eq_of_length hkept]
    exact nodup_keys_firstOfEach Line.id ls
  · intro hids
    have hperm := perm_carry_of_nodup_ids hids existing
    constructor
    case total => rw [total_summary, hperm.length_eq, List.length_map]
    case nodup =>
      rw [lines_summary, entries, List.map_map]
      exact (List.filter_sublist.map Line.id).nodup hids
    case named => exact fun l hl => id_mem_lines_summary_of_mem_merge h hl
    case flagged =>
      intro x hx
      obtain ⟨f, hf, hscreened, hid⟩ := (mem_ids_lines_summary_iff h).1 (List.mem_map_of_mem hx)
      exact ⟨_, hperm.mem_iff.2 (List.mem_map_of_mem hf), hscreened, hid⟩

end Screening

end Payables
