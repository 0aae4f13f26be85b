import Mathlib.Data.List.Forall2
import Payables.Proofs.Screening.Summary

/-!
# Screening again, and what it counts

Screening reads the number and the reference of a line and writes its flags and its evidence, so it
finds on a line that was screened what it found before, and has noted it already: to screen again
changes nothing. The issues are counted beside the entries of the summary, and the counts are those
of the issues in the entries (`map_flag_addsOnce`).
-/

namespace Payables.Screening

variable {settings : ScreeningSettings} {l : Line} {ls : List Line}
  {counts : Std.ExtTreeMap String Nat} {issues : List String}

/-- The second line is the first with the flags and the evidence of the findings on it. -/
structure AddsFindings (settings : ScreeningSettings) (l l' : Line) : Prop where
  grows : l.GrowsTo l'
  has_iff : ∀ g, l'.flags.has g = true ↔
    l.flags.has g = true ∨ ∃ x ∈ inspect settings l, x.flag = g
  notes : ∀ x ∈ inspect settings l, l'.Notes x.flag x.evidence

/-- The number of times that each issue occurs in a list. -/
structure CountsIssues (counts : Std.ExtTreeMap String Nat) (issues : List String) : Prop where
  mem_iff : ∀ issue, issue ∈ counts ↔ issue ∈ issues
  getD_eq : ∀ issue, counts.getD issue 0 = issues.count issue

/-- The summary lists the lines on which something is found, in their order and with their issues,
and counts the lines, the entries and the issues of the entries. -/
structure Tallies (settings : ScreeningSettings) (ls : List Line) (s : ScreeningSummary) :
    Prop where
  total : s.total = ls.length
  lines : s.lines = (ls.filter fun l => inspect settings l ≠ []).map (entry settings)
  flagged : s.flagged = s.lines.length
  issues : CountsIssues s.issues (s.lines.flatMap FlaggedLine.issues)

theorem addsFindings_flag (settings : ScreeningSettings) (l : Line) :
    AddsFindings settings l (flag settings l) where
  grows := growsTo_addFindings l _
  has_iff _ := has_addFindings_iff
  notes _ hx := notes_addFindings hx l

theorem flag_flag (settings : ScreeningSettings) (l : Line) :
    flag settings (flag settings l) = flag settings l := by
  have hnotes := (addsFindings_flag settings l).notes
  rw [← inspect_flag] at hnotes
  exact addFindings_eq_self hnotes

theorem countsIssues_empty : CountsIssues ∅ [] := by
  constructor <;> simp

theorem CountsIssues.add (h : CountsIssues counts issues) (issue : String) :
    CountsIssues (countIssue counts issue) (issues ++ [issue]) := by
  constructor
  case mem_iff =>
    intro i
    rw [countIssue, Std.ExtTreeMap.mem_insert, compare_eq_iff_eq, h.mem_iff,
      List.mem_append, List.mem_singleton, or_comm, eq_comm]
  case getD_eq =>
    intro i
    rw [countIssue, Std.ExtTreeMap.getD_insert, h.getD_eq, h.getD_eq, List.count_append]
    by_cases hi : issue = i
    · subst hi
      simp
    · rw [if_neg (compare_eq_iff_eq.not.2 hi), List.count_singleton, if_neg (by simpa using hi),
        Nat.add_zero]

theorem CountsIssues.addAll (h : CountsIssues counts issues) (more : List String) :
    CountsIssues (more.foldl countIssue counts) (issues ++ more) := by
  induction more generalizing counts issues with
  | nil => rwa [List.append_nil]
  | cons issue more ih =>
    have hrest := ih (h.add issue)
    rwa [List.append_assoc, List.singleton_append] at hrest

theorem flagged_summary (settings : ScreeningSettings) (ls : List Line) :
    (summary settings ls).flagged = (entries settings ls).length := by
  induction ls using List.reverseRecOn with
  | nil => rfl
  | append_singleton ls l ih =>
    rw [summary_concat, noteLine_eq, entries_append, List.length_append, ← ih]

theorem countsIssues_summary (settings : ScreeningSettings) (ls : List Line) :
    CountsIssues (summary settings ls).issues
      ((entries settings ls).flatMap FlaggedLine.issues) := by
  induction ls using List.reverseRecOn with
  | nil => exact countsIssues_empty
  | append_singleton ls l ih =>
    rw [summary_concat, noteLine_eq, entries_append, List.flatMap_append]
    dsimp only
    exact ih.addAll _

theorem tallies_summary (settings : ScreeningSettings) (ls : List Line) :
    Tallies settings ls (summary settings ls) where
  total := total_summary settings ls
  lines := lines_summary settings ls
  flagged := by rw [lines_summary, flagged_summary]
  issues := by
    rw [lines_summary]
    exact countsIssues_summary settings ls

end Payables.Screening
