import Mathlib.Data.List.Induction
import Payables.Collection.Distinct
import Payables.Proofs.Screening.Findings

/-!
# What is noted on a fresh line

The flags and the evidence of a line are written apart from each other, one finding after another.
On a fresh line they agree with the findings in the end: the flags are those of the findings, and
under the code of each stands what was found with it, in the order in which it was first found and
without repetition (`addFindings_keepsBooks`). The order of findings with different flags does not
matter, and neither does a finding that is repeated.
-/

namespace Payables.Screening

variable {l : Line} {found : List Finding} {g : Flag} {x y : Finding}

/-- The evidence that is found with a flag, each piece once and in the order of its first
occurrence. -/
def evidenceFor (g : Flag) (found : List Finding) : List Evidence :=
  distinct ((found.filter (·.flag = g)).map (·.evidence))

/-- What is noted on the line is what was found, all of it and nothing else. -/
structure KeepsBooks (l : Line) (found : List Finding) : Prop where
  rest : addFindings l found =
    { l with flags := (addFindings l found).flags, evidence := (addFindings l found).evidence }
  has_iff : ∀ g, (addFindings l found).flags.has g = true ↔ ∃ x ∈ found, x.flag = g
  mem_evidence_iff : ∀ code, code ∈ (addFindings l found).evidence ↔ ∃ x ∈ found, x.flag.code = code
  getElem?_evidence : ∀ x ∈ found,
    (addFindings l found).evidence[x.flag.code]? = some (evidenceFor x.flag found)
  /-- Other findings leave the same line iff each flag gets the same evidence from them. -/
  eq_iff : ∀ found', addFindings l found' = addFindings l found ↔
    ∀ g, evidenceFor g found' = evidenceFor g found
  comm : ∀ (before after : List Finding) (x y : Finding), found = before ++ x :: y :: after →
    x.flag ≠ y.flag → addFindings l (before ++ y :: x :: after) = addFindings l found
  again : ∀ (before after : List Finding) (x : Finding), found = before ++ x :: after →
    x ∈ before → addFindings l (before ++ after) = addFindings l found

theorem addFindings_append (l : Line) (found found' : List Finding) :
    addFindings l (found ++ found') = addFindings (addFindings l found) found' :=
  List.foldl_append

theorem addFindings_concat (l : Line) (found : List Finding) (x : Finding) :
    addFindings l (found ++ [x]) = (addFindings l found).addFlag x.flag x.evidence :=
  List.foldl_concat ..

theorem noteOnce_distinct (e : Evidence) (es : List Evidence) :
    Line.noteOnce e (distinct es) = distinct (es ++ [e]) := by
  rw [distinct_concat, Line.noteOnce]
  simp only [List.contains_iff_mem, mem_distinct]

theorem evidenceFor_concat_self (found : List Finding) (x : Finding) :
    evidenceFor x.flag (found ++ [x]) =
      Line.noteOnce x.evidence (evidenceFor x.flag found) := by
  rw [evidenceFor, evidenceFor, noteOnce_distinct, List.filter_append,
    List.filter_cons_of_pos (by simp), List.map_append]
  rfl

theorem evidenceFor_concat_of_ne (h : x.flag ≠ g) (found : List Finding) :
    evidenceFor g (found ++ [x]) = evidenceFor g found := by
  rw [evidenceFor, evidenceFor, List.filter_append, List.filter_cons_of_neg (by simpa using h),
    List.filter_nil, List.append_nil]

theorem getD_evidence_addFindings (h : l.evidence = ∅) (found : List Finding) (g : Flag) :
    (addFindings l found).evidence.getD g.code [] = evidenceFor g found := by
  induction found using List.reverseRecOn with
  | nil =>
    rw [addFindings, List.foldl_nil, h, Std.ExtTreeMap.getD_empty]
    rfl
  | append_singleton found x ih =>
    rw [addFindings_concat]
    by_cases hx : x.flag = g
    · subst hx
      rw [Line.getD_evidence_addFlag_self, ih, evidenceFor_concat_self]
    · rw [Line.getD_evidence_addFlag_of_ne (Flag.code_inj.not.2 hx), ih,
        evidenceFor_concat_of_ne hx]

theorem getElem?_evidence_addFindings_of_mem (h : l.evidence = ∅) (hx : x ∈ found) :
    (addFindings l found).evidence[x.flag.code]? = some (evidenceFor x.flag found) := by
  obtain ⟨es, hes, -⟩ := (notes_addFindings hx l).evidence
  have hget := getD_evidence_addFindings h found x.flag
  rw [Std.ExtTreeMap.getD_eq_getD_getElem?, hes, Option.getD_some] at hget
  rw [hes, hget]

theorem addFindings_swap (h : x.flag ≠ y.flag) (l : Line) (before after : List Finding) :
    addFindings l (before ++ y :: x :: after) = addFindings l (before ++ x :: y :: after) := by
  simp only [addFindings_append, addFindings_cons]
  rw [Line.addFlag_comm h]

theorem addFindings_again {before : List Finding} (h : x ∈ before) (l : Line)
    (after : List Finding) :
    addFindings l (before ++ after) = addFindings l (before ++ x :: after) := by
  rw [addFindings_append, addFindings_append, addFindings_cons,
    (notes_addFindings h l).addFlag_eq_self]

theorem has_addFindings_iff_of_unflagged (hflags : l.flags = {}) :
    (addFindings l found).flags.has g = true ↔ ∃ x ∈ found, x.flag = g := by
  have hnone : ¬ l.flags.has g = true := by
    rw [hflags]
    cases g <;> exact Bool.false_ne_true
  rw [has_addFindings_iff, or_iff_right hnone]

section

variable (hflags : l.flags = {}) (hevidence : l.evidence = ∅)
include hflags hevidence

theorem documented_addFindings_of_unflagged (found : List Finding) :
    (addFindings l found).Documented :=
  documented_addFindings (Line.documented_of_unflagged hflags hevidence) found

theorem mem_evidence_addFindings_iff {code : String} :
    code ∈ (addFindings l found).evidence ↔ ∃ x ∈ found, x.flag.code = code := by
  rw [(documented_addFindings_of_unflagged hflags hevidence found).mem_evidence_iff]
  constructor
  · rintro ⟨g, hg, rfl⟩
    obtain ⟨x, hx, rfl⟩ := (has_addFindings_iff_of_unflagged hflags).1 hg
    exact ⟨x, hx, rfl⟩
  · rintro ⟨x, hx, rfl⟩
    exact ⟨x.flag, (has_addFindings_iff_of_unflagged hflags).2 ⟨x, hx, rfl⟩, rfl⟩

/-- The evidence for each flag tells the flags, so that it tells all that has been noted. -/
theorem addFindings_eq_iff {found' : List Finding} :
    addFindings l found' = addFindings l found ↔
      ∀ g, evidenceFor g found' = evidenceFor g found := by
  have hdocumented := documented_addFindings_of_unflagged hflags hevidence
  simp only [← getD_evidence_addFindings hevidence]
  constructor
  · intro h g
    rw [h]
  · intro h
    obtain ⟨hsame, hsame'⟩ := (hdocumented found').same (hdocumented found) h
    exact (growsTo_addFindings l found').eq_of_same (growsTo_addFindings l found) hsame hsame'

end

/-- Whatever is found, in whatever order and however often, the books of a line that was fresh agree
with it. -/
theorem addFindings_keepsBooks (statement : String) (ordinal : Nat) (found : List Finding) :
    KeepsBooks (Line.ofOrdinal statement ordinal) found := by
  constructor
  case rest => exact addFindings_eq _ found
  case has_iff => exact fun g => has_addFindings_iff_of_unflagged rfl
  case mem_evidence_iff => exact fun code => mem_evidence_addFindings_iff rfl rfl
  case getElem?_evidence => exact fun x hx => getElem?_evidence_addFindings_of_mem rfl hx
  case eq_iff => exact fun found' => addFindings_eq_iff rfl rfl
  case comm =>
    rintro before after x y rfl hne
    exact addFindings_swap hne _ before after
  case again =>
    rintro before after x rfl hx
    exact addFindings_again hx _ after

/-- Evidence with a keyword is not the same as without it, and neither is noted twice. -/
example :
    let plain : Evidence := { field := "number", issue := "keyword-number" }
    let found : List Finding := [⟨.outlier, plain⟩, ⟨.missingNumber, plain⟩,
      ⟨.outlier, { plain with keyword? := some "total" }⟩, ⟨.outlier, plain⟩]
    evidenceFor .outlier found = [plain, { plain with keyword? := some "total" }] := by
  decide

end Payables.Screening
