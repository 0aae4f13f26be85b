import Payables.Proofs.Text.LowerCase
import Payables.Proofs.Text.Runs
import Payables.Proofs.Text.Trimming

/-!
# The end of a header

The normal form of a header changes case and white space only, so a header that ends with an index
has a normal form that ends with it (`exists_headerForm_eq`), and a normal form without a space is
the lower case of a header of one word (`toList_headerForm_eq`).
-/

namespace Payables.Text

theorem intercalate_concat_append (sep : List Char) (ws : List (List Char)) (w t : List Char) :
    sep.intercalate (ws ++ [w ++ t]) = sep.intercalate (ws ++ [w]) ++ t := by
  induction ws with
  | nil => simp [List.intercalate]
  | cons v ws ih =>
    cases ws with
    | nil => simp [List.intercalate]
    | cons u us => simpa [List.intercalate] using ih

theorem exists_headerForm_eq (name : String) (n : Nat) :
    ∃ u, (headerForm (name ++ "_" ++ String.ofList (digits n))).toList = u ++ '_' :: digits n := by
  have hend : ∀ c ∈ '_' :: digits n, IsLower c ∧ isBlank c = false := by
    intro c hc
    rcases List.mem_cons.1 hc with rfl | hc
    · decide +kernel
    · exact isLower_of_isDigit (isDigit_of_mem_digits hc)
  have hwords : ∀ c ∈ '_' :: digits n, (!isBlank c) = true := fun c hc => by simp [(hend c hc).2]
  obtain ⟨ws, w, hws⟩ := exists_runs_append (List.cons_ne_nil _ _) hwords name.toList
  have hlist : (name ++ "_" ++ String.ofList (digits n)).toList =
      name.toList ++ '_' :: digits n := by
    simp
  rw [headerForm, String.toList_ofList, hlist, words, hws, intercalate_concat_append, lower]
  exact exists_lowerAfter_append (fun c hc => (hend c hc).1) [] _

theorem words_of_blank {s : List Char} (h : ∀ c ∈ s, isBlank c = true) : words s = [] := by
  induction s with
  | nil => rfl
  | cons c s ih =>
    obtain ⟨hc, hs⟩ := List.forall_mem_cons.1 h
    rw [words, runs_cons_of_neg (by simp [hc])]
    exact ih hs

theorem headerForm_of_blank {cell : String} (h : allBlank cell.toList = true) :
    headerForm cell = "" := by
  rw [headerForm, words_of_blank (List.all_eq_true.1 h)]
  rfl

theorem trim_of_words_eq {s w : List Char} (h : words s = [w]) : trim s = w := by
  obtain ⟨htext, hlead, hpieces⟩ := isCut_split (!isBlank ·) s
  obtain ⟨q, hq, rfl⟩ := List.map_eq_singleton_iff.1 h
  rw [hq] at htext hpieces
  obtain ⟨⟨hne, hrun, hgap⟩, -, -⟩ := arePieces_cons_iff.1 hpieces
  have hs : s = (split (!isBlank ·) s).lead ++ (q.run ++ q.gap) := by
    conv_lhs => rw [htext]
    simp [piecesText]
  rw [hs]
  have hrun' : ∀ c ∈ q.run, isBlank c = false := by simpa using hrun
  exact trim_append (by simpa using hlead) (by simpa using hgap) hne
    (fun c hc => hrun' c (List.mem_of_mem_head? hc)) fun c hc => hrun' c (List.mem_of_getLast? hc)

theorem trim_of_words_eq_nil {s : List Char} (h : words s = []) : trim s = [] := by
  obtain ⟨htext, hlead, -⟩ := isCut_split (!isBlank ·) s
  rw [List.map_eq_nil_iff.1 h] at htext
  refine trim_eq_nil_iff.2 fun c hc => ?_
  rw [htext] at hc
  simpa using hlead c (by simpa [piecesText] using hc)

theorem headerForm_eq_empty_iff {cell : String} :
    headerForm cell = "" ↔ trim cell.toList = [] := by
  constructor
  · intro h
    refine trim_of_words_eq_nil ?_
    have hwords : [' '].intercalate (words cell.toList) = [] := by
      rwa [headerForm, ← String.toList_inj, String.toList_ofList, String.toList_empty,
        lower_eq_nil_iff] at h
    cases hcell : words cell.toList with
    | nil => rfl
    | cons w ws =>
      have hne : w ≠ [] := ne_nil_of_mem_runs (hcell ▸ List.mem_cons_self)
      rw [hcell] at hwords
      cases ws <;> simp [List.intercalate, hne] at hwords
  · intro h
    exact headerForm_of_blank (List.all_eq_true.2 (trim_eq_nil_iff.1 h))

theorem toList_headerForm_eq {cell : String} (h : ' ' ∉ (headerForm cell).toList) :
    (headerForm cell).toList = lower (trim cell.toList) := by
  rw [headerForm, String.toList_ofList] at h ⊢
  cases hwords : words cell.toList with
  | nil => rw [trim_of_words_eq_nil hwords]; rfl
  | cons w ws =>
    cases ws with
    | nil => rw [trim_of_words_eq hwords]; simp [List.intercalate]
    | cons v ws =>
      rw [hwords] at h
      have hspace : IsLower ' ' := by decide +kernel
      exact absurd (mem_lowerAfter hspace (by simp [List.intercalate]) []) h

end Payables.Text
