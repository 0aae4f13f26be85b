import Payables.Proofs.Matching.Turns

/-!
# Entries that nothing is matched with

An entry that no line gets stands in nobody's way. The exact phase passes over it, and in the
substring phase it is at no turn the longest that is left, so the longest is the same without it.
Both phases go through the same states with the entry and without it (`matchLines_without`).
-/

namespace Payables.Matching

open Text

variable {lines : List Line} {before after : List LedgerEntry} {e : LedgerEntry}

theorem longest_cons (d : LedgerEntry) (ds : List LedgerEntry) :
    longest (d :: ds) = some (ds.foldl longer d) := rfl

/-- Where an entry does not stay the longest, one that is not longer may stand for it. -/
theorem foldl_longer_eq {b : LedgerEntry} {ds : List LedgerEntry} (hne : ds.foldl longer e ≠ e)
    (hle : (compactKey b).length ≤ (compactKey e).length) :
    ds.foldl longer b = ds.foldl longer e := by
  induction ds generalizing b with
  | nil => exact absurd rfl hne
  | cons d ds ih =>
    rw [List.foldl_cons] at hne ⊢
    rw [List.foldl_cons]
    by_cases hd : (compactKey e).length < (compactKey d).length
    · have hb : longer b d = d := if_pos (hle.trans_lt hd)
      have he : longer e d = d := if_pos hd
      rw [hb, he]
    · have he : longer e d = e := if_neg hd
      rw [he] at hne ⊢
      refine ih hne ?_
      unfold longer
      split
      · exact Nat.le_of_not_lt hd
      · exact hle

theorem longest_without {us vs : List LedgerEntry} (h : longest (us ++ e :: vs) ≠ some e) :
    longest (us ++ vs) = longest (us ++ e :: vs) := by
  cases us with
  | cons u us =>
    rw [List.cons_append, longest_cons, List.foldl_append, List.foldl_cons, Ne,
      Option.some_inj] at h
    rw [List.cons_append, List.cons_append, longest_cons, longest_cons, List.foldl_append,
      List.foldl_append, List.foldl_cons, Option.some_inj]
    generalize us.foldl longer u = best at h ⊢
    by_cases hlt : (compactKey best).length < (compactKey e).length
    · have he : longer best e = e := if_pos hlt
      rw [he] at h ⊢
      exact foldl_longer_eq h hlt.le
    · have hbest : longer best e = best := if_neg hlt
      rw [hbest]
  | nil =>
    rw [List.nil_append, longest_cons, Ne, Option.some_inj] at h
    cases vs with
    | nil => exact absurd rfl h
    | cons d ds =>
      rw [List.foldl_cons] at h
      rw [List.nil_append, List.nil_append, longest_cons, longest_cons, List.foldl_cons,
        Option.some_inj]
      by_cases hlt : (compactKey e).length < (compactKey d).length
      · have hd : longer e d = d := if_pos hlt
        rw [hd]
      · have he : longer e d = e := if_neg hlt
        rw [he] at h ⊢
        exact foldl_longer_eq h (Nat.le_of_not_lt hlt)

theorem bestRelated_without {t : Taken} {target : String}
    (h : bestRelated (before ++ e :: after) t target ≠ some e) :
    bestRelated (before ++ after) t target = bestRelated (before ++ e :: after) t target := by
  unfold bestRelated at h ⊢
  rw [List.filter_append, List.filter_cons] at h
  rw [List.filter_append, List.filter_append, List.filter_cons]
  by_cases hkept : (!t.blocks e && isRelated target e) = true
  · rw [if_pos hkept] at h ⊢
    exact longest_without h
  · rw [if_neg hkept]

theorem exactStep_of_unused {numbers : List String} {p : Progress}
    (h : ∀ a ∈ (exactStep numbers p e).awards, a.entry.id ≠ e.id) : exactStep numbers p e = p := by
  rcases exactStep_cases numbers p e with heq | ⟨-, -, heq⟩
  · exact heq
  · rw [heq] at h
    exact absurd rfl (h ⟨e.key, e, .exact⟩ (List.mem_append_right _ List.mem_cons_self))

theorem awards_prefix_foldl_exactStep (numbers : List String) (ds : List LedgerEntry)
    (p : Progress) : p.awards <+: (ds.foldl (exactStep numbers) p).awards :=
  List.foldlRecOn ds _ (motive := fun q : Progress => p.awards <+: q.awards) (List.prefix_refl _)
    fun q hq d _ => hq.trans (awards_prefix_exactStep numbers q d)

theorem exactPhase_without
    (h : ∀ a ∈ (exactPhase lines (before ++ e :: after)).awards, a.entry.id ≠ e.id) :
    exactPhase lines (before ++ after) = exactPhase lines (before ++ e :: after) := by
  unfold exactPhase at h ⊢
  rw [List.foldl_append, List.foldl_cons] at h
  rw [List.foldl_append, List.foldl_append, List.foldl_cons, exactStep_of_unused]
  exact fun a ha => h a ((awards_prefix_foldl_exactStep _ after _).mem ha)

theorem substringStep_without {p : Progress} {n : String}
    (h : ∀ a ∈ (substringStep (before ++ e :: after) p n).awards, a.entry.id ≠ e.id) :
    substringStep (before ++ after) p n = substringStep (before ++ e :: after) p n := by
  by_cases hskip :
      ((p.award? n).isSome || isPaymentReference n || (compactForm n).isEmpty) = true
  · have hstep (ledger : List LedgerEntry) : substringStep ledger p n = p := if_pos hskip
    rw [hstep, hstep]
  · unfold substringStep at h ⊢
    rw [if_neg hskip] at h
    rw [if_neg hskip, if_neg hskip, bestRelated_without]
    intro hbest
    rw [hbest] at h
    exact h ⟨n, e, .substring⟩ (List.mem_append_right _ List.mem_cons_self) rfl

theorem foldl_substringStep_without {ns : List String} {p : Progress}
    (h : ∀ a ∈ (ns.foldl (substringStep (before ++ e :: after)) p).awards, a.entry.id ≠ e.id) :
    ns.foldl (substringStep (before ++ after)) p =
      ns.foldl (substringStep (before ++ e :: after)) p := by
  induction ns generalizing p with
  | nil => rfl
  | cons n ns ih =>
    rw [List.foldl_cons] at h
    have hstep : substringStep (before ++ after) p n = substringStep (before ++ e :: after) p n :=
      substringStep_without fun a ha => h a ((awards_prefix_foldl _ ns _).mem ha)
    rw [List.foldl_cons, List.foldl_cons, hstep, ih h]

theorem substringPhase_without
    (h : ∀ a ∈ (substringPhase lines (before ++ e :: after)).awards, a.entry.id ≠ e.id) :
    substringPhase lines (before ++ after) = substringPhase lines (before ++ e :: after) := by
  have hexact : exactPhase lines (before ++ after) = exactPhase lines (before ++ e :: after) :=
    exactPhase_without fun a ha => h a ((awards_prefix_foldl _ (contenders lines) _).mem ha)
  unfold substringPhase at h ⊢
  rw [hexact, foldl_substringStep_without h]

/-- For any lines and any ledger, an entry whose id is in no result can be left out of the ledger,
and neither the results nor what is taken change. -/
theorem matchLines_without (lines : List Line) (before after : List LedgerEntry) (e : LedgerEntry)
    (h : ∀ x ∈ (matchLines lines (before ++ e :: after)).results, x.entryId? ≠ some e.id) :
    matchLines lines (before ++ after) = matchLines lines (before ++ e :: after) := by
  unfold matchLines
  rw [substringPhase_without]
  intro a ha hid
  obtain ⟨j, l, -, -, hresult⟩ :=
    (valid_substringPhase lines (before ++ e :: after)).exists_result ha
  exact h _ (List.mem_of_getElem? hresult) (congrArg some hid)

/-- The second entry has the compact number of the first and shares its id with none. -/
def tiedLedger : List LedgerEntry :=
  [⟨"a", "INV-123", .invoice⟩, ⟨"b", "INV 123", .invoice⟩, ⟨"c", "INV-1234", .creditNote⟩]

def tiedLines : List Line := [numberedLine 1 "Ref INV123", numberedLine 2 " INV-1234 "]

theorem matchLines_without_tied :
    (∀ x ∈ (matchLines tiedLines tiedLedger).results, x.entryId? ≠ some "b") ∧
      matchLines tiedLines (tiedLedger.eraseIdx 1) = matchLines tiedLines tiedLedger ∧
      (matchLines tiedLines tiedLedger).taken.size = 2 := by
  have hunused : ∀ x ∈ (matchLines tiedLines tiedLedger).results, x.entryId? ≠ some "b" := by
    decide +kernel
  refine ⟨hunused, ?_, by decide +kernel⟩
  exact matchLines_without tiedLines [⟨"a", "INV-123", .invoice⟩] [⟨"c", "INV-1234", .creditNote⟩]
    ⟨"b", "INV 123", .invoice⟩ hunused

end Payables.Matching
