import Payables.Proofs.Matching.Unused

/-!
# Lines that nothing is matched with

A line that gets no entry stands in nobody's way either, if no other line has its number. Without
the line its number has no turn, and the turn that it had went by without an award; the other
numbers have theirs in the same order. So both phases make the same awards with the line and without
it (`matchLines_without_unmatched`).
-/

namespace Payables.Matching

open Text

variable {before after : List Line} {l : Line} {ledger : List LedgerEntry} {k : String}

/-- A line whose number is blank, or that no other line has. -/
def IsAlone (before after : List Line) (l : Line) : Prop :=
  key l = "" ∨ key l ∉ (before ++ after).map key

instance (before after : List Line) (l : Line) : Decidable (IsAlone before after l) :=
  inferInstanceAs (Decidable (_ ∨ _))

theorem contenders_without (h : IsAlone before after l) :
    contenders (before ++ after) = (contenders (before ++ l :: after)).filter (· ≠ key l) := by
  have hkept : ∀ ls : List Line, (∀ l' ∈ ls, l' ∈ before ++ after) →
      ((ls.map key).filter (!·.isEmpty)).filter (· ≠ key l) =
        (ls.map key).filter (!·.isEmpty) := by
    intro ls hls
    refine List.filter_eq_self.2 fun n hn => decide_eq_true ?_
    obtain ⟨hmem, hne⟩ := List.mem_filter.1 hn
    rintro rfl
    rcases h with hblank | halone
    · simp [hblank] at hne
    · obtain ⟨l', hl', hkey⟩ := List.mem_map.1 hmem
      exact halone (hkey ▸ List.mem_map_of_mem (hls l' hl'))
  have hline : (([l].map key).filter (!·.isEmpty)).filter (· ≠ key l) = [] := by
    refine List.filter_eq_nil_iff.2 fun n hn => ?_
    simp [List.mem_singleton.1 (List.mem_of_mem_filter hn)]
  rw [contenders, contenders, ← distinct_filter, ← List.singleton_append, List.map_append,
    List.map_append, List.map_append, List.filter_append, List.filter_append, List.filter_append,
    List.filter_append, List.filter_append, hkept before fun _ => List.mem_append_left after,
    hkept after fun _ => List.mem_append_right before, hline, List.nil_append]

theorem award?_eq_none_of_prefix {p q : Progress} (h : p.awards <+: q.awards)
    (hq : q.award? k = none) : p.award? k = none := by
  rw [Progress.award?_eq_none_iff] at hq ⊢
  exact fun hmem => hq ((h.map (·.number)).mem hmem)

/-- Without a number that gets nothing the exact phase gives every entry to the same number. -/
theorem exactStep_without_number {numbers : List String} {p : Progress} {d : LedgerEntry}
    (h : (exactStep numbers p d).award? k = none) :
    exactStep (numbers.filter (· ≠ k)) p d = exactStep numbers p d := by
  by_cases hd : d.key = k
  · have hskip : exactStep (numbers.filter (· ≠ k)) p d = p := by
      refine if_neg ?_
      simp [hd]
    rcases exactStep_cases numbers p d with heq | ⟨-, -, heq⟩
    · rw [hskip, heq]
    · rw [heq, Progress.award?_award, if_pos hd] at h
      simp at h
  · have hcontains : (numbers.filter (· ≠ k)).contains d.key = numbers.contains d.key := by
      rw [Bool.eq_iff_iff, List.contains_iff_mem, List.contains_iff_mem, List.mem_filter]
      simp [hd]
    rw [exactStep, exactStep, hcontains]

theorem foldl_exactStep_without_number {numbers : List String} {ds : List LedgerEntry}
    {p : Progress} (h : (ds.foldl (exactStep numbers) p).award? k = none) :
    ds.foldl (exactStep (numbers.filter (· ≠ k))) p = ds.foldl (exactStep numbers) p := by
  induction ds generalizing p with
  | nil => rfl
  | cons d ds ih =>
    rw [List.foldl_cons] at h
    have hstep : (exactStep numbers p d).award? k = none :=
      award?_eq_none_of_prefix (awards_prefix_foldl_exactStep numbers ds _) h
    rw [List.foldl_cons, List.foldl_cons, exactStep_without_number hstep, ih h]

theorem foldl_substringStep_without_number {ns : List String} {p : Progress}
    (h : (ns.foldl (substringStep ledger) p).award? k = none) :
    (ns.filter (· ≠ k)).foldl (substringStep ledger) p = ns.foldl (substringStep ledger) p := by
  induction ns generalizing p with
  | nil => rfl
  | cons n ns ih =>
    rw [List.foldl_cons] at h
    have ih := ih h
    by_cases hn : n = k
    · have hstep : substringStep ledger p n = p := by
        rcases substringStep_cases ledger p n with heq | ⟨d, -, -, -, -, heq⟩
        · exact heq
        · have hnone := award?_eq_none_of_prefix (awards_prefix_foldl ledger ns _) h
          rw [heq, Progress.award?_award, if_pos hn] at hnone
          simp at hnone
      rw [hstep] at ih
      rw [List.filter_cons_of_neg (by simpa using hn), List.foldl_cons, hstep, ih]
    · rw [List.filter_cons_of_pos (by simpa using hn), List.foldl_cons, List.foldl_cons, ih]

theorem substringPhase_without_line (halone : IsAlone before after l)
    (h : (substringPhase (before ++ l :: after) ledger).award? (key l) = none) :
    substringPhase (before ++ after) ledger = substringPhase (before ++ l :: after) ledger := by
  have hexact : (exactPhase (before ++ l :: after) ledger).award? (key l) = none :=
    award?_eq_none_of_prefix (awards_prefix_foldl ledger _ _) h
  have hphase : exactPhase (before ++ after) ledger = exactPhase (before ++ l :: after) ledger := by
    rw [exactPhase, contenders_without halone]
    exact foldl_exactStep_without_number hexact
  rw [substringPhase, hphase, contenders_without halone]
  exact foldl_substringStep_without_number h

theorem results_without {p : Progress} (h : p.award? (key l) = none) :
    results p (before ++ after) = (results p (before ++ l :: after)).eraseIdx before.length := by
  induction before with
  | nil => rfl
  | cons b bs ih =>
    have hhead :
        (if ((bs ++ after).map key).contains (key b) then .unmatched b else resultOf p b) =
          if ((bs ++ l :: after).map key).contains (key b) then .unmatched b else resultOf p b := by
      by_cases hb : key b = key l
      · have hnone : resultOf p b = .unmatched b := by
          rw [resultOf, hb, h]
        rw [hnone, ite_self, ite_self]
      · simp [hb]
    rw [List.cons_append, List.cons_append, results, results, hhead, ih, List.length_cons,
      List.eraseIdx_cons_succ]

theorem award?_eq_none_of_unmatched {p : Progress} (hp : p.Valid (before ++ l :: after) ledger)
    (halone : IsAlone before after l) {x : MatchResult}
    (hx : (results p (before ++ l :: after))[before.length]? = some x)
    (hnone : x.isMatched = false) : p.award? (key l) = none := by
  cases ha : p.award? (key l) with
  | none => rfl
  | some a =>
    obtain ⟨hmem, hnumber⟩ := Progress.mem_of_award?_eq_some ha
    have hcontender := (hp.awards a hmem).contender
    have hlast : key l ∉ ((before ++ l :: after).drop (before.length + 1)).map key := by
      rcases halone with hblank | hother
      · exact absurd (hnumber.trans hblank) (mem_contenders.1 hcontender).1
      · rw [List.map_append, List.mem_append, not_or] at hother
        simpa using hother.2
    rw [getElem?_results_of_getElem? (l := l) (by simp), if_neg hlast, Option.some_inj] at hx
    rw [← hx, resultOf, ha, isMatched_matched (hp.awards a hmem).supported] at hnone
    cases hnone

/-- For any lines and any ledger, a line that is left unmatched and whose number is blank or that of
no other line can be left out: the results of the other lines and what is taken do not change. -/
theorem matchLines_without_unmatched (before after : List Line) (l : Line)
    (ledger : List LedgerEntry) (halone : IsAlone before after l) (x : MatchResult)
    (hx : (matchLines (before ++ l :: after) ledger).results[before.length]? = some x)
    (hnone : x.isMatched = false) :
    matchLines (before ++ after) ledger =
      { results := (matchLines (before ++ l :: after) ledger).results.eraseIdx before.length
        taken := (matchLines (before ++ l :: after) ledger).taken } := by
  have haward : (substringPhase (before ++ l :: after) ledger).award? (key l) = none :=
    award?_eq_none_of_unmatched (valid_substringPhase _ ledger) halone hx hnone
  have hphase := substringPhase_without_line halone haward
  dsimp only [matchLines]
  rw [hphase, results_without haward]

/-- Two entries share their id, so that only one of them can be taken. -/
def sharedIdLedger : List LedgerEntry :=
  [⟨"a", "INV-1", .invoice⟩, ⟨"a", "INV-2", .invoice⟩, ⟨"b", "INV-30", .creditNote⟩]

theorem matchLines_without_unmatched_sharedId :
    let others := [numberedLine 2 " INV-1", numberedLine 3 "Ref INV-30"]
    let l := numberedLine 1 "INV-2"
    IsAlone [] others l ∧
      (matchLines (l :: others) sharedIdLedger).results[0]? = some (.unmatched l) ∧
      (MatchResult.unmatched l).isMatched = false ∧
      (matchLines others sharedIdLedger).results =
        (matchLines (l :: others) sharedIdLedger).results.tail ∧
      (matchLines others sharedIdLedger).taken.size = 2 := by
  intro others l
  have halone : IsAlone [] others l := by decide +kernel
  have hx : (matchLines (l :: others) sharedIdLedger).results[0]? = some (.unmatched l) := by
    decide +kernel
  have hreport := matchLines_without_unmatched [] others l sharedIdLedger halone _ hx rfl
  exact ⟨halone, hx, rfl, congrArg MatchReport.results hreport, by decide +kernel⟩

end Payables.Matching
