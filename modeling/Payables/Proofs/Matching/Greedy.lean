import Payables.Proofs.Matching.Turns

/-!
# The substring phase is greedy and leaves nothing over

A line that competes by containment finds all its entries taken, or it gets the first of the longest
among those that are left. `IsGreedy lines ledger r` says so of a report: what a line does not get
although it would suit it better is spoken for by an exact match, or by a match of a number that
appears earlier among the lines. Main statement: every report of `matchLines` is greedy.
-/

namespace Payables.Matching

open Text

variable {lines : List Line} {ledger : List LedgerEntry}

/-- The compact numbers of a line and of an entry contain one another. -/
def Suits (l : Line) (d : LedgerEntry) : Prop :=
  compactForm d.number ≠ "" ∧ ((compactForm l.number).toList <:+: (compactForm d.number).toList ∨
    (compactForm d.number).toList <:+: (compactForm l.number).toList)

/-- The line competes by containment: it stands for its number, which is not matched exactly, is no
payment reference and has a compact form. -/
structure Competes (lines : List Line) (r : MatchReport) (i : Nat) (l : Line) : Prop where
  isLast : IsLast lines i l
  not_exact : ∀ x, r.results[i]? = some x → x.ground ≠ .exact
  not_payment : isPaymentReference l.number = false
  compact_ne : compactForm l.number ≠ ""

/-- The number of a line appears among the lines before that of another line. -/
def AppearsBefore (lines : List Line) (l l' : Line) : Prop :=
  (lines.map key).idxOf (key l) < (lines.map key).idxOf (key l')

/-- The id or the number of the entry went to an exact match, or to a match by containment whose
number appears before that of the line. -/
def SpokenFor (lines : List Line) (ledger : List LedgerEntry) (r : MatchReport) (l : Line)
    (d : LedgerEntry) : Prop :=
  ∃ (j : Nat) (l' : Line) (d' : LedgerEntry) (g : MatchGround), lines[j]? = some l' ∧ d' ∈ ledger ∧
    r.results[j]? = some (.matched l' d' g) ∧
    (g = .exact ∨ g = .substring ∧ AppearsBefore lines l' l) ∧ (d.id = d'.id ∨ d.key = d'.key)

/-- What makes an entry of the ledger the best choice of a line: whatever suits the line and is
longer, or as long and before it in the ledger, is spoken for. -/
structure IsBestChoice (lines : List Line) (ledger : List LedgerEntry) (r : MatchReport) (l : Line)
    (before : List LedgerEntry) (d : LedgerEntry) (after : List LedgerEntry) : Prop where
  ledger_eq : ledger = before ++ d :: after
  first : d ∉ before
  suits : Suits l d
  before_spokenFor : ∀ e ∈ before, Suits l e → (compactKey d).length ≤ (compactKey e).length →
    SpokenFor lines ledger r l e
  after_spokenFor : ∀ e ∈ after, Suits l e → (compactKey d).length < (compactKey e).length →
    SpokenFor lines ledger r l e

/-- A line that competes gets nothing only if all that suits it is taken, and otherwise its best
choice. -/
def IsGreedy (lines : List Line) (ledger : List LedgerEntry) (r : MatchReport) : Prop :=
  ∀ (i : Nat) (l : Line), Competes lines r i l →
    (r.results[i]? = some (.unmatched l) ∧ ∀ d ∈ ledger, Suits l d → r.taken.blocks d = true) ∨
    ∃ before d after, r.results[i]? = some (.matched l d .substring) ∧
      IsBestChoice lines ledger r l before d after

theorem suits_iff {l : Line} {d : LedgerEntry} :
    Suits l d ↔ isRelated (compactForm (key l)) d = true := by
  rw [isRelated_iff, key, compactForm_trimmed, Suits]

/-- Nothing is longer than the first of the longest, and nothing before it as long. -/
theorem longest_eq_some {ds : List LedgerEntry} {d : LedgerEntry} (h : longest ds = some d) :
    ∃ before after, ds = before ++ d :: after ∧
      (∀ e ∈ before, (compactKey e).length < (compactKey d).length) ∧
      ∀ e ∈ after, (compactKey e).length ≤ (compactKey d).length := by
  induction ds using List.reverseRecOn generalizing d with
  | nil => cases h
  | append_singleton ds e ih =>
    cases ds with
    | nil =>
      obtain rfl : e = d := Option.some.inj h
      exact ⟨[], [], rfl, by simp, by simp⟩
    | cons c cs =>
      have hlast : longest (c :: cs ++ [e]) = (longest (c :: cs)).map (longer · e) := by
        simp only [longest, List.cons_append, List.foldl_concat, Option.map_some]
      rw [hlast] at h
      obtain ⟨best, hbest, rfl⟩ := Option.map_eq_some_iff.1 h
      obtain ⟨before, after, hds, hbefore, hafter⟩ := ih hbest
      rw [hds]
      unfold longer
      split
      · rename_i hlt
        refine ⟨before ++ best :: after, [], rfl, fun b hb => ?_, by simp⟩
        rcases List.mem_append.1 hb with hb | hb
        · exact (hbefore b hb).trans hlt
        · rcases List.mem_cons.1 hb with rfl | hb
          · exact hlt
          · exact (hafter b hb).trans_lt hlt
      · rename_i hle
        refine ⟨before, after ++ [e], by simp, hbefore, fun a ha => ?_⟩
        rcases List.mem_append.1 ha with ha | ha
        · exact hafter a ha
        · rw [List.mem_singleton.1 ha]
          exact Nat.le_of_not_lt hle

theorem bestRelated_eq_some {t : Taken} {target : String} {d : LedgerEntry}
    (h : bestRelated ledger t target = some d) :
    ∃ before after, ledger = before ++ d :: after ∧
      (∀ e ∈ before, isRelated target e = true →
        (compactKey d).length ≤ (compactKey e).length → t.blocks e = true) ∧
      ∀ e ∈ after, isRelated target e = true →
        (compactKey d).length < (compactKey e).length → t.blocks e = true := by
  obtain ⟨us, vs, hfilter, hus, hvs⟩ := longest_eq_some h
  obtain ⟨front, back, rfl, rfl, hback⟩ := List.filter_eq_append_iff.1 hfilter
  obtain ⟨skipped, after, rfl, hskipped, -, rfl⟩ := List.filter_eq_cons_iff.1 hback
  have hblocked : ∀ e, isRelated target e = true →
      ¬ (!t.blocks e && isRelated target e) = true → t.blocks e = true := by
    intro e hrelated hnot
    simpa [hrelated] using hnot
  refine ⟨front ++ skipped, after, (List.append_assoc ..).symm, ?_, ?_⟩
  · intro e he hrelated hle
    refine hblocked e hrelated fun hkept => ?_
    rcases List.mem_append.1 he with he | he
    · exact absurd (hus e (List.mem_filter.2 ⟨he, hkept⟩)) (Nat.not_lt.2 hle)
    · exact hskipped e he hkept
  · intro e he hrelated hlt
    refine hblocked e hrelated fun hkept => ?_
    exact absurd (hvs e (List.mem_filter.2 ⟨he, hkept⟩)) (Nat.not_le.2 hlt)

theorem blocks_of_bestRelated_eq_none {t : Taken} {target : String} {d : LedgerEntry}
    (h : bestRelated ledger t target = none) (hd : d ∈ ledger)
    (hrelated : isRelated target d = true) : t.blocks d = true := by
  by_contra hfree
  have hmem : d ∈ ledger.filter fun d => !t.blocks d && isRelated target d :=
    List.mem_filter.2 ⟨hd, by simp [hfree, hrelated]⟩
  rw [bestRelated] at h
  cases hkept : ledger.filter fun d => !t.blocks d && isRelated target d with
  | nil => simp [hkept] at hmem
  | cons c cs => simp [hkept, longest] at h

theorem Turn.spokenFor {n : String} (t : Turn lines n) {l : Line}
    {d : LedgerEntry} (hl : key l = n)
    (h : (progressAfter lines ledger t.before).taken.blocks d = true) :
    SpokenFor lines ledger (matchLines lines ledger) l d := by
  obtain ⟨a, ha, hshare⟩ := (t.valid ledger).blocks_iff.1 h
  have hp := valid_substringPhase lines ledger
  obtain ⟨j, l', hl', hkey, hresult⟩ := hp.exists_result (t.mem_awards ha)
  have hground : a.ground = .exact ∨ a.ground = .substring ∧ AppearsBefore lines l' l := by
    rcases mem_awards_foldl_substringStep ha with hexact | ⟨hsub, hbefore⟩
    · exact .inl (ground_of_mem_exactPhase hexact)
    · refine .inr ⟨hsub, ?_⟩
      rw [AppearsBefore, hkey, hl]
      exact idxOf_lt_of_contenders_eq t.contenders_eq hbefore
  exact ⟨j, l', a.entry, a.ground, hl', ((t.valid ledger).awards a ha).listed, hresult, hground,
    hshare⟩

namespace Competes

variable {i : Nat} {l : Line}

theorem key_mem_contenders (h : Competes lines (matchLines lines ledger) i l) :
    key l ∈ contenders lines := by
  refine h.isLast.key_mem_contenders fun hblank => h.compact_ne ?_
  rw [← compactForm_trimmed, ← key, hblank]
  rfl

theorem award?_eq_none (h : Competes lines (matchLines lines ledger) i l)
    (t : Turn lines (key l)) : (progressAfter lines ledger t.before).award? (key l) = none := by
  cases ha : (progressAfter lines ledger t.before).award? (key l) with
  | none => rfl
  | some a =>
    obtain ⟨hmem, hnumber⟩ := Progress.mem_of_award?_eq_some ha
    rcases mem_awards_foldl_substringStep hmem with hexact | ⟨-, hbefore⟩
    · have hp := valid_substringPhase lines ledger
      have haward := hp.award?_eq_some (t.mem_awards hmem)
      have hresult := h.isLast.getElem?_results (substringPhase lines ledger)
      rw [resultOf, ← hnumber, haward] at hresult
      exact absurd (ground_of_mem_exactPhase hexact) (h.not_exact _ hresult)
    · rw [hnumber] at hbefore
      exact absurd hbefore t.not_mem_before

theorem substringStep_eq (h : Competes lines (matchLines lines ledger) i l)
    (t : Turn lines (key l)) :
    substringStep ledger (progressAfter lines ledger t.before) (key l) =
      match bestRelated ledger (progressAfter lines ledger t.before).taken
          (compactForm (key l)) with
      | some d => (progressAfter lines ledger t.before).award (key l) d .substring
      | none => progressAfter lines ledger t.before := by
  have hpay := (isPaymentReference_key l).trans h.not_payment
  have hne : compactForm (key l) ≠ "" := by
    rw [key, compactForm_trimmed]
    exact h.compact_ne
  have hnot : ¬ (((progressAfter lines ledger t.before).award? (key l)).isSome ||
      isPaymentReference (key l) || (compactForm (key l)).isEmpty) = true := by
    simp [h.award?_eq_none t, hpay, hne]
  rw [substringStep]
  exact if_neg hnot

theorem getElem?_results_of_none (h : Competes lines (matchLines lines ledger) i l)
    (t : Turn lines (key l)) (hbest : bestRelated ledger
      (progressAfter lines ledger t.before).taken (compactForm (key l)) = none) :
    (matchLines lines ledger).results[i]? = some (.unmatched l) := by
  have hphase := t.substringPhase_eq ledger
  rw [h.substringStep_eq t, hbest] at hphase
  have hnone : (substringPhase lines ledger).award? (key l) = none := by
    refine Progress.award?_eq_none_iff.2 fun hmem => ?_
    obtain ⟨a, ha, hnumber⟩ := List.mem_map.1 hmem
    rw [hphase] at ha
    rcases mem_awards_foldl_substringStep ha with hold | ⟨-, hafter⟩
    · exact Progress.award?_eq_none_iff.1 (h.award?_eq_none t) (List.mem_map.2 ⟨a, hold, hnumber⟩)
    · rw [hnumber] at hafter
      exact t.not_mem_after hafter
  have hresult := h.isLast.getElem?_results (substringPhase lines ledger)
  rwa [resultOf, hnone] at hresult

theorem getElem?_results_of_some (h : Competes lines (matchLines lines ledger) i l)
    (t : Turn lines (key l)) {d : LedgerEntry} (hbest : bestRelated ledger
      (progressAfter lines ledger t.before).taken (compactForm (key l)) = some d) :
    (matchLines lines ledger).results[i]? = some (.matched l d .substring) := by
  have hphase := t.substringPhase_eq ledger
  rw [h.substringStep_eq t, hbest] at hphase
  have haward : (substringPhase lines ledger).award? (key l) = some ⟨key l, d, .substring⟩ := by
    rw [hphase]
    refine Progress.award?_eq_some_of_prefix (awards_prefix_foldl ledger t.after _) ?_
    rw [Progress.award?_award, h.award?_eq_none t, if_pos rfl, Option.none_or]
  have hresult := h.isLast.getElem?_results (substringPhase lines ledger)
  rwa [resultOf, haward] at hresult

end Competes

theorem Turn.exists_isBestChoice {l : Line} (t : Turn lines (key l)) {d : LedgerEntry}
    (hbest : bestRelated ledger (progressAfter lines ledger t.before).taken
      (compactForm (key l)) = some d) :
    ∃ before after, IsBestChoice lines ledger (matchLines lines ledger) l before d after := by
  obtain ⟨before, after, hledger, hbefore, hafter⟩ := bestRelated_eq_some hbest
  obtain ⟨-, hfree, hrelated⟩ := mem_of_bestRelated_eq_some hbest
  refine ⟨before, after, hledger, fun hmem => ?_, suits_iff.2 hrelated, fun e he hsuits hle => ?_,
    fun e he hsuits hlt => ?_⟩
  · have hblocked := hbefore d hmem hrelated (Nat.le_refl _)
    rw [hfree] at hblocked
    cases hblocked
  · exact t.spokenFor rfl (hbefore e he (suits_iff.1 hsuits) hle)
  · exact t.spokenFor rfl (hafter e he (suits_iff.1 hsuits) hlt)

/-- For any lines and any ledger, with whatever repetitions and blanks, a matching is greedy. -/
theorem matchLines_isGreedy (lines : List Line) (ledger : List LedgerEntry) :
    IsGreedy lines ledger (matchLines lines ledger) := by
  intro i l hl
  obtain ⟨t⟩ := exists_turn hl.key_mem_contenders
  cases hbest : bestRelated ledger (progressAfter lines ledger t.before).taken
      (compactForm (key l)) with
  | none =>
    refine .inl ⟨hl.getElem?_results_of_none t hbest, fun d hd hsuits => t.blocks ?_⟩
    exact blocks_of_bestRelated_eq_none hbest hd (suits_iff.1 hsuits)
  | some d =>
    obtain ⟨before, after, hchoice⟩ := t.exists_isBestChoice hbest
    exact .inr ⟨before, d, after, hl.getElem?_results_of_some t hbest, hchoice⟩

def repeatedLines : List Line :=
  [numberedLine 1 "AB-1", numberedLine 2 "B12", numberedLine 3 " AB-1"]

def greedyLedger : List LedgerEntry := [⟨"a", "B1", .invoice⟩, ⟨"b", "AB12", .invoice⟩]

theorem matchLines_isGreedy_repeatedLines :
    Competes repeatedLines (matchLines repeatedLines greedyLedger) 1 (numberedLine 2 "B12") ∧
      SpokenFor repeatedLines greedyLedger (matchLines repeatedLines greedyLedger)
        (numberedLine 2 "B12") ⟨"b", "AB12", .invoice⟩ := by
  have hresult : (matchLines repeatedLines greedyLedger).results[1]? =
      some (.matched (numberedLine 2 "B12") ⟨"a", "B1", .invoice⟩ .substring) := by
    decide +kernel
  have hcompetes : Competes repeatedLines (matchLines repeatedLines greedyLedger) 1
      (numberedLine 2 "B12") := by
    refine ⟨by decide +kernel, fun x hx => ?_, by decide +kernel, by decide +kernel⟩
    obtain rfl := Option.some.inj (hresult.symm.trans hx)
    exact MatchGround.noConfusion
  refine ⟨hcompetes, ?_⟩
  rcases matchLines_isGreedy repeatedLines greedyLedger 1 _ hcompetes with
    ⟨hnone, -⟩ | ⟨before, d, after, hd, hbest⟩
  · rw [hresult] at hnone
    cases hnone
  · have hfirst : d = ⟨"a", "B1", .invoice⟩ := by
      cases d
      simpa [MatchResult.matched, eq_comm] using hresult.symm.trans hd
    subst hfirst
    have hledger := hbest.ledger_eq
    cases before with
    | nil =>
      obtain rfl := (List.cons.inj hledger).2
      exact hbest.after_spokenFor _ List.mem_cons_self (suits_iff.2 (by decide +kernel))
        (by decide +kernel)
    | cons c cs =>
      obtain rfl := (List.cons.inj hledger).1
      exact absurd List.mem_cons_self hbest.first

end Payables.Matching
