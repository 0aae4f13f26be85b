import Payables.Proofs.Matching.Exactness

/-!
# The turns of the numbers

In the substring phase the numbers have their turns in the order of their first appearance. Every
award that is there when the turn of a number comes is exact or was made to a number before it; it
stays to the end, and the line that stands for its number shows it.
-/

namespace Payables.Matching

open Text

variable {lines : List Line} {ledger : List LedgerEntry}

theorem idxOf_lt_of_idxOf_filter_lt {α : Type} [DecidableEq α] {q : α → Bool} {as : List α}
    {m n : α} (hm : q m = true) (hn : q n = true)
    (h : (as.filter q).idxOf m < (as.filter q).idxOf n) : as.idxOf m < as.idxOf n := by
  induction as with
  | nil => exact h
  | cons a as ih =>
    by_cases ham : a = m
    · subst ham
      have hne : a ≠ n := by
        rintro rfl
        exact Nat.lt_irrefl _ h
      rw [List.idxOf_cons_self, List.idxOf_cons_ne _ hne]
      exact Nat.succ_pos _
    · have hne : a ≠ n := by
        rintro rfl
        simp [List.filter_cons_of_pos hn] at h
      rw [List.idxOf_cons_ne _ ham, List.idxOf_cons_ne _ hne]
      refine Nat.succ_lt_succ (ih ?_)
      cases hq : q a with
      | true =>
        rw [List.filter_cons_of_pos hq, List.idxOf_cons_ne _ ham, List.idxOf_cons_ne _ hne] at h
        exact Nat.lt_of_succ_lt_succ h
      | false => rwa [List.filter_cons_of_neg (by simp [hq])] at h

theorem pairwise_idxOf_distinct {α : Type} [DecidableEq α] (as : List α) :
    (distinct as).Pairwise fun m n => as.idxOf m < as.idxOf n := by
  induction as with
  | nil => exact .nil
  | cons a as ih =>
    have hrest : distinct (a :: as) = a :: (distinct as).filter (· ≠ a) := rfl
    rw [hrest, List.pairwise_cons]
    constructor
    · intro n hn
      have hne : a ≠ n := by
        rintro rfl
        simp at hn
      rw [List.idxOf_cons_self, List.idxOf_cons_ne _ hne]
      exact Nat.succ_pos _
    · refine (ih.filter _).imp_of_mem fun {m n} hm hn hlt => ?_
      have hma : a ≠ m := by
        rintro rfl
        simp at hm
      have hna : a ≠ n := by
        rintro rfl
        simp at hn
      rw [List.idxOf_cons_ne _ hma, List.idxOf_cons_ne _ hna]
      exact Nat.succ_lt_succ hlt

theorem idxOf_lt_of_contenders_eq {lines : List Line} {before after : List String} {m n : String}
    (h : contenders lines = before ++ n :: after) (hm : m ∈ before) :
    (lines.map key).idxOf m < (lines.map key).idxOf n := by
  have hne : ∀ k ∈ contenders lines, (!k.isEmpty) = true := by
    intro k hk
    simpa using (mem_contenders.1 hk).1
  have hpair := pairwise_idxOf_distinct ((lines.map key).filter (!·.isEmpty))
  rw [show distinct ((lines.map key).filter (!·.isEmpty)) = before ++ n :: after from h,
    List.pairwise_append] at hpair
  refine idxOf_lt_of_idxOf_filter_lt (hne m ?_) (hne n ?_) (hpair.2.2 m hm n List.mem_cons_self)
  · rw [h]
    exact List.mem_append_left _ hm
  · rw [h]
    exact List.mem_append_right _ List.mem_cons_self

theorem IsLast.cons {i : Nat} {l : Line} (h : IsLast lines i l) (first : Line) :
    IsLast (first :: lines) (i + 1) l where
  here := h.here
  not_later j l' hij hl' := by
    obtain ⟨j, rfl⟩ := Nat.exists_eq_add_one_of_ne_zero (Nat.ne_zero_of_lt hij)
    exact h.not_later j l' (Nat.lt_of_succ_lt_succ hij) hl'

theorem exists_isLast {n : String} (h : n ∈ lines.map key) :
    ∃ (i : Nat) (l : Line), IsLast lines i l ∧ key l = n := by
  induction lines with
  | nil => simp at h
  | cons first ls ih =>
    by_cases hlater : n ∈ ls.map key
    · obtain ⟨i, l, hl, hkey⟩ := ih hlater
      exact ⟨i + 1, l, hl.cons first, hkey⟩
    · obtain rfl : key first = n := by
        rw [List.map_cons, List.mem_cons, or_iff_left hlater] at h
        exact h.symm
      refine ⟨0, first, ⟨rfl, fun j l' hj hl' hkey => hlater ?_⟩, rfl⟩
      obtain ⟨j, rfl⟩ := Nat.exists_eq_add_one_of_ne_zero (Nat.ne_zero_of_lt hj)
      exact hkey ▸ List.mem_map_of_mem (List.mem_of_getElem? hl')

namespace Progress.Valid

variable {p : Progress}

theorem award?_eq_some (hp : p.Valid lines ledger) {a : Award} (ha : a ∈ p.awards) :
    p.award? a.number = some a :=
  (find?_key_eq_some_iff (fun a : Award => a.number) hp.nodup_numbers).2 ⟨ha, rfl⟩

theorem exists_result (hp : p.Valid lines ledger) {a : Award} (ha : a ∈ p.awards) :
    ∃ (j : Nat) (l : Line), lines[j]? = some l ∧ key l = a.number ∧
      (results p lines)[j]? = some (.matched l a.entry a.ground) := by
  obtain ⟨l, hl, hkey⟩ := (mem_contenders.1 (hp.awards a ha).contender).2
  obtain ⟨j, l', hlast, hkey'⟩ := exists_isLast (List.mem_map.2 ⟨l, hl, hkey⟩)
  refine ⟨j, l', hlast.here, hkey', ?_⟩
  rw [hlast.getElem?_results, resultOf, hkey', hp.award?_eq_some ha]

theorem blocks_iff (hp : p.Valid lines ledger) {d : LedgerEntry} :
    p.taken.blocks d = true ↔
      ∃ a ∈ p.awards, d.id = a.entry.id ∨ d.key = a.entry.key := by
  rw [Taken.blocks, Bool.or_eq_true, Std.ExtTreeSet.contains_iff_mem,
    Std.ExtTreeSet.contains_iff_mem, hp.mem_ids, hp.mem_numbers, List.mem_map, List.mem_map,
    ← exists_or]
  exact exists_congr fun a => by rw [← and_or_left, eq_comm, eq_comm (a := a.entry.key)]

end Progress.Valid

theorem ground_of_mem_exactPhase {a : Award} (h : a ∈ (exactPhase lines ledger).awards) :
    a.ground = .exact := by
  revert h
  refine List.foldlRecOn ledger _ (motive := fun q : Progress => a ∈ q.awards → a.ground = .exact)
    (by simp) ?_
  intro q hq d _ h
  rcases exactStep_cases (contenders lines) q d with heq | ⟨-, -, heq⟩
  · exact hq (heq ▸ h)
  · rw [heq, Progress.award, List.mem_append, List.mem_singleton] at h
    rcases h with hold | rfl
    · exact hq hold
    · rfl

/-- The progress when some numbers have had their turn. -/
def progressAfter (lines : List Line) (ledger : List LedgerEntry) (ns : List String) : Progress :=
  ns.foldl (substringStep ledger) (exactPhase lines ledger)

/-- The place of a number among the contenders. -/
structure Turn (lines : List Line) (n : String) where
  before : List String
  after : List String
  contenders_eq : contenders lines = before ++ n :: after

namespace Turn

variable {n : String} (t : Turn lines n)

theorem nodup : (t.before ++ n :: t.after).Nodup :=
  t.contenders_eq ▸ nodup_contenders lines

theorem not_mem_before : n ∉ t.before :=
  fun h => (List.nodup_append.1 t.nodup).2.2 n h n List.mem_cons_self rfl

theorem not_mem_after : n ∉ t.after :=
  (List.nodup_cons.1 (List.nodup_append.1 t.nodup).2.1).1

theorem substringPhase_eq (ledger : List LedgerEntry) : substringPhase lines ledger =
    t.after.foldl (substringStep ledger)
      (substringStep ledger (progressAfter lines ledger t.before) n) := by
  rw [substringPhase, t.contenders_eq, List.foldl_append, List.foldl_cons, progressAfter]

theorem valid (ledger : List LedgerEntry) :
    (progressAfter lines ledger t.before).Valid lines ledger := by
  refine valid_foldl_substringStep (valid_exactPhase lines ledger) fun m hm => ?_
  rw [t.contenders_eq]
  exact List.mem_append_left _ hm

theorem mem_awards {a : Award} (h : a ∈ (progressAfter lines ledger t.before).awards) :
    a ∈ (substringPhase lines ledger).awards := by
  rw [t.substringPhase_eq ledger, ← List.foldl_cons]
  exact (awards_prefix_foldl ledger (n :: t.after) _).mem h

theorem blocks {d : LedgerEntry}
    (h : (progressAfter lines ledger t.before).taken.blocks d = true) :
    (matchLines lines ledger).taken.blocks d = true := by
  obtain ⟨a, ha, hshare⟩ := (t.valid ledger).blocks_iff.1 h
  exact (valid_substringPhase lines ledger).blocks_iff.2 ⟨a, t.mem_awards ha, hshare⟩

end Turn

theorem exists_turn {n : String} (h : n ∈ contenders lines) : Nonempty (Turn lines n) := by
  obtain ⟨before, after, heq⟩ := List.append_of_mem h
  exact ⟨⟨before, after, heq⟩⟩

end Payables.Matching
