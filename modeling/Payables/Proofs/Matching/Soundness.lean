import Mathlib.Data.List.Nodup
import Payables.Proofs.Matching.Awards
import Payables.Proofs.Text.Trimming

/-!
# Matching is sound and one-to-one

`IsSound lines ledger r` says what a report may claim: it goes through the lines in order, a match
names an entry of the ledger and has a ground that holds, a line without a number or with a later
line of its number has no match, no entry is used twice, and the taken ids and numbers are those
of the matches. Every report of `matchLines` is of this kind, for any lines and any ledger.
-/

namespace Payables.Matching

open Text

/-- The grounds on which a line with this number may be matched with an entry. -/
def Supports (number : String) (d : LedgerEntry) : MatchGround → Prop
  | .exact => trimmed number ≠ "" ∧ trimmed d.number = trimmed number
  | .substring => isPaymentReference number = false ∧ compactForm number ≠ "" ∧
      compactForm d.number ≠ "" ∧
      ((compactForm number).toList <:+: (compactForm d.number).toList ∨
        (compactForm d.number).toList <:+: (compactForm number).toList)
  | .none => False

structure IsSound (lines : List Line) (ledger : List LedgerEntry) (r : MatchReport) : Prop where
  in_order : r.results.map (fun x => (x.line, x.number)) = lines.map fun l => (l.id, l.number)
  matched : ∀ x ∈ r.results, x.isMatched = true → x.score? = some 1 ∧
    ∃ d ∈ ledger, x.entryId? = some d.id ∧ x.entryNumber? = some d.number ∧
      x.entryKind? = some d.kind ∧ Supports x.number d x.ground
  unmatched : ∀ x ∈ r.results, x.isMatched = false →
    x.score? = none ∧ x.entryId? = none ∧ x.entryNumber? = none ∧ x.entryKind? = none
  /-- A line without a number is unmatched, and so is one whose number comes again. -/
  superseded : ∀ (i : Nat) (l : Line) (x : MatchResult), lines[i]? = some l →
    r.results[i]? = some x →
    (trimmed l.number = "" ∨ ∃ (j : Nat) (l' : Line), i < j ∧ lines[j]? = some l' ∧
      trimmed l'.number = trimmed l.number) →
    x.isMatched = false
  nodup_ids : (r.results.filterMap (·.entryId?)).Nodup
  nodup_numbers : (r.results.filterMap (·.entryNumber?.map trimmed)).Nodup
  mem_ids : ∀ id, id ∈ r.taken.ids ↔ ∃ x ∈ r.results, x.entryId? = some id
  mem_numbers : ∀ n, n ∈ r.taken.numbers ↔
    ∃ x ∈ r.results, ∃ m, x.entryNumber? = some m ∧ trimmed m = n
  size_taken : r.taken.size = r.matched.length

theorem isPaymentReference_key (l : Line) :
    isPaymentReference (key l) = isPaymentReference l.number := by
  have hwords : ∀ w ∈ paymentWords, w.toList ≠ [] ∧ w.toList.any isBlank = false := by decide
  rw [isPaymentReference, isPaymentReference, Bool.eq_iff_iff, List.any_eq_true, List.any_eq_true]
  simp only [key, toList_trimmed]
  refine exists_congr fun w => and_congr_right fun hw => ?_
  obtain ⟨hne, hany⟩ := hwords w hw
  have hblank : ∀ c ∈ w.toList, isBlank c = false := by simpa using hany
  rw [occursIn_lower_trim hne hblank]

theorem isRelated_iff {target : String} {d : LedgerEntry} : isRelated target d = true ↔
    compactForm d.number ≠ "" ∧ (target.toList <:+: (compactForm d.number).toList ∨
      (compactForm d.number).toList <:+: target.toList) := by
  simp only [isRelated, compactKey, LedgerEntry.key, compactForm_trimmed, Bool.and_eq_true,
    Bool.or_eq_true, Bool.not_eq_true', contains_iff_infix, ← Bool.not_eq_true,
    String.isEmpty_iff, ne_eq]

theorem supports_of_supported {lines : List Line} {a : Award} {l : Line} (hl : key l = a.number)
    (hc : a.number ∈ contenders lines) (ha : a.Supported) : Supports l.number a.entry a.ground := by
  obtain ⟨n, d, g⟩ := a
  subst hl
  cases g with
  | exact => exact ⟨(mem_contenders.1 hc).1, Eq.symm ha⟩
  | substring =>
    obtain ⟨hpay, hne, hrelated⟩ := ha
    simp only [key, compactForm_trimmed] at hne hrelated
    exact ⟨isPaymentReference_key l ▸ hpay, hne, isRelated_iff.1 hrelated⟩
  | none => exact ha

variable {lines : List Line} {ledger : List LedgerEntry} {p : Progress}

theorem results_cases {x : MatchResult} (hx : x ∈ results p lines) :
    ∃ l ∈ lines, x = .unmatched l ∨ ∃ a ∈ p.awards, key l = a.number ∧
      x = .matched l a.entry a.ground := by
  induction lines with
  | nil => simp [results] at hx
  | cons l ls ih =>
    rw [results, List.mem_cons] at hx
    rcases hx with hhead | htail
    · refine ⟨l, List.mem_cons_self, ?_⟩
      split at hhead
      · exact .inl hhead
      · cases ha : p.award? (key l) with
        | none => exact .inl (by simpa [resultOf, ha] using hhead)
        | some a =>
          obtain ⟨hmem, hnumber⟩ := Progress.mem_of_award?_eq_some ha
          exact .inr ⟨a, hmem, hnumber.symm, by simpa [resultOf, ha] using hhead⟩
    · obtain ⟨l', hl', hcases⟩ := ih htail
      exact ⟨l', List.mem_cons_of_mem l hl', hcases⟩

theorem map_results (p : Progress) (lines : List Line) :
    (results p lines).map (fun x => (x.line, x.number)) = lines.map fun l => (l.id, l.number) := by
  induction lines with
  | nil => rfl
  | cons l ls ih =>
    rw [results, List.map_cons, List.map_cons, ih]
    congr 1
    split
    · rfl
    · unfold resultOf
      split <;> rfl

theorem getElem?_results_of_getElem? {i : Nat} {l : Line} (h : lines[i]? = some l) :
    (results p lines)[i]? = some
      (if key l ∈ (lines.drop (i + 1)).map key then .unmatched l else resultOf p l) := by
  induction lines generalizing i with
  | nil => simp at h
  | cons l' ls ih =>
    cases i with
    | zero =>
      obtain rfl : l' = l := by simpa using h
      simp [results]
    | succ i => simpa [results] using ih (by simpa using h)

theorem resultOf_eq_unmatched_of_blank (hp : p.Valid lines ledger) {l : Line} (h : key l = "") :
    resultOf p l = .unmatched l := by
  cases ha : p.award? (key l) with
  | none => simp [resultOf, ha]
  | some a =>
    obtain ⟨hmem, hnumber⟩ := Progress.mem_of_award?_eq_some ha
    exact absurd (hnumber.trans h) (mem_contenders.1 (hp.awards a hmem).contender).1

theorem eq_of_number_eq (hp : (p.awards.map (·.number)).Nodup) {a b : Award} (ha : a ∈ p.awards)
    (hb : b ∈ p.awards) (h : b.number = a.number) : b = a :=
  List.inj_on_of_nodup_map hp hb ha h

theorem filter_awards_perm_cons (hp : (p.awards.map (·.number)).Nodup) {a : Award}
    (ha : a ∈ p.awards) {ns : List String} (hns : a.number ∉ ns) :
    (p.awards.filter fun b => b.number ∈ a.number :: ns).Perm
      (a :: p.awards.filter fun b => b.number ∈ ns) := by
  have hnodup := hp.of_map
  have hnot : a ∉ p.awards.filter fun b => b.number ∈ ns := by simp [hns]
  refine (List.perm_ext_iff_of_nodup (hnodup.filter _)
    (List.nodup_cons.2 ⟨hnot, hnodup.filter _⟩)).2 fun b => ?_
  simp only [List.mem_filter, List.mem_cons, decide_eq_true_eq]
  constructor
  · rintro ⟨hb, heq | hmem⟩
    · exact .inl (eq_of_number_eq hp ha hb heq)
    · exact .inr ⟨hb, hmem⟩
  · rintro (rfl | ⟨hb, hmem⟩)
    · exact ⟨ha, .inl rfl⟩
    · exact ⟨hb, .inr hmem⟩

/-- Whatever is read off the matches is, up to order, read off the awards of the lines' numbers:
each award goes to exactly one line. -/
theorem filterMap_results_perm {β : Type} {f : MatchResult → Option β} {g : Award → β}
    (hnone : ∀ l, f (.unmatched l) = none)
    (hsome : ∀ l, ∀ a ∈ p.awards, f (.matched l a.entry a.ground) = some (g a))
    (hp : (p.awards.map (·.number)).Nodup) (lines : List Line) :
    ((results p lines).filterMap f).Perm
      ((p.awards.filter fun a => a.number ∈ lines.map key).map g) := by
  induction lines with
  | nil => simp [results]
  | cons l ls ih =>
    -- the head adds to the awards only if it is the last line of its number and that is awarded
    have hsame (h : ∀ a ∈ p.awards, a.number = key l → a.number ∈ ls.map key) :
        (p.awards.filter fun a => a.number ∈ (l :: ls).map key) =
          p.awards.filter fun a => a.number ∈ ls.map key := by
      refine List.filter_congr fun a ha => decide_eq_decide.2 ?_
      rw [List.map_cons, List.mem_cons, or_iff_right_of_imp (h a ha)]
    by_cases hl : key l ∈ ls.map key
    · rw [hsame fun a _ h => h ▸ hl]
      simpa [results, hl, hnone] using ih
    · cases ha : p.award? (key l) with
      | none =>
        rw [hsame fun a hmem h =>
          absurd (List.mem_map.2 ⟨a, hmem, h⟩) (Progress.award?_eq_none_iff.1 ha)]
        simpa [results, hl, resultOf, ha, hnone] using ih
      | some a =>
        obtain ⟨hmem, hnumber⟩ := Progress.mem_of_award?_eq_some ha
        have hperm := filter_awards_perm_cons hp hmem (hnumber ▸ hl)
        have hhead : (results p (l :: ls)).filterMap f = g a :: (results p ls).filterMap f := by
          simp [results, hl, resultOf, ha, hsome l a hmem]
        rw [hhead, List.map_cons, ← hnumber]
        exact (ih.cons (g a)).trans (hperm.map g).symm

theorem filterMap_results_perm_awards {β : Type} {f : MatchResult → Option β} {g : Award → β}
    (hp : p.Valid lines ledger) (hnone : ∀ l, f (.unmatched l) = none)
    (hsome : ∀ l, ∀ a ∈ p.awards, f (.matched l a.entry a.ground) = some (g a)) :
    ((results p lines).filterMap f).Perm (p.awards.map g) := by
  have hall : (p.awards.filter fun a => a.number ∈ lines.map key) = p.awards := by
    refine List.filter_eq_self.2 fun a ha => ?_
    obtain ⟨l, hl, hkey⟩ := (mem_contenders.1 (hp.awards a ha).contender).2
    exact decide_eq_true (List.mem_map.2 ⟨l, hl, hkey⟩)
  have hperm := filterMap_results_perm hnone hsome hp.nodup_numbers lines
  rwa [hall] at hperm

theorem isMatched_matched {l : Line} {a : Award} (ha : a.Supported) :
    (MatchResult.matched l a.entry a.ground).isMatched = true := by
  obtain ⟨n, d, g⟩ := a
  cases g with
  | none => exact absurd ha id
  | exact => rfl
  | substring => rfl

/-- For any lines and any ledger, with whatever repetitions and blanks, a matching is sound. -/
theorem matchLines_isSound (lines : List Line) (ledger : List LedgerEntry) :
    IsSound lines ledger (matchLines lines ledger) := by
  have hp := valid_substringPhase lines ledger
  generalize hprogress : substringPhase lines ledger = p at hp
  have hreport : matchLines lines ledger = ⟨results p lines, p.taken⟩ := by
    rw [matchLines, hprogress]
  have hids : ((results p lines).filterMap (·.entryId?)).Perm (p.awards.map (·.entry.id)) :=
    filterMap_results_perm_awards hp (fun _ => rfl) fun _ _ _ => rfl
  have hnumbers : ((results p lines).filterMap (·.entryNumber?.map trimmed)).Perm
      (p.awards.map (·.entry.key)) :=
    filterMap_results_perm_awards hp (fun _ => rfl) fun _ _ _ => rfl
  rw [hreport]
  constructor
  · exact map_results p lines
  · intro x hx hmatched
    obtain ⟨l, -, rfl | ⟨a, ha, hkey, rfl⟩⟩ := results_cases hx
    · cases hmatched
    · have hvalid := hp.awards a ha
      exact ⟨rfl, a.entry, hvalid.listed, rfl, rfl, rfl,
        supports_of_supported hkey hvalid.contender hvalid.supported⟩
  · intro x hx hunmatched
    obtain ⟨l, -, rfl | ⟨a, ha, -, rfl⟩⟩ := results_cases hx
    · exact ⟨rfl, rfl, rfl, rfl⟩
    · rw [isMatched_matched (hp.awards a ha).supported] at hunmatched
      cases hunmatched
  · intro i l x hl hx hlater
    obtain rfl := Option.some.inj ((getElem?_results_of_getElem? hl).symm.trans hx)
    rcases hlater with hblank | ⟨j, l', hij, hl', hkey⟩
    · rw [resultOf_eq_unmatched_of_blank hp hblank, ite_self]
      rfl
    · have hmem : l' ∈ lines.drop (i + 1) := by
        refine List.mem_of_getElem? (i := j - (i + 1)) ?_
        rwa [List.getElem?_drop, Nat.add_sub_cancel' hij]
      rw [if_pos (List.mem_map.2 ⟨l', hmem, hkey⟩)]
      rfl
  · exact hids.nodup_iff.2 hp.nodup_ids
  · exact hnumbers.nodup_iff.2 hp.nodup_keys
  · intro id
    rw [hp.mem_ids, ← hids.mem_iff, List.mem_filterMap]
  · intro n
    rw [hp.mem_numbers, ← hnumbers.mem_iff, List.mem_filterMap]
    simp only [Option.map_eq_some_iff]
  · calc p.taken.size = (p.awards.map (·.entry.id)).length := by rw [hp.size_taken, List.length_map]
      _ = (results p lines).countP (·.entryId?.isSome) := by
        rw [← hids.length_eq, List.length_filterMap_eq_countP]
      _ = (results p lines).countP (·.isMatched) := by
        refine List.countP_congr fun x hx => ?_
        obtain ⟨l, -, rfl | ⟨a, ha, -, rfl⟩⟩ := results_cases hx
        · rfl
        · rw [isMatched_matched (hp.awards a ha).supported]
          rfl
      _ = (MatchReport.matched ⟨results p lines, p.taken⟩).length := List.countP_eq_length_filter

end Payables.Matching
