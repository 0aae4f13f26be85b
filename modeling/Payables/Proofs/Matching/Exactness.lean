import Mathlib.Data.List.Induction
import Payables.Proofs.Matching.Soundness

/-!
# The exact phase misses no entry

With distinct ids in the ledger nothing stands between a number and the first entry that equals it:
an entry is blocked only through an id or a number that an earlier entry of the ledger has. So the
number of a line is awarded exactly that entry, and the substring phase leaves the award alone.
-/

namespace Payables.Matching

open Text

variable {lines : List Line} {ledger : List LedgerEntry}

/-- A line that stands for its number, since no later line has it. -/
structure IsLast (lines : List Line) (i : Nat) (l : Line) : Prop where
  here : lines[i]? = some l
  not_later : ∀ (j : Nat) (l' : Line), i < j → lines[j]? = some l' → key l' ≠ key l

theorem isLast_iff {i : Nat} {l : Line} :
    IsLast lines i l ↔ lines[i]? = some l ∧ key l ∉ (lines.drop (i + 1)).map key := by
  constructor
  · rintro ⟨here, not_later⟩
    refine ⟨here, fun hlater => ?_⟩
    obtain ⟨l', hl', hkey⟩ := List.mem_map.1 hlater
    obtain ⟨j, hj⟩ := List.mem_iff_getElem?.1 hl'
    rw [List.getElem?_drop] at hj
    exact not_later (i + 1 + j) l' (by omega) hj hkey
  · rintro ⟨here, hlater⟩
    refine ⟨here, fun j l' hij hl' hkey => hlater (List.mem_map.2 ⟨l', ?_, hkey⟩)⟩
    obtain ⟨k, rfl⟩ := Nat.exists_eq_add_of_le (Nat.succ_le_of_lt hij)
    rw [← List.getElem?_drop] at hl'
    exact List.mem_of_getElem? hl'

instance (lines : List Line) (i : Nat) (l : Line) : Decidable (IsLast lines i l) :=
  decidable_of_iff _ isLast_iff.symm

theorem IsLast.getElem?_results {i : Nat} {l : Line} (h : IsLast lines i l) (p : Progress) :
    (results p lines)[i]? = some (resultOf p l) := by
  rw [getElem?_results_of_getElem? h.here, if_neg (isLast_iff.1 h).2]

theorem IsLast.key_mem_contenders {i : Nat} {l : Line} (h : IsLast lines i l) (hl : key l ≠ "") :
    key l ∈ contenders lines :=
  mem_contenders.2 ⟨hl, l, List.mem_of_getElem? h.here, rfl⟩

namespace Progress

theorem award?_award (p : Progress) (n : String) (d : LedgerEntry) (g : MatchGround) (m : String) :
    (p.award n d g).award? m = (p.award? m).or (if n = m then some ⟨n, d, g⟩ else none) := by
  rw [award?, award, List.find?_append, award?, List.find?_singleton]
  simp only [beq_iff_eq]

theorem award?_eq_some_of_prefix {p q : Progress} (h : p.awards <+: q.awards) {n : String}
    {a : Award} (ha : p.award? n = some a) : q.award? n = some a := by
  obtain ⟨rest, hrest⟩ := h
  rw [award?] at ha
  rw [award?, ← hrest, List.find?_append, ha, Option.some_or]

end Progress

theorem awards_prefix_exactStep (numbers : List String) (p : Progress) (d : LedgerEntry) :
    p.awards <+: (exactStep numbers p d).awards := by
  rcases exactStep_cases numbers p d with heq | ⟨-, -, heq⟩
  · exact ⟨[], by rw [heq, List.append_nil]⟩
  · rw [heq]
    exact List.prefix_append ..

theorem award?_exactStep_of_ne {numbers : List String} {p : Progress} {d : LedgerEntry} {n : String}
    (h : d.key ≠ n) : (exactStep numbers p d).award? n = p.award? n := by
  rcases exactStep_cases numbers p d with heq | ⟨-, -, heq⟩
  · rw [heq]
  · rw [heq, Progress.award?_award, if_neg h, Option.or_none]

theorem award?_exactStep_of_free {numbers : List String} {p : Progress} {d : LedgerEntry}
    (hd : d.key ∈ numbers) (hfree : p.taken.blocks d = false) (h : p.award? d.key = none) :
    (exactStep numbers p d).award? d.key = some ⟨d.key, d, .exact⟩ := by
  rw [exactStep, if_pos (by simp [hd, hfree]), Progress.award?_award, h, if_pos rfl, Option.none_or]

theorem blocks_exactPhase_eq_false {d : LedgerEntry} (hid : d.id ∉ ledger.map (·.id))
    (hkey : d.key ∉ ledger.map (·.key)) :
    (exactPhase lines ledger).taken.blocks d = false := by
  have hp := valid_exactPhase lines ledger
  have hsub {f : LedgerEntry → String} {x : String}
      (hx : x ∈ (exactPhase lines ledger).awards.map (f ·.entry)) : x ∈ ledger.map f := by
    obtain ⟨a, ha, rfl⟩ := List.mem_map.1 hx
    exact List.mem_map_of_mem (hp.awards a ha).listed
  refine blocks_eq_false_iff.2 ⟨fun h => hid ?_, fun h => hkey ?_⟩
  · exact hsub ((hp.mem_ids d.id).1 h)
  · exact hsub ((hp.mem_numbers d.key).1 h)

theorem award?_exactPhase (hids : (ledger.map (·.id)).Nodup) {n : String}
    (hn : n ∈ contenders lines) :
    (exactPhase lines ledger).award? n =
      (ledger.find? (·.key == n)).map fun d => ⟨n, d, .exact⟩ := by
  induction ledger using List.reverseRecOn with
  | nil => rfl
  | append_singleton ds d ih =>
    have hstep : exactPhase lines (ds ++ [d]) =
        exactStep (contenders lines) (exactPhase lines ds) d := by
      rw [exactPhase, List.foldl_concat, exactPhase]
    rw [List.map_append, List.nodup_append] at hids
    have hid : d.id ∉ ds.map (·.id) := fun h => hids.2.2 _ h d.id (by simp) rfl
    have ih := ih hids.1
    rw [hstep, List.find?_append]
    cases hfound : ds.find? (·.key == n) with
    | some e =>
      rw [hfound] at ih
      exact Progress.award?_eq_some_of_prefix (awards_prefix_exactStep ..) ih
    | none =>
      rw [hfound] at ih
      by_cases hd : d.key = n
      · -- the entry is the first with its number, so nothing before it can block it
        subst hd
        have hkey : d.key ∉ ds.map (·.key) := by simpa using hfound
        rw [award?_exactStep_of_free hn (blocks_exactPhase_eq_false hid hkey) ih]
        simp
      · rw [award?_exactStep_of_ne hd, ih]
        simp [hd]

theorem awards_prefix_substringStep (ledger : List LedgerEntry) (p : Progress) (n : String) :
    p.awards <+: (substringStep ledger p n).awards := by
  rcases substringStep_cases ledger p n with heq | ⟨d, -, -, -, -, heq⟩
  · exact ⟨[], by rw [heq, List.append_nil]⟩
  · rw [heq]
    exact List.prefix_append ..

theorem awards_prefix_foldl (ledger : List LedgerEntry) (ns : List String) (p : Progress) :
    p.awards <+: (ns.foldl (substringStep ledger) p).awards :=
  List.foldlRecOn ns _ (motive := fun q : Progress => p.awards <+: q.awards) (List.prefix_refl _)
    fun q hq n _ => hq.trans (awards_prefix_substringStep ledger q n)

theorem mem_awards_foldl_substringStep {p : Progress} {ms : List String} {a : Award}
    (h : a ∈ (ms.foldl (substringStep ledger) p).awards) :
    a ∈ p.awards ∨ a.ground = .substring ∧ a.number ∈ ms := by
  revert h
  refine List.foldlRecOn ms _ (motive := fun q : Progress =>
    a ∈ q.awards → a ∈ p.awards ∨ a.ground = .substring ∧ a.number ∈ ms) .inl ?_
  intro q hq m hm h
  rcases substringStep_cases ledger q m with heq | ⟨d, -, -, -, -, heq⟩
  · exact hq (heq ▸ h)
  · rw [heq, Progress.award, List.mem_append, List.mem_singleton] at h
    rcases h with hold | rfl
    · exact hq hold
    · exact .inr ⟨rfl, hm⟩

/-- For any lines and any ledger with distinct ids, the last line with a number is matched exactly
with the first entry that equals it, and is not matched exactly if there is none. -/
theorem matchLines_exact (lines : List Line) (ledger : List LedgerEntry)
    (hids : (ledger.map (·.id)).Nodup) (i : Nat) (l : Line) (hl : IsLast lines i l)
    (hne : key l ≠ "") :
    ∃ x, (matchLines lines ledger).results[i]? = some x ∧
      match ledger.find? (·.key == key l) with
      | some d => x = .matched l d .exact
      | none => x.ground ≠ .exact := by
  have hexact := award?_exactPhase hids (hl.key_mem_contenders hne)
  refine ⟨_, hl.getElem?_results (substringPhase lines ledger), ?_⟩
  cases hfound : ledger.find? (·.key == key l) with
  | some d =>
    rw [hfound] at hexact
    have haward := Progress.award?_eq_some_of_prefix
      (awards_prefix_foldl ledger (contenders lines) _) hexact
    simp only [resultOf, substringPhase, haward]
  | none =>
    rw [hfound] at hexact
    simp only [resultOf]
    split
    · rename_i a ha
      obtain ⟨hmem, hnumber⟩ := Progress.mem_of_award?_eq_some ha
      rcases mem_awards_foldl_substringStep hmem with hold | ⟨hground, -⟩
      · exact absurd (List.mem_map.2 ⟨a, hold, hnumber⟩) (Progress.award?_eq_none_iff.1 hexact)
      · simp [MatchResult.matched, hground]
    · simp [MatchResult.unmatched]

def numberedLine (ordinal : Nat) (number : String) : Line :=
  { Line.ofOrdinal "2024-03" ordinal with number }

def payments : List Line := [numberedLine 1 "Payment 456", numberedLine 2 " Payment 456 "]

def paymentLedger : List LedgerEntry :=
  [⟨"a", "456", .invoice⟩, ⟨"b", "Payment 456 ", .creditNote⟩, ⟨"c", "Payment 456", .invoice⟩]

theorem matchLines_exact_payments :
    (paymentLedger.map (·.id)).Nodup ∧ IsLast payments 1 (numberedLine 2 " Payment 456 ") ∧
      key (numberedLine 2 " Payment 456 ") ≠ "" ∧
      ∃ x, (matchLines payments paymentLedger).results[1]? = some x ∧
        x.entryId? = some "b" ∧ x.ground = .exact := by
  have hids : (paymentLedger.map (·.id)).Nodup := by decide
  have hlast : IsLast payments 1 (numberedLine 2 " Payment 456 ") := by decide +kernel
  have hne : key (numberedLine 2 " Payment 456 ") ≠ "" := by decide +kernel
  have hfound : paymentLedger.find? (·.key == key (numberedLine 2 " Payment 456 ")) =
      some ⟨"b", "Payment 456 ", .creditNote⟩ := by
    decide +kernel
  obtain ⟨x, hx, hmatch⟩ := matchLines_exact payments paymentLedger hids 1 _ hlast hne
  rw [hfound] at hmatch
  obtain rfl := hmatch
  exact ⟨hids, hlast, hne, _, hx, rfl, rfl⟩

end Payables.Matching
