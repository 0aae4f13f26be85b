import Payables.Matching

/-!
# Awards of a matching

The two phases of a matching only ever add awards, and each award is made under the same
conditions: the number belongs to a line and has no award yet, the entry is in the ledger and is
not blocked, and the ground of the award holds. `Progress.Valid` is what the awards of such a
progress have in common, with the taken ids and numbers being those of the awarded entries. It
holds of the empty progress, an award keeps it, and so it holds after both phases.
-/

namespace Payables.Matching

open Text

theorem mem_contenders {lines : List Line} {n : String} :
    n ∈ contenders lines ↔ n ≠ "" ∧ ∃ l ∈ lines, key l = n := by
  rw [contenders, mem_distinct, List.mem_filter, List.mem_map, and_comm]
  simp

theorem nodup_contenders (lines : List Line) : (contenders lines).Nodup :=
  nodup_distinct _

theorem blocks_eq_false_iff {t : Taken} {d : LedgerEntry} :
    t.blocks d = false ↔ d.id ∉ t.ids ∧ d.key ∉ t.numbers := by
  rw [Taken.blocks, Bool.or_eq_false_iff, ← Bool.not_eq_true, ← Bool.not_eq_true,
    Std.ExtTreeSet.contains_iff_mem, Std.ExtTreeSet.contains_iff_mem]

/-- The ground of an award holds of its number and its entry. -/
def Award.Supported (a : Award) : Prop :=
  match a.ground with
  | .exact => a.number = a.entry.key
  | .substring => isPaymentReference a.number = false ∧ compactForm a.number ≠ "" ∧
      isRelated (compactForm a.number) a.entry = true
  | .none => False

structure Award.Valid (lines : List Line) (ledger : List LedgerEntry) (a : Award) : Prop where
  contender : a.number ∈ contenders lines
  listed : a.entry ∈ ledger
  supported : a.Supported

structure Progress.Valid (lines : List Line) (ledger : List LedgerEntry) (p : Progress) :
    Prop where
  awards : ∀ a ∈ p.awards, a.Valid lines ledger
  nodup_numbers : (p.awards.map (·.number)).Nodup
  nodup_ids : (p.awards.map (·.entry.id)).Nodup
  nodup_keys : (p.awards.map (·.entry.key)).Nodup
  mem_ids : ∀ id, id ∈ p.taken.ids ↔ id ∈ p.awards.map (·.entry.id)
  mem_numbers : ∀ n, n ∈ p.taken.numbers ↔ n ∈ p.awards.map (·.entry.key)
  size_taken : p.taken.size = p.awards.length

variable {lines : List Line} {ledger : List LedgerEntry} {p : Progress}

theorem nodup_map_concat {α β : Type} {f : α → β} {as : List α} {a : α} (h : (as.map f).Nodup)
    (ha : f a ∉ as.map f) : ((as ++ [a]).map f).Nodup := by
  rw [List.map_append, List.nodup_append]
  refine ⟨h, by simp, ?_⟩
  intro x hx y hy
  obtain rfl : y = f a := by simpa using hy
  exact fun e => ha (e ▸ hx)

namespace Progress

theorem valid_empty : Valid lines ledger {} where
  awards := by simp
  nodup_numbers := List.nodup_nil
  nodup_ids := List.nodup_nil
  nodup_keys := List.nodup_nil
  mem_ids := by simp
  mem_numbers := by simp
  size_taken := by simp [Taken.size]

theorem Valid.award (h : p.Valid lines ledger) {n : String} {d : LedgerEntry} {g : MatchGround}
    (ha : Award.Valid lines ledger ⟨n, d, g⟩) (hn : n ∉ p.awards.map (·.number))
    (hd : p.taken.blocks d = false) : (p.award n d g).Valid lines ledger := by
  obtain ⟨hid, hkey⟩ := blocks_eq_false_iff.1 hd
  constructor
  · intro a hmem
    rcases List.mem_append.1 hmem with hold | hnew
    · exact h.awards a hold
    · rwa [List.mem_singleton.1 hnew]
  · exact nodup_map_concat h.nodup_numbers hn
  · exact nodup_map_concat h.nodup_ids (by rwa [← h.mem_ids])
  · exact nodup_map_concat h.nodup_keys (by rwa [← h.mem_numbers])
  · intro id
    simp only [Progress.award, Taken.take, Std.ExtTreeSet.mem_insert,
      Std.LawfulEqCmp.compare_eq_iff_eq, h.mem_ids, List.map_append, List.map_cons, List.map_nil,
      List.mem_append, List.mem_singleton]
    rw [or_comm, eq_comm]
  · intro n
    simp only [Progress.award, Taken.take, Std.ExtTreeSet.mem_insert,
      Std.LawfulEqCmp.compare_eq_iff_eq, h.mem_numbers, List.map_append, List.map_cons,
      List.map_nil, List.mem_append, List.mem_singleton]
    rw [or_comm, eq_comm]
  · have hsize := h.size_taken
    simp only [Taken.size] at hsize
    simp [Progress.award, Taken.take, Taken.size, Std.ExtTreeSet.size_insert, hid, hsize]

theorem award?_eq_none_iff {n : String} : p.award? n = none ↔ n ∉ p.awards.map (·.number) := by
  simp [award?, List.find?_eq_none]

theorem mem_of_award?_eq_some {n : String} {a : Award} (h : p.award? n = some a) :
    a ∈ p.awards ∧ a.number = n := by
  refine ⟨List.mem_of_find?_eq_some h, ?_⟩
  simpa using List.find?_some h

end Progress

theorem exactStep_cases (numbers : List String) (p : Progress) (d : LedgerEntry) :
    exactStep numbers p d = p ∨
      (d.key ∈ numbers ∧ p.taken.blocks d = false ∧
        exactStep numbers p d = p.award d.key d .exact) := by
  by_cases h : d.key ∈ numbers ∧ p.taken.blocks d = false
  · exact .inr ⟨h.1, h.2, by simp [exactStep, h]⟩
  · refine .inl (if_neg ?_)
    simpa using h

theorem mem_of_longest_eq_some {ds : List LedgerEntry} {d : LedgerEntry}
    (h : longest ds = some d) : d ∈ ds := by
  cases ds with
  | nil => simp [longest] at h
  | cons e es =>
    rw [← Option.some.inj h]
    refine List.foldlRecOn es _ (motive := fun b => b ∈ e :: es) List.mem_cons_self ?_
    intro best hbest d hd
    unfold longer
    split
    · exact List.mem_cons_of_mem e hd
    · exact hbest

theorem mem_of_bestRelated_eq_some {t : Taken} {target : String} {d : LedgerEntry}
    (h : bestRelated ledger t target = some d) :
    d ∈ ledger ∧ t.blocks d = false ∧ isRelated target d = true := by
  have hmem := mem_of_longest_eq_some h
  simpa using hmem

theorem substringStep_cases (ledger : List LedgerEntry) (p : Progress) (n : String) :
    substringStep ledger p n = p ∨
      ∃ d, p.award? n = none ∧ isPaymentReference n = false ∧ compactForm n ≠ "" ∧
        bestRelated ledger p.taken (compactForm n) = some d ∧
        substringStep ledger p n = p.award n d .substring := by
  by_cases h : ((p.award? n).isSome || isPaymentReference n || (compactForm n).isEmpty) = true
  · exact .inl (if_pos h)
  · obtain ⟨⟨hnone, hpay⟩, hne⟩ : ((p.award? n).isNone ∧ isPaymentReference n = false) ∧
        compactForm n ≠ "" := by simpa using h
    cases hb : bestRelated ledger p.taken (compactForm n) with
    | none => exact .inl (by simp [substringStep, hb])
    | some d =>
      refine .inr ⟨d, by simpa using hnone, hpay, hne, rfl, ?_⟩
      simp only [substringStep, if_neg h, hb]

/-- After the exact phase every award is for the number of its entry, so an entry that is not
blocked has a number without an award. -/
theorem valid_exactPhase (lines : List Line) (ledger : List LedgerEntry) :
    (exactPhase lines ledger).Valid lines ledger := by
  suffices h : (exactPhase lines ledger).Valid lines ledger ∧
      ∀ a ∈ (exactPhase lines ledger).awards, a.number = a.entry.key from h.1
  refine List.foldlRecOn ledger _ (motive := fun p : Progress => p.Valid lines ledger ∧
    ∀ a ∈ p.awards, a.number = a.entry.key) ⟨Progress.valid_empty, by simp⟩ ?_
  rintro p ⟨hp, hexact⟩ d hd
  rcases exactStep_cases (contenders lines) p d with heq | ⟨hmem, hblocks, heq⟩
  · rw [heq]
    exact ⟨hp, hexact⟩
  · have hnumbers : p.awards.map (·.number) = p.awards.map (·.entry.key) :=
      List.map_congr_left hexact
    have hfree : d.key ∉ p.awards.map (·.number) := by
      rw [hnumbers, ← hp.mem_numbers]
      exact (blocks_eq_false_iff.1 hblocks).2
    rw [heq]
    refine ⟨hp.award ⟨hmem, hd, rfl⟩ hfree hblocks, ?_⟩
    intro a ha
    rcases List.mem_append.1 ha with hold | hnew
    · exact hexact a hold
    · rw [List.mem_singleton.1 hnew]

theorem valid_foldl_substringStep (hp : p.Valid lines ledger) {ns : List String}
    (hns : ∀ n ∈ ns, n ∈ contenders lines) :
    (ns.foldl (substringStep ledger) p).Valid lines ledger := by
  refine List.foldlRecOn ns _ (motive := fun p : Progress => p.Valid lines ledger) hp ?_
  intro p hp n hn
  rcases substringStep_cases ledger p n with heq | ⟨d, hnone, hpay, hne, hbest, heq⟩
  · rwa [heq]
  · obtain ⟨hd, hblocks, hrelated⟩ := mem_of_bestRelated_eq_some hbest
    rw [heq]
    exact hp.award ⟨hns n hn, hd, hpay, hne, hrelated⟩ (Progress.award?_eq_none_iff.1 hnone)
      hblocks

theorem valid_substringPhase (lines : List Line) (ledger : List LedgerEntry) :
    (substringPhase lines ledger).Valid lines ledger :=
  valid_foldl_substringStep (valid_exactPhase lines ledger) fun _ hn => hn

end Payables.Matching
