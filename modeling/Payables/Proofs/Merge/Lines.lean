import Mathlib.Data.List.Nodup
import Payables.Merge

/-!
# What a merge makes of its lines

A line of a merge is the first fresh line of its id, carrying what the user has done to the kept
line of that id. `carry` says what is carried over; carrying it over a second time changes nothing,
which is why a merge with its own outcome gives that outcome again.
-/

namespace Payables.Merge

@[simp] theorem id_carry (prior? : Option Line) (l : Line) : (carry prior? l).id = l.id := rfl

theorem carry_carry (prior? : Option Line) (f l : Line) :
    carry (some (carry prior? f)) l = carry prior? l := by
  cases prior? <;> rfl

variable {existing fresh : List Line} {l : Line} {id : String}

theorem kept?_eq_some_iff (h : (existing.map Line.id).Nodup) :
    kept? existing id = some l ↔ l ∈ existing ∧ l.id = id := by
  have hrev : (existing.reverse.map Line.id).Nodup := by
    rwa [List.map_reverse, List.nodup_reverse]
  rw [kept?, find?_key_eq_some_iff Line.id hrev, List.mem_reverse]

theorem isSome_kept?_iff : (kept? existing id).isSome = true ↔ id ∈ existing.map Line.id := by
  simp [kept?, List.find?_isSome]

theorem precedes_iff {a b : Line} : precedes a b = true ↔
    a.ordinal < b.ordinal ∨ (a.ordinal = b.ordinal ∧ (compare a.id b.id).isLE = true) := by
  simp [precedes]

theorem precedes_trans (a b c : Line) (hab : precedes a b = true) (hbc : precedes b c = true) :
    precedes a c = true := by
  rw [precedes_iff] at *
  rcases hab with hab | ⟨hab, hidab⟩ <;> rcases hbc with hbc | ⟨hbc, hidbc⟩
  · exact .inl (Nat.lt_trans hab hbc)
  · exact .inl (hbc ▸ hab)
  · exact .inl (hab ▸ hbc)
  · exact .inr ⟨hab.trans hbc, Std.TransCmp.isLE_trans hidab hidbc⟩

theorem isLE_compare_total (a b : String) :
    ((compare a b).isLE || (compare b a).isLE) = true := by
  have hswap : compare b a = (compare a b).swap := Std.OrientedCmp.eq_swap
  rw [hswap]
  cases compare a b <;> rfl

theorem precedes_total (a b : Line) : (precedes a b || precedes b a) = true := by
  rw [Bool.or_eq_true, precedes_iff, precedes_iff]
  rcases Nat.lt_trichotomy a.ordinal b.ordinal with h | h | h
  · exact .inl (.inl h)
  · have hid := Bool.or_eq_true_iff.1 (isLE_compare_total a.id b.id)
    exact hid.imp (fun hle => .inr ⟨h, hle⟩) fun hle => .inr ⟨h.symm, hle⟩
  · exact .inr (.inl h)

theorem lines_perm (existing fresh : List Line) : (ofLines existing fresh).lines.Perm
    ((firstOfEach Line.id fresh).map fun l => carry (kept? existing l.id) l) :=
  List.mergeSort_perm _ _

theorem pairwise_lines (existing fresh : List Line) :
    (ofLines existing fresh).lines.Pairwise fun a b => precedes a b = true :=
  List.pairwise_mergeSort precedes_trans precedes_total _

theorem mem_lines_iff : l ∈ (ofLines existing fresh).lines ↔
    ∃ f, fresh.find? (·.id == l.id) = some f ∧ l = carry (kept? existing l.id) f := by
  rw [(lines_perm existing fresh).mem_iff, List.mem_map]
  constructor
  · rintro ⟨f, hf, rfl⟩
    exact ⟨f, (mem_firstOfEach Line.id).1 hf, rfl⟩
  · rintro ⟨f, hf, hl⟩
    have hid : f.id = l.id := by simpa using List.find?_some hf
    rw [← hid] at hf hl
    exact ⟨f, (mem_firstOfEach Line.id).2 hf, hl.symm⟩

theorem nodup_ids_lines (existing fresh : List Line) :
    ((ofLines existing fresh).lines.map Line.id).Nodup := by
  rw [((lines_perm existing fresh).map Line.id).nodup_iff, List.map_map]
  exact nodup_keys_firstOfEach Line.id fresh

theorem mem_inserted_iff : id ∈ (ofLines existing fresh).inserted ↔
    id ∈ fresh.map Line.id ∧ id ∉ existing.map Line.id := by
  simp only [ofLines, List.mem_filter, mem_keys_firstOfEach, Bool.not_eq_true', ← Bool.not_eq_true,
    isSome_kept?_iff]

theorem mem_updated_iff : id ∈ (ofLines existing fresh).updated ↔
    id ∈ fresh.map Line.id ∧ id ∈ existing.map Line.id := by
  simp only [ofLines, List.mem_filter, mem_keys_firstOfEach, isSome_kept?_iff]

theorem mem_removed_iff : id ∈ (ofLines existing fresh).removed ↔
    id ∈ existing.map Line.id ∧ id ∉ fresh.map Line.id := by
  simp only [ofLines, List.mem_mergeSort, mem_distinct, List.mem_filter, List.contains_eq_mem,
    mem_keys_firstOfEach, Bool.not_eq_true', decide_eq_false_iff_not]

theorem nodup_inserted (existing fresh : List Line) : (ofLines existing fresh).inserted.Nodup :=
  (nodup_keys_firstOfEach Line.id fresh).filter _

theorem nodup_updated (existing fresh : List Line) : (ofLines existing fresh).updated.Nodup :=
  (nodup_keys_firstOfEach Line.id fresh).filter _

theorem nodup_removed (existing fresh : List Line) : (ofLines existing fresh).removed.Nodup :=
  (List.mergeSort_perm _ _).nodup_iff.2 (nodup_distinct _)

/-- A merge sees of the kept lines only what the fresh lines carry over from them. -/
theorem lines_congr {existing existing' : List Line}
    (h : ∀ f, fresh.find? (·.id == f.id) = some f →
      carry (kept? existing f.id) f = carry (kept? existing' f.id) f) :
    (ofLines existing fresh).lines = (ofLines existing' fresh).lines := by
  have hmap : (firstOfEach Line.id fresh).map (carryOver existing) =
      (firstOfEach Line.id fresh).map (carryOver existing') :=
    List.map_congr_left fun f hf => h f ((mem_firstOfEach Line.id).1 hf)
  simp only [ofLines, hmap]

end Payables.Merge
