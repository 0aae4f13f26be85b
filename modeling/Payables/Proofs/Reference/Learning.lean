import Mathlib.Data.Finset.Card
import Mathlib.Data.List.Infix
import Mathlib.Data.List.TakeWhile
import Payables.Proofs.Reference.Pattern
import Payables.Proofs.Text.Runs
import Payables.Reference.Learning

/-!
# A family between its examples and their shape

A learned family has every example that is not of the usual form, every example of a small group
and every example whose leading digits recur in its group. Beyond the examples of no usual form it
has nothing but letters of an example followed by as many digits as examples with these letters
allow. Its pattern is read as a regular expression that matches what the family has
(`learn_isSandwiched`).
-/

namespace Payables

open Text

namespace Group

variable {s : ReferenceSettings} {g : Group} {l t t' : String}

theorem shortest_spec {tails : List String} (h : tails ≠ []) :
    (∃ t ∈ tails, t.length = shortest tails) ∧ ∀ t ∈ tails, shortest tails ≤ t.length := by
  rw [shortest]
  cases hmin : (tails.map String.length).min? with
  | none => exact absurd (List.map_eq_nil_iff.1 (List.min?_eq_none_iff.1 hmin)) h
  | some n =>
    obtain ⟨hmem, hle⟩ := List.min?_eq_some_iff.1 hmin
    exact ⟨List.mem_map.1 hmem, fun t ht => hle _ (List.mem_map_of_mem ht)⟩

theorem longest_spec {tails : List String} (h : tails ≠ []) :
    (∃ t ∈ tails, t.length = longest tails) ∧ ∀ t ∈ tails, t.length ≤ longest tails := by
  rw [longest]
  cases hmax : (tails.map String.length).max? with
  | none => exact absurd (List.map_eq_nil_iff.1 (List.max?_eq_none_iff.1 hmax)) h
  | some n =>
    obtain ⟨hmem, hle⟩ := List.max?_eq_some_iff.1 hmax
    exact ⟨List.mem_map.1 hmem, fun t ht => hle _ (List.mem_map_of_mem ht)⟩

theorem shortest_le_longest (tails : List String) : shortest tails ≤ longest tails := by
  cases tails with
  | nil => exact Nat.le_refl 0
  | cons t ts =>
    have hmem : t ∈ t :: ts := List.mem_cons_self
    exact ((shortest_spec (List.cons_ne_nil t ts)).2 t hmem).trans
      ((longest_spec (List.cons_ne_nil t ts)).2 t hmem)

theorem mem_leads_iff : l ∈ g.leads s ↔ ∃ t ∈ g.tails, lead s t = l := by
  rw [leads, mem_distinct, List.mem_map]

theorem takeCovering_subset (covered : Nat) (ls : List String) :
    takeCovering s g covered ls ⊆ ls := by
  induction ls generalizing covered with
  | nil => exact List.Subset.refl _
  | cons l ls ih =>
    rw [takeCovering]
    split
    · exact List.cons_subset_cons l (List.nil_subset ls)
    · exact List.cons_subset_cons l (ih _)

theorem mem_leads_of_mem_kept (h : l ∈ g.kept s) : l ∈ g.leads s := by
  rw [kept] at h
  split at h
  · exact List.mem_mergeSort.1 (takeCovering_subset _ _ h)
  · exact List.mem_of_mem_filter h

theorem kept_ne_nil (h : g.tails ≠ []) : g.kept s ≠ [] := by
  rw [kept]
  split
  · obtain ⟨t, ts, htails⟩ := List.exists_cons_of_ne_nil h
    have hlead : lead s t ∈ g.leads s := mem_leads_iff.2 ⟨t, by simp [htails], rfl⟩
    obtain ⟨l, ls, hsorted⟩ :=
      List.exists_cons_of_ne_nil (List.ne_nil_of_mem (List.mem_mergeSort.2 hlead))
    rw [hsorted, takeCovering]
    exact List.cons_ne_nil l _
  · assumption

theorem mem_kept_of_shared (ht : t ∈ g.tails) (ht' : t' ∈ g.tails) (hne : t' ≠ t)
    (hlead : lead s t' = lead s t) : lead s t ∈ g.kept s := by
  have hcount : 2 ≤ g.count s (lead s t) := by
    have hmem : t ∈ g.tails.filter (lead s · == lead s t) := List.mem_filter.2 ⟨ht, by simp⟩
    have hmem' : t' ∈ g.tails.filter (lead s · == lead s t) :=
      List.mem_filter.2 ⟨ht', by simp [hlead]⟩
    rw [count]
    match hlist : g.tails.filter (lead s · == lead s t) with
    | [] => rw [hlist] at hmem; cases hmem
    | [a] =>
      rw [hlist, List.mem_singleton] at hmem hmem'
      exact absurd (hmem'.trans hmem.symm) hne
    | _ :: _ :: _ => simp
  have hrecurring : lead s t ∈ g.recurring s := by
    refine List.mem_filter.2 ⟨mem_leads_iff.2 ⟨t, ht, rfl⟩, ?_⟩
    simp [hcount]
  rw [kept]
  split
  · rename_i hnone
    rw [hnone] at hrecurring
    cases hrecurring
  · exact hrecurring

theorem shapes_cases (s : ReferenceSettings) (g : Group) :
    g.shapes s = [g.wideShape] ∨
      s.bucketSamples ≤ g.tails.length ∧ g.shapes s = (g.kept s).map g.narrowShape := by
  rw [shapes]
  split
  · exact .inl rfl
  · rename_i hmany
    dsimp only
    split
    · exact .inl rfl
    · exact .inr ⟨Nat.le_of_not_lt hmany, rfl⟩

theorem shapes_ne_nil (h : g.tails ≠ []) : g.shapes s ≠ [] := by
  rcases shapes_cases s g with hshapes | ⟨-, hshapes⟩
  · rw [hshapes]
    exact List.cons_ne_nil _ _
  · rw [hshapes, Ne, List.map_eq_nil_iff]
    exact kept_ne_nil h

theorem isWritable_of_mem_shapes {shape : Shape} (h : shape ∈ g.shapes s) : shape.IsWritable := by
  rcases shapes_cases s g with hshapes | ⟨-, hshapes⟩
  · rw [hshapes, List.mem_singleton] at h
    rw [h]
    exact shortest_le_longest g.tails
  · rw [hshapes, List.mem_map] at h
    obtain ⟨l, -, rfl⟩ := h
    exact Nat.sub_le_sub_right (shortest_le_longest _) _

theorem isPrefix_lead (s : ReferenceSettings) (t : String) : (lead s t).toList <+: t.toList := by
  rw [lead, String.toList_ofList]
  exact List.take_prefix _ _

theorem mem_narrowed_iff : t ∈ g.tails.filter (fun t => l.toList.isPrefixOf t.toList) ↔
    t ∈ g.tails ∧ l.toList <+: t.toList := by
  rw [List.mem_filter, List.isPrefixOf_iff_prefix]

variable (hdigits : ∀ t ∈ g.tails, ∀ c ∈ t.toList, c.isDigit = true)

include hdigits

theorem fits_wideShape (ht : t ∈ g.tails) : g.wideShape.fits (g.stem ++ t) = true := by
  have hne := List.ne_nil_of_mem ht
  rw [wideShape, Shape.fits_digits_iff]
  refine ⟨t.toList, String.toList_append, hdigits t ht, ?_, ?_⟩
  · rw [String.length_toList]
    exact (shortest_spec hne).2 t ht
  · rw [String.length_toList]
    exact (longest_spec hne).2 t ht

theorem fits_narrowShape (ht : t ∈ g.tails) (hl : l.toList <+: t.toList) :
    (g.narrowShape l).fits (g.stem ++ t) = true := by
  obtain ⟨rest, hrest⟩ := hl
  have hmem := mem_narrowed_iff.2 ⟨ht, rest, hrest⟩
  have hne := List.ne_nil_of_mem hmem
  have hleast := (shortest_spec hne).2 t hmem
  have hmost := (longest_spec hne).2 t hmem
  have hlength : t.length = l.length + rest.length := by
    rw [← String.length_toList, ← hrest, List.length_append, String.length_toList]
  rw [narrowShape, Shape.fits_digits_iff]
  refine ⟨rest, ?_, fun c hc => hdigits t ht c ?_, by omega, by omega⟩
  · rw [String.toList_append, String.toList_append, ← hrest, List.append_assoc]
  · rw [← hrest]
    exact List.mem_append_right _ hc

/-- A group has every example of a small group and every example whose leading digits recur. -/
theorem exists_shape_of_mem (ht : t ∈ g.tails)
    (h : g.tails.length < s.bucketSamples ∨ ∃ t' ∈ g.tails, t' ≠ t ∧ lead s t' = lead s t) :
    ∃ shape ∈ g.shapes s, shape.fits (g.stem ++ t) = true := by
  rcases shapes_cases s g with hshapes | ⟨hmany, hshapes⟩
  · rw [hshapes]
    exact ⟨g.wideShape, List.mem_singleton_self _, fits_wideShape hdigits ht⟩
  · obtain ⟨t', ht', hne, hlead⟩ := h.resolve_left (Nat.not_lt.2 hmany)
    rw [hshapes]
    exact ⟨_, List.mem_map_of_mem (mem_kept_of_shared ht ht' hne hlead),
      fits_narrowShape hdigits ht (isPrefix_lead s t)⟩

/-- A shape of a group has only its letters with a number of digits that examples allow. -/
theorem exists_digits_of_fits {shape : Shape} {n : String} (hne : g.tails ≠ [])
    (hshape : shape ∈ g.shapes s) (hfits : shape.fits n = true) :
    ∃ ds, n.toList = g.stem.toList ++ ds ∧ (∀ c ∈ ds, c.isDigit = true) ∧
      (∃ t ∈ g.tails, t.length ≤ ds.length) ∧ ∃ t ∈ g.tails, ds.length ≤ t.length := by
  rcases shapes_cases s g with hshapes | ⟨-, hshapes⟩
  · rw [hshapes, List.mem_singleton] at hshape
    rw [hshape, wideShape, Shape.fits_digits_iff] at hfits
    obtain ⟨ds, hn, hds, hleast, hmost⟩ := hfits
    obtain ⟨t, ht, hshort⟩ := (shortest_spec hne).1
    obtain ⟨t', ht', hlong⟩ := (longest_spec hne).1
    exact ⟨ds, hn, hds, ⟨t, ht, hshort ▸ hleast⟩, t', ht', hlong ▸ hmost⟩
  · -- the leading digits of a narrow shape are those of an example and count as digits
    rw [hshapes, List.mem_map] at hshape
    obtain ⟨l, hl, rfl⟩ := hshape
    obtain ⟨t₀, ht₀, rfl⟩ := mem_leads_iff.1 (mem_leads_of_mem_kept hl)
    have hmem := mem_narrowed_iff.2 ⟨ht₀, isPrefix_lead s t₀⟩
    obtain ⟨t, ht, hshort⟩ := (shortest_spec (List.ne_nil_of_mem hmem)).1
    obtain ⟨t', ht', hlong⟩ := (longest_spec (List.ne_nil_of_mem hmem)).1
    obtain ⟨ht, hpre⟩ := mem_narrowed_iff.1 ht
    obtain ⟨ht', hpre'⟩ := mem_narrowed_iff.1 ht'
    have hle := hpre.length_le
    have hle' := hpre'.length_le
    rw [narrowShape, Shape.fits_digits_iff] at hfits
    obtain ⟨ds, hn, hds, hleast, hmost⟩ := hfits
    rw [← hshort] at hleast
    rw [← hlong] at hmost
    simp only [String.length_toList] at hle hle'
    refine ⟨(lead s t₀).toList ++ ds, ?_, ?_, ⟨t, ht, ?_⟩, t', ht', ?_⟩
    · rw [hn, String.toList_append, List.append_assoc]
    · intro c hc
      rcases List.mem_append.1 hc with hc | hc
      · exact hdigits t₀ ht₀ c ((isPrefix_lead s t₀).mem hc)
      · exact hds c hc
    · rw [List.length_append, String.length_toList]
      omega
    · rw [List.length_append, String.length_toList]
      omega

end Group

namespace Family

variable {n letters tail : String} {refs es : List String}

/-- A reference of the usual form: capital letters, perhaps none, and then digits, at least one. -/
structure Splits (n letters tail : String) : Prop where
  eq_append : n = letters ++ tail
  letters : ∀ c ∈ letters.toList, c.isUpper = true
  ne : tail ≠ ""
  digits : ∀ c ∈ tail.toList, c.isDigit = true

theorem Splits.ne_empty (h : Splits n letters tail) : n ≠ "" := by
  rw [h.eq_append, Ne, String.append_eq_empty_iff, not_and]
  exact fun _ => h.ne

theorem isUpper_eq_false_of_isDigit {c : Char} (h : c.isDigit = true) : c.isUpper = false :=
  forall_isDigit (P := fun c => c.isUpper = false) (by decide) h

theorem parts?_eq_some_iff : parts? n = some (letters, tail) ↔ Splits n letters tail := by
  constructor
  · intro h
    rw [parts?] at h
    split at h
    · rename_i hcond
      obtain ⟨rfl, rfl⟩ := Prod.mk.inj (Option.some.inj h)
      obtain ⟨hne, hdigits⟩ := hcond
      refine ⟨?_, ?_, by simpa using hne, by simpa using hdigits⟩
      · rw [← String.toList_inj, String.toList_append, String.toList_ofList, String.toList_ofList,
          List.takeWhile_append_dropWhile]
      · rw [String.toList_ofList]
        exact fun c hc => List.all_eq_true.1 List.all_takeWhile c hc
    · cases h
  · rintro ⟨rfl, hletters, hne, hdigits⟩
    have hstop : ∀ c ∈ tail.toList.head?, c.isUpper = false :=
      fun c hc => isUpper_eq_false_of_isDigit (hdigits c (List.mem_of_mem_head? hc))
    have hfront := takeWhile_append_of_stop hletters hstop
    have hback : (letters.toList ++ tail.toList).dropWhile Char.isUpper = tail.toList := by
      have hwhole := List.takeWhile_append_dropWhile (p := Char.isUpper)
        (l := letters.toList ++ tail.toList)
      rw [hfront] at hwhole
      exact List.append_cancel_left hwhole
    have hcond : tail.toList ≠ [] ∧ tail.toList.all Char.isDigit = true :=
      ⟨by simpa using hne, List.all_eq_true.2 hdigits⟩
    rw [parts?, String.toList_append, hfront, hback, if_pos hcond, String.ofList_toList,
      String.ofList_toList]

theorem mem_examples_iff : n ∈ examples refs ↔ n ≠ "" ∧ ∃ r ∈ refs, referenceForm r = n := by
  rw [examples, Std.ExtTreeSet.mem_toList, Std.ExtTreeSet.mem_ofList, List.contains_iff_mem,
    List.mem_filter, List.mem_map, and_comm]
  simp

theorem nodup_examples (refs : List String) : (examples refs).Nodup :=
  Std.ExtTreeSet.distinct_toList.imp fun h hab => h (by rw [hab]; exact Std.ReflCmp.compare_self)

theorem exists_splits_iff :
    (∃ tail, Splits n letters tail) ↔ (parts? n).map Prod.fst = some letters := by
  rw [Option.map_eq_some_iff]
  constructor
  · rintro ⟨tail, h⟩
    exact ⟨(letters, tail), parts?_eq_some_iff.2 h, rfl⟩
  · rintro ⟨⟨_, tail⟩, h, rfl⟩
    exact ⟨tail, parts?_eq_some_iff.1 h⟩

instance : Decidable (∃ tail, Splits n letters tail) := decidable_of_iff' _ exists_splits_iff

/-- The distinct normal forms of references that consist of the same letters and digits. -/
def sharing (refs : List String) (letters : String) : Finset String :=
  (refs.map referenceForm).toFinset.filter fun n => ∃ tail, Splits n letters tail

theorem mem_tailsOf_iff : tail ∈ tailsOf es letters ↔ ∃ n ∈ es, Splits n letters tail := by
  simp only [tailsOf, List.mem_map, List.mem_filter, List.mem_filterMap]
  constructor
  · rintro ⟨⟨l, t⟩, ⟨⟨n, hn, hparts⟩, hl⟩, rfl⟩
    obtain rfl : l = letters := by simpa using hl
    exact ⟨n, hn, parts?_eq_some_iff.1 hparts⟩
  · rintro ⟨n, hn, hsplits⟩
    exact ⟨(letters, tail), ⟨⟨n, hn, parts?_eq_some_iff.2 hsplits⟩, by simp⟩, rfl⟩

theorem length_tailsOf (refs : List String) (letters : String) :
    (tailsOf (examples refs) letters).length = (sharing refs letters).card := by
  rw [tailsOf, List.length_map, List.filter_filterMap, List.length_filterMap_eq_countP,
    List.countP_eq_length_filter, ← List.toFinset_card_of_nodup ((nodup_examples refs).filter _)]
  congr 1
  ext n
  have hsome : ((parts? n).filter (·.1 == letters)).isSome = true ↔
      ∃ tail, Splits n letters tail := by
    rw [exists_splits_iff]
    cases parts? n <;> simp [Option.filter]
  rw [List.mem_toFinset, List.mem_filter, hsome, sharing, Finset.mem_filter, List.mem_toFinset,
    mem_examples_iff, List.mem_map]
  exact and_congr_left fun ⟨_, hsplits⟩ => and_iff_right hsplits.ne_empty

theorem mem_groups_iff {g : Group} :
    g ∈ groups es ↔ g.tails = tailsOf es g.stem ∧ g.tails ≠ [] := by
  have hmem : g.stem ∈ distinct ((es.filterMap parts?).map Prod.fst) ↔ tailsOf es g.stem ≠ [] := by
    rw [mem_distinct, tailsOf, Ne, List.map_eq_nil_iff, List.filter_eq_nil_iff]
    simp
  constructor
  · intro h
    obtain ⟨stem, hstem, rfl⟩ := List.mem_map.1 h
    exact ⟨rfl, hmem.1 hstem⟩
  · rintro ⟨htails, hne⟩
    rw [htails] at hne
    refine List.mem_map.2 ⟨g.stem, hmem.2 hne, ?_⟩
    rw [← htails]

theorem exists_literals_iff : (∃ shape ∈ literals es, shape.fits n = true) ↔
    n ∈ es ∧ ∀ letters tail, ¬ Splits n letters tail := by
  have hnone : (parts? n).isNone = true ↔ ∀ letters tail, ¬ Splits n letters tail := by
    simp [Option.isNone_iff_eq_none, Option.eq_none_iff_forall_ne_some, ← parts?_eq_some_iff]
  rw [← hnone, ← List.mem_filter (p := fun n => (parts? n).isNone), literals]
  cases es.filter fun n => (parts? n).isNone with
  | nil => simp
  | cons text texts => simp [Shape.fits]

theorem learn_eq_some_iff {s : ReferenceSettings} {f : Family} :
    learn s refs = some f ↔ examples refs ≠ [] ∧
      f = ⟨(groups (examples refs)).flatMap (Group.shapes s) ++ literals (examples refs)⟩ := by
  rw [learn]
  cases examples refs with
  | nil => simp
  | cons n es => simp [eq_comm]

theorem mem_groups_of_splits (hn : n ∈ es) (h : Splits n letters tail) :
    Group.mk letters (tailsOf es letters) ∈ groups es :=
  mem_groups_iff.2 ⟨rfl, List.ne_nil_of_mem (mem_tailsOf_iff.2 ⟨n, hn, h⟩)⟩

theorem isWritable_of_learn {s : ReferenceSettings} {f : Family} (h : learn s refs = some f) :
    f.IsWritable := by
  obtain ⟨hne, rfl⟩ := learn_eq_some_iff.1 h
  refine ⟨?_, fun shape hshape => ?_⟩
  · obtain ⟨n, hn⟩ := List.exists_mem_of_ne_nil _ hne
    rw [Ne, List.append_eq_nil_iff, not_and_or]
    by_cases hsplits : ∃ letters tail, Splits n letters tail
    · obtain ⟨letters, tail, hsplits⟩ := hsplits
      have hg := mem_groups_of_splits hn hsplits
      obtain ⟨shape, hshape⟩ :=
        List.exists_mem_of_ne_nil _ (Group.shapes_ne_nil (s := s) (mem_groups_iff.1 hg).2)
      exact .inl (List.ne_nil_of_mem (List.mem_flatMap.2 ⟨_, hg, hshape⟩))
    · push Not at hsplits
      obtain ⟨shape, hshape, -⟩ := exists_literals_iff.2 ⟨hn, hsplits⟩
      exact .inr (List.ne_nil_of_mem hshape)
  · rcases List.mem_append.1 hshape with hgroup | hliteral
    · obtain ⟨g, -, hshape⟩ := List.mem_flatMap.1 hgroup
      exact Group.isWritable_of_mem_shapes hshape
    · rw [literals] at hliteral
      split at hliteral
      · cases hliteral
      · rw [List.mem_singleton.1 hliteral]
        assumption

theorem fits_learned_iff {s : ReferenceSettings} {f : Family} (h : learn s refs = some f) :
    f.fits n = true ↔
      (∃ g ∈ groups (examples refs), ∃ shape ∈ g.shapes s, shape.fits n = true) ∨
        n ∈ examples refs ∧ ∀ letters tail, ¬ Splits n letters tail := by
  obtain ⟨-, rfl⟩ := learn_eq_some_iff.1 h
  rw [← exists_literals_iff, fits, List.any_append, Bool.or_eq_true, List.any_eq_true,
    List.any_eq_true]
  refine or_congr_left ?_
  constructor
  · rintro ⟨shape, hshape, hfits⟩
    obtain ⟨g, hg, hshape⟩ := List.mem_flatMap.1 hshape
    exact ⟨g, hg, shape, hshape, hfits⟩
  · rintro ⟨g, hg, shape, hshape, hfits⟩
    exact ⟨shape, List.mem_flatMap.2 ⟨g, hg, hshape⟩, hfits⟩

/-- The cases in which the family has an example: it is not of the usual form, few examples share
its letters, or another example with its letters has the same leading digits. -/
inductive IsCovered (s : ReferenceSettings) (refs : List String) (n : String) : Prop
  | literal : (∀ letters tail, ¬ Splits n letters tail) → IsCovered s refs n
  | few {letters tail : String} : Splits n letters tail →
      (sharing refs letters).card < s.bucketSamples → IsCovered s refs n
  | recurring {letters tail n' tail' : String} : Splits n letters tail →
      n' ∈ sharing refs letters → n' ≠ n → Splits n' letters tail' →
      Group.lead s tail' = Group.lead s tail → IsCovered s refs n

/-- What a member looks like: an example that is not of the usual form, or letters of an example
with no fewer digits than one example and no more than another. -/
inductive IsShaped (refs : List String) (n : String) : Prop
  | literal {r : String} : r ∈ refs → referenceForm r = n → n ≠ "" →
      (∀ letters tail, ¬ Splits n letters tail) → IsShaped refs n
  | digits {letters tail fewer more fewest most : String} : Splits n letters tail →
      fewer ∈ sharing refs letters → Splits fewer letters fewest →
      fewest.length ≤ tail.length → more ∈ sharing refs letters → Splits more letters most →
      tail.length ≤ most.length → IsShaped refs n

structure IsSandwiched (s : ReferenceSettings) (refs : List String) (f : Family) : Prop where
  fits_of_isCovered : ∀ r ∈ refs, referenceForm r ≠ "" → IsCovered s refs (referenceForm r) →
    f.fits (referenceForm r) = true
  isShaped_of_fits : ∀ n, f.fits n = true → IsShaped refs n

variable {s : ReferenceSettings}

theorem mem_sharing_iff : n ∈ sharing refs letters ↔
    (∃ r ∈ refs, referenceForm r = n) ∧ ∃ tail, Splits n letters tail := by
  rw [sharing, Finset.mem_filter, List.mem_toFinset, List.mem_map]

theorem mem_sharing_of_example (hn : n ∈ examples refs) (h : Splits n letters tail) :
    n ∈ sharing refs letters :=
  mem_sharing_iff.2 ⟨(mem_examples_iff.1 hn).2, tail, h⟩

theorem isDigit_of_mem_tails {g : Group} (hg : g ∈ groups es) {t : String} (ht : t ∈ g.tails) :
    ∀ c ∈ t.toList, c.isDigit = true := by
  rw [(mem_groups_iff.1 hg).1, mem_tailsOf_iff] at ht
  obtain ⟨n, -, hsplits⟩ := ht
  exact hsplits.digits

theorem exists_shape_of_splits (hn : n ∈ examples refs) (h : Splits n letters tail)
    (hcase : (sharing refs letters).card < s.bucketSamples ∨
      ∃ tail' ∈ tailsOf (examples refs) letters, tail' ≠ tail ∧
        Group.lead s tail' = Group.lead s tail) :
    ∃ g ∈ groups (examples refs), ∃ shape ∈ g.shapes s, shape.fits n = true := by
  have htail : tail ∈ tailsOf (examples refs) letters := mem_tailsOf_iff.2 ⟨n, hn, h⟩
  have hg := mem_groups_of_splits hn h
  rw [← length_tailsOf] at hcase
  refine ⟨_, hg, ?_⟩
  rw [h.eq_append]
  exact Group.exists_shape_of_mem (fun t ht => isDigit_of_mem_tails hg ht) htail hcase

theorem isShaped_of_group {g : Group} (hg : g ∈ groups (examples refs)) {shape : Shape}
    (hshape : shape ∈ g.shapes s) (hfits : shape.fits n = true) : IsShaped refs n := by
  obtain ⟨htails, hne⟩ := mem_groups_iff.1 hg
  obtain ⟨ds, hn, hds, ⟨fewest, hfewest, hle⟩, most, hmost, hge⟩ :=
    Group.exists_digits_of_fits (fun t ht => isDigit_of_mem_tails hg ht) hne hshape hfits
  rw [htails, mem_tailsOf_iff] at hfewest hmost
  obtain ⟨fewer, hfewer, hfewest⟩ := hfewest
  obtain ⟨more, hmore, hmost⟩ := hmost
  have hne : ds ≠ [] := by
    rintro rfl
    exact hfewest.ne (String.length_eq_zero_iff.1 (Nat.le_zero.1 hle))
  have hsplits : Splits n g.stem (String.ofList ds) := by
    refine ⟨?_, hfewest.letters, by simpa using hne, by simpa using hds⟩
    rw [← String.toList_inj, hn, String.toList_append, String.toList_ofList]
  refine .digits hsplits (mem_sharing_of_example hfewer hfewest) hfewest ?_
    (mem_sharing_of_example hmore hmost) hmost ?_
  · rwa [String.length_ofList]
  · rwa [String.length_ofList]

theorem fits_of_isCovered {f : Family} {r : String} (h : learn s refs = some f) (hr : r ∈ refs)
    (hne : referenceForm r ≠ "") (hcovered : IsCovered s refs (referenceForm r)) :
    f.fits (referenceForm r) = true := by
  have hexample : referenceForm r ∈ examples refs := mem_examples_iff.2 ⟨hne, r, hr, rfl⟩
  rw [fits_learned_iff h]
  cases hcovered with
  | literal hnot => exact .inr ⟨hexample, hnot⟩
  | few hsplits hfew => exact .inl (exists_shape_of_splits hexample hsplits (.inl hfew))
  | @recurring letters tail n' tail' hsplits hother hne hsplits' hlead =>
    obtain ⟨⟨r', hr', hform⟩, -⟩ := mem_sharing_iff.1 hother
    have hexample' : n' ∈ examples refs :=
      mem_examples_iff.2 ⟨hsplits'.ne_empty, r', hr', hform⟩
    refine .inl (exists_shape_of_splits hexample hsplits (.inr ⟨tail', ?_, ?_, hlead⟩))
    · exact mem_tailsOf_iff.2 ⟨n', hexample', hsplits'⟩
    · rintro rfl
      exact hne (hsplits'.eq_append.trans hsplits.eq_append.symm)

theorem isShaped_of_fits {f : Family} (h : learn s refs = some f) (hfits : f.fits n = true) :
    IsShaped refs n := by
  rcases (fits_learned_iff h).1 hfits with ⟨g, hg, shape, hshape, hfits⟩ | ⟨hexample, hnot⟩
  · exact isShaped_of_group hg hshape hfits
  · obtain ⟨hne, r, hr, hform⟩ := mem_examples_iff.1 hexample
    exact .literal hr hform hne hnot

/-- A learned family lies between its examples and their shape, and its pattern is read as a regular
expression that matches what the family has. -/
theorem learn_isSandwiched {f : Family} (h : learn s refs = some f) :
    IsSandwiched s refs f ∧ ∃ P, Pattern.read? f.text.toList = some P ∧
      ∀ n : String, n.toList ∈ P.matches' ↔ f.fits n = true :=
  ⟨⟨fun _ hr hne hcovered => fits_of_isCovered h hr hne hcovered,
    fun _ hfits => isShaped_of_fits h hfits⟩, exists_read_text (isWritable_of_learn h)⟩

def invoiceNumbers : List String :=
  ["INV-10231", "inv 10297", "INV-10255", "INV-999", "A-1", "AB-12-CD"]

/-- Three numbers of invoices share the digits `102`, which cover the group without `INV999`. -/
def invoiceFamily : Family :=
  ⟨[.digits "A" 1 1, .digits "INV102" 2 2, .literals ["AB12CD"]]⟩

theorem learn_isSandwiched_invoices :
    learn {} invoiceNumbers = some invoiceFamily ∧
      IsSandwiched {} invoiceNumbers invoiceFamily ∧
      invoiceFamily.fits "INV10200" = true ∧ invoiceFamily.fits "INV999" = false := by
  have hlearn : learn {} invoiceNumbers = some invoiceFamily := by decide +kernel
  exact ⟨hlearn, (learn_isSandwiched hlearn).1, by decide +kernel, by decide +kernel⟩

end Family

end Payables
