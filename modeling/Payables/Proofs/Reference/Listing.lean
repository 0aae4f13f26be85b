import Payables.Proofs.Reference.Check
import Payables.Proofs.Reference.Plain

/-!
# A text that lists the numbers

A text that lists the numbers of the lines and nothing else misses none of them, but it may have
strays, since a part of a number or a join of two can belong to the family (`listing_has_stray`). It
has none if every number is plain (`check_listing`).
-/

namespace Payables.ReferenceSettings

open Text Family

variable {s : ReferenceSettings} {lines : List Line}

/-- The numbers of the lines, one to a line of the text. -/
def listing (lines : List Line) : String := "\n".intercalate (lines.map (·.number))

theorem infix_intercalate {r : String} {rs : List String} (h : r ∈ rs) :
    r.toList <:+: ("\n".intercalate rs).toList := by
  induction rs with
  | nil => cases h
  | cons r' rs ih =>
    cases rs with
    | nil =>
      rw [List.mem_singleton.1 h, String.intercalate_singleton]
    | cons q rs =>
      rw [String.intercalate_cons_cons, String.toList_append, String.toList_append]
      rcases List.mem_cons.1 h with rfl | h
      · rw [List.append_assoc]
        exact (List.prefix_append _ _).isInfix
      · exact (ih h).trans (List.suffix_append _ _).isInfix

theorem referenceChars_infix {u v : List Char} (h : u <:+: v) :
    referenceChars u <:+: referenceChars v := by
  obtain ⟨before, after, rfl⟩ := h
  rw [referenceChars_append, referenceChars_append]
  exact List.infix_append _ _ _

theorem references_of_numbers (hfield : s.field = .number)
    (hnumbers : ∀ l ∈ lines, trim l.number.toList ≠ []) :
    s.references lines = lines.map (trimmed ·.number) := by
  have hof : s.referenceOf = fun l => trimmed l.number := by
    funext l
    rw [referenceOf, hfield]
    rfl
  rw [references, hof, List.filter_eq_self]
  intro r hr
  obtain ⟨l, hl, rfl⟩ := List.mem_map.1 hr
  simpa [trimmed] using hnumbers l hl

theorem missing_listing (lines : List Line) :
    missing (listing lines) (lines.map (trimmed ·.number)) = [] := by
  rw [missing, List.filter_eq_nil_iff]
  intro r hr
  obtain ⟨l, hl, rfl⟩ := List.mem_map.1 hr
  have hnumber : referenceChars l.number.toList <:+: referenceChars (listing lines).toList :=
    referenceChars_infix (infix_intercalate (List.mem_map_of_mem hl))
  rw [referenceForm_trimmed, Bool.not_eq_true, Bool.not_eq_false', contains_iff_infix,
    toList_referenceForm, toList_referenceForm]
  exact hnumber

theorem upper_intercalate (ns : List (List Char)) :
    upper (['\n'].intercalate ns) = ['\n'].intercalate (ns.map upper) := by
  induction ns with
  | nil => rfl
  | cons n ns ih =>
    cases ns with
    | nil => simp
    | cons n' ns =>
      have hbreak : upper ['\n'] = ['\n'] := by decide +kernel
      rw [List.intercalate_cons_cons, upper_append, upper_append, ih, hbreak]
      exact List.intercalate_cons_cons.symm

theorem upper_listing (lines : List Line) :
    upper (listing lines).toList = ['\n'].intercalate (lines.map (upper ·.number.toList)) := by
  rw [listing, String.toList_intercalate]
  change upper (['\n'].intercalate _) = _
  rw [upper_intercalate, List.map_map, List.map_map]
  rfl

theorem mem_of_mem_intercalate {ns : List (List Char)} {c : Char}
    (h : c ∈ ['\n'].intercalate ns) : c = '\n' ∨ ∃ n ∈ ns, c ∈ n := by
  induction ns with
  | nil => cases h
  | cons n ns ih =>
    cases ns with
    | nil => exact .inr ⟨n, by simp, by simpa using h⟩
    | cons n' ns =>
      rw [List.intercalate_cons_cons, List.mem_append, List.mem_append, List.mem_singleton] at h
      rcases h with (h | h) | h
      · exact .inr ⟨n, List.mem_cons_self, h⟩
      · exact .inl h
      · exact (ih h).imp_right fun ⟨m, hm, hc⟩ => ⟨m, List.mem_cons_of_mem n hm, hc⟩

/-- Plain numbers one to a line are read as nothing but themselves. -/
theorem not_isStray_listing (hplain : ∀ l ∈ lines, IsPlain Char.isAlpha l.number.toList)
    (t : String) : ¬ s.IsStray (listing lines) (lines.map (trimmed ·.number)) t := by
  rintro ⟨⟨family, hlearn, hfits⟩, ⟨count, segment, -, hstands, -, hform⟩, hnew⟩
  obtain ⟨hjoined, before, after, htext, hbefore, hafter⟩ := hstands
  rw [upper_listing] at htext
  have hns : ∀ n ∈ lines.map (upper ·.number.toList), IsPlain Char.isUpper n :=
    List.forall_mem_map.2 fun l hl => (hplain l hl).upper
  have hsegment : ∀ c ∈ segment, isSpanChar c = true ∨ isJoint c = true := by
    intro c hc
    have hmem : c ∈ ['\n'].intercalate (lines.map (upper ·.number.toList)) := by
      rw [htext]
      simp [hc]
    rcases mem_of_mem_intercalate hmem with rfl | ⟨n, hn, hc⟩
    · exact .inr (by decide)
    · exact (hns n hn).of_mem hc
  rcases isShaped_of_fits hlearn hfits with ⟨hr, hr', -, -⟩ | ⟨hsplits, hfewer, hfewest, -, -, -, -⟩
  · exact hnew _ hr hr'
  · -- the family has no stem without letters, so the stretch starts with a letter
    obtain ⟨⟨r, hr, rfl⟩, -⟩ := mem_sharing_iff.1 hfewer
    obtain ⟨l, hl, rfl⟩ := List.mem_map.1 hr
    obtain ⟨letters, tail, hne, hsplits'⟩ := (hplain l hl).splits
    rw [referenceForm_trimmed, ← parts?_eq_some_iff, parts?_eq_some_iff.2 hsplits'] at hfewest
    obtain ⟨rfl, -⟩ := Prod.mk.inj (Option.some.inj hfewest)
    have hlooks := looksPlain_of_splits hjoined hsegment hne (hform ▸ hsplits)
    obtain ⟨l', hl', rfl⟩ := List.mem_map.1 (mem_of_looksPlain hns htext hlooks hbefore hafter)
    refine hnew _ (List.mem_map_of_mem hl') ?_
    rw [← hform, referenceForm_trimmed, ← String.toList_inj, toList_referenceForm,
      toList_referenceForm, String.toList_ofList, (hplain l' hl').referenceChars_upper]

/-- What is said of a text that lists the numbers: without numbers nothing is checked; else none of
them is missing, and the text passes unless it has strays, which it has only if a number is not
plain. -/
inductive ListingOutcome (s : ReferenceSettings) (lines : List Line) : CheckOutcome → Prop
  | skipped : lines = [] → ListingOutcome s lines .skipped
  | passed (candidates : Nat) : lines ≠ [] →
      (∀ t, ¬ s.IsStray (listing lines) (lines.map (trimmed ·.number)) t) →
        ListingOutcome s lines (.passed lines.length candidates)
  | mismatch (m : Mismatch) : m.checked = lines.length → m.found = lines.length → m.missing = [] →
      (∀ t, t ∈ m.sourceOnly ↔ s.IsStray (listing lines) (lines.map (trimmed ·.number)) t) →
        m.sourceOnly ≠ [] → (∃ l ∈ lines, ¬ IsPlain Char.isAlpha l.number.toList) →
          ListingOutcome s lines (.mismatch m)

theorem check_listing (hfield : s.field = .number)
    (hnumbers : ∀ l ∈ lines, trim l.number.toList ≠ []) :
    ListingOutcome s lines (s.check (some (listing lines)) lines) := by
  cases lines with
  | nil => exact .skipped rfl
  | cons l ls =>
    have hblank : ∃ c ∈ (listing (l :: ls)).toList, isBlank c = false := by
      have hne := hnumbers l List.mem_cons_self
      rw [Ne, trim_eq_nil_iff] at hne
      push Not at hne
      obtain ⟨c, hc, hblank⟩ := hne
      exact ⟨c, (infix_intercalate List.mem_cons_self).mem hc, by simpa using hblank⟩
    have hchecked := isChecked_checkText s (listing (l :: ls)) (l :: ls)
    rw [references_of_numbers hfield hnumbers] at hchecked
    rw [check_eq_checkText hblank]
    generalize s.checkText (listing (l :: ls)) (l :: ls) = outcome at hchecked
    cases hchecked with
    | passed candidates _ hnone =>
      rw [List.length_map]
      exact .passed candidates (List.cons_ne_nil l ls) hnone
    | mismatch m hcount hfound hmissing hsourceOnly hne =>
      rw [missing_listing] at hmissing
      rw [hmissing, List.length_nil, Nat.sub_zero] at hfound
      rw [List.length_map] at hcount hfound
      have hstrays : m.sourceOnly ≠ [] := hne.resolve_left fun h => h hmissing
      refine .mismatch m hcount hfound hmissing hsourceOnly hstrays ?_
      by_contra hplain
      push Not at hplain
      obtain ⟨t, ht⟩ := List.exists_mem_of_ne_nil _ hstrays
      exact not_isStray_listing hplain t ((hsourceOnly t).1 ht)

theorem check_listing_invoices :
    ListingOutcome {} twoInvoices (check {} (some (listing twoInvoices)) twoInvoices) ∧
      check {} (some (listing twoInvoices)) twoInvoices = .passed 2 2 :=
  ⟨check_listing rfl (by decide +kernel), by decide +kernel⟩

def splitNumbers : List Line :=
  [{ Line.ofOrdinal "s" 1 with number := "A-1" }, { Line.ofOrdinal "s" 2 with number := "2" }]

/-- The `1` of `A-1` is read as a reference of one digit like `2`. -/
theorem listing_has_stray :
    (∀ l ∈ splitNumbers, trim l.number.toList ≠ []) ∧
      check {} (some (listing splitNumbers)) splitNumbers = .mismatch {
        checked := 2, found := 2, uniqueReferences := 2, missing := [], sourceOnly := ["1"] } := by
  decide +kernel

end Payables.ReferenceSettings
