import Mathlib.Data.List.Pairwise
import Payables.Proofs.Reference.Candidates
import Payables.Proofs.Reference.Learning

/-!
# Plain numbers

A plain number is letters followed by digits, perhaps with white space, dashes, underscores or
slashes between them. Where plain numbers stand one to a line, no letter follows a digit but at the
start of a line. So a stretch of whole runs that starts with a letter, ends with a digit and has no
letter after a digit is one of the numbers (`mem_of_looksPlain`): two numbers are never read as one.
-/

namespace Payables.Family

open Text

/-- Letters of a class and then digits, with joints between them or nothing. -/
inductive IsPlain (isLetter : Char → Bool) (n : List Char) : Prop
  | intro {ls gap ds : List Char} : n = ls ++ gap ++ ds → ls ≠ [] →
      (∀ c ∈ ls, isLetter c = true) → (∀ c ∈ gap, isJoint c = true) → ds ≠ [] →
        (∀ c ∈ ds, c.isDigit = true) → IsPlain isLetter n

/-- A stretch that could be a plain number in capitals. -/
structure LooksPlain (s : List Char) : Prop where
  head : ∃ c ∈ s.head?, c.isUpper = true
  last : ∃ c ∈ s.getLast?, c.isDigit = true
  ordered : s.Pairwise fun a b => a.isDigit = true → b.isUpper = false

variable {n before after r s : List Char} {ns : List (List Char)}

theorem isSpanChar_of_isUpper {c : Char} (h : c.isUpper = true) : isSpanChar c = true := by
  rw [isSpanChar, h, Bool.true_or]

theorem isSpanChar_of_isDigit {c : Char} (h : c.isDigit = true) : isSpanChar c = true := by
  rw [isSpanChar, h, Bool.or_true]

theorem isSpanChar_eq_false_of_isJoint {c : Char} (h : isJoint c = true) : isSpanChar c = false :=
  isSpanChar_eq_false (isUpper_of_isJoint h).2

theorem isUpper_isDigit_of_isJoint {c : Char} (h : isJoint c = true) :
    c.isUpper = false ∧ c.isDigit = false := by
  have hspan := isSpanChar_eq_false_of_isJoint h
  rwa [isSpanChar, Bool.or_eq_false_iff] at hspan

theorem forall_isSpanChar {P : Char → Prop}
    (h : ∀ n < 128, isSpanChar (Char.ofNat n) = true → P (Char.ofNat n)) {c : Char}
    (hc : isSpanChar c = true) : P c :=
  forall_ascii (P := fun c => isSpanChar c = true → P c) h
    (lt_of_isAsciiAlphanumeric (isAsciiAlphanumeric_of_isSpanChar hc)) hc

theorem isUpper_of_isSpanChar {c : Char} (h : isSpanChar c = true) : IsUpper c :=
  forall_isSpanChar (by decide +kernel) h

theorem isReferenceSeparator_of_isSpanChar {c : Char} (h : isSpanChar c = true) :
    isReferenceSeparator c = false :=
  forall_isSpanChar (P := fun c => isReferenceSeparator c = false) (by decide +kernel) h

theorem isReferenceSeparator_of_isJoint {c : Char} (h : isJoint c = true) :
    isReferenceSeparator c = true := by
  rw [isJoint] at h
  rw [isReferenceSeparator, h, Bool.true_or]

namespace IsPlain

theorem of_mem (h : IsPlain Char.isUpper n) {c : Char} (hc : c ∈ n) :
    isSpanChar c = true ∨ isJoint c = true := by
  obtain ⟨rfl, -, hls, hgap, -, hds⟩ := h
  rcases List.mem_append.1 hc with hc | hc
  · exact (List.mem_append.1 hc).imp (fun hc => isSpanChar_of_isUpper (hls c hc)) (hgap c)
  · exact .inl (isSpanChar_of_isDigit (hds c hc))

theorem head (h : IsPlain Char.isUpper n) : ∃ c ∈ n.head?, c.isUpper = true := by
  obtain ⟨rfl, hne, hls, -, -, -⟩ := h
  obtain ⟨c, ls, rfl⟩ := List.exists_cons_of_ne_nil hne
  exact ⟨c, rfl, hls c List.mem_cons_self⟩

theorem exists_digit (h : IsPlain Char.isUpper n) : ∃ c ∈ n, c.isDigit = true := by
  obtain ⟨rfl, -, -, -, hne, hds⟩ := h
  obtain ⟨c, ds, rfl⟩ := List.exists_cons_of_ne_nil hne
  exact ⟨c, by simp, hds c List.mem_cons_self⟩

theorem letters_first (h : IsPlain Char.isUpper n) :
    n.Pairwise fun a b => b.isUpper = true → a.isUpper = true := by
  obtain @⟨ls, gap, ds, rfl, -, hls, hgap, -, hds⟩ := h
  have hrest : ∀ b ∈ gap ++ ds, ¬ b.isUpper = true := by
    intro b hb hupper
    rcases List.mem_append.1 hb with hb | hb
    · simp [(isUpper_isDigit_of_isJoint (hgap b hb)).1] at hupper
    · simp [isUpper_eq_false_of_isDigit (hds b hb)] at hupper
  rw [List.append_assoc, List.pairwise_append]
  refine ⟨List.pairwise_of_forall_mem_list fun a ha _ _ _ => hls a ha,
    List.pairwise_of_forall_mem_list fun _ _ b hb hupper => absurd hupper (hrest b hb),
    fun _ _ b hb hupper => absurd hupper (hrest b hb)⟩

theorem digits_last (h : IsPlain Char.isUpper n) :
    n.Pairwise fun a b => a.isDigit = true → b.isDigit = true := by
  obtain @⟨ls, gap, ds, rfl, -, hls, hgap, -, hds⟩ := h
  have hfront : ∀ a ∈ ls ++ gap, ¬ a.isDigit = true := by
    intro a ha hdigit
    rcases List.mem_append.1 ha with ha | ha
    · have hupper := hls a ha
      simp [isUpper_eq_false_of_isDigit hdigit] at hupper
    · simp [(isUpper_isDigit_of_isJoint (hgap a ha)).2] at hdigit
  rw [List.pairwise_append]
  refine ⟨List.pairwise_of_forall_mem_list fun a ha _ _ hdigit => absurd hdigit (hfront a ha),
    List.pairwise_of_forall_mem_list fun _ _ b hb _ => hds b hb,
    fun _ _ b hb _ => hds b hb⟩

/-- A stretch that starts with a letter and not within a run starts where the number starts. -/
theorem before_eq_nil (h : IsPlain Char.isUpper (before ++ r))
    (hr : ∃ c ∈ r.head?, c.isUpper = true)
    (hbefore : ∀ c ∈ before.getLast?, isSpanChar c = false) : before = [] := by
  obtain ⟨c, hc, hupper⟩ := hr
  refine (List.eq_nil_or_concat before).resolve_right ?_
  rintro ⟨b, a, rfl⟩
  have hfirst := (List.pairwise_append.1 h.letters_first).2.2 a (by simp) c
    (List.mem_of_mem_head? hc) hupper
  have hspan := hbefore a (by simp)
  rw [isSpanChar_of_isUpper hfirst] at hspan
  cases hspan

theorem after_eq_nil (h : IsPlain Char.isUpper (r ++ after))
    (hr : ∃ c ∈ r.getLast?, c.isDigit = true)
    (hafter : ∀ c ∈ after.head?, isSpanChar c = false) : after = [] := by
  obtain ⟨c, hc, hdigit⟩ := hr
  cases after with
  | nil => rfl
  | cons a after =>
    have hlast := (List.pairwise_append.1 h.digits_last).2.2 c (List.mem_of_getLast? hc) a
      List.mem_cons_self hdigit
    have hspan := hafter a rfl
    rw [isSpanChar_of_isDigit hlast] at hspan
    cases hspan

end IsPlain

/-- What follows a number in a text of numbers, nothing or lines of which the first starts with a
letter. -/
inductive Follows (ns : List (List Char)) : List Char → Prop
  | nothing : Follows ns []
  | lines {c : Char} : c ∈ (['\n'].intercalate ns).head? → c.isUpper = true →
      Follows ns ('\n' :: ['\n'].intercalate ns)

theorem exists_follows (hns : ∀ n ∈ ns, IsPlain Char.isUpper n) :
    ∃ rest, ['\n'].intercalate (n :: ns) = n ++ rest ∧ Follows ns rest := by
  cases ns with
  | nil => exact ⟨[], by simp, .nothing⟩
  | cons n' ns =>
    obtain ⟨c, hc, hupper⟩ := (hns n' List.mem_cons_self).head
    refine ⟨_, ?_, .lines (c := c) ?_ hupper⟩
    · rw [List.intercalate_cons_cons, List.append_assoc, List.singleton_append]
    · cases ns with
      | nil => rwa [List.intercalate_singleton]
      | cons n'' ns =>
        rw [List.intercalate_cons_cons, List.append_assoc, List.head?_append, Option.mem_def.1 hc]
        rfl

theorem Follows.isUpper_eq_false_of_head {rest : List Char} (h : Follows ns rest) :
    ∀ c ∈ rest.head?, c.isUpper = false := by
  cases h with
  | nothing => simp
  | lines =>
    rintro _ ⟨⟩
    decide

theorem LooksPlain.head_append (hr : LooksPlain r) (after : List Char) :
    ∃ c ∈ (r ++ after).head?, c.isUpper = true := by
  obtain ⟨c, hc, hupper⟩ := hr.head
  refine ⟨c, ?_, hupper⟩
  rw [List.head?_append, Option.mem_def.1 hc]
  rfl

theorem eq_of_looksPlain (hn : IsPlain Char.isUpper n) {rest : List Char} (hrest : Follows ns rest)
    (hr : LooksPlain r) (heq : n ++ rest = r ++ after)
    (hafter : ∀ c ∈ after.head?, isSpanChar c = false) : r = n := by
  rcases List.append_eq_append_iff.1 heq with ⟨x, rfl, hx⟩ | ⟨x, rfl, rfl⟩
  · cases hrest with
    | nothing => rw [(List.append_eq_nil_iff.1 hx.symm).1, List.append_nil]
    | @lines c hc hupper =>
      cases x with
      | nil => rw [List.append_nil]
      | cons b x =>
        -- the stretch goes on into the next line: it ends there, or a letter follows a digit
        obtain ⟨rfl, hnext⟩ := List.cons.inj hx
        exfalso
        cases x with
        | nil =>
          obtain ⟨d, hd, hdigit⟩ := hr.last
          rw [List.getLast?_concat, Option.mem_some_iff] at hd
          rw [← hd] at hdigit
          exact absurd hdigit (by decide)
        | cons e x =>
          rw [hnext] at hc
          obtain rfl : e = c := Option.some.inj hc
          obtain ⟨d, hd, hdigit⟩ := hn.exists_digit
          have hlower := (List.pairwise_append.1 hr.ordered).2.2 d hd e (by simp) hdigit
          rw [hupper] at hlower
          cases hlower
  · have hnil := hn.after_eq_nil hr.last fun c hc => hafter c <| by
      rw [List.head?_append, Option.mem_def.1 hc]
      rfl
    rw [hnil, List.append_nil]

/-- A stretch of whole runs that looks plain is one of the numbers. -/
theorem mem_of_looksPlain (hns : ∀ n ∈ ns, IsPlain Char.isUpper n)
    (heq : ['\n'].intercalate ns = before ++ r ++ after) (hr : LooksPlain r)
    (hbefore : ∀ c ∈ before.getLast?, isSpanChar c = false)
    (hafter : ∀ c ∈ after.head?, isSpanChar c = false) : r ∈ ns := by
  obtain ⟨c, hc, hupper⟩ := hr.head_append after
  induction ns generalizing before with
  | nil =>
    rw [List.append_assoc] at heq
    rw [(List.append_eq_nil_iff.1 heq.symm).2] at hc
    cases hc
  | cons n ns ih =>
    obtain ⟨hn, hns⟩ := List.forall_mem_cons.1 hns
    obtain ⟨rest, htext, hrest⟩ := exists_follows (n := n) hns
    have hnext : ¬ rest = r ++ after := by
      rintro rfl
      have hlower := hrest.isUpper_eq_false_of_head c hc
      rw [hupper] at hlower
      cases hlower
    rw [htext, List.append_assoc] at heq
    rcases List.append_eq_append_iff.1 heq with ⟨x, rfl, hx⟩ | ⟨x, rfl, hx⟩
    · cases x with
      | nil => exact absurd hx hnext
      | cons b x =>
        cases hrest with
        | nothing => cases hx
        | lines =>
          obtain ⟨rfl, hnext⟩ := List.cons.inj hx
          have hlater : ['\n'].intercalate ns = x ++ r ++ after := by
            rw [List.append_assoc]
            exact hnext
          refine List.mem_cons_of_mem n (ih hns hlater fun c hc => hbefore c ?_)
          rw [List.getLast?_append, List.getLast?_cons, Option.mem_def.1 hc]
          rfl
    · cases x with
      | nil => exact absurd hx.symm hnext
      | cons b x =>
        rw [hx] at hc
        obtain rfl := hn.before_eq_nil ⟨c, hc, hupper⟩ hbefore
        exact List.mem_cons.2 (.inl (eq_of_looksPlain hn hrest hr hx.symm hafter))

theorem upper_of_spans (h : ∀ c ∈ s, isSpanChar c = true ∨ isJoint c = true) :
    upper s = s ∧ referenceChars s = s.filter isSpanChar := by
  have hupper : upper s = s := upper_of_isUpper fun c hc =>
    (h c hc).elim isUpper_of_isSpanChar fun hjoint => (isUpper_of_isJoint hjoint).1
  refine ⟨hupper, ?_⟩
  rw [referenceChars, hupper]
  refine List.filter_congr fun c hc => ?_
  rcases h c hc with hspan | hjoint
  · rw [hspan, isReferenceSeparator_of_isSpanChar hspan, Bool.not_false]
  · rw [isSpanChar_eq_false_of_isJoint hjoint, isReferenceSeparator_of_isJoint hjoint,
      Bool.not_true]

theorem isAsciiAlphanumeric_of_isAlpha {c : Char} (h : c.isAlpha = true) :
    isAsciiAlphanumeric c = true := by
  rw [isAsciiAlphanumeric, Char.isAlphanum, h, Bool.true_or]

theorem isUpper_asciiUpper_of_isAlpha {c : Char} (h : c.isAlpha = true) :
    (asciiUpper c).isUpper = true := by
  refine forall_ascii (P := fun c => c.isAlpha = true → (asciiUpper c).isUpper = true) ?_
    (lt_of_isAsciiAlphanumeric (isAsciiAlphanumeric_of_isAlpha h)) h
  decide +kernel

theorem IsPlain.upper (h : IsPlain Char.isAlpha n) : IsPlain Char.isUpper (upper n) := by
  obtain @⟨ls, gap, ds, rfl, hne, hls, hgap, hneDigits, hds⟩ := h
  have hletters : Text.upper ls = ls.map asciiUpper := upper_eq_map fun c hc =>
    upperChar_of_ascii (lt_of_isAsciiAlphanumeric (isAsciiAlphanumeric_of_isAlpha (hls c hc)))
  have hjoints : Text.upper gap = gap :=
    (upper_of_spans fun c hc => .inr (hgap c hc)).1
  have hdigits : Text.upper ds = ds :=
    (upper_of_spans fun c hc => .inl (isSpanChar_of_isDigit (hds c hc))).1
  have hupper : Text.upper (ls ++ gap ++ ds) = ls.map asciiUpper ++ gap ++ ds := by
    rw [upper_append, upper_append, hletters, hjoints, hdigits]
  exact .intro hupper (by simpa using hne)
    (List.forall_mem_map.2 fun c hc => isUpper_asciiUpper_of_isAlpha (hls c hc)) hgap hneDigits hds

theorem IsPlain.referenceChars_upper (h : IsPlain Char.isAlpha n) :
    referenceChars (Text.upper n) = referenceChars n := by
  rw [referenceChars, (upper_of_spans fun c hc => h.upper.of_mem hc).1, referenceChars]

theorem IsPlain.splits {number : String} (h : IsPlain Char.isAlpha number.toList) :
    ∃ letters tail, letters ≠ "" ∧ Splits (referenceForm number) letters tail := by
  have hform : (referenceForm number).toList = (Text.upper number.toList).filter isSpanChar := by
    rw [toList_referenceForm, ← h.referenceChars_upper,
      (upper_of_spans fun c hc => h.upper.of_mem hc).2]
  obtain @⟨ls, gap, ds, heq, hne, hls, hgap, hneDigits, hds⟩ := h.upper
  refine ⟨String.ofList ls, String.ofList ds, by simpa using hne, ?_, by simpa using hls,
    by simpa using hneDigits, by simpa using hds⟩
  rw [← String.toList_inj, hform, heq, String.toList_append, String.toList_ofList,
    String.toList_ofList, List.filter_append, List.filter_append,
    List.filter_eq_self.2 fun c hc => isSpanChar_of_isUpper (hls c hc),
    List.filter_eq_self.2 fun c hc => isSpanChar_of_isDigit (hds c hc),
    List.filter_eq_nil_iff.2 fun c hc => ?_, List.append_nil]
  rw [isSpanChar_eq_false_of_isJoint (hgap c hc)]
  exact Bool.false_ne_true

/-- A stretch of whole runs looks plain if its form is of the usual form and has letters. -/
theorem looksPlain_of_splits {count : Nat} {letters tail : String}
    (hjoined : Joined isSpanChar (!isSpanChar ·) count s)
    (hs : ∀ c ∈ s, isSpanChar c = true ∨ isJoint c = true) (hne : letters ≠ "")
    (h : Splits (referenceForm (String.ofList s)) letters tail) : LooksPlain s := by
  have hform : s.filter isSpanChar = letters.toList ++ tail.toList := by
    rw [← (upper_of_spans hs).2, ← String.toList_append, ← h.eq_append, toList_referenceForm,
      String.toList_ofList]
  refine ⟨?_, ?_, ?_⟩
  · obtain ⟨c, hc, hspan⟩ := hjoined.exists_head
    have hfirst : c ∈ (s.filter isSpanChar).head? := by
      rw [List.eq_cons_of_mem_head? hc, List.filter_cons_of_pos hspan]
      rfl
    rw [hform, List.head?_append_of_ne_nil _ (by simpa using hne)] at hfirst
    exact ⟨c, hc, h.letters c (List.mem_of_mem_head? hfirst)⟩
  · obtain ⟨c, hc, hspan⟩ := hjoined.exists_last
    obtain ⟨front, rfl⟩ := List.getLast?_eq_some_iff.1 hc
    have hlast : c ∈ ((front ++ [c]).filter isSpanChar).getLast? := by
      rw [List.filter_append, List.filter_cons_of_pos hspan, List.filter_nil, List.getLast?_concat]
      rfl
    rw [hform, List.getLast?_append_of_ne_nil _ (by simpa using h.ne)] at hlast
    exact ⟨c, hc, h.digits c (List.mem_of_getLast? hlast)⟩
  · have hordered : (s.filter isSpanChar).Pairwise fun a b =>
        a.isDigit = true → b.isUpper = false := by
      rw [hform, List.pairwise_append]
      refine ⟨List.pairwise_of_forall_mem_list fun a ha _ _ hdigit => ?_,
        List.pairwise_of_forall_mem_list fun _ _ b hb _ =>
          isUpper_eq_false_of_isDigit (h.digits b hb),
        fun _ _ b hb _ => isUpper_eq_false_of_isDigit (h.digits b hb)⟩
      have hupper := h.letters a ha
      rw [isUpper_eq_false_of_isDigit hdigit] at hupper
      cases hupper
    refine (List.pairwise_filter.1 hordered).imp fun {a b} hab hdigit => ?_
    cases hupper : b.isUpper with
    | false => rfl
    | true =>
      have hlower := hab (isSpanChar_of_isDigit hdigit) (isSpanChar_of_isUpper hupper) hdigit
      rwa [hupper] at hlower

end Payables.Family
