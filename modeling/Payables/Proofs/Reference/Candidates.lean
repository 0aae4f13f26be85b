import Payables.Proofs.Text.ReferenceForm
import Payables.Proofs.Text.Runs
import Payables.Reference.Candidates

/-!
# What a text can be read as

The windows that are searched for members of a family are the stretches of the text in capitals
that consist of whole runs of letters and digits (`IsReading`). So a reference that is written with
blanks, dashes, underscores or slashes between its runs is read whatever stands around it, as long
as no letter or digit touches it (`isReading_of_joined`).
-/

namespace Payables.Family

open Text

/-- The text in capitals holds a stretch of at most `longest` whole runs without a hard separator,
and its normal form is `t`. -/
def IsReading (longest : Nat) (text t : String) : Prop :=
  ∃ n segment, n ≤ longest ∧ StandsIn isSpanChar n segment (upper text.toList) ∧
    (∀ c ∈ segment, isHardSeparator c = false) ∧ referenceForm (String.ofList segment) = t

theorem mem_windows_iff {longest : Nat} {ps w : List Piece} :
    w ∈ windows longest ps ↔ w <:+: ps ∧ w ≠ [] ∧ w.length ≤ longest := by
  induction ps with
  | nil =>
    simp only [windows, List.not_mem_nil, List.infix_nil, false_iff]
    rintro ⟨rfl, hne, -⟩
    exact hne rfl
  | cons p ps ih =>
    have hfirst : w ∈ (List.range ((p :: ps).take longest).length).map
        (fun n => (p :: ps).take (n + 1)) ↔ w <+: p :: ps ∧ w ≠ [] ∧ w.length ≤ longest := by
      rw [List.mem_map]
      constructor
      · rintro ⟨n, hn, rfl⟩
        rw [List.mem_range, List.length_take] at hn
        refine ⟨List.take_prefix _ _, by simp, ?_⟩
        rw [List.length_take]
        omega
      · rintro ⟨hstart, hne, hle⟩
        have hpos := List.length_pos_of_ne_nil hne
        have hlength := hstart.length_le
        refine ⟨w.length - 1, ?_, ?_⟩
        · rw [List.mem_range, List.length_take]
          omega
        · rw [Nat.sub_add_cancel hpos]
          exact (List.prefix_iff_eq_take.1 hstart).symm
    rw [windows, List.mem_append, hfirst, ih, List.infix_cons_iff, or_and_right]

theorem candidate?_eq_some_iff {w : List Piece} {t : String} :
    candidate? w = some t ↔ (∀ c ∈ joinPieces w, isHardSeparator c = false) ∧
      referenceForm (String.ofList (joinPieces w)) = t := by
  have hany : (joinPieces w).any isHardSeparator = false ↔
      ∀ c ∈ joinPieces w, isHardSeparator c = false := by simp
  rw [candidate?, ← hany]
  split <;> simp_all

theorem mem_candidates_iff {f : Family} {longest : Nat} {text t : String} :
    t ∈ f.candidates longest text ↔ f.fits t = true ∧ IsReading longest text t := by
  rw [candidates, Std.ExtTreeSet.mem_ofList, List.contains_iff_mem, List.mem_filter,
    List.mem_filterMap, and_comm]
  refine and_congr_right fun _ => ?_
  constructor
  · rintro ⟨w, hw, hform⟩
    obtain ⟨hwindow, hne, hle⟩ := mem_windows_iff.1 hw
    obtain ⟨hhard, hform⟩ := candidate?_eq_some_iff.1 hform
    exact ⟨w.length, joinPieces w, hle, exists_infix_iff.1 ⟨w, hwindow, hne, rfl, rfl⟩, hhard,
      hform⟩
  · rintro ⟨n, segment, hle, hstands, hhard, hform⟩
    obtain ⟨w, hwindow, hne, rfl, rfl⟩ := exists_infix_iff.2 hstands
    exact ⟨w, mem_windows_iff.2 ⟨hwindow, hne, hle⟩, candidate?_eq_some_iff.2 ⟨hhard, hform⟩⟩

/-- What may stand between the runs of a reference. -/
def isJoint (c : Char) : Bool := isBlank c || c == '-' || c == '_' || c == '/'

theorem isSpanChar_asciiUpper {c : Char} (h : isAsciiAlphanumeric c = true) :
    isSpanChar (asciiUpper c) = true := by
  refine forall_ascii (P := fun c => isAsciiAlphanumeric c = true →
    isSpanChar (asciiUpper c) = true) ?_ (lt_of_isAsciiAlphanumeric h) h
  decide +kernel

theorem isAsciiAlphanumeric_of_isSpanChar {c : Char} (h : isSpanChar c = true) :
    isAsciiAlphanumeric c = true := by
  have hkinds : isAsciiAlphanumeric c = (c.isUpper || c.isLower || c.isDigit) := rfl
  simp only [isSpanChar, Bool.or_eq_true] at h
  rcases h with h | h <;> simp [hkinds, h]

theorem isSpanChar_eq_false {c : Char} (h : isAsciiAlphanumeric c = false) :
    isSpanChar c = false := by
  cases hc : isSpanChar c with
  | false => rfl
  | true =>
    rw [isAsciiAlphanumeric_of_isSpanChar hc] at h
    cases h

theorem isHardSeparator_eq_false {c : Char} (h : isSpanChar c = true ∨ isJoint c = true) :
    isHardSeparator c = false := by
  cases hc : isHardSeparator c with
  | false => rfl
  | true =>
    rw [isHardSeparator, Bool.or_eq_true, beq_iff_eq, beq_iff_eq] at hc
    rcases hc with rfl | rfl
    · exact absurd h (by decide)
    · exact absurd h (by decide)

theorem isUpper_of_isJoint {c : Char} (h : isJoint c = true) :
    IsUpper c ∧ isAsciiAlphanumeric c = false := by
  rw [isJoint, Bool.or_eq_true, Bool.or_eq_true, Bool.or_eq_true, beq_iff_eq, beq_iff_eq,
    beq_iff_eq] at h
  rcases h with ((h | rfl) | rfl) | rfl
  · exact ⟨isUpper_of_isBlank h, (isCaseless_of_isBlank h).1⟩
  all_goals decide +kernel

variable {n : Nat} {r : List Char}

theorem upper_of_joined (h : Joined isAsciiAlphanumeric isJoint n r) :
    upper r = r.map asciiUpper ∧ upper (r.map asciiUpper) = r.map asciiUpper := by
  have hwritten : ∀ c ∈ r, upperChar c = [asciiUpper c] ∧ IsUpper (asciiUpper c) := by
    intro c hc
    rcases h.of_mem hc with hrun | hjoint
    · have hascii := lt_of_isAsciiAlphanumeric hrun
      exact ⟨upperChar_of_ascii hascii, isUpper_asciiUpper hascii⟩
    · obtain ⟨hupper, hnot⟩ := isUpper_of_isJoint hjoint
      rw [asciiUpper_eq_self hnot]
      exact ⟨hupper, hupper⟩
  exact ⟨upper_eq_map fun c hc => (hwritten c hc).1,
    upper_of_isUpper (List.forall_mem_map.2 fun c hc => (hwritten c hc).2)⟩

theorem joined_upper (h : Joined isAsciiAlphanumeric isJoint n r) :
    Joined isSpanChar isJoint n (upper r) := by
  rw [(upper_of_joined h).1]
  refine h.map (fun c hc => isSpanChar_asciiUpper hc) fun c hc => ?_
  rwa [asciiUpper_eq_self (isUpper_of_isJoint hc).2]

def IsBoundary (c : Char) : Prop := c.toNat < 128 ∧ isAsciiAlphanumeric c = false

instance (c : Char) : Decidable (IsBoundary c) := inferInstanceAs (Decidable (_ ∧ _))

theorem upperChar_of_isBoundary {c : Char} (h : IsBoundary c) :
    upperChar c = [c] ∧ isSpanChar c = false :=
  ⟨isUpper_of_ascii h.1 h.2, isSpanChar_eq_false h.2⟩

theorem isSpanChar_of_mem_getLast?_upper {s : List Char} (h : ∀ c ∈ s.getLast?, IsBoundary c) :
    ∀ c ∈ (upper s).getLast?, isSpanChar c = false := by
  rcases List.eq_nil_or_concat s with rfl | ⟨s, b, rfl⟩
  · simp [upper]
  · obtain ⟨hupper, hspan⟩ := upperChar_of_isBoundary (h b (by simp))
    simp [upper, hupper, hspan]

theorem isSpanChar_of_mem_head?_upper {s : List Char} (h : ∀ c ∈ s.head?, IsBoundary c) :
    ∀ c ∈ (upper s).head?, isSpanChar c = false := by
  cases s with
  | nil => simp [upper]
  | cons b s =>
    obtain ⟨hupper, hspan⟩ := upperChar_of_isBoundary (h b rfl)
    simp [upper, hupper, hspan]

/-- A reference is read wherever it is written, if no letter or digit touches it. -/
theorem isReading_of_joined {longest : Nat} {before after r : String}
    (h : Joined isAsciiAlphanumeric isJoint n r.toList) (hn : n ≤ longest)
    (hbefore : ∀ c ∈ before.toList.getLast?, IsBoundary c)
    (hafter : ∀ c ∈ after.toList.head?, IsBoundary c) :
    IsReading longest (before ++ r ++ after) (referenceForm r) := by
  have hjoined := joined_upper h
  obtain ⟨hmap, htwice⟩ := upper_of_joined h
  refine ⟨n, upper r.toList, hn, ⟨?_, upper before.toList, upper after.toList, ?_, ?_, ?_⟩, ?_, ?_⟩
  · refine hjoined.mono (fun _ hc => hc) fun c hc => ?_
    rw [isSpanChar_eq_false (isUpper_of_isJoint hc).2]
    rfl
  · rw [String.toList_append, String.toList_append, upper_append, upper_append]
  · exact isSpanChar_of_mem_getLast?_upper hbefore
  · exact isSpanChar_of_mem_head?_upper hafter
  · exact fun c hc => isHardSeparator_eq_false (hjoined.of_mem hc)
  · rw [← String.toList_inj, toList_referenceForm, toList_referenceForm, String.toList_ofList,
      referenceChars, referenceChars, hmap, htwice]

end Payables.Family
