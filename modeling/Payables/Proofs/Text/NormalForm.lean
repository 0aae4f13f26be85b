import Payables.Proofs.Text.HeaderForm

/-!
# Normal forms of normal forms

Lower case makes nothing that has a lower case of its own, and no white space (`unmadeRanges`). So
the lower case of a text is its own lower case (`lower_lower`), words in lower case are words, and a
normal form of a header is its own normal form (`headerForm_headerForm`).
-/

namespace Payables.Text

variable {c d : Char} {s before : List Char} {ws : List (List Char)}

/-- The counterparts of a range are no codes of another one: they lie below it or above it, or both
ranges go in steps of two and the codes differ in their parity. -/
def CaseRange.misses (r s : CaseRange) : Bool :=
  Nat.blt (r.move r.last) s.first || Nat.blt s.last (r.move r.first) ||
    ((r.step == 2 || r.first == r.last) && s.step == 2 && r.move r.first % 2 != s.first % 2)

theorem CaseRange.covers_move_of_misses {r s : CaseRange} {n : Nat} (h : r.misses s = true)
    (hcovers : r.covers n = true) (hpos : 0 ≤ (r.first : Int) + r.shift) :
    s.covers (r.move n) = false := by
  by_contra hmade
  rw [Bool.not_eq_false] at hmade
  simp only [covers, Bool.and_eq_true, decide_eq_true_eq, beq_iff_eq] at hcovers hmade
  simp only [misses, Bool.or_eq_true, Bool.and_eq_true, Nat.blt_eq, beq_iff_eq, bne_iff_ne,
    ne_eq] at h
  obtain ⟨⟨hfirst, hlast⟩, hstep⟩ := hcovers
  obtain ⟨⟨hfirst', hlast'⟩, hstep'⟩ := hmade
  unfold move at *
  rcases h with (hbelow | habove) | ⟨⟨hsteps, htwo⟩, hparity⟩
  · omega
  · omega
  · rw [htwo] at hstep'
    rcases hsteps with hsteps | hone
    · rw [hsteps] at hstep
      omega
    · omega

/-- The capitals, the capital I with a dot, and white space. -/
def unmadeRanges : List CaseRange :=
  lowerRanges ++ (0x130 :: blankCodes).map fun n => ⟨n, n, 1, 0⟩

theorem misses_unmadeRanges : ∀ r ∈ lowerRanges, unmadeRanges.all r.misses = true := by
  decide +kernel

theorem covers_move_eq_false {r : CaseRange} {n : Nat} (hr : r ∈ lowerRanges)
    (hcovers : r.covers n = true) {s : CaseRange} (hs : s ∈ unmadeRanges) :
    s.covers (r.move n) = false := by
  apply CaseRange.covers_move_of_misses _ hcovers
  · rcases lowerRanges_above r hr with rfl | habove
    · decide
    · omega
  · exact List.all_eq_true.1 (misses_unmadeRanges r hr) s hs

theorem move_ne {r : CaseRange} {n m : Nat} (hr : r ∈ lowerRanges) (hcovers : r.covers n = true)
    (hm : m ∈ 0x130 :: blankCodes) : r.move n ≠ m := by
  rintro rfl
  have hs : (⟨r.move n, r.move n, 1, 0⟩ : CaseRange) ∈ unmadeRanges :=
    List.mem_append_right _ (List.mem_map_of_mem hm)
  have hnot := covers_move_eq_false hr hcovers hs
  simp [CaseRange.covers] at hnot

theorem mapCode_of_not_covers {n : Nat} (h : ∀ r ∈ lowerRanges, r.covers n = false) :
    mapCode lowerRanges n = n := by
  have hnone : lowerRanges.find? (·.covers n) = none := by
    apply List.find?_eq_none.2
    intro r hr
    simp [h r hr]
  rw [mapCode, hnone]

theorem isLower_of_mapCode_eq (h : mapCode lowerRanges c.toNat = c.toNat) (hc : c ≠ 'İ') :
    IsLower c := by
  constructor
  · rintro rfl
    exact absurd h (by decide +kernel)
  · rw [lowerChar, if_neg hc, h, Char.ofNat_toNat]

/-- What is put in for `İ` and for `Σ`, and the character in the place of codes that are none. -/
def ownForms : List Char := ['i', Char.ofNat 0x307, 'ς', 'σ', Char.ofNat 0]

theorem isLower_of_mem_ownForms (h : d ∈ ownForms) : IsLower d ∧ isBlank d = false := by
  -- as a test of the list, so that the statement is not decided for every character
  have hforms : ownForms.all (fun d => lowerRanges.all (fun r => !r.covers d.toNat) &&
      d != 'İ' && !isBlank d) = true := by
    decide +kernel
  have hform := List.all_eq_true.1 hforms d h
  simp only [Bool.and_eq_true, List.all_eq_true, Bool.not_eq_true', bne_iff_ne, ne_eq] at hform
  obtain ⟨⟨hcovers, hdot⟩, hblank⟩ := hform
  exact ⟨isLower_of_mapCode_eq (mapCode_of_not_covers hcovers) hdot, hblank⟩

/-- The character is its own lower case, and white space only in the place of white space. -/
def IsMadeOf (c d : Char) : Prop := IsLower d ∧ (isBlank d = true → isBlank c = true)

theorem isMadeOf_of_mem_ownForms (h : d ∈ ownForms) : IsMadeOf c d := by
  obtain ⟨hlower, hnot⟩ := isLower_of_mem_ownForms h
  refine ⟨hlower, fun hblank => ?_⟩
  rw [hnot] at hblank
  cases hblank

theorem isMadeOf_move {r : CaseRange} (hr : r ∈ lowerRanges) (hcovers : r.covers c.toNat = true) :
    IsMadeOf c (Char.ofNat (r.move c.toNat)) := by
  by_cases hpos : 0 < (Char.ofNat (r.move c.toNat)).toNat
  · have hcode := toNat_ofNat_of_pos hpos
    constructor
    · apply isLower_of_mapCode_eq
      · rw [hcode]
        apply mapCode_of_not_covers
        intro s hs
        exact covers_move_eq_false hr hcovers (List.mem_append_left _ hs)
      · intro heq
        apply move_ne hr hcovers List.mem_cons_self
        rw [← hcode, heq]
        rfl
    · intro hblank
      have hmem := toNat_mem_blankCodes hblank
      rw [hcode] at hmem
      exact absurd rfl (move_ne hr hcovers (List.mem_cons_of_mem _ hmem))
  · -- a code that is no character gives the null character
    have hzero : Char.ofNat (r.move c.toNat) = Char.ofNat 0 := by
      rw [← Char.ofNat_toNat (Char.ofNat (r.move c.toNat)), Nat.eq_zero_of_not_pos hpos]
    rw [hzero]
    exact isMadeOf_of_mem_ownForms (by decide)

theorem isMadeOf_of_mem_lowerChar (h : d ∈ lowerChar c) : IsMadeOf c d := by
  unfold lowerChar at h
  split at h <;> rename_i hc
  · exact isMadeOf_of_mem_ownForms (List.mem_append_left ['ς', 'σ', Char.ofNat 0] h)
  · obtain rfl := List.mem_singleton.1 h
    rcases mapCode_cases lowerRanges c.toNat with ⟨r, hr, hcovers, hmove⟩ | hsame
    · rw [hmove]
      exact isMadeOf_move hr hcovers
    · rw [hsame, Char.ofNat_toNat]
      exact ⟨isLower_of_mapCode_eq hsame hc, id⟩

theorem exists_lowerAfter_cons (before : List Char) (c : Char) (s : List Char) :
    ∃ here, here ≠ [] ∧ (∀ d ∈ here, IsMadeOf c d) ∧
      lowerAfter before (c :: s) = here ++ lowerAfter (c :: before) s := by
  have hsigma (d : Char) (hd : d ∈ ownForms) : ∀ e ∈ [d], IsMadeOf c e := by
    intro e he
    obtain rfl := List.mem_singleton.1 he
    exact isMadeOf_of_mem_ownForms hd
  rw [lowerAfter]
  split
  · split
    · exact ⟨['ς'], List.cons_ne_nil _ _, hsigma 'ς' (by decide), rfl⟩
    · exact ⟨['σ'], List.cons_ne_nil _ _, hsigma 'σ' (by decide), rfl⟩
  · exact ⟨lowerChar c, lowerChar_ne_nil c, fun _ => isMadeOf_of_mem_lowerChar, rfl⟩

theorem isLower_of_mem_lowerAfter (h : d ∈ lowerAfter before s) : IsLower d := by
  induction s generalizing before with
  | nil => cases h
  | cons c s ih =>
    obtain ⟨here, -, hlower, heq⟩ := exists_lowerAfter_cons before c s
    rw [heq, List.mem_append] at h
    rcases h with hhere | hrest
    · exact (hlower d hhere).1
    · exact ih hrest

theorem lower_lower (s : List Char) : lower (lower s) = lower s :=
  lowerAfter_of_isLower (fun _ => isLower_of_mem_lowerAfter) []

def AreWords (ws : List (List Char)) : Prop := ∀ w ∈ ws, w ≠ [] ∧ ∀ c ∈ w, isBlank c = false

theorem areWords_words (s : List Char) : AreWords (words s) := by
  intro w hw
  constructor
  · exact ne_nil_of_mem_runs hw
  · simpa using (infix_of_mem_runs hw).2

theorem intercalate_space_cons {v w : List Char} :
    [' '].intercalate (v :: w :: ws) = v ++ ' ' :: [' '].intercalate (w :: ws) := by
  simp [List.intercalate]

theorem words_intercalate (h : AreWords ws) : words ([' '].intercalate ws) = ws := by
  induction ws with
  | nil => rfl
  | cons w ws ih =>
    obtain ⟨⟨hne, hw⟩, hws⟩ := List.forall_mem_cons.1 h
    have hrun : ∀ c ∈ w, (!isBlank c) = true := by simpa using hw
    cases ws with
    | nil => simp [List.intercalate, words, runs, split_of_forall hne hrun]
    | cons v ws =>
      rw [intercalate_space_cons, words, runs_append_cons hne hrun (by decide), ← words, ih hws]

theorem exists_lowerAfter_word {w : List Char} (hw : ∀ c ∈ w, isBlank c = false)
    (before rest : List Char) :
    ∃ w', (w ≠ [] → w' ≠ []) ∧ (∀ c ∈ w', isBlank c = false) ∧
      lowerAfter before (w ++ rest) = w' ++ lowerAfter (w.reverse ++ before) rest := by
  induction w generalizing before with
  | nil => exact ⟨[], id, List.forall_mem_nil _, rfl⟩
  | cons c w ih =>
    obtain ⟨hc, hw⟩ := List.forall_mem_cons.1 hw
    obtain ⟨here, hne, hhere, heq⟩ := exists_lowerAfter_cons before c (w ++ rest)
    obtain ⟨w', -, hw', hrest⟩ := ih hw (c :: before)
    refine ⟨here ++ w', fun _ => by simp [hne], ?_, ?_⟩
    · rw [List.forall_mem_append]
      constructor
      · intro d hd
        by_contra hblank
        rw [(hhere d hd).2 (by simpa using hblank)] at hc
        cases hc
      · exact hw'
    · rw [List.cons_append, heq, hrest]
      simp

/-- Words in lower case are words, as many as before. -/
theorem exists_lowerAfter_intercalate (h : AreWords ws) (before : List Char) :
    ∃ ws', AreWords ws' ∧ ws'.length = ws.length ∧
      lowerAfter before ([' '].intercalate ws) = [' '].intercalate ws' := by
  induction ws generalizing before with
  | nil => exact ⟨[], h, rfl, rfl⟩
  | cons w ws ih =>
    obtain ⟨⟨hne, hw⟩, hws⟩ := List.forall_mem_cons.1 h
    cases ws with
    | nil =>
      obtain ⟨w', hne', hw', heq⟩ := exists_lowerAfter_word hw before []
      refine ⟨[w'], List.forall_mem_singleton.2 ⟨hne' hne, hw'⟩, rfl, ?_⟩
      simpa [List.intercalate, lowerAfter] using heq
    | cons v ws =>
      obtain ⟨w', hne', hw', heq⟩ := exists_lowerAfter_word hw before
        (' ' :: [' '].intercalate (v :: ws))
      obtain ⟨ws', hws', hlength, hrest⟩ := ih hws (' ' :: (w.reverse ++ before))
      have hspace : IsLower ' ' := by decide +kernel
      obtain ⟨v', vs', rfl⟩ := List.exists_cons_of_length_pos (l := ws') (by simp [hlength])
      refine ⟨w' :: v' :: vs', ?_, by simpa using hlength, ?_⟩
      · exact List.forall_mem_cons.2 ⟨⟨hne' hne, hw'⟩, hws'⟩
      · rw [intercalate_space_cons, intercalate_space_cons, heq, lowerAfter, if_neg hspace.1,
          hspace.2, hrest, List.singleton_append]

theorem headerForm_headerForm (s : String) : headerForm (headerForm s) = headerForm s := by
  obtain ⟨ws, hws, -, heq⟩ := exists_lowerAfter_intercalate (areWords_words s.toList) []
  have hwords : words (lower ([' '].intercalate (words s.toList))) = ws := by
    rw [lower, heq, words_intercalate hws]
  rw [headerForm, headerForm, String.toList_ofList, hwords, ← heq, ← lower, lower_lower]

end Payables.Text
