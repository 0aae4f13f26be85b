import Payables.Proofs.Classification.Buckets
import Payables.Proofs.Line.Same

/-!
# The order of columns

The debit of a line is that of every line that is the same but for the order of its columns. So is
its credit, unless it hangs on a single cell whose header tells debits and credits: where that cell
comes before the other cells with debits it is taken for the debit, and for the credit where it
comes after one of them (`DependsOnOrder`). For such lines, and no others, the classification
depends on the order of the columns (`classify_same_iff`).
-/

namespace Payables

namespace Side

variable {side : Side} {a b : Amount}

theorem countsAsDebit_congr (h : a.value = b.value) :
    side.CountsAsDebit a ↔ side.CountsAsDebit b := by
  rw [CountsAsDebit, CountsAsDebit, ne_eq, ne_eq, ← Amount.value_eq_zero_iff,
    ← Amount.value_pos_iff, h, Amount.value_eq_zero_iff, Amount.value_pos_iff]

theorem countsAsCredit_congr (h : a.value = b.value) :
    side.CountsAsCredit a ↔ side.CountsAsCredit b := by
  rw [CountsAsCredit, CountsAsCredit, ne_eq, ne_eq, ← Amount.value_eq_zero_iff,
    ← Amount.value_neg_iff, h, Amount.value_eq_zero_iff, Amount.value_neg_iff]

end Side

namespace Classifier

def ShowsDebit (c : Classifier) (l : Line) : Prop :=
  ∃ e ∈ l.amounts.entries, (c.sideOf e.1).CountsAsDebit e.2

def ShowsCredit (c : Classifier) (l : Line) : Prop :=
  ∃ e ∈ l.amounts.entries, (c.sideOf e.1).CountsAsCredit e.2

/-- The amounts of the line show neither side, and one cell alone can be a credit, which can be a
debit as well, but not the only one. -/
structure DependsOnOrder (c : Classifier) (l : Line) : Prop where
  no_debit : ¬ c.ShowsDebit l
  no_credit : ¬ c.ShowsCredit l
  cells : ∃ cell ∈ l.cells.entries, c.isCreditCell cell = true ∧ c.isDebitCell cell = true ∧
    (∀ other ∈ l.cells.entries, c.isCreditCell other = true → other = cell) ∧
    ∃ other ∈ l.cells.entries, other ≠ cell ∧ c.isDebitCell other = true

/-- The line has a credit in whatever order its cells stand. -/
def HasSureCredit (c : Classifier) (l : Line) : Prop :=
  c.ShowsCredit l ∨ ∃ cell ∈ l.cells.entries, c.isCreditCell cell = true ∧
    (c.isDebitCell cell = true → c.ShowsDebit l ∨
      ∃ other ∈ l.cells.entries, other ≠ cell ∧ c.isCreditCell other = true)

end Classifier

namespace Line.Same

variable {c : Classifier} {l l' : Line}

theorem showsDebit (h : l.Same l') (hl : c.ShowsDebit l) : c.ShowsDebit l' :=
  h.exists_amount (P := fun label => (c.sideOf label).CountsAsDebit)
    (fun _ _ _ => Side.countsAsDebit_congr) hl

theorem showsCredit (h : l.Same l') (hl : c.ShowsCredit l) : c.ShowsCredit l' :=
  h.exists_amount (P := fun label => (c.sideOf label).CountsAsCredit)
    (fun _ _ _ => Side.countsAsCredit_congr) hl

theorem hasSureCredit (h : l.Same l') (hl : c.HasSureCredit l) : c.HasSureCredit l' := by
  refine hl.imp h.showsCredit ?_
  rintro ⟨cell, hcell, hcredit, hsure⟩
  refine ⟨cell, h.mem_cells_iff.1 hcell, hcredit, fun hdebit => (hsure hdebit).imp h.showsDebit ?_⟩
  rintro ⟨other, hother, hrest⟩
  exact ⟨other, h.mem_cells_iff.1 hother, hrest⟩

theorem dependsOnOrder (h : l.Same l') (hl : c.DependsOnOrder l) : c.DependsOnOrder l' := by
  obtain ⟨hdebit, hcredit, cell, hcell, hcell', hboth, halone, other, hother, hother'⟩ := hl
  refine ⟨fun h' => hdebit (h.symm.showsDebit h'), fun h' => hcredit (h.symm.showsCredit h'), cell,
    h.mem_cells_iff.1 hcell, hcell', hboth, fun x hx => halone x (h.mem_cells_iff.2 hx), other,
    h.mem_cells_iff.1 hother, hother'⟩

end Line.Same

namespace Classifier

variable {c : Classifier} {l l' : Line} {cell other : String × String}

theorem debit_same (h : l.Same l') (hl : (c.buckets l).debit = true) :
    (c.buckets l').debit = true := by
  rw [debit_buckets_iff] at hl ⊢
  refine hl.imp h.showsDebit ?_
  rintro ⟨cell, hcell, hdebit⟩
  exact ⟨cell, h.mem_cells_iff.1 hcell, hdebit⟩

theorem credit_of_hasSureCredit (h : c.HasSureCredit l) : (c.buckets l).credit = true := by
  rw [credit_buckets_iff]
  rcases h with hamount | ⟨cell, hcell, hcredit, hsure⟩
  · exact .inl hamount
  refine .inr ?_
  obtain ⟨earlier, later, heq⟩ := List.append_of_mem hcell
  by_cases hdebit : c.isDebitCell cell = true
  · rcases hsure hdebit with hamount | ⟨other, hother, hne, hother'⟩
    · exact ⟨earlier, cell, later, heq, hcredit, fun _ => .inl hamount⟩
    -- of two cells that can be credits the later one is
    rw [heq, List.mem_append, List.mem_cons, or_iff_right hne] at hother
    by_cases hodebit : c.isDebitCell other = true
    · rcases hother with hbefore | hafter
      · exact ⟨earlier, cell, later, heq, hcredit, fun _ => .inr ⟨other, hbefore, hodebit⟩⟩
      · obtain ⟨between, rest, rfl⟩ := List.append_of_mem hafter
        refine ⟨earlier ++ cell :: between, other, rest, by simp [heq], hother', fun _ => .inr ?_⟩
        exact ⟨cell, by simp, hdebit⟩
    · have hmem : other ∈ l.cells.entries := by
        rw [heq, List.mem_append, List.mem_cons]
        exact hother.imp_right .inr
      obtain ⟨earlier, later, heq⟩ := List.append_of_mem hmem
      exact ⟨earlier, other, later, heq, hother', fun h => absurd h hodebit⟩
  · exact ⟨earlier, cell, later, heq, hcredit, fun h => absurd h hdebit⟩

theorem hasSureCredit_of_credit (hl : (c.buckets l).credit = true) (h : ¬ c.DependsOnOrder l) :
    c.HasSureCredit l := by
  by_contra hnone
  rw [HasSureCredit, not_or] at hnone
  obtain ⟨hamount, hcells⟩ := hnone
  obtain ⟨earlier, cell, later, heq, hcredit, hbefore⟩ :=
    ((credit_buckets_iff c l).1 hl).resolve_left hamount
  have hcell : cell ∈ l.cells.entries := by simp [heq]
  have hunsure : ¬ (c.isDebitCell cell = true → c.ShowsDebit l ∨
      ∃ other ∈ l.cells.entries, other ≠ cell ∧ c.isCreditCell other = true) :=
    fun hsure => hcells ⟨cell, hcell, hcredit, hsure⟩
  rw [Classical.not_imp, not_or] at hunsure
  obtain ⟨hdebit, hnodebit, hnoother⟩ := hunsure
  obtain ⟨first, hfirst, hfirst'⟩ := (hbefore hdebit).resolve_left hnodebit
  refine h ⟨hnodebit, hamount, cell, hcell, hcredit, hdebit, fun other hother hother' => ?_,
    first, ?_, ?_, hfirst'⟩
  · by_contra hne
    exact hnoother ⟨other, hother, hne, hother'⟩
  · rw [heq]
    exact List.mem_append_left _ hfirst
  · rintro rfl
    have hnodup := l.cells.nodup.of_map
    rw [heq, List.nodup_append] at hnodup
    exact hnodup.2.2 first hfirst first List.mem_cons_self rfl

theorem buckets_same (h : l.Same l') (hl : ¬ c.DependsOnOrder l) :
    c.buckets l' = c.buckets l := by
  have hl' : ¬ c.DependsOnOrder l' := fun hl' => hl (h.symm.dependsOnOrder hl')
  have hdebit : (c.buckets l').debit = (c.buckets l).debit :=
    Bool.eq_iff_iff.2 ⟨debit_same h.symm, debit_same h⟩
  have hcredit : (c.buckets l').credit = (c.buckets l).credit :=
    Bool.eq_iff_iff.2
      ⟨fun hc => credit_of_hasSureCredit (h.symm.hasSureCredit (hasSureCredit_of_credit hc hl')),
        fun hc => credit_of_hasSureCredit (h.hasSureCredit (hasSureCredit_of_credit hc hl))⟩
  exact Buckets.ext hdebit hcredit

theorem classify_congr (hbuckets : c.buckets l' = c.buckets l) (hnumber : l'.number = l.number)
    (hreference : l'.reference = l.reference) : c.classify l' = c.classify l := by
  rw [classify, classify, hbuckets, hnumber, hreference]

end Classifier

def Line.withFirst (l : Line) {cell : String × String} (h : cell ∈ l.cells.entries) : Line :=
  { l with
    cells.entries := cell :: l.cells.entries.erase cell
    cells.nodup := ((List.perm_cons_erase h).map Prod.fst).nodup l.cells.nodup }

theorem Line.same_withFirst (l : Line) {cell : String × String} (h : cell ∈ l.cells.entries) :
    l.Same (l.withFirst h) :=
  .of_perm (List.perm_cons_erase h)

namespace Classifier

variable {c : Classifier} {l : Line} {cell other : String × String}

/-- The only cell that can be a credit is none in front, if it can be a debit. -/
theorem credit_withFirst_eq_false (hl : c.DependsOnOrder l) (h : cell ∈ l.cells.entries)
    (hdebit : c.isDebitCell cell = true)
    (halone : ∀ other ∈ l.cells.entries, c.isCreditCell other = true → other = cell) :
    (c.buckets (l.withFirst h)).credit = false := by
  rw [← Bool.not_eq_true, credit_buckets_iff, not_or]
  refine ⟨hl.no_credit, ?_⟩
  rintro ⟨earlier, x, later, heq, hx, hbefore⟩
  have hperm : (cell :: l.cells.entries.erase cell).Perm l.cells.entries :=
    (List.perm_cons_erase h).symm
  change cell :: l.cells.entries.erase cell = earlier ++ x :: later at heq
  obtain rfl : x = cell := halone x (hperm.subset (by simp [heq])) hx
  obtain ⟨first, hfirst, -⟩ := (hbefore hdebit).resolve_left hl.no_debit
  cases earlier with
  | nil => cases hfirst
  | cons y ys =>
    rw [List.cons_append] at heq
    obtain ⟨-, hrest⟩ := List.cons.inj heq
    refine l.cells.nodup.of_map.not_mem_erase (a := x) ?_
    rw [hrest]
    exact List.mem_append_right ys List.mem_cons_self

theorem credit_withFirst_eq_true (h : other ∈ l.cells.entries) (hother : c.isDebitCell other = true)
    (hcell : cell ∈ l.cells.entries) (hne : other ≠ cell) (hcredit : c.isCreditCell cell = true) :
    (c.buckets (l.withFirst h)).credit = true := by
  rw [credit_buckets_iff]
  obtain ⟨between, later, heq⟩ := List.append_of_mem ((List.mem_erase_of_ne hne.symm).2 hcell)
  refine .inr ⟨other :: between, cell, later, ?_, hcredit, fun _ => .inr ?_⟩
  · exact congrArg (other :: ·) heq
  · exact ⟨other, List.mem_cons_self, hother⟩

theorem exists_same_buckets_ne (hl : c.DependsOnOrder l) :
    ∃ l', l.Same l' ∧ c.buckets l' ≠ c.buckets l := by
  obtain ⟨cell, hcell, hcredit, hdebit, halone, other, hother, hne, hother'⟩ := hl.cells
  have hbehind := credit_withFirst_eq_true hother hother' hcell hne hcredit
  have hfront := credit_withFirst_eq_false hl hcell hdebit halone
  cases h : (c.buckets l).credit with
  | true =>
    refine ⟨l.withFirst hcell, l.same_withFirst hcell, fun heq => ?_⟩
    rw [heq, h] at hfront
    cases hfront
  | false =>
    refine ⟨l.withFirst hother, l.same_withFirst hother, fun heq => ?_⟩
    rw [heq, h] at hbehind
    cases hbehind

/-- Lines that are the same have the same debit, and they have the same sides and the same
classification just if these do not depend on the order of the cells. -/
theorem classify_same_iff (c : Classifier) (l : Line) :
    (∀ l', l.Same l' → (c.buckets l').debit = (c.buckets l).debit) ∧
      ((∀ l', l.Same l' → c.buckets l' = c.buckets l ∧ c.classify l' = c.classify l) ↔
        ¬ c.DependsOnOrder l) := by
  refine ⟨fun l' h => Bool.eq_iff_iff.2 ⟨debit_same h.symm, debit_same h⟩, fun hsame hl => ?_,
    fun hl l' h => ?_⟩
  · obtain ⟨l', h, hne⟩ := exists_same_buckets_ne hl
    exact hne (hsame l' h).1
  · have hbuckets := buckets_same h hl
    exact ⟨hbuckets, classify_congr hbuckets h.number_eq h.reference_eq⟩

def twoSidedLine (cells : Labelled String) : Line :=
  { Line.ofOrdinal "2024-03" 1 with number := "Payment 7", cells }

/-- The same line is an invoice or a payment by the order of its columns. -/
theorem classify_twoSided :
    let c : Classifier := .ofLayout { dateFormat? := some "DD/MM/YYYY", number? := some "No" } {}
    let l := twoSidedLine (.ofList [("DR/CR", "10"), ("Debit", "5")])
    let l' := twoSidedLine (.ofList [("Debit", "5"), ("DR/CR", "10")])
    l.Same l' ∧ c.buckets l ≠ c.buckets l' ∧ (c.classify l).kind = .invoice ∧
      (c.classify l').kind = .payment := by
  intro c l l'
  have hperm : l.cells.entries.Perm l'.cells.entries := by decide +kernel
  exact ⟨.of_perm hperm, by decide +kernel, by decide +kernel, by decide +kernel⟩

end Classifier

end Payables
