import Payables.Classification

/-!
# The sides of a line

The debit of a line comes from an amount that counts as a debit or from a cell under a header that
is not configured and tells debits. The same holds of its credit, but a header that tells both is
taken for a debit as long as the line has none.
-/

namespace Payables

open Text

theorem foldl_iff_exists {α β : Type} {f : β → α → β} {Q : β → Prop} {P : α → Prop}
    (h : ∀ b a, Q (f b a) ↔ Q b ∨ P a) (as : List α) (b : β) :
    Q (as.foldl f b) ↔ Q b ∨ ∃ a ∈ as, P a := by
  induction as generalizing b with
  | nil => simp
  | cons a as ih => simp [ih, h, or_assoc]

namespace Side

/-- An amount other than zero of a column on the debit side, or a positive one of a signed
column. -/
def CountsAsDebit (side : Side) (a : Amount) : Prop :=
  a.unscaled ≠ 0 ∧ (side = .debit ∨ side = .signed ∧ 0 < a.unscaled)

/-- An amount other than zero of a column on the credit side, or a negative one of a signed
column. -/
def CountsAsCredit (side : Side) (a : Amount) : Prop :=
  a.unscaled ≠ 0 ∧ (side = .credit ∨ side = .signed ∧ a.unscaled < 0)

instance (side : Side) (a : Amount) : Decidable (side.CountsAsDebit a) :=
  inferInstanceAs (Decidable (_ ∧ _))

instance (side : Side) (a : Amount) : Decidable (side.CountsAsCredit a) :=
  inferInstanceAs (Decidable (_ ∧ _))

end Side

namespace Buckets

attribute [ext] Buckets

theorem debit_addAmount (b : Buckets) (side : Side) (a : Amount) :
    (b.addAmount side a).debit = true ↔ b.debit = true ∨ side.CountsAsDebit a := by
  by_cases hzero : a.unscaled = 0
  · simp [addAmount, Amount.isZero, Side.CountsAsDebit, hzero]
  · by_cases hpos : 0 < a.unscaled <;> cases side <;>
      simp [addAmount, Amount.isZero, Amount.isPositive, Side.CountsAsDebit, hzero, hpos]

theorem credit_addAmount (b : Buckets) (side : Side) (a : Amount) :
    (b.addAmount side a).credit = true ↔ b.credit = true ∨ side.CountsAsCredit a := by
  by_cases hzero : a.unscaled = 0
  · simp [addAmount, Amount.isZero, Side.CountsAsCredit, hzero]
  · by_cases hpos : 0 < a.unscaled
    · have hneg : ¬ a.unscaled < 0 := by omega
      cases side <;>
        simp [addAmount, Amount.isZero, Amount.isPositive, Side.CountsAsCredit, hzero, hpos, hneg]
    · have hneg : a.unscaled < 0 := by omega
      cases side <;>
        simp [addAmount, Amount.isZero, Amount.isPositive, Side.CountsAsCredit, hzero, hpos, hneg]

end Buckets

namespace Classifier

variable {c : Classifier}

/-- A cell with an amount under a header that is not configured and tells debits. -/
def isDebitCell (c : Classifier) (cell : String × String) : Bool :=
  (c.configuredSide? (labelForm cell.1)).isNone && Side.looksDebit (labelForm cell.1) &&
    c.amountFormat.showsAmount cell.2

/-- A cell with an amount under a header that is not configured and tells credits. -/
def isCreditCell (c : Classifier) (cell : String × String) : Bool :=
  (c.configuredSide? (labelForm cell.1)).isNone && Side.looksCredit (labelForm cell.1) &&
    c.amountFormat.showsAmount cell.2

theorem addCell_eq (c : Classifier) (b : Buckets) (cell : String × String) :
    c.addCell b cell =
      { debit := b.debit || c.isDebitCell cell
        credit := b.credit || (c.isCreditCell cell && (b.debit || !c.isDebitCell cell)) } := by
  obtain ⟨debit, credit⟩ := b
  rw [addCell, isDebitCell, isCreditCell]
  cases c.configuredSide? (labelForm cell.1) with
  | some side => simp
  | none =>
    cases debit <;> cases credit <;> cases Side.looksDebit (labelForm cell.1) <;>
      cases Side.looksCredit (labelForm cell.1) <;> cases c.amountFormat.showsAmount cell.2 <;> rfl

theorem debit_foldl_addCell (cells : List (String × String)) (b : Buckets) :
    (cells.foldl c.addCell b).debit = true ↔
      b.debit = true ∨ ∃ cell ∈ cells, c.isDebitCell cell = true :=
  foldl_iff_exists (Q := (·.debit = true)) (fun b cell => by simp [addCell_eq]) cells b

/-- A cell counts as a credit unless the line takes it for its first debit. -/
theorem credit_foldl_addCell (cells : List (String × String)) (b : Buckets) :
    (cells.foldl c.addCell b).credit = true ↔
      b.credit = true ∨ ∃ earlier cell later, cells = earlier ++ cell :: later ∧
        c.isCreditCell cell = true ∧ (c.isDebitCell cell = true →
          b.debit = true ∨ ∃ cell ∈ earlier, c.isDebitCell cell = true) := by
  induction cells generalizing b with
  | nil => simp
  | cons first cells ih =>
    rw [List.foldl_cons, ih, addCell_eq]
    constructor
    · rintro (hhere | ⟨earlier, cell, later, rfl, hcredit, hdebit⟩)
      · rw [Bool.or_eq_true, Bool.and_eq_true, Bool.or_eq_true] at hhere
        refine hhere.imp_right fun ⟨hcredit, hdebit⟩ =>
          ⟨[], first, cells, rfl, hcredit, fun h => ?_⟩
        exact hdebit.imp_right fun hnot => absurd h (by simpa using hnot)
      · refine .inr ⟨first :: earlier, cell, later, rfl, hcredit, fun h => ?_⟩
        simpa [or_assoc] using hdebit h
    · rintro (hcredit | ⟨earlier, cell, later, heq, hcredit, hdebit⟩)
      · exact .inl (by simp [hcredit])
      · cases earlier with
        | nil =>
          obtain ⟨rfl, rfl⟩ := List.cons.inj heq
          refine .inl ?_
          cases hd : c.isDebitCell first with
          | false => simp [hcredit]
          | true => simp [hcredit, (hdebit hd).resolve_right (by simp)]
        | cons _ earlier =>
          obtain ⟨rfl, rfl⟩ := List.cons.inj heq
          refine .inr ⟨earlier, cell, later, rfl, hcredit, fun h => ?_⟩
          simpa [or_assoc] using hdebit h

theorem debit_foldl_addAmount (c : Classifier) (es : List (String × Amount)) :
    (es.foldl (fun b e => b.addAmount (c.sideOf e.1) e.2) ({} : Buckets)).debit = true ↔
      ∃ e ∈ es, (c.sideOf e.1).CountsAsDebit e.2 := by
  rw [foldl_iff_exists (Q := fun b : Buckets => b.debit = true)
    (fun b e => b.debit_addAmount (c.sideOf e.1) e.2), or_iff_right (by decide)]

theorem credit_foldl_addAmount (c : Classifier) (es : List (String × Amount)) :
    (es.foldl (fun b e => b.addAmount (c.sideOf e.1) e.2) ({} : Buckets)).credit = true ↔
      ∃ e ∈ es, (c.sideOf e.1).CountsAsCredit e.2 := by
  rw [foldl_iff_exists (Q := fun b : Buckets => b.credit = true)
    (fun b e => b.credit_addAmount (c.sideOf e.1) e.2), or_iff_right (by decide)]

theorem debit_buckets_iff (c : Classifier) (l : Line) :
    (c.buckets l).debit = true ↔
      (∃ e ∈ l.amounts.entries, (c.sideOf e.1).CountsAsDebit e.2) ∨
        ∃ cell ∈ l.cells.entries, c.isDebitCell cell = true := by
  rw [buckets, debit_foldl_addCell, debit_foldl_addAmount]

theorem credit_buckets_iff (c : Classifier) (l : Line) :
    (c.buckets l).credit = true ↔
      (∃ e ∈ l.amounts.entries, (c.sideOf e.1).CountsAsCredit e.2) ∨
        ∃ earlier cell later, l.cells.entries = earlier ++ cell :: later ∧
          c.isCreditCell cell = true ∧ (c.isDebitCell cell = true →
            (∃ e ∈ l.amounts.entries, (c.sideOf e.1).CountsAsDebit e.2) ∨
              ∃ cell ∈ earlier, c.isDebitCell cell = true) := by
  rw [buckets, credit_foldl_addCell, credit_foldl_addAmount, debit_foldl_addAmount]

end Classifier

end Payables
