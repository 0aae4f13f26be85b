import Payables.Proofs.Json.Records
import Payables.Proofs.Json.Text

/-!
# Nothing is lost

A record that is written and read back is the same record, both as a value that is passed on and as
a text. A text holds the counts of a record as long as they are words of the machine.
-/

namespace Payables

open Json

/-- Each value of the type is written as what a text can hold. -/
class FittingForm (α : Type) [JsonForm α] : Prop where
  fits : ∀ a : α, Fits (toJson a)

@[simp] theorem fits_toJson {α : Type} [JsonForm α] [FittingForm α] (a : α) : Fits (toJson a) :=
  FittingForm.fits a

@[simp] theorem fits_nat_iff {n : Nat} : Fits (toJson n) ↔ n < wordBound := by
  constructor
  · rintro ⟨⟩
    rename_i hword
    exact Int.ofNat_lt.1 hword.2
  · intro hbound
    exact .integer ⟨by rw [leastInteger]; omega, Int.ofNat_lt.2 hbound⟩

instance : FittingForm String := ⟨.string⟩

instance : FittingForm Bool := ⟨.bool⟩

instance : FittingForm UInt32 where
  fits n := fits_nat_iff.2 (n.toNat_lt_size.trans (by decide))

instance : FittingForm EntryKind := ⟨fun _ => .string _⟩

instance : FittingForm DocumentKind := ⟨fun _ => .string _⟩

instance : FittingForm Side := ⟨fun _ => .string _⟩

instance : FittingForm Flag := ⟨fun _ => .string _⟩

instance : FittingForm Date := ⟨fun _ => .string _⟩

instance : FittingForm Amount := ⟨fun _ => .string _⟩

section

variable {α : Type} [JsonForm α]

theorem fits_list {as : List α} (h : ∀ a ∈ as, Fits (toJson a)) : Fits (toJson as) := by
  refine .array fun x hx => ?_
  obtain ⟨a, ha, rfl⟩ := List.mem_map.1 hx
  exact h a ha

theorem fits_map {m : Std.ExtTreeMap String α} (h : ∀ e ∈ m.toList, Fits (toJson e.2)) :
    Fits (toJson m) := by
  refine .object fun x hx => ?_
  obtain ⟨e, he, rfl⟩ := List.mem_map.1 hx
  exact h e he

variable [FittingForm α]

instance : FittingForm (Option α) where
  fits
    | some a => fits_toJson a
    | none => .null

instance : FittingForm (List α) := ⟨fun _ => fits_list fun a _ => fits_toJson a⟩

instance : FittingForm (Std.ExtTreeMap String α) := ⟨fun _ => fits_map fun e _ => fits_toJson e.2⟩

instance : FittingForm (Labelled α) where
  fits l := by
    refine .object fun x hx => ?_
    obtain ⟨e, -, rfl⟩ := List.mem_map.1 hx
    exact fits_toJson e.2

end

instance : FittingForm FlagSet := ⟨fun s => fits_toJson s.toList⟩

instance : FittingForm LedgerEntry := ⟨fun d => .object (by simp)⟩

instance : FittingForm Table := ⟨fun t => .object (by simp)⟩

instance : FittingForm AmountColumn := ⟨fun c => .object (by simp)⟩

instance : FittingForm Layout := ⟨fun l => .object (by simp)⟩

instance : FittingForm Evidence where
  fits e := .object (by cases e.keyword? <;> cases e.value? <;> simp)

def CheckOutcome.counts : CheckOutcome → List Nat
  | .skipped => []
  | .passed checked candidates => [checked, candidates]
  | .mismatch m => [m.checked, m.found, m.uniqueReferences]

def ScreeningSummary.counts (s : ScreeningSummary) : List Nat :=
  s.total :: s.flagged :: (s.issues.toList.map Prod.snd ++ s.lines.map FlaggedLine.ordinal)

theorem fits_row {r : Row} (h : r.ordinal < wordBound) : Fits (toJson r) := .object (by simp [h])

theorem fits_line {l : Line} (h : l.ordinal < wordBound) : Fits (toJson l) := .object (by simp [h])

theorem fits_flaggedLine {l : FlaggedLine} (h : l.ordinal < wordBound) : Fits (toJson l) :=
  .object (by simp [h])

theorem fits_merge {m : Merge} (h : ∀ l ∈ m.lines, l.ordinal < wordBound) : Fits (toJson m) := by
  have hlines : Fits (toJson m.lines) := fits_list fun l hl => fits_line (h l hl)
  exact .object (by simp [hlines])

theorem fits_extraction {e : Extraction} (h : ∀ r ∈ e.rows, r.ordinal < wordBound) :
    Fits (toJson e) := by
  have hrows : Fits (toJson e.rows) := fits_list fun r hr => fits_row (h r hr)
  exact .object (by simp [hrows])

theorem fits_screeningSummary {s : ScreeningSummary} (h : ∀ n ∈ s.counts, n < wordBound) :
    Fits (toJson s) := by
  simp only [ScreeningSummary.counts, List.forall_mem_cons, List.forall_mem_append,
    List.forall_mem_map] at h
  obtain ⟨htotal, hflagged, hissues, hordinals⟩ := h
  have hissues : Fits (toJson s.issues) := fits_map fun e he => fits_nat_iff.2 (hissues e he)
  have hlines : Fits (toJson s.lines) := fits_list fun l hl => fits_flaggedLine (hordinals l hl)
  exact .object (by simp [htotal, hflagged, hissues, hlines])

theorem fits_checkOutcome {o : CheckOutcome} (h : ∀ n ∈ o.counts, n < wordBound) :
    Fits (toJson o) := by
  cases o with
  | skipped => exact .object (by simp [Fits.string])
  | passed checked candidates =>
    refine .object ?_
    simpa [Fits.string, CheckOutcome.counts] using h
  | mismatch m =>
    refine .object ?_
    simpa [Fits.string, CheckOutcome.counts, Mismatch.members] using h

/-- A form that loses nothing. The value that is written for `a` is read back as the same one, in
whatever order its members are passed on, and so is its text, if the counts in `a` are words. -/
structure Lossless {α : Type} [JsonForm α] (Same : α → α → Prop) (counts : α → List Nat) :
    Prop where
  ofValue : ∀ a j, Reordered (toJson a) j → ∃ b, ofJson? j = some b ∧ Same a b
  ofText : ∀ a j, Reordered (toJson a) j → (∀ n ∈ counts a, n < wordBound) →
    ∃ b, (Json.read? (Json.write j) >>= ofJson?) = some b ∧ Same a b

theorem ReadsBack.lossless {α : Type} [JsonForm α] {Same : α → α → Prop} {counts : α → List Nat}
    (h : ReadsBack Same) (hfits : ∀ a, (∀ n ∈ counts a, n < wordBound) → Fits (toJson a)) :
    Lossless Same counts where
  ofValue := h
  ofText a j hj hcounts := by
    obtain ⟨b, hb, hsame⟩ := h a j hj
    have htext := ((hfits a hcounts).reordered hj).read?_write
    exact ⟨b, by rw [htext, Option.bind_eq_bind, Option.bind_some, hb], hsame⟩

theorem lossless_of_exact {α : Type} [JsonForm α] [ExactForm α] [FittingForm α] :
    Lossless (Eq : α → α → Prop) fun _ => [] :=
  readsBack_eq.lossless fun a _ => fits_toJson a

/-- The forms of lines, rows, tables, layouts, ledger entries, evidence and all outcomes lose
nothing. -/
theorem forms_lossless :
    Lossless Line.Same (fun l => [l.ordinal]) ∧
    Lossless Merge.Same (fun m => m.lines.map Line.ordinal) ∧
    Lossless Extraction.Same (fun e => e.rows.map Row.ordinal) ∧
    Lossless (Eq : Layout → Layout → Prop) (fun _ => []) ∧
    Lossless Row.Same (fun r => [r.ordinal]) ∧
    Lossless (Eq : Table → Table → Prop) (fun _ => []) ∧
    Lossless (Eq : LedgerEntry → LedgerEntry → Prop) (fun _ => []) ∧
    Lossless (Eq : Evidence → Evidence → Prop) (fun _ => []) ∧
    Lossless (Eq : ScreeningSummary → ScreeningSummary → Prop) ScreeningSummary.counts ∧
    Lossless (Eq : CheckOutcome → CheckOutcome → Prop) CheckOutcome.counts := by
  have hline : Lossless Line.Same fun l => [l.ordinal] :=
    readsBack_line.lossless fun l h => fits_line (h l.ordinal (by simp))
  have hmerge : Lossless Merge.Same fun m => m.lines.map Line.ordinal :=
    readsBack_merge.lossless fun m h => fits_merge (List.forall_mem_map.1 h)
  have hextraction : Lossless Extraction.Same fun e => e.rows.map Row.ordinal :=
    readsBack_extraction.lossless fun e h => fits_extraction (List.forall_mem_map.1 h)
  have hrow : Lossless Row.Same fun r => [r.ordinal] :=
    readsBack_row.lossless fun r h => fits_row (h r.ordinal (by simp))
  have hsummary : Lossless (Eq : ScreeningSummary → _ → Prop) ScreeningSummary.counts :=
    readsBack_eq.lossless fun s => fits_screeningSummary
  have houtcome : Lossless (Eq : CheckOutcome → _ → Prop) CheckOutcome.counts :=
    readsBack_eq.lossless fun o => fits_checkOutcome
  exact ⟨hline, hmerge, hextraction, lossless_of_exact, hrow, lossless_of_exact, lossless_of_exact,
    lossless_of_exact, hsummary, houtcome⟩

theorem forms_lossless_line : ∃ b : Line,
    (Json.read? (Json.write (toJson { Line.ofOrdinal "statement" 7 with
      amounts := ⟨[("debit", ⟨1, 20, by decide⟩)], by decide⟩ })) >>= ofJson?) = some b ∧
        b.ordinal = 7 ∧ (b.amounts.get? "debit").map Amount.value = some (1 / 10 ^ 20) := by
  obtain ⟨b, hread, hsame⟩ := forms_lossless.1.ofText { Line.ofOrdinal "statement" 7 with
    amounts := ⟨[("debit", ⟨1, 20, by decide⟩)], by decide⟩ } _ (.refl _) (by decide)
  refine ⟨b, hread, ?_, ?_⟩
  · rw [hsame.eq_but]
    rfl
  · rw [hsame.amounts]
    simp [Labelled.get?, Amount.value]

end Payables
