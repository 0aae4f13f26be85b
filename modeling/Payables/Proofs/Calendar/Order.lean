import Mathlib.Order.Bounds.Basic
import Payables.Calendar.Date

/-!
# The order of dates

The key of a date tells the date, so dates are in a linear order, and the earliest and the latest
date of a list are its least and its greatest element.
-/

namespace Payables

namespace Calendar

theorem monthLength_le (year : Int) (month : Nat) : monthLength year month ≤ 31 := by
  unfold monthLength
  split
  · split <;> omega
  all_goals omega

end Calendar

namespace Date

open Calendar

theorem key_inj {a b : Date} : a.key = b.key ↔ a = b := by
  refine ⟨fun h => ?_, fun h => h ▸ rfl⟩
  obtain ⟨year, month, day, hday⟩ := a
  obtain ⟨year', month', day', hday'⟩ := b
  simp only [key] at h
  have hlength := monthLength_le year month
  have hlength' := monthLength_le year' month'
  have hmonth := hday.month_le
  have hmonth' := hday'.month_le
  have hlast := hday.day_le
  have hlast' := hday'.day_le
  obtain ⟨rfl, rfl, rfl⟩ : year = year' ∧ month = month' ∧ day = day' := by omega
  rfl

theorem le_refl (a : Date) : a ≤ a := Int.le_refl a.key

theorem le_trans {a b c : Date} (hab : a ≤ b) (hbc : b ≤ c) : a ≤ c := Int.le_trans hab hbc

theorem le_total (a b : Date) : a ≤ b ∨ b ≤ a := Int.le_total a.key b.key

theorem le_antisymm {a b : Date} (hab : a ≤ b) (hba : b ≤ a) : a = b :=
  key_inj.1 (Int.le_antisymm hab hba)

/-- A choice between two dates that stands in a relation to both of them. -/
structure IsChoice (r : Date → Date → Prop) (choose : Date → Date → Date) : Prop where
  eq_or_eq : ∀ a b, choose a b = a ∨ choose a b = b
  left : ∀ a b, r (choose a b) a
  right : ∀ a b, r (choose a b) b
  refl : ∀ a, r a a
  trans : ∀ {a b c}, r a b → r b c → r a c

theorem isChoice_earlier : IsChoice (· ≤ ·) earlier where
  eq_or_eq a b := by
    unfold earlier
    split
    · exact .inl rfl
    · exact .inr rfl
  left a b := by
    unfold earlier
    split <;> rename_i h
    · exact le_refl a
    · exact (le_total a b).resolve_left h
  right a b := by
    unfold earlier
    split <;> rename_i h
    · exact h
    · exact le_refl b
  refl := le_refl
  trans := le_trans

theorem isChoice_later : IsChoice (fun a b => b ≤ a) later where
  eq_or_eq a b := by
    unfold later
    split
    · exact .inr rfl
    · exact .inl rfl
  left a b := by
    unfold later
    split <;> rename_i h
    · exact h
    · exact le_refl a
  right a b := by
    unfold later
    split <;> rename_i h
    · exact le_refl b
    · exact (le_total a b).resolve_left h
  refl := le_refl
  trans hab hbc := le_trans hbc hab

theorem IsChoice.foldl {r : Date → Date → Prop} {choose : Date → Date → Date}
    (h : IsChoice r choose) (d : Date) (ds : List Date) :
    ds.foldl choose d ∈ d :: ds ∧ ∀ x ∈ d :: ds, r (ds.foldl choose d) x := by
  induction ds generalizing d with
  | nil => exact ⟨List.mem_cons_self, fun x hx => List.mem_singleton.1 hx ▸ h.refl d⟩
  | cons a ds ih =>
    obtain ⟨hmem, hall⟩ := ih (choose d a)
    have hchosen := hall _ List.mem_cons_self
    refine ⟨?_, fun x hx => ?_⟩
    · rcases List.mem_cons.1 hmem with heq | hmem
      · rw [List.foldl_cons, heq]
        rcases h.eq_or_eq d a with heq | heq <;> rw [heq] <;> simp
      · exact List.mem_cons_of_mem d (List.mem_cons_of_mem a hmem)
    · rcases List.mem_cons.1 hx with rfl | hx
      · exact h.trans hchosen (h.left x a)
      · rcases List.mem_cons.1 hx with rfl | hx
        · exact h.trans hchosen (h.right d x)
        · exact hall x (List.mem_cons_of_mem _ hx)

theorem earliest?_eq_some_iff {ds : List Date} {d : Date} :
    earliest? ds = some d ↔ IsLeast {x | x ∈ ds} d := by
  cases ds with
  | nil => exact ⟨fun h => (by cases h), fun h => (by cases h.1)⟩
  | cons a ds =>
    have hleast : IsLeast {x | x ∈ a :: ds} (ds.foldl earlier a) := isChoice_earlier.foldl a ds
    rw [earliest?, Option.some.injEq]
    constructor
    · rintro rfl
      exact hleast
    · exact fun h => le_antisymm (hleast.2 h.1) (h.2 hleast.1)

theorem latest?_eq_some_iff {ds : List Date} {d : Date} :
    latest? ds = some d ↔ IsGreatest {x | x ∈ ds} d := by
  cases ds with
  | nil => exact ⟨fun h => (by cases h), fun h => (by cases h.1)⟩
  | cons a ds =>
    have hgreatest : IsGreatest {x | x ∈ a :: ds} (ds.foldl later a) := isChoice_later.foldl a ds
    rw [latest?, Option.some.injEq]
    constructor
    · rintro rfl
      exact hgreatest
    · exact fun h => le_antisymm (h.2 hgreatest.1) (hgreatest.2 h.1)

theorem earliest?_eq_none_iff {ds : List Date} : earliest? ds = none ↔ ds = [] := by
  cases ds <;> simp [earliest?]

theorem latest?_eq_none_iff {ds : List Date} : latest? ds = none ↔ ds = [] := by
  cases ds <;> simp [latest?]

end Date

end Payables
