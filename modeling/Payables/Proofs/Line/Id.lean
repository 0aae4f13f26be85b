import Payables.Line.Basic
import Payables.Proofs.Text.Numeral
import Payables.Proofs.Text.Runs

/-!
# The ids of lines

The id of a line tells its statement and its ordinal (`Line.idFor_eq_idFor_iff`). A statement may
have any text for an id, marks and digits included, so the cut is found from the end: the digits
there are the ordinal, since the mark before them is no digit, and padded digits can be read back.
-/

namespace Payables

open Text

/-- Digits at the end of a text are told from what stands before them by a mark that is no digit. -/
theorem append_cons_digits_inj {s t ds es : List Char} {mark : Char}
    (hmark : mark.isDigit = false) (hds : ∀ d ∈ ds, d.isDigit = true)
    (hes : ∀ d ∈ es, d.isDigit = true) (h : s ++ mark :: ds = t ++ mark :: es) :
    s = t ∧ ds = es := by
  have hreverse : ds.reverse ++ mark :: s.reverse = es.reverse ++ mark :: t.reverse := by
    simpa using congrArg List.reverse h
  have hdsEnd : ∀ d ∈ ds.reverse, d.isDigit = true := by simpa using hds
  have hesEnd : ∀ d ∈ es.reverse, d.isDigit = true := by simpa using hes
  have hstop (u : List Char) : ∀ c ∈ (mark :: u).head?, c.isDigit = false := by simpa using hmark
  have hdigits := congrArg (List.takeWhile Char.isDigit) hreverse
  have hbefore := congrArg (List.dropWhile Char.isDigit) hreverse
  rw [takeWhile_append_of_stop hdsEnd (hstop _), takeWhile_append_of_stop hesEnd (hstop _)]
    at hdigits
  rw [dropWhile_append_of_stop hdsEnd (hstop _), dropWhile_append_of_stop hesEnd (hstop _)]
    at hbefore
  constructor
  · exact List.reverse_injective (List.cons.inj hbefore).2
  · exact List.reverse_injective hdigits

namespace Line

variable {s t : String} {m n : Nat}

theorem toList_idFor (s : String) (n : Nat) :
    (idFor s n).toList = (s.toList ++ "#item".toList) ++ '-' :: fixedWidth 4 n := by
  simp [idFor]

theorem cut_of_idFor_eq (h : idFor s m = idFor t n) :
    s = t ∧ fixedWidth 4 m = fixedWidth 4 n := by
  have hlists := congrArg String.toList h
  rw [toList_idFor, toList_idFor] at hlists
  obtain ⟨hbefore, hdigits⟩ := append_cons_digits_inj (by decide)
    (fun _ => isDigit_of_mem_fixedWidth) (fun _ => isDigit_of_mem_fixedWidth) hlists
  exact ⟨String.toList_inj.1 (List.append_cancel_right hbefore), hdigits⟩

theorem idFor_inj {statement : String} {m n : Nat} :
    idFor statement m = idFor statement n ↔ m = n := by
  constructor
  · intro h
    exact fixedWidth_inj.1 (cut_of_idFor_eq h).2
  · intro h
    rw [h]

/-- Whatever the ids of the statements are, lines have one id only if they stand in one statement
and have one ordinal there. -/
theorem idFor_eq_idFor_iff : idFor s m = idFor t n ↔ s = t ∧ m = n := by
  constructor
  · intro h
    obtain ⟨hstatement, hdigits⟩ := cut_of_idFor_eq h
    exact ⟨hstatement, fixedWidth_inj.1 hdigits⟩
  · rintro ⟨rfl, rfl⟩
    rfl

end Line

end Payables
