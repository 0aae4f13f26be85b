import Mathlib.Data.List.TakeWhile
import Payables.Amount.Numeral
import Payables.Proofs.Text.Numeral
import Payables.Proofs.Text.Runs

/-!
# Numerals

A sign, digits with or without a point among them, and an exponent are read as the number that all
the digits write, scaled by the number of those after the point and by the exponent.
-/

namespace Payables.Amount

open Text

def signChars (negative : Bool) : List Char := if negative then ['-'] else []

def signed (negative : Bool) (n : Nat) : Int := if negative then -(n : Int) else n

/-- What stands behind the digits of a numeral, and the exponent that it says. -/
inductive IsExponent : List Char → Int → Prop
  | none : IsExponent [] 0
  | positive (n : Nat) : IsExponent ('e' :: '+' :: digits n) n
  | negative (n : Nat) : IsExponent ('E' :: '-' :: digits n) (-n)

variable {ds fs tail : List Char} {e : Int}

theorem isExponentMark_of_isDigit {c : Char} (h : c.isDigit = true) : isExponentMark c = false :=
  forall_isDigit (P := fun c => isExponentMark c = false) (by decide) h

theorem all_isDigit_digits (n : Nat) : (digits n).all isDigit = true :=
  List.all_eq_true.2 fun _ hc => isDigit_of_mem_digits hc

theorem isEmpty_digits (n : Nat) : (digits n).isEmpty = false :=
  List.isEmpty_eq_false_iff.2 (digits_ne_nil n)

theorem readInt?_plus (n : Nat) : readInt? ('+' :: digits n) = some (n : Int) := by
  simp [readInt?, all_isDigit_digits, isEmpty_digits, value_digits]

theorem readInt?_minus (n : Nat) : readInt? ('-' :: digits n) = some (-n : Int) := by
  simp [readInt?, all_isDigit_digits, isEmpty_digits, value_digits]

theorem splitPoint_point {lead : List Char} (hpoint : ∀ c ∈ lead, (c != '.') = true)
    (hfs : ∀ c ∈ fs, c.isDigit = true) :
    splitPoint (lead ++ '.' :: fs) = (lead ++ fs, fs.length) := by
  have hscore : ∀ c ∈ fs, (c != '_') = true := fun c hc =>
    forall_isDigit (P := fun c => (c != '_') = true) (by decide) (hfs c hc)
  have hlead : (lead ++ '.' :: fs).takeWhile (· != '.') = lead := by
    rw [List.takeWhile_append_of_pos hpoint]
    simp
  have htrail : (lead ++ '.' :: fs).dropWhile (· != '.') = '.' :: fs := by
    rw [List.dropWhile_append_of_pos hpoint]
    simp
  simp only [splitPoint, hlead, htrail, List.filter_eq_self.2 hscore]

theorem readUnscaled?_signed (hne : ds ≠ []) (hds : ∀ c ∈ ds, c.isDigit = true)
    (negative : Bool) :
    readUnscaled? (signChars negative ++ ds) = some (signed negative (Text.value ds)) := by
  obtain ⟨c, cs, rfl⟩ := List.exists_cons_of_ne_nil hne
  obtain ⟨hc, hcs⟩ := List.forall_mem_cons.1 hds
  have hsign : c ≠ '-' ∧ c ≠ '+' :=
    forall_isDigit (P := fun c => c ≠ '-' ∧ c ≠ '+') (by decide) hc
  have hall : (isDigit c && cs.all fun d => isDigit d || d == '_') = true := by
    rw [isDigit, hc, Bool.true_and, List.all_eq_true]
    exact fun d hd => by rw [isDigit, hcs d hd, Bool.true_or]
  have hfilter : (c :: cs).filter isDigit = c :: cs := List.filter_eq_self.2 hds
  cases negative <;> simp [readUnscaled?, signChars, signed, hsign, hall, hfilter]

theorem ofChars?_append {base : List Char} (hbase : ∀ c ∈ base, isExponentMark c = false)
    (htail : IsExponent tail e) : ofChars? (base ++ tail) =
      (readUnscaled? (splitPoint base).1).bind fun n => of? n ((splitPoint base).2 - e) := by
  have hkept : ∀ c ∈ base, (!isExponentMark c) = true := fun c hc => by rw [hbase c hc]; rfl
  have hstop : ∀ c ∈ tail.head?, (!isExponentMark c) = false := by
    cases htail <;> rintro c ⟨⟩ <;> rfl
  rw [ofChars?, takeWhile_append_of_stop hkept hstop, dropWhile_append_of_stop hkept hstop]
  generalize splitPoint base = split
  obtain ⟨digits, decimals⟩ := split
  cases htail with
  -- one step at a time: comparing two scales by evaluation would count up to the largest one
  | none =>
    dsimp only
    rw [Option.bind_eq_bind, Option.bind_some]
  | positive n => simp only [readInt?_plus, Option.bind_eq_bind, Option.bind_some]
  | negative n => simp only [readInt?_minus, Option.bind_eq_bind, Option.bind_some]

theorem not_mark_of_mem_signed (hds : ∀ c ∈ ds, c.isDigit = true) (negative : Bool) :
    ∀ c ∈ signChars negative ++ ds, isExponentMark c = false ∧ (c != '.') = true := by
  intro c hc
  rcases List.mem_append.1 hc with hsign | hdigit
  · cases negative with
    | false => cases hsign
    | true =>
      rw [List.mem_singleton.1 hsign]
      decide
  · exact forall_isDigit (P := fun c => isExponentMark c = false ∧ (c != '.') = true) (by decide)
      (hds c hdigit)

theorem ofChars?_plain (hne : ds ≠ []) (hds : ∀ c ∈ ds, c.isDigit = true) (negative : Bool)
    (htail : IsExponent tail e) :
    ofChars? (signChars negative ++ (ds ++ tail)) = of? (signed negative (Text.value ds)) (-e) := by
  have hmarks := not_mark_of_mem_signed hds negative
  have hpoint : splitPoint (signChars negative ++ ds) = (signChars negative ++ ds, 0) := by
    have hkept : ∀ c ∈ signChars negative ++ ds, (c != '.') = true := fun c hc => (hmarks c hc).2
    rw [splitPoint, List.takeWhile_eq_self_iff.2 hkept, List.dropWhile_eq_nil_iff.2 hkept]
  rw [← List.append_assoc, ofChars?_append (fun c hc => (hmarks c hc).1) htail, hpoint,
    readUnscaled?_signed hne hds, Option.bind_some, Int.ofNat_zero, Int.zero_sub]

theorem ofChars?_pointed (hne : ds ≠ []) (hds : ∀ c ∈ ds, c.isDigit = true)
    (hfs : ∀ c ∈ fs, c.isDigit = true) (negative : Bool) (htail : IsExponent tail e) :
    ofChars? (signChars negative ++ (ds ++ '.' :: fs ++ tail)) =
      of? (signed negative (Text.value (ds ++ fs))) (fs.length - e) := by
  have hmarks := not_mark_of_mem_signed hds negative
  have hbase : ∀ c ∈ signChars negative ++ ds ++ '.' :: fs, isExponentMark c = false := by
    intro c hc
    rcases List.mem_append.1 hc with hc | hc
    · exact (hmarks c hc).1
    · rcases List.mem_cons.1 hc with rfl | hc
      · decide
      · exact isExponentMark_of_isDigit (hfs c hc)
  have hdigits : ∀ c ∈ ds ++ fs, c.isDigit = true := fun c hc =>
    (List.mem_append.1 hc).elim (hds c) (hfs c)
  rw [← List.append_assoc, ← List.append_assoc, ofChars?_append hbase htail,
    splitPoint_point (fun c hc => (hmarks c hc).2) hfs, List.append_assoc,
    readUnscaled?_signed (List.append_ne_nil_of_left_ne_nil hne fs) hdigits, Option.bind_some]

theorem ofChars?_point (hne : ds ≠ []) (hds : ∀ c ∈ ds, c.isDigit = true)
    (hfs : ∀ c ∈ fs, c.isDigit = true) :
    ofChars? (ds ++ '.' :: fs) = of? (Text.value (ds ++ fs)) fs.length := by
  have hread := ofChars?_pointed hne hds hfs false .none
  rwa [List.append_nil, Int.sub_zero] at hread

end Payables.Amount
