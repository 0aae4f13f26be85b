import Payables.Proofs.Amount.Decoration
import Payables.Proofs.Amount.Text

/-!
# Numbers with marks

A number is written with group marks anywhere between the digits of its whole part and a decimal
mark in front of its decimals. Under marks that pass the check of a layout it is read as the number,
whatever decorations stand around it, but for the sign (`read?_decorated`).
-/

namespace Payables.AmountFormat

open Text

variable {f : AmountFormat}

/-- A number in a cell: digits before the decimal mark and behind it, if any are there. `marks` says
how many group marks follow the first digit, the second, and so on. -/
structure MarkedNumber where
  wholes : List Char
  marks : List ℕ
  decimals : List Char
  beforePoint : Gap
  afterPoint : Gap
  wholes_ne_nil : wholes ≠ []
  isDigit_wholes : ∀ c ∈ wholes, c.isDigit = true
  isDigit_decimals : ∀ c ∈ decimals, c.isDigit = true

/-- Digits with copies of a mark between them. -/
def spread (mark : List Char) : List ℕ → List Char → List Char
  | n :: ns, c :: d :: ds => c :: ((List.replicate n mark).flatten ++ spread mark ns (d :: ds))
  | _, ds => ds

namespace MarkedNumber

def tail (f : AmountFormat) (n : MarkedNumber) : List Char :=
  if n.decimals = [] then []
  else n.beforePoint.1 ++ f.decimalMark.toList ++ n.afterPoint.1 ++ n.decimals

def chars (f : AmountFormat) (n : MarkedNumber) : List Char :=
  spread f.groupMark.toList n.marks n.wholes ++ n.tail f

def value (n : MarkedNumber) : ℚ :=
  Text.value n.wholes + Text.value n.decimals / 10 ^ n.decimals.length

end MarkedNumber

section Spread

variable {mark ds : List Char} {ns : List ℕ}

theorem spread_cons (n : ℕ) (ns : List ℕ) (c : Char) (hne : ds ≠ []) :
    spread mark (n :: ns) (c :: ds) =
      c :: ((List.replicate n mark).flatten ++ spread mark ns ds) := by
  obtain ⟨d, ds, rfl⟩ := List.exists_cons_of_ne_nil hne
  rw [spread]

theorem flatMap_spread {φ : Char → List Char} (hmark : mark.flatMap φ = []) (ns : List ℕ)
    (ds : List Char) : (spread mark ns ds).flatMap φ = ds.flatMap φ := by
  fun_induction spread mark ns ds with
  | case1 n ns c d ds ih =>
    have hmarks : (List.replicate n mark).flatten.flatMap φ = [] := by
      rw [List.flatMap_eq_nil_iff] at hmark ⊢
      intro b hb
      obtain ⟨m, hm, hbm⟩ := List.mem_flatten.1 hb
      exact hmark b (List.eq_of_mem_replicate hm ▸ hbm)
    rw [List.flatMap_cons, List.flatMap_append, hmarks, List.nil_append, ih, ← List.flatMap_cons]
  | case2 => rfl

theorem mem_spread {c : Char} (h : c ∈ spread mark ns ds) : c ∈ mark ∨ c ∈ ds := by
  fun_induction spread mark ns ds with
  | case1 n ns b d ds ih =>
    rcases List.mem_cons.1 h with rfl | h
    · exact .inr List.mem_cons_self
    rcases List.mem_append.1 h with h | h
    · obtain ⟨m, hm, hc⟩ := List.mem_flatten.1 h
      exact .inl (List.eq_of_mem_replicate hm ▸ hc)
    · exact (ih h).imp_right (List.mem_cons_of_mem b)
  | case2 => exact .inr h

theorem head?_spread (mark : List Char) (ns : List ℕ) (ds : List Char) :
    (spread mark ns ds).head? = ds.head? := by
  fun_cases spread mark ns ds <;> rfl

theorem getLast?_spread (mark : List Char) (ns : List ℕ) (ds : List Char) :
    (spread mark ns ds).getLast? = ds.getLast? := by
  fun_induction spread mark ns ds with
  | case1 n ns c d ds ih =>
    have hne : spread mark ns (d :: ds) ≠ [] := fun hnil => by
      simpa [hnil] using head?_spread mark ns (d :: ds)
    rw [← List.cons_append, List.getLast?_append_of_ne_nil _ hne, ih, List.getLast?_cons_cons]
  | case2 => rfl

end Spread

namespace MarkedNumber

variable (n : MarkedNumber)

theorem flatMap_bare_chars (hf : f.IsApart) : (n.chars f).flatMap f.bare =
    n.wholes ++ if n.decimals = [] then [] else '.' :: n.decimals := by
  rw [chars, List.flatMap_append, flatMap_spread f.flatMap_bare_groupMark,
    flatMap_eq_self fun c hc => bare_of_isDigit hf (n.isDigit_wholes c hc), tail]
  split
  · rfl
  · rw [List.flatMap_append, List.flatMap_append, List.flatMap_append, Gap.flatMap_bare,
      Gap.flatMap_bare, flatMap_bare_decimalMark hf,
      flatMap_eq_self fun c hc => bare_of_isDigit hf (n.isDigit_decimals c hc)]
    rfl

theorem isUndressed_chars (hf : f.IsApart) : IsUndressed (n.chars f) := by
  constructor
  case head =>
    obtain ⟨c, r, hwholes⟩ := List.exists_cons_of_ne_nil n.wholes_ne_nil
    have hhead : (spread f.groupMark.toList n.marks n.wholes).head? = some c := by
      rw [head?_spread, hwholes, List.head?_cons]
    obtain ⟨s, hs⟩ := List.head?_eq_some_iff.1 hhead
    refine ⟨c, s ++ n.tail f, ?_, n.isDigit_wholes c (by simp [hwholes])⟩
    rw [chars, hs, List.cons_append]
  case last =>
    by_cases hnone : n.decimals = []
    · obtain ⟨r, g, hwholes⟩ := (List.eq_nil_or_concat' n.wholes).resolve_left n.wholes_ne_nil
      have hlast : (spread f.groupMark.toList n.marks n.wholes).getLast? = some g := by
        rw [getLast?_spread, hwholes, List.getLast?_concat]
      obtain ⟨s, hs⟩ := List.getLast?_eq_some_iff.1 hlast
      refine ⟨s, g, ?_, n.isDigit_wholes g (by simp [hwholes])⟩
      rw [chars, hs, tail, if_pos hnone, List.append_nil]
    · obtain ⟨r, g, hdecimals⟩ := (List.eq_nil_or_concat' n.decimals).resolve_left hnone
      refine ⟨spread f.groupMark.toList n.marks n.wholes ++
        (n.beforePoint.1 ++ f.decimalMark.toList ++ n.afterPoint.1 ++ r), g, ?_,
        n.isDigit_decimals g (by simp [hdecimals])⟩
      rw [chars, tail, if_neg hnone, hdecimals]
      simp only [List.append_assoc]
  case plain =>
    intro c hc
    have htail : c ∈ n.tail f → plainMinus c = c := by
      unfold tail
      split
      · exact fun h => absurd h List.not_mem_nil
      simp only [List.mem_append]
      rintro (((h | h) | h) | h)
      · exact n.beforePoint.plainMinus_of_mem h
      · exact (hf.plain c (List.mem_append_left _ h)).2
      · exact n.afterPoint.plainMinus_of_mem h
      · exact plainMinus_of_isDigit (n.isDigit_decimals c h)
    rcases List.mem_append.1 hc with hc | hc
    · rcases mem_spread hc with hc | hc
      · exact (hf.plain c (List.mem_append_right _ hc)).2
      · exact plainMinus_of_isDigit (n.isDigit_wholes c hc)
    · exact htail hc

/-- All digits are read as one whole number, scaled by the number of decimals. -/
theorem ofChars?_chars (hf : f.IsApart) : Amount.ofChars? ((n.chars f).flatMap f.bare) =
    Amount.of? (Text.value (n.wholes ++ n.decimals)) n.decimals.length := by
  rw [n.flatMap_bare_chars hf]
  split
  · rename_i hnone
    have hread := Amount.ofChars?_plain n.wholes_ne_nil n.isDigit_wholes false .none
    rw [List.append_nil, Int.neg_zero] at hread
    rwa [hnone, List.append_nil]
  · exact Amount.ofChars?_point n.wholes_ne_nil n.isDigit_wholes n.isDigit_decimals

theorem value_eq : n.value = Text.value (n.wholes ++ n.decimals) / 10 ^ n.decimals.length := by
  rw [value, value_append, Nat.cast_add, Nat.cast_mul, cast_tenTo]
  field_simp

theorem value_nonneg : 0 ≤ n.value := by
  unfold value
  positivity

end MarkedNumber

/-- What stands around a number does not change its value, but for the sign. The decimals of a text
in memory are few enough for their number to fit 64 bits. -/
theorem read?_decorated {decimal group : String} (h : Layout.checkMarks decimal group = .ok ())
    (n : MarkedNumber) (hfits : ScaleFits n.decimals.length) (d : Decoration) :
    let f : AmountFormat := ⟨decimal, group⟩
    ∃ a, f.read? (String.ofList (d.around (n.chars f))) = some a ∧
      a.value = if d.isNegative then -n.value else n.value := by
  intro f
  have hf : f.IsApart := isApart_of_checkMarks h
  let a : Amount := ⟨Text.value (n.wholes ++ n.decimals), n.decimals.length, hfits⟩
  have hvalue : a.value = n.value := by
    rw [Amount.value, zpow_natCast, Int.cast_natCast, n.value_eq]
  rw [read?, String.toList_ofList, readChars?_around hf (n.isUndressed_chars hf),
    n.ofChars?_chars hf, Amount.of?_of_fits hfits]
  split
  · refine ⟨a.negatedMagnitude, rfl, ?_⟩
    rw [Amount.value_negatedMagnitude, hvalue, abs_of_nonneg n.value_nonneg]
  · exact ⟨a, rfl, hvalue⟩

theorem read?_decorated_everywhere :
    let f : AmountFormat := ⟨",", "."⟩
    Layout.checkMarks "," "." = .ok () ∧ ScaleFits ['2', '5'].length ∧
      ∃ a, f.read? " ( \u2212 € 1.000..000 ,25 dR\t) " = some a ∧ a.value = -1000000.25 := by
  let blank : Gap := ⟨[' '], List.forall_mem_singleton.2 rfl⟩
  let tab : Gap := ⟨['\t'], List.forall_mem_singleton.2 rfl⟩
  let number : MarkedNumber := ⟨"1000000".toList, [1, 0, 0, 2], ['2', '5'], blank, .empty,
    by decide, List.all_eq_true.1 rfl, List.all_eq_true.1 rfl⟩
  let decoration : Decoration := ⟨blank, some (blank, tab), some (⟨'\u2212', .inr rfl⟩, blank),
    some (⟨['€'], by decide⟩, blank), some (blank, ⟨['d', 'R'], .inr rfl⟩), blank⟩
  have hfits : ScaleFits ['2', '5'].length := by decide
  obtain ⟨a, hread, hvalue⟩ := @read?_decorated "," "." rfl number hfits decoration
  refine ⟨rfl, hfits, a, hread, ?_⟩
  have hwholes : value number.wholes = 1000000 := rfl
  have hdecimals : value number.decimals = 25 := rfl
  have hlength : number.decimals.length = 2 := rfl
  have hsign : decoration.isNegative = true := rfl
  rw [hvalue, if_pos hsign, MarkedNumber.value, hwholes, hdecimals, hlength]
  norm_num

end Payables.AmountFormat
