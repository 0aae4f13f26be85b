import Mathlib.Computability.RegularExpressions
import Payables.Proofs.Text.Numeral
import Payables.Reference.Family

/-!
# Patterns as regular expressions

A pattern is a text that is read as a regular expression, character by character and with a stack
of open groups (`read?`). It is read as far as families are written: characters, escaped if they
stand for something else, the class of the digits, bounded repetitions, groups of alternatives, and
the anchors at the two ends.
-/

namespace Payables.Pattern

open Text

/-- What has been read of a group: its alternatives that are complete, and the current one up to its
last item, which a repetition belongs to. -/
structure Level where
  earlier : RegularExpression Char := 0
  front : RegularExpression Char := 1
  last? : Option (RegularExpression Char) := none

/-- What is read next: an item, the rest of an opening, the numbers of a repetition, or nothing. -/
inductive Mode
  | item
  | escaped
  | group (rest : List Char)
  | digitClass (rest : List Char)
  | bounds (least? : Option Nat) (n? : Option Nat)
  | ended

structure State where
  mode : Mode := .item
  level : Level := {}
  outer : List Level := []

namespace Level

def current (l : Level) : RegularExpression Char := l.front * l.last?.getD 1

def value (l : Level) : RegularExpression Char := l.earlier + l.current

def push (l : Level) (p : RegularExpression Char) : Level :=
  { l with front := l.current, last? := some p }

end Level

def digit : RegularExpression Char :=
  ['0', '1', '2', '3', '4', '5', '6', '7', '8', '9'].foldr (fun c p => .char c + p) 0

def repeated (p : RegularExpression Char) (least most : Nat) : RegularExpression Char :=
  p ^ least * (1 + p) ^ (most - least)

namespace State

def push (s : State) (p : RegularExpression Char) : State :=
  { s with mode := .item, level := s.level.push p }

def stepItem (s : State) (c : Char) : Option State :=
  if c = '\\' then some { s with mode := .escaped }
  else if c = '(' then some { s with mode := .group ['?', ':'] }
  else if c = '[' then some { s with mode := .digitClass ['0', '-', '9', ']'] }
  else if c = '\x7b' then s.level.last?.map fun _ => { s with mode := .bounds none none }
  else if c = '|' then some { s with level := { earlier := s.level.value } }
  else if c = ')' then
    match s.outer with
    | [] => none
    | l :: ls => some { level := l.push s.level.value, outer := ls }
  else if c = '$' then if s.outer.isEmpty then some { s with mode := .ended } else none
  else if Shape.special.contains c then none
  else some (s.push (.char c))

def stepBounds (s : State) (least? n? : Option Nat) (c : Char) : Option State :=
  if c.isDigit then
    some { s with mode := .bounds least? (some (10 * n?.getD 0 + digitValue c)) }
  else
    match n?, s.level.last? with
    | some n, some p =>
      if c = ',' ∧ least? = none then some { s with mode := .bounds (some n) none }
      else if c = '\x7d' ∧ least?.getD n ≤ n then
        some { s with
          mode := .item
          level := { s.level with last? := repeated p (least?.getD n) n } }
      else none
    | _, _ => none

def step (s : State) (c : Char) : Option State :=
  match s.mode with
  | .item => s.stepItem c
  | .escaped => if Shape.special.contains c then some (s.push (.char c)) else none
  | .group [e] => if c = e then some { outer := s.level :: s.outer } else none
  | .group (e :: rest) => if c = e then some { s with mode := .group rest } else none
  | .digitClass [e] => if c = e then some (s.push digit) else none
  | .digitClass (e :: rest) => if c = e then some { s with mode := .digitClass rest } else none
  | .bounds least? n? => s.stepBounds least? n? c
  | _ => none

def run (s : State) (text : List Char) : Option State := text.foldlM step s

end State

/-- The regular expression that an anchored pattern is read as. -/
def read? (text : List Char) : Option (RegularExpression Char) :=
  match text with
  | '^' :: rest =>
    match State.run {} rest with
    | some { mode := .ended, level := l, outer := _ } => some l.value
    | _ => none
  | _ => none

variable {text text' : List Char} {l l' : Language Char}

/-- Reading the text adds the language to the current alternative. -/
def Adds (text : List Char) (l : Language Char) : Prop :=
  ∀ level outer, ∃ level', State.run ⟨.item, level, outer⟩ text = some ⟨.item, level', outer⟩ ∧
    level'.earlier = level.earlier ∧ level'.current.matches' = level.current.matches' * l

theorem State.run_append (s : State) (text text' : List Char) :
    s.run (text ++ text') = s.run text >>= (·.run text') := List.foldlM_append

theorem matches'_current_push (level : Level) (p : RegularExpression Char) :
    (level.push p).current.matches' = level.current.matches' * p.matches' := rfl

theorem adds_nil : Adds [] 1 := fun level _ => ⟨level, rfl, rfl, (mul_one _).symm⟩

theorem Adds.append (h : Adds text l) (h' : Adds text' l') : Adds (text ++ text') (l * l') := by
  intro level outer
  obtain ⟨level₁, hrun, hearlier, hcurrent⟩ := h level outer
  obtain ⟨level₂, hrun', hearlier', hcurrent'⟩ := h' level₁ outer
  refine ⟨level₂, ?_, hearlier'.trans hearlier, ?_⟩
  · rw [State.run_append, hrun]
    exact hrun'
  · rw [hcurrent', hcurrent, mul_assoc]

theorem State.run_singleton (s : State) (c : Char) : s.run [c] = s.step c := by
  rw [run, List.foldlM_cons]
  exact bind_pure _

theorem adds_char {c : Char} (h : Shape.special.contains c = false) : Adds [c] {[c]} := by
  intro level outer
  have hne : ∀ e ∈ Shape.special, c ≠ e := by
    rintro e he rfl
    rw [List.contains_iff_mem.2 he] at h
    cases h
  refine ⟨level.push (.char c), ?_, rfl, rfl⟩
  rw [State.run_singleton, State.step, State.stepItem, if_neg (hne _ (by decide)),
    if_neg (hne _ (by decide)), if_neg (hne _ (by decide)), if_neg (hne _ (by decide)),
    if_neg (hne _ (by decide)), if_neg (hne _ (by decide)), if_neg (hne _ (by decide)), h]
  rfl

theorem adds_escaped {c : Char} (h : Shape.special.contains c = true) :
    Adds ['\\', c] {[c]} := by
  intro level outer
  refine ⟨level.push (.char c), ?_, rfl, rfl⟩
  change State.run ⟨.escaped, level, outer⟩ [c] = _
  rw [State.run_singleton, State.step, if_pos h]
  rfl

theorem mem_singleton {x s : List Char} : x ∈ ({s} : Language Char) ↔ x = s := Iff.rfl

theorem singleton_cons (c : Char) (s : List Char) :
    ({c :: s} : Language Char) = {[c]} * {s} := by
  ext x
  simp [Language.mem_mul, mem_singleton, eq_comm]

theorem adds_escape (s : List Char) : Adds (Shape.escape s) {s} := by
  induction s with
  | nil => exact adds_nil
  | cons c s ih =>
    rw [singleton_cons, Shape.escape, List.flatMap_cons]
    refine Adds.append ?_ ih
    cases h : Shape.special.contains c with
    | false => exact adds_char h
    | true => exact adds_escaped h

theorem mem_anyChar {cs x : List Char} :
    x ∈ (cs.foldr (fun c p => .char c + p) (0 : RegularExpression Char)).matches' ↔
      ∃ c ∈ cs, x = [c] := by
  induction cs with
  | nil => simp
  | cons c cs ih =>
    rw [List.foldr_cons, RegularExpression.matches'_add, Language.mem_add, ih]
    simp [mem_singleton]

theorem mem_digit {x : List Char} :
    x ∈ digit.matches' ↔ ∃ c, c.isDigit = true ∧ x = [c] := by
  have hdigit {c : Char} :
      c ∈ ['0', '1', '2', '3', '4', '5', '6', '7', '8', '9'] ↔ c.isDigit = true := by
    constructor
    · intro hc
      simp only [List.mem_cons, List.not_mem_nil, or_false] at hc
      rcases hc with rfl | rfl | rfl | rfl | rfl | rfl | rfl | rfl | rfl | rfl <;> rfl
    · exact forall_isDigit (by decide)
  rw [digit, mem_anyChar]
  exact exists_congr fun c => and_congr_left fun _ => hdigit

/-- The texts of digits of a number of characters within bounds. -/
def digitTexts (least most : Nat) : Language Char :=
  {x | (∀ c ∈ x, c.isDigit = true) ∧ least ≤ x.length ∧ x.length ≤ most}

theorem mem_digit_pow {n : Nat} {x : List Char} :
    x ∈ digit.matches' ^ n ↔ (∀ c ∈ x, c.isDigit = true) ∧ x.length = n := by
  induction n generalizing x with
  | zero =>
    rw [pow_zero, Language.mem_one, List.length_eq_zero_iff]
    exact ⟨fun h => ⟨by simp [h], h⟩, fun h => h.2⟩
  | succ n ih =>
    simp only [pow_succ', Language.mem_mul, mem_digit, ih]
    constructor
    · rintro ⟨_, ⟨c, hc, rfl⟩, y, ⟨hy, rfl⟩, rfl⟩
      exact ⟨by simpa [hc] using hy, by simp⟩
    · rintro ⟨hx, hlength⟩
      obtain ⟨c, y, rfl⟩ := List.exists_cons_of_length_eq_add_one hlength
      obtain ⟨hc, hy⟩ := List.forall_mem_cons.1 hx
      exact ⟨[c], ⟨c, hc, rfl⟩, y, ⟨hy, by simpa using hlength⟩, rfl⟩

theorem mem_optional_pow {n : Nat} {x : List Char} :
    x ∈ (1 + digit.matches') ^ n ↔ (∀ c ∈ x, c.isDigit = true) ∧ x.length ≤ n := by
  induction n generalizing x with
  | zero =>
    rw [pow_zero, Language.mem_one, Nat.le_zero, List.length_eq_zero_iff]
    exact ⟨fun h => ⟨by simp [h], h⟩, fun h => h.2⟩
  | succ n ih =>
    simp only [pow_succ', Language.mem_mul, Language.mem_add, Language.mem_one, mem_digit, ih]
    constructor
    · rintro ⟨_, rfl | ⟨c, hc, rfl⟩, y, ⟨hy, hlength⟩, rfl⟩
      · exact ⟨hy, Nat.le_succ_of_le hlength⟩
      · exact ⟨by simpa [hc] using hy, by simpa using hlength⟩
    · rintro ⟨hx, hlength⟩
      cases x with
      | nil => exact ⟨[], .inl rfl, [], ⟨hx, Nat.zero_le n⟩, rfl⟩
      | cons c y =>
        obtain ⟨hc, hy⟩ := List.forall_mem_cons.1 hx
        exact ⟨[c], .inr ⟨c, hc, rfl⟩, y, ⟨hy, by simpa using hlength⟩, rfl⟩

theorem matches'_repeated {least most : Nat} (h : least ≤ most) :
    (repeated digit least most).matches' = digitTexts least most := by
  have hmatches : (repeated digit least most).matches' =
      digit.matches' ^ least * (1 + digit.matches') ^ (most - least) := by
    rw [repeated, RegularExpression.matches'_mul, RegularExpression.matches'_pow,
      RegularExpression.matches'_pow, RegularExpression.matches'_add,
      RegularExpression.matches'_epsilon]
  ext x
  rw [hmatches, Language.mem_mul]
  constructor
  · rintro ⟨y, hy, z, hz, rfl⟩
    obtain ⟨hy, hlength⟩ := mem_digit_pow.1 hy
    obtain ⟨hz, hle⟩ := mem_optional_pow.1 hz
    refine ⟨fun c hc => (List.mem_append.1 hc).elim (hy c) (hz c), ?_, ?_⟩
    · rw [List.length_append]
      omega
    · rw [List.length_append]
      omega
  · rintro ⟨hx, hleast, hmost⟩
    refine ⟨x.take least, mem_digit_pow.2 ⟨fun c hc => hx c (List.mem_of_mem_take hc), ?_⟩,
      x.drop least, mem_optional_pow.2 ⟨fun c hc => hx c (List.mem_of_mem_drop hc), ?_⟩,
      List.take_append_drop least x⟩
    · rw [List.length_take]
      omega
    · rw [List.length_drop]
      omega

variable {level : Level} {outer : List Level} {least? : Option Nat} {p : RegularExpression Char}

theorem run_digits (n : Nat) : State.run ⟨.bounds least? none, level, outer⟩ (digits n) =
    some ⟨.bounds least? (some n), level, outer⟩ := by
  have hread (ds : List Char) (hne : ds ≠ []) (hds : ∀ c ∈ ds, c.isDigit = true)
      (n? : Option Nat) : State.run ⟨.bounds least? n?, level, outer⟩ ds = some ⟨.bounds least?
        (some (ds.foldl (fun n c => 10 * n + digitValue c) (n?.getD 0))), level, outer⟩ := by
    induction ds generalizing n? with
    | nil => exact absurd rfl hne
    | cons c ds ih =>
      obtain ⟨hc, hds⟩ := List.forall_mem_cons.1 hds
      have hstep : State.step ⟨.bounds least? n?, level, outer⟩ c =
          some ⟨.bounds least? (some (10 * n?.getD 0 + digitValue c)), level, outer⟩ := if_pos hc
      cases ds with
      | nil =>
        rw [State.run_singleton, hstep]
        rfl
      | cons d ds =>
        rw [State.run, List.foldlM_cons, hstep]
        exact ih (List.cons_ne_nil d ds) hds _
  have hne := digits_ne_nil n
  rw [hread (digits n) hne (fun _ => isDigit_of_mem_digits) none]
  exact congrArg (fun n => some (State.mk (.bounds least? (some n)) level outer)) (value_digits n)

theorem step_close {n : Nat} (hp : level.last? = some p) (h : least?.getD n ≤ n) :
    State.step ⟨.bounds least? (some n), level, outer⟩ '\x7d' =
      some ⟨.item, { level with last? := repeated p (least?.getD n) n }, outer⟩ := by
  have hcomma : ¬ ('\x7d' = ',' ∧ least? = none) := fun hc => absurd hc.1 (by decide)
  change State.stepBounds _ least? (some n) '\x7d' = _
  unfold State.stepBounds
  rw [if_neg (by decide), hp]
  dsimp only
  rw [if_neg hcomma, if_pos ⟨rfl, h⟩]

theorem step_comma {n : Nat} (hp : level.last? = some p) :
    State.step ⟨.bounds none (some n), level, outer⟩ ',' =
      some ⟨.bounds (some n) none, level, outer⟩ := by
  change State.stepBounds _ none (some n) ',' = _
  unfold State.stepBounds
  rw [if_neg (by decide), hp]
  exact if_pos ⟨rfl, rfl⟩

theorem run_repetition {least most : Nat} (hp : level.last? = some p) (h : least ≤ most) :
    State.run ⟨.item, level, outer⟩ (Shape.repetition least most) =
      some ⟨.item, { level with last? := repeated p least most }, outer⟩ := by
  have hopen : State.run ⟨.item, level, outer⟩ ['\x7b'] =
      some ⟨.bounds none none, level, outer⟩ := by
    rw [State.run_singleton]
    change level.last?.map _ = _
    rw [hp, Option.map_some]
  rw [Shape.repetition, List.append_assoc, List.append_assoc, State.run_append, hopen]
  change State.run _ _ = _
  rw [State.run_append, run_digits]
  change State.run _ _ = _
  split
  · rename_i heq
    subst heq
    rw [List.nil_append, State.run_singleton, step_close hp (Nat.le_refl least)]
    rfl
  · rw [List.cons_append, State.run, List.foldlM_cons, step_comma hp]
    change State.run _ (digits most ++ _) = _
    rw [State.run_append, run_digits]
    change State.run _ _ = _
    rw [State.run_singleton, step_close hp h]
    rfl

theorem adds_digits {least most : Nat} (h : least ≤ most) :
    Adds ("[0-9]".toList ++ Shape.repetition least most) (digitTexts least most) := by
  intro level outer
  refine ⟨{ level.push digit with last? := repeated digit least most }, ?_, rfl, ?_⟩
  · have hclass : State.run ⟨.item, level, outer⟩ "[0-9]".toList =
        some ⟨.item, level.push digit, outer⟩ := rfl
    rw [State.run_append, hclass]
    exact run_repetition (rfl : (level.push digit).last? = some digit) h
  · rw [← matches'_repeated h]
    rfl

theorem mem_sum {ls : List (Language Char)} {x : List Char} : x ∈ ls.sum ↔ ∃ l ∈ ls, x ∈ l := by
  induction ls with
  | nil => simp
  | cons l ls ih => rw [List.sum_cons, Language.mem_add, ih, List.exists_mem_cons_iff]

theorem run_alternatives {alternatives : List (List Char)} {ls : List (Language Char)}
    (h : List.Forall₂ Adds alternatives ls) (hne : alternatives ≠ [])
    (earlier : RegularExpression Char) (outer : List Level) :
    ∃ level, State.run ⟨.item, { earlier }, outer⟩ (['|'].intercalate alternatives) =
        some ⟨.item, level, outer⟩ ∧ level.value.matches' = earlier.matches' + ls.sum := by
  have hfirst (p : RegularExpression Char) : ({ earlier := p } : Level).current.matches' = 1 :=
    mul_one 1
  induction h generalizing earlier with
  | nil => exact absurd rfl hne
  | @cons a l as ls ha has ih =>
    obtain ⟨level, hrun, hearlier, hcurrent⟩ := ha { earlier } outer
    have hvalue : level.value.matches' = earlier.matches' + l := by
      rw [Level.value, RegularExpression.matches'_add, hearlier, hcurrent, hfirst, one_mul]
    cases has with
    | nil =>
      refine ⟨level, by rwa [List.intercalate_singleton], ?_⟩
      rw [hvalue, List.sum_cons, List.sum_nil, add_zero]
    | cons hb hbs =>
      obtain ⟨level', hrun', hvalue'⟩ := ih (List.cons_ne_nil _ _) level.value
      refine ⟨level', ?_, ?_⟩
      · rw [List.intercalate_cons_cons, List.append_assoc, State.run_append, hrun]
        exact hrun'
      · rw [hvalue', hvalue, add_assoc, ← List.sum_cons]

theorem adds_anyOf {alternatives : List (List Char)} {ls : List (Language Char)}
    (h : List.Forall₂ Adds alternatives ls) (hne : alternatives ≠ []) :
    Adds (Shape.anyOf alternatives) ls.sum := by
  intro level outer
  obtain ⟨inner, hrun, hvalue⟩ := run_alternatives h hne 0 (level :: outer)
  refine ⟨level.push inner.value, ?_, rfl, ?_⟩
  · have hopen : State.run ⟨.item, level, outer⟩ "(?:".toList =
        some ⟨.item, {}, level :: outer⟩ := rfl
    rw [Shape.anyOf, List.append_assoc, State.run_append, hopen]
    change State.run ⟨.item, {}, level :: outer⟩ (_ ++ [')']) = _
    rw [State.run_append, hrun]
    rfl
  · rw [matches'_current_push, hvalue, RegularExpression.matches'_zero, zero_add]

end Payables.Pattern

namespace Payables

open Text

namespace Shape

variable {shape : Shape} {n : String}

/-- The bounds of the digits are in order, and there is a literal text. -/
def IsWritable : Shape → Prop
  | digits _ least most => least ≤ most
  | literals texts => texts ≠ []

def language : Shape → Language Char
  | digits stem least most => {stem.toList} * Pattern.digitTexts least most
  | literals texts => (texts.map fun t => {t.toList}).sum

theorem adds_text (h : shape.IsWritable) : Pattern.Adds shape.text shape.language := by
  cases shape with
  | digits stem least most =>
    rw [text, List.append_assoc]
    exact (Pattern.adds_escape stem.toList).append (Pattern.adds_digits h)
  | literals texts =>
    refine Pattern.adds_anyOf ?_ (by simpa [IsWritable] using h)
    rw [List.forall₂_map_left_iff, List.forall₂_map_right_iff, List.forall₂_same]
    exact fun t _ => Pattern.adds_escape t.toList

theorem fits_digits_iff {stem s : String} {least most : Nat} :
    (Shape.digits stem least most).fits s = true ↔
      ∃ ds, s.toList = stem.toList ++ ds ∧ (∀ c ∈ ds, c.isDigit = true) ∧
        least ≤ ds.length ∧ ds.length ≤ most := by
  rw [fits]
  cases hrest : afterPrefix? stem.toList s.toList with
  | none =>
    refine iff_of_false (by simp) ?_
    rintro ⟨ds, hs, -⟩
    rw [afterPrefix?_eq_some_iff.2 hs] at hrest
    cases hrest
  | some ds =>
    have hs := afterPrefix?_eq_some_iff.1 hrest
    simp only [Bool.and_eq_true, List.all_eq_true, decide_eq_true_eq, and_assoc]
    constructor
    · exact fun h => ⟨ds, hs, h⟩
    · rintro ⟨ds', hs', h⟩
      rwa [List.append_cancel_left (hs.symm.trans hs')]

theorem mem_language_iff : n.toList ∈ shape.language ↔ shape.fits n = true := by
  cases shape with
  | digits stem least most =>
    rw [fits_digits_iff, language, Language.mem_mul]
    constructor
    · rintro ⟨_, rfl, ds, hds, heq⟩
      exact ⟨ds, heq.symm, hds⟩
    · rintro ⟨ds, heq, hds⟩
      exact ⟨stem.toList, rfl, ds, hds, heq.symm⟩
  | literals texts =>
    simp [language, fits, Pattern.mem_sum, Pattern.mem_singleton, String.toList_inj]

end Shape

namespace Family

variable {f : Family} {n : String}

structure IsWritable (f : Family) : Prop where
  ne_nil : f.shapes ≠ []
  shapes : ∀ shape ∈ f.shapes, shape.IsWritable

/-- The pattern of a family is read as a regular expression that matches what the family has. -/
theorem exists_read_text (h : f.IsWritable) : ∃ P, Pattern.read? f.text.toList = some P ∧
    ∀ n : String, n.toList ∈ P.matches' ↔ f.fits n = true := by
  have hshapes : List.Forall₂ Pattern.Adds (f.shapes.map Shape.text)
      (f.shapes.map Shape.language) := by
    rw [List.forall₂_map_left_iff, List.forall₂_map_right_iff, List.forall₂_same]
    exact fun shape hshape => Shape.adds_text (h.shapes shape hshape)
  obtain ⟨level, hrun, hearlier, hcurrent⟩ :=
    Pattern.adds_anyOf hshapes (by simpa using h.ne_nil) {} []
  refine ⟨level.value, ?_, fun n => ?_⟩
  · have hend : Pattern.State.run {} (Shape.anyOf (f.shapes.map Shape.text) ++ ['$']) =
        some ⟨.ended, level, []⟩ := by
      rw [Pattern.State.run_append, hrun]
      rfl
    rw [text, String.toList_ofList, List.cons_append, Pattern.read?, hend]
  · have hvalue : level.value.matches' = (f.shapes.map Shape.language).sum := by
      rw [Pattern.Level.value, RegularExpression.matches'_add, hearlier, hcurrent]
      exact (zero_add _).trans ((congrArg (· * _) (mul_one 1)).trans (one_mul _))
    rw [hvalue, Pattern.mem_sum, fits, List.any_eq_true]
    simp [Shape.mem_language_iff]

end Family

end Payables
