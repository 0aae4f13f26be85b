import Payables.Calendar.Part

/-!
# Cutting a text in one pass

Trying the lengths of every piece anew for each choice of the pieces before it takes a number of
steps that is exponential in the number of parts. `cut?` goes through the parts from the last to the
first instead and keeps, for every place of the text, the first way to cut what follows that place.
Main statement: `cut?` finds what `pieces?` defines.
-/

namespace Payables.Calendar

open Text

/-- The pieces of a text, or that it has none. -/
abbrev Cut := Option (List (List Char))

/-- Puts a character in front of the first piece. -/
def widen (c : Char) : List (List Char) → List (List Char)
  | [] => []
  | piece :: pieces => (c :: piece) :: pieces

/-- The cuts at every place of a text for a part and the parts after it, given those of the parts
after it. -/
def Part.cuts (p : Part) : List Char → List Cut → List Cut
  | [], _ => [none]
  | c :: s, after =>
    let later := p.cuts s after.tail
    let here :=
      match p.runClass? with
      | some q =>
        if q c then
          ((later.headD none).map (widen c)).or ((after.tail.headD none).map ([c] :: ·))
        else none
      | none =>
        (p.lengths (c :: s)).findSome? fun n => (after.getD n none).map ((c :: s).take n :: ·)
    here :: later

/-- The cuts at every place of a text when no part is left. -/
def endCuts : List Char → List Cut
  | [] => [some []]
  | _ :: s => none :: endCuts s

def cuts : List Part → List Char → List Cut
  | [], s => endCuts s
  | p :: ps, s => p.cuts s (cuts ps s)

/-- The first way to cut the whole text into pieces for the parts. -/
def cut? (ps : List Part) (s : List Char) : Cut := (cuts ps s).headD none

theorem runLengths_cons (q : Char → Bool) (c : Char) (s : List Char) :
    runLengths q 1 (c :: s) = if q c then (runLengths q 1 s).map (· + 1) ++ [1] else [] := by
  by_cases h : q c
  · simp only [runLengths, List.takeWhile_cons, h, if_true, List.length_cons, Nat.add_sub_cancel,
      List.range_succ, List.map_append, List.map_map, List.map_cons, List.map_nil,
      Nat.add_sub_cancel_left]
    congr 1
    refine List.map_congr_left fun n hn => ?_
    have := List.mem_range.1 hn
    simp only [Function.comp_apply]
    omega
  · simp [runLengths, h]

theorem le_length_of_mem_runLengths {q : Char → Bool} {fewest n : Nat} {s : List Char}
    (h : n ∈ runLengths q fewest s) : n ≤ s.length := by
  simp only [runLengths, List.mem_map, List.mem_range] at h
  obtain ⟨m, -, rfl⟩ := h
  have := (List.takeWhile_sublist q (l := s)).length_le
  omega

/-- A part takes at least one character. -/
theorem Part.lengths_nil (p : Part) : p.lengths [] = [] := by
  cases p with
  | token t => cases t <;> rfl
  | literal c => by_cases h : isBlank c <;> simp [lengths, h, runLengths]

theorem two_le_length_of_startsWithOrdinalSuffix {s : List Char}
    (h : startsWithOrdinalSuffix s = true) : 2 ≤ s.length := by
  match s with
  | [] => simp [startsWithOrdinalSuffix, ordinalSuffixes] at h
  | [_] => simp [startsWithOrdinalSuffix, ordinalSuffixes] at h
  | _ :: _ :: _ => simp

theorem Part.le_length_of_mem_lengths {p : Part} {s : List Char} {n : Nat}
    (h : n ∈ p.lengths s) : n ≤ s.length := by
  have short {q : Char → Bool} {fewest most : Nat}
      (h : n ∈ runLengths q fewest (s.take most)) : n ≤ s.length :=
    Nat.le_trans (le_length_of_mem_runLengths h) (List.length_take_le' most s)
  cases p with
  | token t =>
    cases t with
    | dayOrdinal =>
      simp only [lengths, List.mem_map, List.mem_filter] at h
      obtain ⟨m, ⟨-, hm⟩, rfl⟩ := h
      have := two_le_length_of_startsWithOrdinalSuffix hm
      rw [List.length_drop] at this
      omega
    | monthName => exact le_length_of_mem_runLengths h
    | weekday => exact le_length_of_mem_runLengths h
    | year4 => exact short h
    | monthAbbreviation => exact short h
    | month2 => exact short h
    | day2 => exact short h
    | year2 => exact short h
    | month1 => exact short h
    | day1 => exact short h
  | literal c =>
    simp only [lengths] at h
    split at h
    · exact le_length_of_mem_runLengths h
    · split at h
      · rename_i hs
        cases s with
        | nil => simp at hs
        | cons _ _ => simp_all
      · simp at h

theorem findSome?_eq_of_forall_mem {α β : Type} {f g : α → Option β} {xs : List α}
    (h : ∀ x ∈ xs, f x = g x) : xs.findSome? f = xs.findSome? g := by
  induction xs with
  | nil => rfl
  | cons x xs ih =>
    rw [List.findSome?_cons, List.findSome?_cons, h x (by simp), ih fun y hy => h y (by simp [hy])]

theorem pieces?_cons_nil (p : Part) (ps : List Part) : pieces? (p :: ps) [] = none := by
  simp [pieces?, Part.lengths_nil]

/-- A run takes one more character and goes on, or else ends here. -/
theorem pieces?_cons_of_runClass {p : Part} {q : Char → Bool} (h : p.runClass? = some q)
    (ps : List Part) (c : Char) (s : List Char) :
    pieces? (p :: ps) (c :: s) =
      if q c then ((pieces? (p :: ps) s).map (widen c)).or ((pieces? ps s).map ([c] :: ·))
      else none := by
  simp only [pieces?, Part.lengths_eq_runLengths h, runLengths_cons]
  split
  · simp only [List.findSome?_append, List.findSome?_map, List.findSome?_cons, List.findSome?_nil,
      List.drop_succ_cons, List.take_succ_cons, List.drop_zero, List.take_zero]
    congr 1
    · rw [List.map_findSome?]
      congr 1
      funext n
      simp [Function.comp_def, widen]
    · cases pieces? ps s <;> rfl
  · rfl

/-- The cuts of a text start with its first cut and go on with those of its tail. -/
def Tabulates (ps : List Part) : List Char → List Cut → Prop
  | [], cs => cs = [pieces? ps []]
  | c :: s, cs => ∃ later, cs = pieces? ps (c :: s) :: later ∧ Tabulates ps s later

namespace Tabulates

variable {ps : List Part} {s : List Char} {cs : List Cut}

theorem headD (h : Tabulates ps s cs) : cs.headD none = pieces? ps s := by
  cases s with
  | nil => rw [h]; rfl
  | cons c s => obtain ⟨_, rfl, -⟩ := h; rfl

theorem getD (h : Tabulates ps s cs) {n : Nat} (hn : n ≤ s.length) :
    cs.getD n none = pieces? ps (s.drop n) := by
  induction s generalizing cs n with
  | nil => obtain rfl : n = 0 := by simpa using hn
           rw [h]; rfl
  | cons c s ih =>
    obtain ⟨later, rfl, h⟩ := h
    cases n with
    | zero => rfl
    | succ n => simpa using ih h (by simpa using hn)

theorem endCuts (s : List Char) : Tabulates [] s (endCuts s) := by
  induction s with
  | nil => rfl
  | cons c s ih => exact ⟨_, rfl, ih⟩

theorem cuts_part {p : Part} (h : Tabulates ps s cs) : Tabulates (p :: ps) s (p.cuts s cs) := by
  induction s generalizing cs with
  | nil => simp [Tabulates, Part.cuts, pieces?_cons_nil]
  | cons c s ih =>
    have hget := fun n (hn : n ∈ p.lengths (c :: s)) => h.getD (Part.le_length_of_mem_lengths hn)
    obtain ⟨later, rfl, h⟩ := h
    have hlater := ih h
    refine ⟨p.cuts s later, ?_, hlater⟩
    simp only [Part.cuts, List.tail_cons, hlater.headD, h.headD]
    congr 1
    split
    · rename_i q hq
      rw [pieces?_cons_of_runClass hq]
    · rw [pieces?]
      exact (findSome?_eq_of_forall_mem fun n hn => by rw [hget n hn]).symm

end Tabulates

theorem tabulates_cuts (ps : List Part) (s : List Char) : Tabulates ps s (cuts ps s) := by
  induction ps with
  | nil => exact .endCuts s
  | cons p ps ih => exact ih.cuts_part

theorem cut?_eq_pieces? (ps : List Part) (s : List Char) : cut? ps s = pieces? ps s :=
  (tabulates_cuts ps s).headD

end Payables.Calendar
