import Payables.Similarity

/-!
# The search in two buffers

A row of the search is made from the row before it alone, so two buffers are enough that change
places after each row: the older row is written over from its second place on. Nothing that it held
is read again, and the search in the buffers finds the block of the search with new rows
(`longestBlockInBuffers_eq`).
-/

namespace Payables

namespace Block

variable {b : List Char} {row old : List Nat} {x : Char} {i j : Nat}

/-- What the search holds: the ends of the row before, behind a zero for the place before the first
character; the buffer that is written over; and the best block. -/
structure Buffers where
  before : List Nat
  here : List Nat
  best : Block

/-- Writes the row of a character over the buffer, from character `j` of the other text on. -/
def writeRow (x : Char) (i j : Nat) : List Char → Buffers → Buffers
  | [], s => s
  | y :: b, s =>
    let n := if x = y then s.before.getD j 0 + 1 else 0
    writeRow x i (j + 1) b { s with
      here := s.here.set (j + 1) n
      best := if s.best.length < n then ⟨i + 1 - n, j + 1 - n, n⟩ else s.best }

def writeRows (b : List Char) (i : Nat) : List Char → Buffers → Buffers
  | [], s => s
  | x :: a, s =>
    let s' := writeRow x i 0 b s
    writeRows b (i + 1) a ⟨s'.here, s'.before, s'.best⟩

theorem length_nextRow (x : Char) (h : row.length = b.length) :
    (nextRow x b row).length = b.length := by
  simp [nextRow, h]

theorem take_succ_set {l : List Nat} {k : Nat} (h : k < l.length) (n : Nat) :
    (l.set k n).take (k + 1) = l.take k ++ [n] := by
  rw [List.take_succ_eq_append_getElem (by rwa [List.length_set]),
    List.take_set_of_le (Nat.le_refl k), List.getElem_set_self]

theorem writeRow_eq (x : Char) (i : Nat) {s : Buffers} (hbefore : j + b.length ≤ s.before.length)
    (hhere : s.here.length = j + 1 + b.length) {ns : List Nat}
    (hns : ns = (b.zip (s.before.drop j)).map fun p => if x = p.1 then p.2 + 1 else 0) :
    writeRow x i j b s = ⟨s.before, s.here.take (j + 1) ++ ns, bestOfRow i j ns s.best⟩ := by
  induction b generalizing j s ns with
  | nil =>
    have hwritten : s.here.take (j + 1) = s.here := List.take_of_length_le (Nat.le_of_eq hhere)
    subst hns
    simp [writeRow, bestOfRow, hwritten]
  | cons y b ih =>
    rw [List.length_cons] at hbefore hhere
    have hj : j < s.before.length := by omega
    have hget : s.before.getD j 0 = s.before[j] := by simp [hj]
    rw [List.drop_eq_getElem_cons hj, List.zip_cons_cons, List.map_cons] at hns
    subst hns
    rw [writeRow, ih (by dsimp only; omega) (by rw [List.length_set]; omega) rfl, hget,
      take_succ_set (by omega), List.append_assoc, List.singleton_append, bestOfRow]

/-- Whatever the buffer held, the next row is in it, behind the zero that is never written over. -/
theorem writeRow_zero_eq (x : Char) (i : Nat) (best : Block) (hrow : row.length = b.length)
    (hold : old.length = b.length) :
    writeRow x i 0 b ⟨0 :: row, 0 :: old, best⟩ =
      ⟨0 :: row, 0 :: nextRow x b row, bestOfRow i 0 (nextRow x b row) best⟩ := by
  apply writeRow_eq
  · simp [hrow]
  · simp [hold, Nat.add_comm]
  · rfl

theorem best_writeRows (i : Nat) (a : List Char) (best : Block) (hrow : row.length = b.length)
    (hold : old.length = b.length) :
    (writeRows b i a ⟨0 :: row, 0 :: old, best⟩).best = bestFrom b i a row best := by
  induction a generalizing i row old best with
  | nil => rfl
  | cons x a ih =>
    rw [writeRows, writeRow_zero_eq x i best hrow hold, bestFrom]
    exact ih (i + 1) _ (length_nextRow x hrow) hrow

end Block

/-- The longest block, found with two buffers of zeros that change places after each row. -/
def longestBlockInBuffers (a b : List Char) : Block :=
  let zeros := List.replicate (b.length + 1) 0
  (Block.writeRows b 0 a ⟨zeros, zeros, .none⟩).best

theorem longestBlockInBuffers_eq (a b : List Char) :
    longestBlockInBuffers a b = longestBlock a b := by
  have hzeros : (List.replicate b.length 0).length = b.length := List.length_replicate
  exact Block.best_writeRows 0 a .none hzeros hzeros

end Payables
