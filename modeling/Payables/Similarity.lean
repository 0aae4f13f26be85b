import Payables.Number.Binary64

/-!
# Similarity of texts

`longestBlock` finds the longest stretch that two texts share, the one that starts first in the
first text and then in the second. `commonChars` adds the blocks found in the same way on both
sides of it, and `similarity` is twice that count in proportion to the characters of both texts.
-/

namespace Payables

/-- A stretch of `length` characters from `left` in one text and from `right` in another. -/
structure Block where
  left : Nat
  right : Nat
  length : Nat
deriving DecidableEq, Repr

namespace Block

def none : Block := ⟨0, 0, 0⟩

/-- The lengths of the shared stretches that end at each character of `b`, after one more character
of the other text. -/
def nextRow (x : Char) (b : List Char) (row : List Nat) : List Nat :=
  (b.zip (0 :: row)).map fun p => if x = p.1 then p.2 + 1 else 0

/-- The better of a block and the stretches that end at character `i`, from character `j` on. -/
def bestOfRow (i j : Nat) : List Nat → Block → Block
  | [], best => best
  | n :: row, best =>
    bestOfRow i (j + 1) row (if best.length < n then ⟨i + 1 - n, j + 1 - n, n⟩ else best)

def bestFrom (b : List Char) (i : Nat) : List Char → List Nat → Block → Block
  | [], _, best => best
  | x :: a, row, best =>
    bestFrom b (i + 1) a (nextRow x b row) (bestOfRow i 0 (nextRow x b row) best)

theorem le_of_mem_nextRow {x : Char} {b : List Char} {row : List Nat} {i : Nat}
    (h : ∀ n ∈ row, n ≤ i) : ∀ n ∈ nextRow x b row, n ≤ i + 1 := by
  intro n hn
  obtain ⟨p, hp, rfl⟩ := List.mem_map.1 hn
  have : p.2 ≤ i := by
    rcases List.mem_cons.1 (List.of_mem_zip hp).2 with h₀ | hm
    · omega
    · exact h _ hm
  split <;> omega

theorem bestOfRow_le {i : Nat} {row : List Nat} (h : ∀ n ∈ row, n ≤ i + 1) (j : Nat)
    {best : Block} (hb : best.left + best.length ≤ i + 1) :
    (bestOfRow i j row best).left + (bestOfRow i j row best).length ≤ i + 1 := by
  induction row generalizing j best with
  | nil => simpa [bestOfRow] using hb
  | cons n row ih =>
    have hn := h n (by simp)
    apply ih (fun m hm => h m (by simp [hm]))
    split
    · simp only; omega
    · exact hb

theorem bestFrom_le {b a : List Char} {i : Nat} {row : List Nat} (h : ∀ n ∈ row, n ≤ i)
    {best : Block} (hb : best.left + best.length ≤ i) :
    (bestFrom b i a row best).left + (bestFrom b i a row best).length ≤ i + a.length := by
  induction a generalizing i row best with
  | nil => simpa [bestFrom] using hb
  | cons x a ih =>
    have hr := le_of_mem_nextRow (x := x) (b := b) h
    have hb' : best.left + best.length ≤ i + 1 := by omega
    have := ih hr (bestOfRow_le hr 0 hb')
    simp only [bestFrom, List.length_cons]
    omega

end Block

def longestBlock (a b : List Char) : Block :=
  Block.bestFrom b 0 a (List.replicate b.length 0) .none

theorem longestBlock_le (a b : List Char) :
    (longestBlock a b).left + (longestBlock a b).length ≤ a.length := by
  have hrow : ∀ n ∈ List.replicate b.length 0, n ≤ 0 := by simp
  have hnone : Block.none.left + Block.none.length ≤ 0 := by simp [Block.none]
  simpa [longestBlock] using Block.bestFrom_le (b := b) (a := a) hrow hnone

/-- The number of characters in the blocks that two texts share. -/
def commonChars (a b : List Char) : Nat :=
  let m := longestBlock a b
  if _ : m.length = 0 then 0
  else
    m.length + commonChars (a.take m.left) (b.take m.right) +
      commonChars (a.drop (m.left + m.length)) (b.drop (m.right + m.length))
termination_by a.length
decreasing_by
  all_goals
    have h' : (longestBlock a b).length ≠ 0 := ‹_›
    have := longestBlock_le a b
    simp only [List.length_take, List.length_drop]
    omega

def similarityOf (a b : List Char) : Binary64 :=
  if a.length + b.length = 0 then 1 else .ofRatio (2 * commonChars a b) (a.length + b.length)

def similarity (a b : String) : Binary64 := similarityOf a.toList b.toList

end Payables
