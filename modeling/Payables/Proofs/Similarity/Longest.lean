import Payables.Proofs.Similarity.Blocks
import Payables.Proofs.Similarity.Buffers

/-!
# The longest block

The search for a block goes through the places where one can end: through the characters of the
first text, and at each of them through those of the second. At every place it holds the longest of
the blocks that end before it, and of these the one that starts first (`IsBestBefore`), since blocks
of one length start in the order in which they end. So it settles on the longest block that two
texts share and on the first of them, and no other block is that (`longestBlock_findsFirst`).
-/

namespace Payables

namespace Block

variable {a b : List Char} {m n : Block} {i j : Nat}

theorem IsShared.le_length (h : m.IsShared a b) (hpos : 0 < m.length) :
    m.left + m.length ≤ a.length ∧ m.right + m.length ≤ b.length := by
  obtain ⟨s, hs, hsa, hsb⟩ := h
  have hlea := hsa.length_le
  have hleb := hsb.length_le
  rw [List.length_drop] at hlea hleb
  omega

theorem IsShared.exists_mem (h : m.IsShared a b) (hpos : 0 < m.length) : ∃ x ∈ a, x ∈ b := by
  obtain ⟨s, hs, hsa, hsb⟩ := h
  obtain ⟨x, hx⟩ := List.exists_mem_of_length_pos (hs ▸ hpos)
  exact ⟨x, List.mem_of_mem_drop (hsa.mem hx), List.mem_of_mem_drop (hsb.mem hx)⟩

theorem exists_isShared_of_mem {x : Char} (ha : x ∈ a) (hb : x ∈ b) :
    ∃ n : Block, n.IsShared a b ∧ n.length = 1 := by
  obtain ⟨before, after, rfl⟩ := List.append_of_mem ha
  obtain ⟨before', after', rfl⟩ := List.append_of_mem hb
  refine ⟨⟨before.length, before'.length, 1⟩, ⟨[x], rfl, ?_, ?_⟩, rfl⟩
  · simp
  · simp

theorem le_sharedEnd {s : List Char} (ha : s <:+ a) (hb : s <:+ b) : s.length ≤ sharedEnd a b := by
  induction s using List.reverseRecOn generalizing a b with
  | nil => exact Nat.zero_le _
  | append_singleton s x ih =>
    obtain ⟨before, rfl⟩ := ha
    obtain ⟨before', rfl⟩ := hb
    have hle := ih (List.suffix_append before s) (List.suffix_append before' s)
    rw [← List.append_assoc, ← List.append_assoc, sharedEnd_concat, if_pos rfl, List.length_append]
    exact Nat.succ_le_succ hle

theorem sharedEnd_le (a b : List Char) : sharedEnd a b ≤ a.length ∧ sharedEnd a b ≤ b.length := by
  obtain ⟨s, hs, ha, hb⟩ := exists_suffix_sharedEnd a b
  rw [← hs]
  exact ⟨ha.length_le, hb.length_le⟩

theorem suffix_take_of_prefix_drop {s : List Char} {k : Nat} (h : s <+: a.drop k) :
    s <:+ a.take (k + s.length) := by
  rw [List.take_add, ← List.prefix_iff_eq_take.1 h]
  exact List.suffix_append _ s

theorem IsShared.length_le_sharedEnd (h : m.IsShared a b) :
    m.length ≤ sharedEnd (a.take (m.left + m.length)) (b.take (m.right + m.length)) := by
  obtain ⟨s, hs, hsa, hsb⟩ := h
  rw [← hs]
  exact le_sharedEnd (suffix_take_of_prefix_drop hsa) (suffix_take_of_prefix_drop hsb)

/-- The block starts earlier in the first text, or there at the same character and earlier in the
second. -/
def StartsBefore (m n : Block) : Prop := m.left < n.left ∨ m.left = n.left ∧ m.right < n.right

/-- The block is longer, or of the same length and starts before the other. -/
def Beats (m n : Block) : Prop := n.length < m.length ∨ n.length = m.length ∧ m.StartsBefore n

/-- The block ends before the search comes to character `j` of the second text in the row of
character `i` of the first. -/
def EndsBefore (i j : Nat) (m : Block) : Prop :=
  m.left + m.length ≤ i ∨ m.left + m.length = i + 1 ∧ m.right + m.length ≤ j

/-- The block is the best of those that end before the search comes to a place. -/
structure IsBestBefore (a b : List Char) (i j : Nat) (m : Block) : Prop where
  endsBefore : 0 < m.length → m.EndsBefore i j
  beats : ∀ n : Block, n.IsShared a b → 0 < n.length → n.EndsBefore i j → n ≠ m → m.Beats n
  eq_none : m.length = 0 → m = none

theorem isBestBefore_start (a b : List Char) : IsBestBefore a b 0 0 none where
  endsBefore h := absurd h (Nat.lt_irrefl 0)
  beats n _ hpos hends := by
    unfold EndsBefore at hends
    omega
  eq_none _ := rfl

theorem IsBestBefore.next (h : IsBestBefore a b i j m) {k : Nat}
    (hk : k = sharedEnd (a.take (i + 1)) (b.take (j + 1))) :
    IsBestBefore a b i (j + 1) (if m.length < k then ⟨i + 1 - k, j + 1 - k, k⟩ else m) := by
  have hle : k ≤ i + 1 ∧ k ≤ j + 1 := by
    have hlength := sharedEnd_le (a.take (i + 1)) (b.take (j + 1))
    rw [← hk, List.length_take, List.length_take] at hlength
    omega
  have hplace (n : Block) (hn : n.IsShared a b) (hends : n.EndsBefore i (j + 1)) :
      n.EndsBefore i j ∨
        n.left + n.length = i + 1 ∧ n.right + n.length = j + 1 ∧ n.length ≤ k := by
    by_cases hat : n.left + n.length = i + 1 ∧ n.right + n.length = j + 1
    · have hlength := hn.length_le_sharedEnd
      rw [hat.1, hat.2, ← hk] at hlength
      exact .inr ⟨hat.1, hat.2, hlength⟩
    · unfold EndsBefore at hends ⊢
      omega
  split
  case isTrue hlt =>
    constructor
    case endsBefore =>
      intro _
      unfold EndsBefore
      dsimp only
      omega
    case beats =>
      intro n hn hpos hends hne
      apply Or.inl
      rcases hplace n hn hends with hearlier | ⟨hleft, hright, hlength⟩
      · by_cases heq : n = m
        · rwa [heq]
        · rcases h.beats n hn hpos hearlier heq with hlonger | ⟨hsame, -⟩
          · exact hlonger.trans hlt
          · rwa [hsame]
      · obtain ⟨left, right, length⟩ := n
        rw [Ne, Block.mk.injEq] at hne
        dsimp only at *
        omega
    case eq_none =>
      intro hzero
      dsimp only at hzero
      omega
  case isFalse hnot =>
    constructor
    case endsBefore =>
      intro hpos
      have hends := h.endsBefore hpos
      unfold EndsBefore at hends ⊢
      omega
    case beats =>
      intro n hn hpos hends hne
      rcases hplace n hn hends with hearlier | ⟨hleft, hright, hlength⟩
      · exact h.beats n hn hpos hearlier hne
      · -- of one length with the best one it ends later, and so it starts later
        have hbest := h.endsBefore
        unfold EndsBefore at hbest
        unfold Beats StartsBefore
        omega
    case eq_none => exact h.eq_none

theorem isBestBefore_bestOfRow (h : IsBestBefore a b i j m) (hj : j ≤ b.length) {ns : List Nat}
    (hns : ns = (row (a.take (i + 1)) b).drop j) :
    IsBestBefore a b i b.length (bestOfRow i j ns m) := by
  induction ns generalizing j m with
  | nil =>
    have hlength := congrArg List.length hns
    rw [List.length_drop, length_row, List.length_nil] at hlength
    obtain rfl : j = b.length := by omega
    exact h
  | cons n ns ih =>
    have hlength := congrArg List.length hns
    rw [List.length_drop, length_row, List.length_cons] at hlength
    have hrow : j < (row (a.take (i + 1)) b).length := by
      rw [length_row]
      omega
    rw [List.drop_eq_getElem_cons hrow] at hns
    obtain ⟨hn, hrest⟩ := List.cons.inj hns
    apply ih _ (by omega) hrest
    apply h.next
    rw [hn, getElem_row]

theorem IsBestBefore.nextRow (h : IsBestBefore a b i b.length m) :
    IsBestBefore a b (i + 1) 0 m where
  endsBefore hpos := by
    have hends := h.endsBefore hpos
    unfold EndsBefore at hends ⊢
    omega
  beats n hn hpos hends := by
    have hlength := hn.le_length hpos
    apply h.beats n hn hpos
    unfold EndsBefore at hends ⊢
    omega
  eq_none := h.eq_none

/-- The search has read `done` of the first text and goes on with the row of its shared ends. -/
theorem isBestBefore_bestFrom {done rest : List Char} (ha : done ++ rest = a)
    (h : IsBestBefore a b done.length 0 m) :
    IsBestBefore a b a.length 0 (bestFrom b done.length rest (row done b) m) := by
  induction rest generalizing done m with
  | nil =>
    obtain rfl : done = a := by rwa [List.append_nil] at ha
    exact h
  | cons x rest ih =>
    have hdone : a.take (done.length + 1) = done ++ [x] := by
      rw [← ha, List.take_length_add_append]
      rfl
    have hrest : (done ++ [x]) ++ rest = a := by rwa [List.append_assoc, List.singleton_append]
    have hrow : IsBestBefore a b done.length b.length
        (bestOfRow done.length 0 (row (done ++ [x]) b) m) := by
      apply isBestBefore_bestOfRow h (Nat.zero_le _)
      rw [hdone, List.drop_zero]
    have hlength : (done ++ [x]).length = done.length + 1 := by simp
    rw [bestFrom, nextRow_row, ← hlength]
    apply ih hrest
    rw [hlength]
    exact hrow.nextRow

/-- The block is shared, no shared block is longer, and of those of its length it starts first.
Texts without a common character have the empty block at their starts. -/
structure IsFirstLongest (a b : List Char) (m : Block) : Prop where
  isShared : m.IsShared a b
  longest : ∀ n : Block, n.IsShared a b → n.length ≤ m.length
  first : 0 < m.length → ∀ n : Block, n.IsShared a b → n.length = m.length → n ≠ m →
    m.StartsBefore n
  eq_none : (∀ x ∈ a, x ∉ b) → m = none

theorem isBestBefore_longestBlock (a b : List Char) :
    IsBestBefore a b a.length 0 (longestBlock a b) := by
  rw [longestBlock, ← row_nil_left]
  exact isBestBefore_bestFrom (List.nil_append a) (isBestBefore_start a b)

theorem isFirstLongest_longestBlock (a b : List Char) : IsFirstLongest a b (longestBlock a b) := by
  have hbest := isBestBefore_longestBlock a b
  have hbeats (n : Block) (hn : n.IsShared a b) (hpos : 0 < n.length) (hne : n ≠ longestBlock a b) :
      (longestBlock a b).Beats n := by
    apply hbest.beats n hn hpos _ hne
    exact .inl (hn.le_length hpos).1
  constructor
  case isShared => exact isShared_longestBlock a b
  case longest =>
    intro n hn
    by_contra! hlonger
    have hne : n ≠ longestBlock a b := by
      rintro rfl
      exact Nat.lt_irrefl _ hlonger
    rcases hbeats n hn (by omega) hne with hshorter | ⟨hsame, -⟩
    · omega
    · omega
  case first =>
    intro hpos n hn hsame hne
    rcases hbeats n hn (by omega) hne with hshorter | ⟨-, hfirst⟩
    · omega
    · exact hfirst
  case eq_none =>
    intro hnone
    apply hbest.eq_none
    by_contra hlength
    obtain ⟨x, ha, hb⟩ := (isShared_longestBlock a b).exists_mem (Nat.pos_of_ne_zero hlength)
    exact hnone x ha hb

theorem IsFirstLongest.notMem_of_length (h : IsFirstLongest a b m) (hzero : m.length = 0) :
    ∀ x ∈ a, x ∉ b := by
  intro x ha hb
  obtain ⟨n, hn, hone⟩ := exists_isShared_of_mem ha hb
  have hle := h.longest n hn
  omega

theorem IsFirstLongest.eq_none_of_length (h : IsFirstLongest a b m) (hzero : m.length = 0) :
    m = none :=
  h.eq_none (h.notMem_of_length hzero)

theorem IsFirstLongest.unique (hm : IsFirstLongest a b m) (hn : IsFirstLongest a b n) : m = n := by
  have hlength : m.length = n.length :=
    Nat.le_antisymm (hn.longest m hm.isShared) (hm.longest n hn.isShared)
  by_cases hzero : m.length = 0
  · rw [hm.eq_none_of_length hzero, hn.eq_none_of_length (hlength ▸ hzero)]
  · by_contra hne
    have hbefore := hm.first (by omega) n hn.isShared hlength.symm (Ne.symm hne)
    have hafter := hn.first (by omega) m hm.isShared hlength hne
    unfold StartsBefore at hbefore hafter
    omega

end Block

/-- In any two texts the search finds the longest block that they share and the first of them, and
no other block is that; and it finds it with two buffers in turn as it does with new rows. -/
theorem longestBlock_findsFirst (a b : List Char) :
    (∀ m, Block.IsFirstLongest a b m ↔ m = longestBlock a b) ∧
      longestBlockInBuffers a b = longestBlock a b := by
  constructor
  · intro m
    constructor
    · intro h
      exact h.unique (Block.isFirstLongest_longestBlock a b)
    · rintro rfl
      exact Block.isFirstLongest_longestBlock a b
  · exact longestBlockInBuffers_eq a b

/-- Of the shared stretches of two characters the first one is found. -/
example : longestBlock "abxcd".toList "cd ab".toList = ⟨0, 3, 2⟩ := by decide

end Payables
