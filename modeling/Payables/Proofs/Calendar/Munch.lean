import Payables.Proofs.Calendar.Tokens

/-!
# The longest part at every place

The tokens are tried in a fixed order, longer spellings first, so that the first token that fits is
the longest one, and a single character is taken only where no token fits. The list of parts that
spells a template in this way is unique, and it is what a template is cut into
(`tokenize_munches`). A reader that goes by UTF-8 bytes comes to the same parts: what it has read
ends where a character ends, so that it never cuts one in two.
-/

namespace Payables.Calendar

open Text

variable {s rest : List Char} {p q : Part} {ps : List Part} {t u : Token}

/-- What to take at the start of a text: the longest token that the text starts with, and its first
character only if it starts with none. -/
def Part.IsLongest (s : List Char) : Part → Prop
  | .token t =>
    t.spelling <+: s ∧ ∀ u : Token, u.spelling <+: s → u.spelling.length ≤ t.spelling.length
  | .literal c => [c] <+: s ∧ ∀ u : Token, ¬ u.spelling <+: s

theorem Token.mem_all (t : Token) : t ∈ all := by
  cases t <;> decide

theorem Token.pairwise_length_all :
    all.Pairwise fun t u => u.spelling.length ≤ t.spelling.length := by
  decide

theorem Token.length_le_of_notMem {before after : List Token} (h : all = before ++ t :: after)
    (hu : u ∉ before) : u.spelling.length ≤ t.spelling.length := by
  have hsorted := pairwise_length_all
  have hmem := u.mem_all
  rw [h, List.pairwise_append, List.pairwise_cons] at hsorted
  rw [h, List.mem_append, List.mem_cons, or_iff_right hu] at hmem
  rcases hmem with rfl | hafter
  · exact Nat.le_refl _
  · exact hsorted.2.1.1 u hafter

theorem Token.eq_of_spelling_eq (h : t.spelling = u.spelling) : t = u := by
  have hall : ∀ t ∈ all, ∀ u ∈ all, t.spelling = u.spelling → t = u := by decide
  exact hall t t.mem_all u u.mem_all h

theorem Part.IsLongest.unique (hp : p.IsLongest s) (hq : q.IsLongest s) : p = q := by
  cases p with
  | token t =>
    cases q with
    | token u =>
      have hlength : t.spelling.length = u.spelling.length :=
        Nat.le_antisymm (hq.2 t hp.1) (hp.2 u hq.1)
      have hstart := List.prefix_of_prefix_length_le hp.1 hq.1 hlength.le
      rw [Token.eq_of_spelling_eq (hstart.eq_of_length hlength)]
    | literal d => exact absurd hp.1 (hq.2 t)
  | literal c =>
    cases q with
    | token u => exact absurd hq.1 (hp.2 u)
    | literal d =>
      have hstart := List.prefix_of_prefix_length_le hp.1 hq.1 (Nat.le_refl 1)
      rw [(List.cons.inj (hstart.eq_of_length rfl)).1]

theorem isLongest_nextPart (c : Char) (cs : List Char) :
    (nextPart c cs).1.IsLongest (c :: cs) := by
  unfold nextPart
  split
  · rename_i t rest h
    obtain ⟨before, first, after, hall, hfirst, hbefore⟩ := List.findSome?_eq_some_iff.1 h
    obtain ⟨r, hr, hpair⟩ := Option.map_eq_some_iff.1 hfirst
    obtain ⟨rfl, rfl⟩ := Prod.mk.inj hpair
    refine ⟨⟨r, (afterPrefix?_eq_some_iff.1 hr).symm⟩, fun u hu => ?_⟩
    -- A longer token would have been tried before, and it would have been taken.
    apply Token.length_le_of_notMem hall
    intro hmem
    have hnone := Option.map_eq_none_iff.1 (hbefore u hmem)
    exact afterPrefix?_eq_none_iff.1 hnone hu
  · rename_i h
    refine ⟨⟨cs, rfl⟩, fun u => ?_⟩
    have hnone := Option.map_eq_none_iff.1 (List.findSome?_eq_none_iff.1 h u u.mem_all)
    exact afterPrefix?_eq_none_iff.1 hnone

theorem nextPart_of_isLongest {c : Char} {cs : List Char} (h : p.IsLongest (c :: cs))
    (hrest : p.spelling ++ rest = c :: cs) : nextPart c cs = (p, rest) := by
  have hpart : (nextPart c cs).1 = p := (isLongest_nextPart c cs).unique h
  have hspelled := spelling_append_nextPart c cs
  rw [hpart, ← hrest] at hspelled
  exact Prod.ext hpart (List.append_cancel_left hspelled)

/-- The parts spell the text, and each of them is the longest one at its place. -/
structure IsMunch (s : List Char) (ps : List Part) : Prop where
  spells : ps.flatMap Part.spelling = s
  longest : ∀ (before after : List Part) (p : Part) (rest : List Char), ps = before ++ p :: after →
    s = before.flatMap Part.spelling ++ rest → p.IsLongest rest

theorem isMunch_nil : IsMunch [] [] where
  spells := rfl
  longest before after p rest hps := by
    cases before <;> cases hps

theorem isMunch_cons_iff :
    IsMunch s (p :: ps) ↔ p.IsLongest s ∧ ∃ rest, p.spelling ++ rest = s ∧ IsMunch rest ps := by
  constructor
  · intro h
    refine ⟨h.longest [] ps p s rfl rfl, ps.flatMap Part.spelling, h.spells, rfl, ?_⟩
    intro before after q rest hps hrest
    refine h.longest (p :: before) after q rest (by rw [hps, List.cons_append]) ?_
    rw [← h.spells, List.flatMap_cons, hrest, List.flatMap_cons, List.append_assoc]
  · rintro ⟨hp, tail, rfl, htail⟩
    constructor
    case spells => rw [List.flatMap_cons, htail.spells]
    case longest =>
      intro before after q rest hps hrest
      cases before with
      | nil =>
        rw [List.nil_append] at hps
        rw [List.flatMap_nil, List.nil_append] at hrest
        rw [← (List.cons.inj hps).1, ← hrest]
        exact hp
      | cons b before =>
        obtain ⟨rfl, hlater⟩ := List.cons.inj hps
        rw [List.flatMap_cons, List.append_assoc] at hrest
        exact htail.longest before after q rest hlater (List.append_cancel_left hrest)

theorem isMunch_tokenize (s : List Char) : IsMunch s (tokenize s) := by
  fun_induction tokenize s with
  | case1 => exact isMunch_nil
  | case2 c cs ih =>
    rw [isMunch_cons_iff]
    exact ⟨isLongest_nextPart c cs, _, spelling_append_nextPart c cs, ih⟩

/-- The first part is the longest one, and it leaves the text that the others spell. -/
theorem IsMunch.eq_tokenize (h : IsMunch s ps) : ps = tokenize s := by
  induction ps generalizing s with
  | nil =>
    obtain rfl : [] = s := h.spells
    rw [tokenize]
  | cons p ps ih =>
    obtain ⟨hp, rest, hrest, hps⟩ := isMunch_cons_iff.1 h
    obtain ⟨c, cs, hspelling⟩ := p.exists_spelling_eq
    rw [hspelling, List.cons_append] at hrest
    subst hrest
    have hnext : nextPart c (cs ++ rest) = (p, rest) :=
      nextPart_of_isLongest hp (by rw [hspelling, List.cons_append])
    rw [tokenize, hnext, ih hps]

def byteCount (s : List Char) : Nat := (String.ofList s).utf8ByteSize

/-- What follows the first bytes of a text, if a character ends there. -/
def afterBytes? : Nat → List Char → Option (List Char)
  | 0, s => some s
  | _, [] => none
  | n, c :: s => if c.utf8Size ≤ n then afterBytes? (n - c.utf8Size) s else none

/-- A reader that has read the first bytes of a text comes to its end with the parts. At each turn
it takes the next part and passes over the bytes of its spelling. -/
inductive Reads (s : List Char) : Nat → List Part → Prop
  | stop {n : Nat} (hrest : afterBytes? n s = some []) : Reads s n []
  | next {n : Nat} {c : Char} {cs : List Char} {ps : List Part}
      (hrest : afterBytes? n s = some (c :: cs))
      (hlater : Reads s (n + byteCount (nextPart c cs).1.spelling) ps) :
      Reads s n ((nextPart c cs).1 :: ps)

theorem byteCount_append (s t : List Char) : byteCount (s ++ t) = byteCount s + byteCount t := by
  rw [byteCount, String.ofList_append, String.utf8ByteSize_append, ← byteCount, ← byteCount]

theorem byteCount_cons (c : Char) (s : List Char) :
    byteCount (c :: s) = c.utf8Size + byteCount s := by
  rw [← List.singleton_append, byteCount_append]
  congr 1
  exact String.utf8ByteSize_singleton

theorem afterBytes?_zero (s : List Char) : afterBytes? 0 s = some s := by
  rw [afterBytes?]

theorem afterBytes?_append (w rest : List Char) :
    afterBytes? (byteCount w) (w ++ rest) = some rest := by
  induction w with
  | nil => exact afterBytes?_zero rest
  | cons c w ih =>
    have hne : c.utf8Size + byteCount w ≠ 0 := (Nat.add_pos_left c.utf8Size_pos _).ne'
    rw [byteCount_cons, List.cons_append, afterBytes?, if_pos (Nat.le_add_right _ _),
      Nat.add_sub_cancel_left, ih]
    exact hne

/-- A reader stands behind the spellings of whole parts, so that a character begins there. -/
theorem reads_tokenize (before rest : List Char) :
    Reads (before ++ rest) (byteCount before) (tokenize rest) := by
  fun_induction tokenize rest generalizing before with
  | case1 => exact .stop (afterBytes?_append before [])
  | case2 c cs ih =>
    apply Reads.next (afterBytes?_append before (c :: cs))
    have hlater := ih (before ++ (nextPart c cs).1.spelling)
    rwa [byteCount_append, List.append_assoc, spelling_append_nextPart] at hlater

theorem Reads.eq_tokenize {n : Nat} (h : Reads s n ps) {before rest : List Char}
    (hs : s = before ++ rest) (hn : n = byteCount before) : ps = tokenize rest := by
  induction h generalizing before rest with
  | stop hrest =>
    rw [hs, hn, afterBytes?_append] at hrest
    rw [Option.some.inj hrest, tokenize]
  | @next n c cs ps hrest _ ih =>
    rw [hs, hn, afterBytes?_append] at hrest
    obtain rfl := Option.some.inj hrest
    have hlater : s = (before ++ (nextPart c cs).1.spelling) ++ (nextPart c cs).2 := by
      rw [List.append_assoc, spelling_append_nextPart, hs]
    rw [tokenize, ih hlater (by rw [hn, byteCount_append])]

/-- Of all lists of parts one spells a text with the longest part at every place, and a reader that
goes by bytes comes to the end of any text with these parts and with no others. -/
theorem tokenize_munches (s : List Char) :
    (∀ ps, IsMunch s ps ↔ ps = tokenize s) ∧ (∀ ps, Reads s 0 ps ↔ ps = tokenize s) := by
  constructor
  · intro ps
    constructor
    · intro h
      exact h.eq_tokenize
    · rintro rfl
      exact isMunch_tokenize s
  · intro ps
    constructor
    · intro h
      exact h.eq_tokenize (List.nil_append s).symm rfl
    · rintro rfl
      exact reads_tokenize [] s

/-- The longest token comes first even if a shorter one would leave a token behind it. -/
example : tokenize "DDo é".toList =
    [.token .day2, .literal 'o', .literal ' ', .literal 'é'] := by cbv

end Payables.Calendar
