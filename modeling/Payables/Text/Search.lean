/-!
# Searching a text

`afterPrefix?` takes a text off the front of another, `occursIn p s` says that `p` is a stretch of
`s`, and `replaceAll` puts another text for every stretch, from the left and without overlap.
-/

namespace Payables.Text

/-- What follows `p` in a text that starts with it. -/
def afterPrefix? : List Char → List Char → Option (List Char)
  | [], s => some s
  | _ :: _, [] => none
  | a :: p, c :: s => if a = c then afterPrefix? p s else none

theorem afterPrefix?_eq_some_iff {p s r : List Char} : afterPrefix? p s = some r ↔ s = p ++ r := by
  induction p generalizing s with
  | nil => simp [afterPrefix?]
  | cons a p ih =>
    cases s with
    | nil => simp [afterPrefix?]
    | cons c s =>
      by_cases h : a = c
      · simp [afterPrefix?, h, ih]
      · simp [afterPrefix?, h, Ne.symm h]

theorem afterPrefix?_eq_none_iff {p s : List Char} : afterPrefix? p s = none ↔ ¬ p <+: s := by
  rw [Option.eq_none_iff_forall_ne_some]
  constructor
  · rintro hnone ⟨r, hr⟩
    exact hnone r (afterPrefix?_eq_some_iff.2 hr.symm)
  · intro hnot r hr
    exact hnot ⟨r, (afterPrefix?_eq_some_iff.1 hr).symm⟩

def occursIn (p : List Char) : List Char → Bool
  | [] => p.isEmpty
  | c :: cs => p.isPrefixOf (c :: cs) || occursIn p cs

/-- The rest of a replacement that still has to pass over `skip` replaced characters. -/
def replaceFrom (old new : List Char) : Nat → List Char → List Char
  | _, [] => []
  | skip + 1, _ :: cs => replaceFrom old new skip cs
  | 0, c :: cs =>
    if old.isPrefixOf (c :: cs) then new ++ replaceFrom old new (old.length - 1) cs
    else c :: replaceFrom old new 0 cs

/-- Replaces the non-empty stretch `old`. -/
def replaceAll (old new s : List Char) : List Char := replaceFrom old new 0 s

def contains (s p : String) : Bool := occursIn p.toList s.toList

end Payables.Text
