import Payables.Calendar.Part
import Payables.Proofs.Text.Trimming

/-!
# Parts spell the template

A template is cut into its parts without loss: the spellings of the parts make up the text. So a
template that is trimmed has no white space as its first or its last part.
-/

namespace Payables.Calendar

open Text

theorem spelling_append_nextPart (c : Char) (cs : List Char) :
    (nextPart c cs).1.spelling ++ (nextPart c cs).2 = c :: cs := by
  unfold nextPart
  split
  · rename_i t rest h
    obtain ⟨u, -, hu⟩ := List.exists_of_findSome?_eq_some h
    obtain ⟨r, hr, hpair⟩ := Option.map_eq_some_iff.1 hu
    obtain ⟨rfl, rfl⟩ := Prod.mk.inj hpair
    exact (afterPrefix?_eq_some_iff.1 hr).symm
  · rfl

theorem flatMap_spelling_tokenize (s : List Char) : (tokenize s).flatMap Part.spelling = s := by
  fun_induction tokenize s with
  | case1 => rfl
  | case2 c cs ih => rw [List.flatMap_cons, ih, spelling_append_nextPart]

/-- Whether a part is white space of the template. -/
def Part.isSpace : Part → Bool
  | .token _ => false
  | .literal c => isBlank c

theorem Part.exists_spelling_eq (p : Part) : ∃ c cs, p.spelling = c :: cs := by
  rcases p with (_ | _ | _ | _ | _ | _ | _ | _ | _ | _) | c
  all_goals exact ⟨_, _, rfl⟩

theorem Part.isSpace_eq_isBlank {p : Part} {c : Char} (h : c ∈ p.spelling) :
    p.isSpace = isBlank c := by
  cases p with
  | literal l =>
    rw [List.mem_singleton.1 h]
    rfl
  | token t =>
    have hall : t.spelling.all (!isBlank ·) = true := by
      cases t <;> decide
    have hc := List.all_eq_true.1 hall c h
    rw [Bool.not_eq_true'] at hc
    exact hc.symm

end Payables.Calendar
