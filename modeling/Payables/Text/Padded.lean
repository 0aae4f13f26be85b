/-!
# Padding

A text is cut to `precision` characters and then filled up with spaces to `width`. A centred text
has the larger half of the spaces on its right.
-/

namespace Payables.Text

inductive Alignment
  | left
  | right
  | center
deriving DecidableEq, Repr

def padded (width : Nat) (alignment : Alignment) (precision : Option Nat) (s : String) : String :=
  let cs := match precision with
    | some n => s.toList.take n
    | none => s.toList
  let missing := width - cs.length
  let left := match alignment with
    | .left => 0
    | .right => missing
    | .center => missing / 2
  String.ofList (List.replicate left ' ' ++ cs ++ List.replicate (missing - left) ' ')

end Payables.Text
