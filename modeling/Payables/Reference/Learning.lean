import Payables.Collection.Distinct
import Payables.Reference.Family
import Payables.Settings
import Payables.Text.NormalForm
import Std.Data.ExtTreeSet

/-!
# Learning a family

A family is learned from examples in normal form. Those that are capital letters followed by digits
are grouped by their letters; the others are taken literally. With enough examples the leading
digits of a group narrow it, as long as the leading digits that recur cover most of the group.
-/

namespace Payables

/-- The digits that follow the letters of a group, one text for each example. -/
structure Group where
  stem : String
  tails : List String
deriving DecidableEq, Repr

namespace Group

def shortest (tails : List String) : Nat := ((tails.map String.length).min?).getD 0

def longest (tails : List String) : Nat := ((tails.map String.length).max?).getD 0

/-- The shape that any number of digits from the shortest to the longest example has. -/
def wideShape (g : Group) : Shape := .digits g.stem (shortest g.tails) (longest g.tails)

/-- The leading digits by which an example is counted. -/
def lead (s : ReferenceSettings) (tail : String) : String :=
  String.ofList (tail.toList.take s.bucketDigits)

def leads (s : ReferenceSettings) (g : Group) : List String := distinct (g.tails.map (lead s))

def count (s : ReferenceSettings) (g : Group) (l : String) : Nat :=
  (g.tails.filter (lead s · == l)).length

/-- A number of examples in proportion to all of them. -/
def share (g : Group) (n : Nat) : Binary64 := .ofNat n / .ofNat g.tails.length

/-- The leading digits that more than one example has, or a fair share of the examples. -/
def recurring (s : ReferenceSettings) (g : Group) : List String :=
  let ls := g.leads s
  let fair := s.coverage / .ofNat ls.length
  ls.filter fun l => decide (fair ≤ g.share (g.count s l)) || 2 ≤ g.count s l

/-- Takes leading digits until the examples with them reach the coverage. -/
def takeCovering (s : ReferenceSettings) (g : Group) : Nat → List String → List String
  | _, [] => []
  | covered, l :: ls =>
    let covered := covered + g.count s l
    l :: if s.coverage ≤ g.share covered then [] else takeCovering s g covered ls

def kept (s : ReferenceSettings) (g : Group) : List String :=
  match g.recurring s with
  | [] => takeCovering s g 0 ((g.leads s).mergeSort fun a b => g.count s b ≤ g.count s a)
  | ls => ls

def coverage (s : ReferenceSettings) (g : Group) (ls : List String) : Binary64 :=
  g.share ((ls.map (g.count s)).foldl (· + ·) 0)

/-- The shape of the examples that start with given digits. -/
def narrowShape (g : Group) (l : String) : Shape :=
  let tails := g.tails.filter fun t => l.toList.isPrefixOf t.toList
  .digits (g.stem ++ l) (shortest tails - l.length) (longest tails - l.length)

def shapes (s : ReferenceSettings) (g : Group) : List Shape :=
  if g.tails.length < s.bucketSamples then [g.wideShape]
  else
    let ls := g.kept s
    if g.coverage s ls < s.coverage then [g.wideShape] else ls.map g.narrowShape

end Group

namespace Family

open Text

/-- The distinct normal forms of references, in order. -/
def examples (refs : List String) : List String :=
  (Std.ExtTreeSet.ofList ((refs.map referenceForm).filter (!·.isEmpty))).toList

/-- The letters and the digits of a reference that consists of them. -/
def parts? (reference : String) : Option (String × String) :=
  let letters := reference.toList.takeWhile Char.isUpper
  let tail := reference.toList.dropWhile Char.isUpper
  if tail ≠ [] ∧ tail.all Char.isDigit then some (String.ofList letters, String.ofList tail)
  else none

/-- The digits of the examples with given letters. -/
def tailsOf (examples : List String) (letters : String) : List String :=
  ((examples.filterMap parts?).filter (·.1 == letters)).map Prod.snd

def groups (examples : List String) : List Group :=
  (distinct ((examples.filterMap parts?).map Prod.fst)).map fun stem =>
    ⟨stem, tailsOf examples stem⟩

def literals (examples : List String) : List Shape :=
  match examples.filter (parts? · |>.isNone) with
  | [] => []
  | texts => [.literals texts]

/-- The family of the references, if any of them is usable. -/
def learn (s : ReferenceSettings) (refs : List String) : Option Family :=
  match examples refs with
  | [] => none
  | es => some ⟨(groups es).flatMap (Group.shapes s) ++ literals es⟩

end Family

end Payables
