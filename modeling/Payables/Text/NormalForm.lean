import Payables.Text.Blank
import Payables.Text.Case
import Payables.Text.Runs

/-!
# Normal forms

Texts of a statement are compared through normal forms. A header forgets case and the amount of
white space; a label and a compact number keep the ASCII letters and digits alone; a reference
forgets case and the usual separators.
-/

namespace Payables.Text

def words (s : List Char) : List (List Char) := runs (!isBlank ·) s

def headerForm (s : String) : String :=
  String.ofList (lower ([' '].intercalate (words s.toList)))

def labelForm (s : String) : String :=
  String.ofList ((s.toList.filter isAsciiAlphanumeric).map asciiLower)

def compactForm (s : String) : String :=
  String.ofList ((s.toList.filter isAsciiAlphanumeric).map asciiUpper)

def isReferenceSeparator (c : Char) : Bool :=
  isBlank c || c == '-' || c == '_' || c == '/' || c == '.'

/-- The normal form of a reference, character by character. -/
def referenceChars (s : List Char) : List Char := (upper s).filter (!isReferenceSeparator ·)

def referenceForm (s : String) : String := String.ofList (referenceChars (trim s.toList))

end Payables.Text
