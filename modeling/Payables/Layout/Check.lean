import Payables.Layout.Basic

/-!
# Checking layouts

The strict check is for layouts that are set up by hand. Beyond what every layout needs it asks for
a complete date template, for two different known marks in amounts, and for usable labels.
-/

namespace Payables.Layout

open Text

def checkMarks (decimal group : String) : Except Fault Unit := do
  if !decimalMarks.contains decimal then throw (.layout (.decimalMark decimal))
  if !groupMarks.contains group then throw (.layout (.groupMark group))
  if decimal = group then throw (.layout .sameMarks)

def compileTemplate (template : String) : Except Fault DateTemplate :=
  match DateTemplate.of? template with
  | some t => .ok t
  | none => .error (.layout .emptyTemplate)

def checkTemplate (template : String) : Except Fault Unit := do
  let t ← compileTemplate template
  if !t.isComplete then throw (.layout (.incompleteTemplate template))

/-- The longest label, in bytes of its UTF-8 form. -/
def longestHeader : Nat := 200

def checkHeader (label : String) : Except Fault Unit := do
  if trim label.toList = [] then throw (.layout .emptyHeader)
  if longestHeader < label.utf8ByteSize then throw (.layout .longHeader)

def checkStrictly (l : Layout) : Except Fault Unit := do
  l.validate
  checkTemplate (← l.template)
  checkMarks l.decimalMark l.groupMark
  l.amounts.forM (checkHeader ·.label)

/-- How a layout is checked before a statement is processed. -/
inductive Check
  | basic
  | strict
deriving DecidableEq, Repr

def Check.run : Check → Layout → Except Fault Unit
  | basic, l => l.validate
  | strict, l => l.checkStrictly

end Payables.Layout
