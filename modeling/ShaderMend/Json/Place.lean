import ShaderMend.Json.Number

/-!
# Places in messages

A message about a text may end in the place that it is about: a line and a column.
`Place.split?` takes the place off, whoever wrote it there; so a message that quotes
a text with a place at its end loses this one.
-/

namespace ShaderMend.Json

/-- A place in a text. -/
structure Place where
  line : Nat
  column : Nat
  deriving DecidableEq, Repr

namespace Place

/-- What stands before the line. -/
def lineMark : List Char := " at line ".toList

/-- What stands between the line and the column. -/
def columnMark : List Char := " column ".toList

/-- The place as it stands at the end of a message. -/
def text (place : Place) : String :=
  String.ofList lineMark ++ toString place.line ++ String.ofList columnMark
    ++ toString place.column

/-- Takes a number off the front of a text. -/
def number? (text : List Char) : Option (Nat × List Char) :=
  let (digits, rest) := Number.digits text
  if digits.isEmpty then none
  else some (digits.foldl (fun value digit => value * 10 + Number.digitValue digit) 0, rest)

/-- Takes a mark off the front of a text. -/
def mark? (mark text : List Char) : Option (List Char) :=
  if mark.isPrefixOf text then some (text.drop mark.length) else none

/-- Reads a text that is a place, without the mark before its line. -/
def read? (text : List Char) : Option Place := do
  let (line, rest) ← number? text
  let (column, rest) ← number? (← mark? columnMark rest)
  if rest.isEmpty then some ⟨line, column⟩ else none

/-- What stands before and behind the last mark of a line. -/
def splitMark? : List Char → Option (List Char × List Char)
  | [] => none
  | c :: rest =>
      match splitMark? rest with
      | some (before, behind) => some (c :: before, behind)
      | none => (mark? lineMark (c :: rest)).map fun behind => ([], behind)

/-- A message without the place at its end, and this place. -/
def split? (message : String) : Option (String × Place) := do
  let (before, behind) ← splitMark? message.toList
  let place ← read? behind
  return (String.ofList before, place)

/-- The largest number of a line or column. -/
def maxNumber : Nat := UInt64.size - 1

/-- Whether line and column are in range. -/
def isInRange (place : Place) : Bool :=
  place.line ≤ maxNumber && place.column ≤ maxNumber

end Place

end ShaderMend.Json
