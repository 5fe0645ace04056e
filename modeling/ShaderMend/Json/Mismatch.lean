import ShaderMend.Decimal.Shortest
import ShaderMend.Json.Place
import ShaderMend.Json.Reader
import ShaderMend.Text.Quoted

/-!
# Values of the wrong shape

A well-formed text may still not describe what is expected. A `Mismatch` says why;
together with the faults of the text it makes up the errors of reading data.
-/

namespace ShaderMend.Json

/-- Why a value does not describe what is expected. -/
inductive Mismatch where
  | missingField (field : String)
  | duplicateField (field : String)
  /-- A value of another kind. -/
  | wrongKind (found expected : String)
  /-- An array with a wrong number of items. -/
  | wrongLength (length : Nat) (expected : String)
  /-- A value that has none of the forms allowed for the type. -/
  | noForm (type : String)
  | unknownPropertyType (text : String)
  deriving DecidableEq, Repr

namespace Mismatch

/-- What a mismatch says. -/
def text : Mismatch → String
  | .missingField field => "missing field `" ++ field ++ "`"
  | .duplicateField field => "duplicate field `" ++ field ++ "`"
  | .wrongKind found expected => s!"invalid type: {found}, expected {expected}"
  | .wrongLength length expected => s!"invalid length {length}, expected {expected}"
  | .noForm type => s!"data did not match any variant of untagged enum {type}"
  | .unknownPropertyType text => s!"type de propriété inconnu: {text}"

/-- What a mismatch says, without a place at its end, and this place. A place out of
range is none. -/
def placed (mismatch : Mismatch) : String × Option Place :=
  match Place.split? mismatch.text with
  | some (message, place) =>
      if place.isInRange then (message, some place) else (mismatch.text, none)
  | none => (mismatch.text, none)

/-- The message for a mismatch inside an object or array, whose place is known. -/
def message (mismatch : Mismatch) : String :=
  mismatch.placed.1

/-- The message for a mismatch of a whole text. Its place is the one that it gives by
itself, if this has a line; otherwise it has none, and what looks like a place at its
end is left out. -/
def wholeMessage (mismatch : Mismatch) : String :=
  let (message, place?) := mismatch.placed
  if place?.any (0 < ·.line) then message
  else ((Place.split? message).map (·.1)).getD message

end Mismatch

/-- Why data cannot be read from a text. -/
inductive ReadError where
  | fault (fault : Fault)
  | mismatch (mismatch : Mismatch)
  deriving DecidableEq, Repr

/-- A step of reading a text, as a step of reading data. -/
def ofText {α : Type} (step : Except Fault α) : Except ReadError α :=
  step.mapError .fault

/-- How a number is called in a message. -/
def Number.kind : Number → String
  | .integer value => "integer `" ++ toString value ++ "`"
  | .decimal value => "floating point `" ++ Decimal.floatText value.toFloat ++ "`"

/-- How a value is called in a message. -/
def kind : Json → String
  | .null => "null"
  | .bool value => "boolean `" ++ toString value ++ "`"
  | .number value => value.kind
  | .string text => "string " ++ Text.quoted text
  | .array _ => "sequence"
  | .object _ => "map"

/-- The error for a value of another kind than expected at the front of a text. Arrays
and objects are not read for it, other values are. -/
def unexpected (text : List Char) (expected : String) : ReadError :=
  match skipBlanks text with
  | '[' :: _ => .mismatch (.wrongKind "sequence" expected)
  | '\x7b' :: _ => .mismatch (.wrongKind "map" expected)
  | _ =>
      match read text with
      | .ok (value, _) => .mismatch (.wrongKind value.kind expected)
      | .error fault => .fault fault

end ShaderMend.Json
