import ShaderMend.Decimal

/-!
# JSON values

A value keeps the members of an object in the order of the text, repeated names
included: which of them counts is for the reader of the value to say. Numbers are
integers where the text writes one that fits 64 bits, and decimals otherwise.
-/

namespace ShaderMend

/-- A number of a JSON text. Minus zero and integers that no 64-bit word holds are
decimals. -/
inductive Json.Number where
  | integer (value : Int)
  | decimal (value : Decimal)
  deriving DecidableEq, Repr

/-- A JSON value. -/
inductive Json where
  | null
  | bool (value : Bool)
  | number (value : Json.Number)
  | string (text : String)
  | array (items : List Json)
  | object (members : List (String × Json))
  deriving Repr, Inhabited

namespace Json

/-- The value of the only member of an object with one of the names; `none` as soon
as there are none or several. -/
def onlyMember? (names : List String) (members : List (String × Json)) : Option Json :=
  match members.filter (·.1 ∈ names) with
  | [(_, value)] => some value
  | _ => none

/-- The text of a string value. -/
def text? : Json → Option String
  | .string text => some text
  | _ => none

end Json

end ShaderMend
