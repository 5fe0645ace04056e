import ShaderMend.Text.Ascii

/-!
# Properties of shaders

A shader declares properties: a name, a name for display, and one of six types. A
type is written as a number from 0 to 5 or by its name in any case.
-/

namespace ShaderMend

/-- The type of a property. -/
inductive PropertyType where
  | color
  | vector
  | float
  | range
  | texture
  | int
  deriving DecidableEq, Repr

namespace PropertyType

/-- All types, in the order of their numbers. -/
def all : List PropertyType :=
  [color, vector, float, range, texture, int]

/-- The name under which the type is written. -/
def name : PropertyType → String
  | color => "Color"
  | vector => "Vector"
  | float => "Float"
  | range => "Range"
  | texture => "Texture"
  | int => "Int"

/-- The type with a number. -/
def ofIndex? (index : Nat) : Option PropertyType :=
  all[index]?

/-- The type with a name, whatever the case of its letters. -/
def ofName? (text : String) : Option PropertyType :=
  all.find? fun type => Text.sameUpToCase type.name.toList text.toList

/-- Every type is found under its name. -/
theorem ofName?_name (type : PropertyType) : ofName? type.name = some type := by
  cases type <;> decide

/-- Every type has a number. -/
theorem mem_all (type : PropertyType) : type ∈ all := by
  cases type <;> decide

end PropertyType

/-- A property as a shader declares it. -/
structure Property where
  name : String
  displayName : String
  type : PropertyType
  deriving DecidableEq, Repr

/-- What is declared about a shader. A shader to be replaced and a candidate are
compared by their signatures. -/
structure Signature where
  name : String
  properties : List Property
  keywords : List String
  deriving DecidableEq, Repr

end ShaderMend
