import ShaderMend.Decimal.Shortest
import ShaderMend.Json.Reader

/-!
# Writing JSON

Strings escape the quote, the backslash and the control characters, and nothing
else. `Json.compact` writes without white space; `Json.pretty` indents by two
spaces and puts every item and member on a line of its own.
-/

namespace ShaderMend.Json

/-! ### Strings and numbers -/

/-- The hexadecimal digit of a value below sixteen. -/
def hexDigit (value : Nat) : Char :=
  Nat.digitChar value

/-- How a character is written inside a string. -/
def escape (c : Char) : List Char :=
  if c = '"' then ['\\', '"']
  else if c = '\\' then ['\\', '\\']
  else if c = '\n' then ['\\', 'n']
  else if c = '\t' then ['\\', 't']
  else if c = '\r' then ['\\', 'r']
  else if c = '\x08' then ['\\', 'b']
  else if c = '\x0c' then ['\\', 'f']
  else if isControl c then
    ['\\', 'u', '0', '0', hexDigit (c.toNat / 16), hexDigit (c.toNat % 16)]
  else [c]

/-- A string between its quotes. -/
def quoted (text : String) : List Char :=
  '"' :: text.toList.flatMap escape ++ ['"']

/-- An integer in decimal digits; a decimal as the shortest text of its double, which has a
point or an exponent. -/
def Number.written : Number → List Char
  | .integer value => (toString value).toList
  | .decimal value => (Decimal.floatText value.toFloat).toList

/-- The words for the truth values. -/
def boolWord (value : Bool) : List Char :=
  if value then ['t', 'r', 'u', 'e'] else ['f', 'a', 'l', 's', 'e']

/-! ### Without white space -/

mutual

/-- A value without white space. -/
def compact : Json → List Char
  | .null => ['n', 'u', 'l', 'l']
  | .bool value => boolWord value
  | .number value => value.written
  | .string text => quoted text
  | .array items => '[' :: compactItems items ++ [']']
  | .object members => '\x7b' :: compactMembers members ++ ['\x7d']

/-- Items between commas. -/
def compactItems : List Json → List Char
  | [] => []
  | [item] => compact item
  | item :: items => compact item ++ ',' :: compactItems items

/-- Members between commas. -/
def compactMembers : List (String × Json) → List Char
  | [] => []
  | [(name, value)] => quoted name ++ ':' :: compact value
  | (name, value) :: members => quoted name ++ ':' :: compact value ++ ',' :: compactMembers members

end

/-! ### Indented -/

/-- A new line and the indentation of a level of nesting. -/
def newLine (level : Nat) : List Char :=
  '\n' :: List.replicate (2 * level) ' '

mutual

/-- A value that stands at a level of nesting. -/
def indented (level : Nat) : Json → List Char
  | .null => ['n', 'u', 'l', 'l']
  | .bool value => boolWord value
  | .number value => value.written
  | .string text => quoted text
  | .array [] => ['[', ']']
  | .array (item :: items) =>
      '[' :: newLine (level + 1) ++ indented (level + 1) item
        ++ indentedItems (level + 1) items ++ newLine level ++ [']']
  | .object [] => ['\x7b', '\x7d']
  | .object ((name, value) :: members) =>
      '\x7b' :: newLine (level + 1) ++ quoted name ++ ':' :: ' ' :: indented (level + 1) value
        ++ indentedMembers (level + 1) members ++ newLine level ++ ['\x7d']

/-- Items behind the first one. -/
def indentedItems (level : Nat) : List Json → List Char
  | [] => []
  | item :: items => ',' :: newLine level ++ indented level item ++ indentedItems level items

/-- Members behind the first one. -/
def indentedMembers (level : Nat) : List (String × Json) → List Char
  | [] => []
  | (name, value) :: members =>
      ',' :: newLine level ++ quoted name ++ ':' :: ' ' :: indented level value
        ++ indentedMembers level members

end

/-- A value on several lines. -/
def pretty (value : Json) : String :=
  String.ofList (indented 0 value)

end ShaderMend.Json
