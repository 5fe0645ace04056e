import ShaderMend.Text.Printable

/-!
# Texts in double quotes

A text shown inside a message stands between double quotes. Quotes, backslashes and
the usual control characters are escaped by a backslash, other characters that are
not printable by their code point.
-/

namespace ShaderMend.Text

/-- How a character is shown between quotes. -/
def shown (c : Char) : String :=
  if c = '"' then "\\\""
  else if c = '\\' then "\\\\"
  else if c = '\n' then "\\n"
  else if c = '\r' then "\\r"
  else if c = '\t' then "\\t"
  else if c = '\x00' then "\\0"
  else if isPrintable c then c.toString
  else "\\u\x7b" ++ String.ofList (Nat.toDigits 16 c.toNat) ++ "\x7d"

/-- A text between double quotes. -/
def quoted (text : String) : String :=
  "\"" ++ String.join (text.toList.map shown) ++ "\""

end ShaderMend.Text
