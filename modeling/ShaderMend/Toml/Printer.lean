import ShaderMend.Toml.Scalar

/-!
# Writing TOML

A document is written as one line for each pair of a key and a value. A string is
written in the plainest notation that holds it: basic, then literal, then basic over
several lines, then literal over several lines. A string that needs escapes in all of
them is written with escapes, over several lines if it has several.
-/

namespace ShaderMend.Toml

/-- The notation of a string: over several lines or not, with escapes or without. -/
structure Style where
  long : Bool
  escapes : Bool
  deriving DecidableEq, Repr

namespace Style

/-- The quote of a notation. -/
def quote (style : Style) : Char :=
  if style.escapes then '"' else '\''

/-- What opens and closes a string. -/
def delimiter (style : Style) : List Char :=
  List.replicate (if style.long then 3 else 1) style.quote

end Style

/-- Whether a character has no place in any notation without escapes. -/
def needsCode (c : Char) : Bool :=
  !isPlain c && c ≠ '\n'

/-- The length of the longest run of a character, after a run of the given length. -/
def longestRun (wanted : Char) : Nat → List Char → Nat
  | run, [] => run
  | run, c :: rest =>
      if c = wanted then longestRun wanted (run + 1) rest
      else max run (longestRun wanted 0 rest)

/-- The notation in which a text is written. -/
def styleOf (text : List Char) : Style :=
  let coded := text.any needsCode
  let escapes := coded || text.contains '\\'
  let several := text.contains '\n'
  let quotes := longestRun '"' 0 text
  let apostrophes := longestRun '\'' 0 text
  if !escapes ∧ quotes = 0 ∧ !several then ⟨false, true⟩
  else if !coded ∧ apostrophes = 0 ∧ !several then ⟨false, false⟩
  else if !escapes ∧ quotes ≤ 2 then ⟨true, true⟩
  else if !coded ∧ apostrophes ≤ 2 then ⟨true, false⟩
  else ⟨several, true⟩

/-- The upper-case hexadecimal digit of a value below sixteen. -/
def upperDigit (value : Nat) : Char :=
  (Nat.digitChar value).toUpper

/-- How a character that is no quote is written in a basic string on one line. -/
def escape (c : Char) : List Char :=
  if c = '\x08' then ['\\', 'b']
  else if c = '\t' then ['\\', 't']
  else if c = '\n' then ['\\', 'n']
  else if c = '\x0c' then ['\\', 'f']
  else if c = '\r' then ['\\', 'r']
  else if c = '\\' then ['\\', '\\']
  else if needsCode c then
    ['\\', 'u', '0', '0', upperDigit (c.toNat / 16), upperDigit (c.toNat % 16)]
  else [c]

/-- The content of a basic string. Over several lines, line feeds and up to two quotes
in a row stand for themselves; the number counts the quotes just written. -/
def basicContent (long : Bool) : Nat → List Char → List Char
  | _, [] => []
  | run, c :: rest =>
      if c = '"' then
        if long ∧ run < 2 then '"' :: basicContent long (run + 1) rest
        else '\\' :: '"' :: basicContent long 0 rest
      else if long ∧ c = '\n' then '\n' :: basicContent long 0 rest
      else escape c ++ basicContent long 0 rest

/-- The content of a string between its delimiters. A line feed opens the content of a
string that has several lines. -/
def content (style : Style) (text : List Char) : List Char :=
  let opening := if style.long ∧ text.contains '\n' then ['\n'] else []
  opening ++ if style.escapes then basicContent style.long 0 text else text

/-- A string as it is written. -/
def written (text : List Char) : List Char :=
  let style := styleOf text
  style.delimiter ++ content style text ++ style.delimiter

/-! ### Pairs -/

/-- The text of a value. Reals, dates and times keep their spelling. -/
def scalarText : Scalar → List Char
  | .string text => written text.toList
  | .boolean value => (if value then "true" else "false").toList
  | .integer value => (toString value).toList
  | .real spelling => spelling
  | .moment spelling => spelling

/-- The line of a pair. -/
def lineText (pair : String × Scalar) : List Char :=
  pair.1.toList ++ ' ' :: '=' :: ' ' :: (scalarText pair.2 ++ ['\n'])

/-- The lines of some pairs. -/
def linesText (pairs : List (String × Scalar)) : List Char :=
  pairs.flatMap lineText

end ShaderMend.Toml
