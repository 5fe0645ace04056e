import ShaderMend.Json.Reader

/-!
# Strings of TOML

A string has one of four notations: basic with escapes, literal without, and both
over several lines. A reader returns what it read and what follows; a text that
breaks the rules gives nothing.
-/

namespace ShaderMend.Toml

/-- Space and tab. -/
def isBlank (c : Char) : Bool :=
  c = ' ' || c = '\t'

/-- The text behind its blanks. -/
def skipBlanks (text : List Char) : List Char :=
  text.dropWhile isBlank

/-- The text behind its line end, which is a line feed or a carriage return and one. -/
def newLine? : List Char → Option (List Char)
  | '\n' :: rest => some rest
  | '\r' :: '\n' :: rest => some rest
  | _ => none

/-- Whether a character may stand in comments and strings as it is: a tab or no
control character. -/
def isPlain (c : Char) : Bool :=
  c = '\t' || (0x20 ≤ c.toNat && c.toNat ≠ 0x7F)

/-! ### Escapes -/

/-- The character with a code, if there is one. -/
def charOfCode? (code : Nat) : Option Char :=
  if h : code.isValidChar then some (Char.ofNatAux code h) else none

/-- The number that hexadecimal digits spell. -/
def hexNumber? (digits : List Char) : Option Nat :=
  digits.foldlM (fun value c => (Json.hexValue? c).map (value * 16 + ·)) 0

/-- Reads the character whose code stands in `count` hexadecimal digits. -/
def readCode (count : Nat) (text : List Char) : Option (Char × List Char) := do
  let digits := text.take count
  if digits.length < count then none
  let code ← hexNumber? digits
  return (← charOfCode? code, text.drop count)

/-- Reads what follows a backslash. -/
def readEscape : List Char → Option (Char × List Char)
  | 'b' :: rest => some ('\x08', rest)
  | 't' :: rest => some ('\t', rest)
  | 'n' :: rest => some ('\n', rest)
  | 'f' :: rest => some ('\x0c', rest)
  | 'r' :: rest => some ('\r', rest)
  | '"' :: rest => some ('"', rest)
  | '\\' :: rest => some ('\\', rest)
  | 'u' :: rest => readCode 4 rest
  | 'U' :: rest => readCode 8 rest
  | _ => none

/-! ### Strings on one line -/

/-- Reads a basic string behind its quote. The first argument bounds its length. -/
def readBasic : Nat → List Char → Option (List Char × List Char)
  | 0, _ => none
  | _, [] => none
  | fuel + 1, c :: rest =>
      if c = '"' then some ([], rest)
      else if c = '\\' then do
        let (meant, rest) ← readEscape rest
        let (chars, rest) ← readBasic fuel rest
        return (meant :: chars, rest)
      else if isPlain c then do
        let (chars, rest) ← readBasic fuel rest
        return (c :: chars, rest)
      else none

/-- Reads a literal string behind its apostrophe. -/
def readLiteral : List Char → Option (List Char × List Char)
  | [] => none
  | c :: rest =>
      if c = '\'' then some ([], rest)
      else if isPlain c then (readLiteral rest).map fun (chars, rest) => (c :: chars, rest)
      else none

/-! ### Strings over several lines -/

/-- The text behind a run of blanks and line ends. The first argument bounds the
run. -/
def skipLines : Nat → List Char → List Char
  | 0, text => text
  | fuel + 1, text =>
      match newLine? text with
      | some rest => skipLines fuel rest
      | none =>
          match text with
          | c :: rest => if isBlank c then skipLines fuel rest else text
          | [] => []

/-- The text behind a backslash at the end of a line, without the blanks and line ends
that follow it. -/
def foldedLine? (text : List Char) : Option (List Char) :=
  (newLine? (skipBlanks text)).map fun rest => skipLines rest.length rest

/-- The quotes that a run of quotes inside a long string stands for, and whether it
ends the string: three quotes end it, and up to two more before them belong to it. -/
def quoteRun? (quote : Char) (length : Nat) : Option (List Char × Bool) :=
  if length < 3 then some (List.replicate length quote, false)
  else if length < 6 then some (List.replicate (length - 3) quote, true)
  else none

/-- Reads a long string behind its opening, with escapes if it is basic. The first
argument bounds its length. -/
def readLongBody (quote : Char) (escapes : Bool) : Nat → List Char → Option (List Char × List Char)
  | 0, _ => none
  | fuel + 1, text =>
      match text with
      | [] => none
      | c :: rest =>
          if c = quote then do
            let (quotes, ends) ← quoteRun? quote (text.takeWhile (· = quote)).length
            let rest := text.dropWhile (· = quote)
            if ends then return (quotes, rest)
            let (chars, rest) ← readLongBody quote escapes fuel rest
            return (quotes ++ chars, rest)
          else if escapes ∧ c = '\\' then
            match foldedLine? rest with
            | some rest => readLongBody quote escapes fuel rest
            | none => do
                let (meant, rest) ← readEscape rest
                let (chars, rest) ← readLongBody quote escapes fuel rest
                return (meant :: chars, rest)
          else
            match newLine? text with
            | some rest => do
                let (chars, rest) ← readLongBody quote escapes fuel rest
                return ('\n' :: chars, rest)
            | none =>
                if isPlain c then do
                  let (chars, rest) ← readLongBody quote escapes fuel rest
                  return (c :: chars, rest)
                else none

/-- Reads a long string behind its opening; a line end right behind the opening does
not belong to it. -/
def readLong (quote : Char) (escapes : Bool) (text : List Char) : Option (List Char × List Char) :=
  readLongBody quote escapes (text.length + 1) ((newLine? text).getD text)

/-- Reads a string on one line. -/
def readShortString (text : List Char) : Option (String × List Char) :=
  match text with
  | '"' :: rest => (readBasic (rest.length + 1) rest).map fun (chars, rest) => (.ofList chars, rest)
  | '\'' :: rest => (readLiteral rest).map fun (chars, rest) => (.ofList chars, rest)
  | _ => none

/-- Reads a string in any notation. -/
def readString (text : List Char) : Option (String × List Char) :=
  match text with
  | '"' :: '"' :: '"' :: rest =>
      (readLong '"' true rest).map fun (chars, rest) => (.ofList chars, rest)
  | '\'' :: '\'' :: '\'' :: rest =>
      (readLong '\'' false rest).map fun (chars, rest) => (.ofList chars, rest)
  | _ => readShortString text

end ShaderMend.Toml
