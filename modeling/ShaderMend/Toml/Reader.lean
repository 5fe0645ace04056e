import ShaderMend.Toml.Document

/-!
# Reading TOML

`Toml.parse?` reads a document line by line: a pair, a header or nothing, then
perhaps a comment. Arrays and inline tables nest at most `maxNesting` deep, and a
dotted key has at most as many parts.
-/

namespace ShaderMend.Toml

/-! ### Lines -/

/-- The text behind a comment, if there is one. -/
def skipComment (text : List Char) : List Char :=
  match text with
  | '#' :: rest => rest.dropWhile isPlain
  | _ => text

/-- The text behind the end of a line: blanks, perhaps a comment, and a line end or
the end of the text. -/
def endLine? (text : List Char) : Option (List Char) :=
  match skipComment (skipBlanks text) with
  | [] => some []
  | rest => newLine? rest

/-- The text behind blanks, line ends and comments. The first argument bounds their
number. -/
def skipSpace : Nat → List Char → Option (List Char)
  | 0, text => some text
  | fuel + 1, text =>
      match skipBlanks text with
      | '#' :: rest => (newLine? (rest.dropWhile isPlain)).bind (skipSpace fuel)
      | text =>
          match newLine? text with
          | some rest => skipSpace fuel rest
          | none => some text

/-! ### Keys -/

/-- Whether a character may stand in a key without quotes. -/
def isBareKeyChar (c : Char) : Bool :=
  c.isAlphanum || c = '_' || c = '-'

/-- Reads one part of a key. -/
def readKeyPart (text : List Char) : Option (String × List Char) :=
  let bare := text.takeWhile isBareKeyChar
  if bare.isEmpty then readShortString text else some (.ofList bare, text.drop bare.length)

/-- Reads the parts of a key behind the first one, each after its dot. The first
argument bounds their number. -/
def readMoreParts : Nat → List Char → Option (List String × List Char)
  | fuel, text =>
      match skipBlanks text, fuel with
      | '.' :: rest, fuel + 1 => do
          let (part, rest) ← readKeyPart (skipBlanks rest)
          let (parts, rest) ← readMoreParts fuel rest
          return (part :: parts, rest)
      | '.' :: _, 0 => none
      | rest, _ => some ([], rest)

/-- How deep values may nest, and how many parts a key may have. -/
def maxNesting : Nat := 79

/-- Reads a dotted key and the blanks behind it. -/
def readKey (text : List Char) : Option (List String × List Char) := do
  let (part, rest) ← readKeyPart (skipBlanks text)
  let (parts, rest) ← readMoreParts (maxNesting - 1) rest
  return (part :: parts, rest)

/-! ### Values -/

/-- Reads a key, an equals sign and a value. -/
def readPair (value : List Char → Option (Node × List Char)) (text : List Char) :
    Option ((List String × Node) × List Char) := do
  let (key, rest) ← readKey text
  match rest with
  | '=' :: rest => do
      let (node, rest) ← value (skipBlanks rest)
      return ((key, node), rest)
  | _ => none

/-- Reads the items of an array behind its bracket. The first argument bounds their
number. -/
def readItems (value : List Char → Option (Node × List Char)) :
    Nat → List Char → Option (List Node × List Char)
  | 0, _ => none
  | fuel + 1, text => do
      let text ← skipSpace text.length text
      match text with
      | ']' :: rest => return ([], rest)
      | _ => do
          let (item, rest) ← value text
          let rest ← skipSpace rest.length rest
          match rest with
          | ',' :: rest => do
              let (items, rest) ← readItems value fuel rest
              return (item :: items, rest)
          | ']' :: rest => return ([item], rest)
          | _ => none

/-- Reads the pairs of an inline table behind the first one, each after its comma. The
first argument bounds their number. -/
def readMorePairs (value : List Char → Option (Node × List Char)) :
    Nat → List Char → Option ((List (List String × Node)) × List Char)
  | fuel, text =>
      match skipBlanks text, fuel with
      | '\x7d' :: rest, _ => some ([], rest)
      | ',' :: rest, fuel + 1 => do
          let (pair, rest) ← readPair value rest
          let (pairs, rest) ← readMorePairs value fuel rest
          return (pair :: pairs, rest)
      | _, _ => none

/-- Reads the pairs of an inline table behind its brace. -/
def readPairs (value : List Char → Option (Node × List Char)) (text : List Char) :
    Option ((List (List String × Node)) × List Char) :=
  match skipBlanks text with
  | '\x7d' :: rest => some ([], rest)
  | _ => do
      let (pair, rest) ← readPair value text
      let (pairs, rest) ← readMorePairs value rest.length rest
      return (pair :: pairs, rest)

/-- Reads a value whose arrays and inline tables nest at most `nesting` deep. -/
def readNested : (nesting : Nat) → List Char → Option (Node × List Char)
  | nesting, text =>
      match text, nesting with
      | '[' :: _, 0 => none
      | '[' :: rest, nesting + 1 => do
          let (items, rest) ← readItems (readNested nesting) (rest.length + 1) rest
          return (.array items, rest)
      | '\x7b' :: _, 0 => none
      | '\x7b' :: rest, nesting + 1 => do
          let (pairs, rest) ← readPairs (readNested nesting) rest
          let entries ← Entries.addPairs? pairs []
          return (.table .inline entries, rest)
      | '"' :: _, _ => (readString text).map fun (value, rest) => (.scalar (.string value), rest)
      | '\'' :: _, _ => (readString text).map fun (value, rest) => (.scalar (.string value), rest)
      | _, _ => (Scalar.readWord text).map fun (value, rest) => (.scalar value, rest)

/-- Reads a value. -/
def readValue (text : List Char) : Option (Node × List Char) :=
  readNested maxNesting text

/-! ### Documents -/

/-- What a line holds. -/
inductive Line where
  | blank
  | pair (key : List String) (value : Node)
  | header (element : Bool) (path : List String)
  deriving Repr

/-- Reads a line and its end. -/
def readLine (text : List Char) : Option (Line × List Char) := do
  let text := skipBlanks text
  let (line, rest) ←
    match text with
    | '[' :: '[' :: rest => do
        let (path, rest) ← readKey rest
        match rest with
        | ']' :: ']' :: rest => some (Line.header true path, rest)
        | _ => none
    | '[' :: rest => do
        let (path, rest) ← readKey rest
        match rest with
        | ']' :: rest => some (Line.header false path, rest)
        | _ => none
    | _ =>
        if (endLine? text).isSome then some (Line.blank, text)
        else (readPair readValue text).map fun ((key, value), rest) => (Line.pair key value, rest)
  let rest ← endLine? rest
  return (line, rest)

/-- Reads lines to the end of the text. The first argument bounds their number. -/
def readLines : Nat → List Char → Option (List Line)
  | _, [] => some []
  | 0, _ => none
  | fuel + 1, text => do
      let (line, rest) ← readLine text
      return line :: (← readLines fuel rest)

/-- The pairs before the first header, and the sections that follow. -/
def sections : List Line → List (List String × Node) × List Section
  | [] => ([], [])
  | line :: lines =>
      let (pairs, rest) := sections lines
      match line with
      | .blank => (pairs, rest)
      | .pair key value => ((key, value) :: pairs, rest)
      | .header element path => ([], ⟨element, path, pairs⟩ :: rest)

/-- The entries of a document. A mark of the byte order at its start does not count. -/
def parse? (text : String) : Option Entries := do
  let chars := text.toList
  let chars := if chars.head? = some '\ufeff' then chars.drop 1 else chars
  let (pairs, rest) := sections (← readLines (chars.length + 1) chars)
  assemble? (⟨false, [], pairs⟩ :: rest)

end ShaderMend.Toml
