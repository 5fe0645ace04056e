import ShaderMend.Json.Number

/-!
# Reading JSON

`Json.read` reads one value from the front of a text and returns what follows it.
Arrays and objects nest at most `maxNesting` deep. `Json.skip` passes over a value
that nobody wants: it neither converts numbers nor pairs the halves of escaped
characters, and nests without limit. In both the first fault from the left decides.
-/

namespace ShaderMend.Json

/-! ### Words and strings -/

/-- Expects the characters of `word`. -/
def readWord : (word : List Char) → List Char → Except Fault (List Char)
  | [], text => .ok text
  | _ :: _, [] => .error .endOfText
  | w :: word, c :: text => if c = w then readWord word text else .error .malformed

/-- The value of a hexadecimal digit. -/
def hexValue? (c : Char) : Option Nat :=
  if c.isDigit then some (c.toNat - '0'.toNat)
  else if 'a' ≤ c ∧ c ≤ 'f' then some (c.toNat - 'a'.toNat + 10)
  else if 'A' ≤ c ∧ c ≤ 'F' then some (c.toNat - 'A'.toNat + 10)
  else none

/-- Four hexadecimal digits. The text ends too early if it has less than four octets
left, whatever they are. -/
def readHex (text : List Char) : Except Fault (Nat × List Char) :=
  if (String.ofList (text.take 4)).utf8ByteSize < 4 then .error .endOfText
  else
    match text with
    | a :: b :: c :: d :: rest =>
        match hexValue? a, hexValue? b, hexValue? c, hexValue? d with
        | some a, some b, some c, some d => .ok (((a * 16 + b) * 16 + c) * 16 + d, rest)
        | _, _, _, _ => .error .malformed
    | _ => .error .malformed

/-- Whether a 16-bit unit is the first half of a character. -/
def isHighHalf (unit : Nat) : Bool :=
  0xD800 ≤ unit && unit ≤ 0xDBFF

/-- Whether a 16-bit unit is the second half of a character. -/
def isLowHalf (unit : Nat) : Bool :=
  0xDC00 ≤ unit && unit ≤ 0xDFFF

/-- Reads the second half of a character, which must follow at once. -/
def readLowHalf (text : List Char) : Except Fault Nat :=
  match text with
  | [] => .error .endOfText
  | ['\\'] => .error .endOfText
  | '\\' :: 'u' :: rest => do
      let (unit, _) ← readHex rest
      if isLowHalf unit then .ok unit else .error .malformed
  | _ => .error .malformed

/-- The character whose 16-bit units are written in hexadecimal, and how many
characters write it. -/
def readUnits (text : List Char) : Except Fault (Char × Nat) := do
  let (unit, rest) ← readHex text
  if isHighHalf unit then
    let low ← readLowHalf rest
    return (Char.ofNat (0x10000 + (unit - 0xD800) * 0x400 + (low - 0xDC00)), 10)
  else if isLowHalf unit then
    throw .malformed
  else
    return (Char.ofNat unit, 4)

/-- The character that one letter after a backslash stands for. -/
def shortEscape? : Char → Option Char
  | '"' => some '"'
  | '\\' => some '\\'
  | '/' => some '/'
  | 'b' => some '\x08'
  | 'f' => some '\x0c'
  | 'n' => some '\n'
  | 'r' => some '\r'
  | 't' => some '\t'
  | _ => none

/-- The character that is written behind a backslash, and how many characters write
it. -/
def readEscape : List Char → Except Fault (Char × Nat)
  | [] => .error .endOfText
  | 'u' :: rest => do
      let (meant, count) ← readUnits rest
      return (meant, count + 1)
  | c :: _ =>
      match shortEscape? c with
      | some meant => .ok (meant, 1)
      | none => .error .malformed

/-- Whether the character may not stand in a string as it is. -/
def isControl (c : Char) : Bool :=
  c.toNat < 0x20

/-- Reads a string behind its opening quote. The first argument says how many
characters belong to an escape that is read already. -/
def readChars : (passed : Nat) → List Char → Except Fault (List Char × List Char)
  | _, [] => .error .endOfText
  | passed + 1, _ :: rest => readChars passed rest
  | 0, c :: rest =>
      if c = '"' then .ok ([], rest)
      else if c = '\\' then do
        let (meant, count) ← readEscape rest
        let (chars, rest) ← readChars count rest
        return (meant :: chars, rest)
      else if isControl c then .error .malformed
      else do
        let (chars, rest) ← readChars 0 rest
        return (c :: chars, rest)

/-- Reads a string behind its opening quote. -/
def readString (text : List Char) : Except Fault (String × List Char) := do
  let (chars, rest) ← readChars 0 text
  return (String.ofList chars, rest)

/-! ### Separators -/

/-- Reads the items of an array behind the first one, each after its comma. There are
at most as many as the first argument has characters. -/
def readMoreItems {α : Type} (item : List Char → Except Fault (α × List Char)) :
    (bound : List Char) → List Char → Except Fault (List α × List Char)
  | bound, text =>
      match skipBlanks text, bound with
      | [], _ => .error .endOfText
      | ']' :: rest, _ => .ok ([], rest)
      | ',' :: rest, _ :: bound => do
          let (value, rest) ← item rest
          let (values, rest) ← readMoreItems item bound rest
          return (value :: values, rest)
      | _, _ => .error .malformed

/-- Reads an array behind its bracket. -/
def readItems {α : Type} (item : List Char → Except Fault (α × List Char)) (text : List Char) :
    Except Fault (List α × List Char) :=
  match skipBlanks text with
  | [] => .error .endOfText
  | ']' :: rest => .ok ([], rest)
  | _ => do
      let (value, rest) ← item text
      let (values, rest) ← readMoreItems item rest rest
      return (value :: values, rest)

/-- Reads the quote that opens a name. -/
def openName (text : List Char) : Except Fault (List Char) :=
  match skipBlanks text with
  | [] => .error .endOfText
  | '"' :: rest => .ok rest
  | _ => .error .malformed

/-- Reads the colon between a name and its value. -/
def readColon (text : List Char) : Except Fault (List Char) :=
  match skipBlanks text with
  | [] => .error .endOfText
  | ':' :: rest => .ok rest
  | _ => .error .malformed

/-- Reads a name, a colon and a value. -/
def readMember {α : Type} (item : List Char → Except Fault (α × List Char)) (text : List Char) :
    Except Fault ((String × α) × List Char) := do
  let (name, rest) ← readString (← openName text)
  let (value, rest) ← item (← readColon rest)
  return ((name, value), rest)

/-- Reads the members of an object behind the first one, each after its comma. There
are at most as many as the first argument has characters. -/
def readMoreMembers {α : Type} (item : List Char → Except Fault (α × List Char)) :
    (bound : List Char) → List Char → Except Fault (List (String × α) × List Char)
  | bound, text =>
      match skipBlanks text, bound with
      | [], _ => .error .endOfText
      | '\x7d' :: rest, _ => .ok ([], rest)
      | ',' :: rest, _ :: bound => do
          let (member, rest) ← readMember item rest
          let (members, rest) ← readMoreMembers item bound rest
          return (member :: members, rest)
      | _, _ => .error .malformed

/-- Reads an object behind its brace. -/
def readMembers {α : Type} (item : List Char → Except Fault (α × List Char)) (text : List Char) :
    Except Fault (List (String × α) × List Char) :=
  match skipBlanks text with
  | [] => .error .endOfText
  | '\x7d' :: rest => .ok ([], rest)
  | _ => do
      let (member, rest) ← readMember item text
      let (members, rest) ← readMoreMembers item rest rest
      return (member :: members, rest)

/-! ### Values -/

/-- Reads a value whose arrays and objects nest at most `nesting` deep. -/
def readNested : (nesting : Nat) → List Char → Except Fault (Json × List Char)
  | nesting, text =>
      match skipBlanks text with
      | [] => .error .endOfText
      | 'n' :: rest => do return (.null, ← readWord ['u', 'l', 'l'] rest)
      | 't' :: rest => do return (.bool true, ← readWord ['r', 'u', 'e'] rest)
      | 'f' :: rest => do return (.bool false, ← readWord ['a', 'l', 's', 'e'] rest)
      | '"' :: rest => do
          let (text, rest) ← readString rest
          return (.string text, rest)
      | '-' :: rest => do
          let (value, rest) ← Number.read true rest
          return (.number value, rest)
      | '[' :: rest =>
          match nesting with
          | 0 => .error .malformed
          | nesting + 1 => do
              let (items, rest) ← readItems (readNested nesting) rest
              return (.array items, rest)
      | '\x7b' :: rest =>
          match nesting with
          | 0 => .error .malformed
          | nesting + 1 => do
              let (members, rest) ← readMembers (readNested nesting) rest
              return (.object members, rest)
      | c :: rest =>
          if c.isDigit then do
            let (value, rest) ← Number.read false (c :: rest)
            return (.number value, rest)
          else .error .malformed

/-- How deep arrays and objects may nest. -/
def maxNesting : Nat := 127

/-- Reads a value from the front of a text. -/
def read (text : List Char) : Except Fault (Json × List Char) :=
  readNested maxNesting text

/-- Expects that nothing but white space is left. -/
def finish (text : List Char) : Except Fault Unit :=
  if (skipBlanks text).isEmpty then .ok () else .error .malformed

/-- Reads a text that is one value. -/
def parse (text : String) : Except Fault Json := do
  let (value, rest) ← read text.toList
  finish rest
  return value

/-! ### Values passed over -/

/-- Passes over a string behind its opening quote. The first argument says how many
characters belong to an escape that is passed over already. -/
def skipChars : (passed : Nat) → List Char → Except Fault (List Char)
  | _, [] => .error .endOfText
  | passed + 1, _ :: rest => skipChars passed rest
  | 0, c :: rest =>
      if c = '"' then .ok rest
      else if c = '\\' then
        match rest with
        | [] => .error .endOfText
        | 'u' :: digits => do
            let _ ← readHex digits
            skipChars 5 rest
        | c :: _ => if (shortEscape? c).isSome then skipChars 1 rest else .error .malformed
      else if isControl c then .error .malformed
      else skipChars 0 rest

/-- Passes over a string behind its opening quote. -/
def skipString (text : List Char) : Except Fault (List Char) :=
  skipChars 0 text

mutual

/-- Passes over a value. The first argument bounds its length. -/
def skipValue : Nat → List Char → Except Fault (List Char)
  | 0, _ => .error .malformed
  | fuel + 1, text =>
      match skipBlanks text with
      | [] => .error .endOfText
      | 'n' :: rest => readWord ['u', 'l', 'l'] rest
      | 't' :: rest => readWord ['r', 'u', 'e'] rest
      | 'f' :: rest => readWord ['a', 'l', 's', 'e'] rest
      | '"' :: rest => skipString rest
      | '-' :: rest => Number.skip rest
      | '[' :: rest =>
          match skipBlanks rest with
          | ']' :: rest => .ok rest
          | [] => .error .endOfText
          | _ => do skipMoreItems fuel (← skipValue fuel rest)
      | '\x7b' :: rest =>
          match skipBlanks rest with
          | '\x7d' :: rest => .ok rest
          | [] => .error .endOfText
          | _ => do skipMoreMembers fuel (← skipMember fuel rest)
      | c :: rest => if c.isDigit then Number.skip (c :: rest) else .error .malformed

/-- Passes over a name, a colon and a value. -/
def skipMember : Nat → List Char → Except Fault (List Char)
  | 0, _ => .error .malformed
  | fuel + 1, text => do skipValue fuel (← readColon (← skipString (← openName text)))

/-- Passes over the items of an array behind the first one. -/
def skipMoreItems : Nat → List Char → Except Fault (List Char)
  | 0, _ => .error .malformed
  | fuel + 1, text =>
      match skipBlanks text with
      | [] => .error .endOfText
      | ']' :: rest => .ok rest
      | ',' :: rest => do skipMoreItems fuel (← skipValue fuel rest)
      | _ => .error .malformed

/-- Passes over the members of an object behind the first one. -/
def skipMoreMembers : Nat → List Char → Except Fault (List Char)
  | 0, _ => .error .malformed
  | fuel + 1, text =>
      match skipBlanks text with
      | [] => .error .endOfText
      | '\x7d' :: rest => .ok rest
      | ',' :: rest => do skipMoreMembers fuel (← skipMember fuel rest)
      | _ => .error .malformed

end

/-- Passes over a value at the front of a text. Every level of nesting and every item
takes at least one character. -/
def skip (text : List Char) : Except Fault (List Char) :=
  skipValue (text.length + 1) text

end ShaderMend.Json
