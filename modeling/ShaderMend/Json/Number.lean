import ShaderMend.Json.Value

/-!
# Numbers in a JSON text

An integer that fits a 64-bit word, signed or not, is read exactly. Any other
number becomes a decimal whose significand keeps as many leading digits as fit an
unsigned word. A decimal whose magnitude no double holds is not a number.
-/

namespace ShaderMend

namespace Json

/-- Why a text is no JSON text: it ends too early, or goes on with a character that
cannot stand there. -/
inductive Fault where
  | endOfText
  | malformed
  deriving DecidableEq, Repr

/-- White space between tokens: space, tab, line feed, carriage return. -/
def isBlank (c : Char) : Bool :=
  c = ' ' || c = '\t' || c = '\n' || c = '\r'

/-- The text after its white space. -/
def skipBlanks (text : List Char) : List Char :=
  text.dropWhile isBlank

namespace Number

/-- The value of a decimal digit. -/
def digitValue (c : Char) : Nat :=
  c.toNat - '0'.toNat

/-- The largest significand that is kept. -/
def maxSignificand : Nat := UInt64.size - 1

/-- Appends digits to a significand for as long as it fits; the digits left over
start with the first that does not. -/
def absorb (significand : Nat) : List Char → Nat × List Char
  | [] => (significand, [])
  | c :: digits =>
      let next := significand * 10 + digitValue c
      if next ≤ maxSignificand then absorb next digits else (significand, c :: digits)

/-- The leading digits of a text, and what follows them. -/
def digits (text : List Char) : List Char × List Char :=
  (text.takeWhile Char.isDigit, text.dropWhile Char.isDigit)

/-- The failure at the end of a text or before a character that is no digit. -/
def digitMissing (text : List Char) : Fault :=
  if text.isEmpty then .endOfText else .malformed

/-- A decimal that a double holds, or no number. -/
def finite (decimal : Decimal) (rest : List Char) : Except Fault (Number × List Char) :=
  if decimal.isFinite then .ok (.decimal decimal, rest) else .error .malformed

/-- Reads the exponent behind `e`, which is added to the one of `decimal`. -/
def readExponent (decimal : Decimal) (text : List Char) : Except Fault (Number × List Char) :=
  let (negative, text) : Bool × List Char :=
    match text with
    | '+' :: rest => (false, rest)
    | '-' :: rest => (true, rest)
    | _ => (false, text)
  let (ds, rest) := digits text
  if ds.isEmpty then .error (digitMissing rest)
  else
    let power : Int := ds.foldl (fun n c => n * 10 + digitValue c) 0
    finite { decimal with exponent := decimal.exponent + if negative then -power else power } rest

/-- Reads an exponent if there is one. -/
def readExponent? (decimal : Decimal) (text : List Char) : Except Fault (Number × List Char) :=
  match text with
  | 'e' :: rest => readExponent decimal rest
  | 'E' :: rest => readExponent decimal rest
  | _ => finite decimal text

/-- Reads the digits behind the point. The significand takes those that fit. -/
def readFraction (decimal : Decimal) (text : List Char) : Except Fault (Number × List Char) :=
  let (ds, rest) := digits text
  if ds.isEmpty then .error (digitMissing rest)
  else
    let (significand, left) := absorb decimal.significand ds
    let places : Int := ds.length - left.length
    readExponent? { decimal with significand, exponent := decimal.exponent - places } rest

/-- An integer without fraction and exponent. -/
def ofInteger (negative : Bool) (magnitude : Nat) : Number :=
  if !negative then .integer magnitude
  else if magnitude = 0 ∨ 0x8000000000000000 < magnitude then .decimal ⟨true, magnitude, 0⟩
  else .integer (-magnitude)

/-- Reads a number behind its sign. A zero is not followed by a digit. -/
def read (negative : Bool) (text : List Char) : Except Fault (Number × List Char) :=
  let (ds, rest) := digits text
  if ds.isEmpty then .error (digitMissing rest)
  else if ds.head? = some '0' ∧ 1 < ds.length then .error .malformed
  else
    let (significand, left) := absorb 0 ds
    let decimal : Decimal := ⟨negative, significand, left.length⟩
    match rest with
    | '.' :: rest => readFraction decimal rest
    | 'e' :: rest => readExponent decimal rest
    | 'E' :: rest => readExponent decimal rest
    | _ => if left.isEmpty then .ok (ofInteger negative significand, rest) else finite decimal rest

/-- Passes over a number behind its sign without converting it. A digit that is
missing makes the text malformed, also at its end. -/
def skip (text : List Char) : Except Fault (List Char) :=
  let (ds, rest) := digits text
  if ds.isEmpty then .error .malformed
  else if ds.head? = some '0' ∧ 1 < ds.length then .error .malformed
  else
    match rest with
    | '.' :: rest =>
        let (places, rest) := digits rest
        if places.isEmpty then .error .malformed else skipExponent rest
    | _ => skipExponent rest
where
  /-- Passes over an exponent if there is one. -/
  skipExponent (text : List Char) : Except Fault (List Char) :=
    match text with
    | 'e' :: rest => skipPower rest
    | 'E' :: rest => skipPower rest
    | _ => .ok text
  /-- Passes over the sign and the digits of an exponent. -/
  skipPower (text : List Char) : Except Fault (List Char) :=
    let text :=
      match text with
      | '+' :: rest => rest
      | '-' :: rest => rest
      | _ => text
    let (ds, rest) := digits text
    if ds.isEmpty then .error .malformed else .ok rest

end Number

end Json

end ShaderMend
