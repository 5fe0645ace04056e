import ShaderMend.Toml.Text

/-!
# Numbers, dates and times of TOML

Numbers and dates are read as one word, which must be spelt by the rules from its
first to its last character. Integers fit a signed 64-bit word.
-/

namespace ShaderMend.Toml

/-- A value that is no collection. Reals, dates and times keep their spelling. -/
inductive Scalar where
  | string (text : String)
  | integer (value : Int)
  | boolean (value : Bool)
  | real (spelling : List Char)
  | moment (spelling : List Char)
  deriving DecidableEq, Repr

namespace Scalar

/-! ### Integers -/

/-- The digits of a number, of which an underscore may stand between any two. -/
def digits? (isDigit : Char → Bool) (word : List Char) : Option (List Char) :=
  let groups := word.splitOn '_'
  if groups.all fun group => !group.isEmpty && group.all isDigit then some groups.flatten else none

/-- The number that digits spell in a base. -/
def valueOf (base : Nat) (digits : List Char) : Nat :=
  digits.foldl (fun value c => value * base + (Json.hexValue? c).getD 0) 0

/-- The digits of a decimal integer without sign, which does not start with a zero
unless it is one. -/
def wholeDigits? (word : List Char) : Option (List Char) := do
  let digits ← digits? Char.isDigit word
  if digits.head? = some '0' ∧ 1 < word.length then none else return digits

/-- Splits the sign off a word. -/
def splitSign : List Char → Bool × List Char
  | '+' :: rest => (false, rest)
  | '-' :: rest => (true, rest)
  | word => (false, word)

/-- Whether a character is an octal digit. -/
def isOctal (c : Char) : Bool := '0' ≤ c && c ≤ '7'

/-- Whether a character is a binary digit. -/
def isBinary (c : Char) : Bool := c = '0' || c = '1'

/-- The integer that a word spells: decimal with an optional sign, or in another base
with its mark and without sign. -/
def wholeValue? (word : List Char) : Option Int :=
  match word with
  | '0' :: 'x' :: rest => (digits? (fun c => (Json.hexValue? c).isSome) rest).map (valueOf 16 ·)
  | '0' :: 'o' :: rest => (digits? isOctal rest).map (valueOf 8 ·)
  | '0' :: 'b' :: rest => (digits? isBinary rest).map (valueOf 2 ·)
  | _ =>
      let (negative, rest) := splitSign word
      (wholeDigits? rest).map fun digits =>
        if negative then -(valueOf 10 digits : Int) else (valueOf 10 digits : Int)

/-- The integer that a word spells, if a signed 64-bit word holds it. -/
def integer? (word : List Char) : Option Int :=
  (wholeValue? word).filter fun value =>
    Int64.minValue.toInt ≤ value ∧ value ≤ Int64.maxValue.toInt

/-! ### Reals -/

/-- Whether a decimal is so large that the nearest double is infinite. -/
def isHuge (significand : Nat) (exponent : Int) : Bool :=
  if significand = 0 then false
  else
    let size := (Nat.toDigits 10 significand).length + exponent
    if 400 < size then true
    else if size < 300 then false
    else
      let least := Nat.pow 2 1024 - Nat.pow 2 970
      match exponent with
      | .ofNat power => least ≤ significand * Nat.pow 10 power
      | .negSucc power => least * Nat.pow 10 (power + 1) ≤ significand

/-- Whether a word spells the exponent of a real behind its mark; its value. -/
def exponent? (word : List Char) : Option Int := do
  let (negative, rest) := splitSign word
  let digits ← digits? Char.isDigit rest
  return if negative then -(valueOf 10 digits : Int) else (valueOf 10 digits : Int)

/-- Whether a word without sign spells a real: its significand and exponent. -/
def magnitude? (word : List Char) : Option (Nat × Int) := do
  let mantissa := word.takeWhile fun c => c ≠ 'e' ∧ c ≠ 'E'
  let whole := mantissa.takeWhile (· ≠ '.')
  let wholeDigits ← wholeDigits? whole
  let fraction ←
    match mantissa.drop whole.length with
    | [] => some []
    | _ :: places => digits? Char.isDigit places
  let exponent ←
    match word.drop mantissa.length with
    | [] => some 0
    | _ :: power => exponent? power
  if whole.length = word.length then none
  return (valueOf 10 (wholeDigits ++ fraction), exponent - fraction.length)

/-- Whether a word spells a real. A positive one must not be too large. -/
def isReal (word : List Char) : Bool :=
  let (negative, rest) := splitSign word
  if rest = ['i', 'n', 'f'] ∨ rest = ['n', 'a', 'n'] then true
  else
    match magnitude? rest with
    | some (significand, exponent) => negative || !isHuge significand exponent
    | none => false

/-! ### Dates and times -/

/-- The number of a fixed count of digits. -/
def fixed? (count : Nat) (word : List Char) : Option Nat :=
  if word.length = count ∧ word.all Char.isDigit then some (valueOf 10 word) else none

/-- The days of a month. -/
def daysIn (year month : Nat) : Nat :=
  if month = 2 then
    if (year % 4 = 0 ∧ year % 100 ≠ 0) ∨ year % 400 = 0 then 29 else 28
  else if month = 4 ∨ month = 6 ∨ month = 9 ∨ month = 11 then 30
  else 31

/-- Whether a word is a date: year, month and day. -/
def isDate (word : List Char) : Bool :=
  match word.splitOn '-' with
  | [year, month, day] =>
      match fixed? 4 year, fixed? 2 month, fixed? 2 day with
      | some year, some month, some day =>
          1 ≤ month && month ≤ 12 && 1 ≤ day && day ≤ daysIn year month
      | _, _, _ => false
  | _ => false

/-- Whether a word is hour and minute. -/
def isHourMinute (word : List Char) : Bool :=
  match word.splitOn ':' with
  | [hour, minute] =>
      match fixed? 2 hour, fixed? 2 minute with
      | some hour, some minute => hour ≤ 23 && minute ≤ 59
      | _, _ => false
  | _ => false

/-- Whether a word is a time: hour, minute and second, with decimals or without. -/
def isTime (word : List Char) : Bool :=
  match word.drop 5 with
  | ':' :: seconds =>
      let whole := seconds.takeWhile (· ≠ '.')
      let decimals :=
        match seconds.drop whole.length with
        | [] => true
        | _ :: places => !places.isEmpty && places.all Char.isDigit
      isHourMinute (word.take 5) && ((fixed? 2 whole).any (· ≤ 60)) && decimals
  | _ => false

/-- Whether a word is a time with the distance to universal time, or without. -/
def isZonedTime (word : List Char) : Bool :=
  let time := word.takeWhile fun c => c.isDigit || c = ':' || c = '.'
  isTime time &&
    match word.drop time.length with
    | [] => true
    | ['Z'] => true
    | ['z'] => true
    | '+' :: distance => isHourMinute distance
    | '-' :: distance => isHourMinute distance
    | _ => false

/-- Whether a word is a date, a time, or both. -/
def isMoment (word : List Char) : Bool :=
  isTime word || isDate word ||
    match word.drop 10 with
    | c :: time => (c = 'T' || c = 't' || c = ' ') && isDate (word.take 10) && isZonedTime time
    | [] => false

/-! ### Words -/

/-- Whether a character may stand in a number, date or truth value. -/
def isWordChar (c : Char) : Bool :=
  c.isAlphanum || c = '_' || c = '+' || c = '-' || c = '.' || c = ':'

/-- The word at the front of a text. A date and a time behind a single space are one
word. -/
def splitWord (text : List Char) : List Char × List Char :=
  let word := text.takeWhile isWordChar
  match text.drop word.length with
  | ' ' :: c :: rest =>
      if isDate word && c.isDigit then
        let time := (c :: rest).takeWhile isWordChar
        (word ++ ' ' :: time, (c :: rest).drop time.length)
      else (word, ' ' :: c :: rest)
  | rest => (word, rest)

/-- What a word spells. -/
def ofWord? (word : List Char) : Option Scalar :=
  if word = ['t', 'r', 'u', 'e'] then some (.boolean true)
  else if word = ['f', 'a', 'l', 's', 'e'] then some (.boolean false)
  else
    match integer? word with
    | some value => some (.integer value)
    | none =>
        if isReal word then some (.real word)
        else if isMoment word then some (.moment word)
        else none

/-- Reads a number, date, time or truth value. -/
def readWord (text : List Char) : Option (Scalar × List Char) :=
  let (word, rest) := splitWord text
  (ofWord? word).map (·, rest)

end Scalar

end ShaderMend.Toml
