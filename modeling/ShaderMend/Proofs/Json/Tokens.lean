import Mathlib
import ShaderMend.Json.Reader

/-!
# Numbers and strings in a JSON text

What the grammar writes, the reader reads. A number may have a fraction and an exponent; it is
one if it is an integer of 64 bits or a double holds it. A character of a string stands for
itself, or is escaped by a letter or by its 16-bit units in hexadecimal digits of any case.

* `Json.Numeral.read_magnitude` — every number is read, up to what cannot go on with it.
* `Json.readChars_of_spelled` — every spelling of a string is read as this string.
-/

namespace ShaderMend.Json

/-- Whether a text goes on with what may stand behind a value: nothing, white space, a comma or
a closing bracket. -/
def Ends (rest : List Char) : Prop :=
  ∀ c ∈ rest.head?, isBlank c ∨ c = ',' ∨ c = ']' ∨ c = '\x7d'

/-! ### Numbers -/

/-- The exponent of a number as it is written: the letter before it, its sign if it has one,
and its digits. -/
structure Power where
  mark : Char
  sign : Option Char
  digits : List Char
  deriving DecidableEq

/-- A number as it is written. Where a fraction has no digits there is no point. -/
structure Numeral where
  negative : Bool
  whole : List Char
  fraction : List Char
  power : Option Power

namespace Power

def text (power : Power) : List Char :=
  power.mark :: power.sign.toList ++ power.digits

/-- The exponent that is meant. -/
def value (power : Power) : Int :=
  let magnitude : Int := power.digits.foldl (fun n c => n * 10 + Number.digitValue c) 0
  if power.sign = some '-' then -magnitude else magnitude

/-- Whether the exponent is written well. -/
structure WellFormed (power : Power) : Prop where
  mark : power.mark = 'e' ∨ power.mark = 'E'
  sign : ∀ c ∈ power.sign, c = '+' ∨ c = '-'
  nonempty : power.digits ≠ []
  digits : ∀ c ∈ power.digits, c.isDigit

end Power

namespace Numeral

/-- The text of the fraction. -/
def fractionText (numeral : Numeral) : List Char :=
  if numeral.fraction = [] then [] else '.' :: numeral.fraction

/-- The text of the exponent. -/
def powerText (numeral : Numeral) : List Char :=
  (numeral.power.map Power.text).getD []

/-- The text of the number behind its sign. -/
def magnitude (numeral : Numeral) : List Char :=
  numeral.whole ++ (numeral.fractionText ++ numeral.powerText)

/-- The text of the number. -/
def text (numeral : Numeral) : List Char :=
  (if numeral.negative then ['-'] else []) ++ numeral.magnitude

/-- The number as a decimal. Digits that the significand has no room for count for the exponent
if they stand before the point. -/
def decimal (numeral : Numeral) : Decimal :=
  let (significand, left) := Number.absorb 0 numeral.whole
  let (significand, lost) := Number.absorb significand numeral.fraction
  ⟨numeral.negative, significand,
    left.length - (numeral.fraction.length - lost.length)
      + (numeral.power.map Power.value).getD 0⟩

/-- Whether the number is written as an integer, and its magnitude has room in 64 bits. -/
def IsInteger (numeral : Numeral) : Prop :=
  numeral.fraction = [] ∧ numeral.power = none ∧ (Number.absorb 0 numeral.whole).2 = []

instance (numeral : Numeral) : Decidable numeral.IsInteger :=
  inferInstanceAs (Decidable (_ ∧ _ ∧ _))

/-- The number that is meant. -/
def value (numeral : Numeral) : Number :=
  if numeral.IsInteger then .ofInteger numeral.negative (Number.absorb 0 numeral.whole).1
  else .decimal numeral.decimal

/-- Whether the number is written well: it starts with a digit, and with zero only where no
other digit follows. -/
structure Grammatical (numeral : Numeral) : Prop where
  nonempty : numeral.whole ≠ []
  whole : ∀ c ∈ numeral.whole, c.isDigit
  leading : numeral.whole.head? = some '0' → numeral.whole.length = 1
  fraction : ∀ c ∈ numeral.fraction, c.isDigit
  power : ∀ power ∈ numeral.power, power.WellFormed

/-- Whether the number is written well, and a double holds it if it is no integer. -/
structure WellFormed (numeral : Numeral) : Prop extends numeral.Grammatical where
  held : numeral.IsInteger ∨ numeral.decimal.isFinite

end Numeral

/-- What may stand behind a value is neither a digit nor the rest of a number. -/
theorem Ends.not_number {rest : List Char} (h : Ends rest) :
    ∀ c ∈ rest.head?, c.isDigit = false ∧ c ≠ '.' ∧ c ≠ 'e' ∧ c ≠ 'E' := by
  intro c hc
  rcases h c hc with hblank | rfl | rfl | rfl
  · simp only [isBlank, Bool.or_eq_true, decide_eq_true_eq] at hblank
    rcases hblank with ((rfl | rfl) | rfl) | rfl <;> decide
  all_goals decide

namespace Number

/-- Digits are read up to what is none. -/
theorem digits_append {ds rest : List Char} (hdigits : ∀ c ∈ ds, c.isDigit)
    (hrest : ∀ c ∈ rest.head?, c.isDigit = false) : digits (ds ++ rest) = (ds, rest) := by
  have hstop : rest.takeWhile Char.isDigit = [] ∧ rest.dropWhile Char.isDigit = rest := by
    cases rest with
    | nil => exact ⟨rfl, rfl⟩
    | cons c rest =>
        have hc := hrest c rfl
        simp [hc]
  simp only [digits, List.takeWhile_append_of_pos hdigits, List.dropWhile_append_of_pos hdigits,
    hstop, List.append_nil]

variable {rest : List Char}

/-- An exponent is read behind its letter. -/
theorem readExponent_text {power : Power} (h : power.WellFormed)
    (hrest : ∀ c ∈ rest.head?, c.isDigit = false) (decimal : Decimal) :
    readExponent decimal (power.sign.toList ++ power.digits ++ rest)
      = finite { decimal with exponent := decimal.exponent + power.value } rest := by
  obtain ⟨mark, sign, ds⟩ := power
  have hread := digits_append h.digits hrest
  have hnonempty : ds.isEmpty = false := by simpa using h.nonempty
  cases sign with
  | none =>
      obtain ⟨first, more, rfl⟩ := List.exists_cons_of_ne_nil h.nonempty
      have hfirst : first.isDigit := h.digits first List.mem_cons_self
      have hplus : first ≠ '+' := by
        rintro rfl
        cases hfirst
      have hminus : first ≠ '-' := by
        rintro rfl
        cases hfirst
      rw [List.cons_append] at hread
      simp [readExponent, hplus, hminus, hread, Power.value]
  | some c =>
      rcases h.sign c rfl with rfl | rfl
      · simp [readExponent, hread, hnonempty, Power.value]
      · simp [readExponent, hread, hnonempty, Power.value]

/-- The exponent of a number is read, if it has one. -/
theorem readExponent?_text {numeral : Numeral} (h : numeral.WellFormed) (hrest : Ends rest)
    (decimal : Decimal) :
    readExponent? decimal (numeral.powerText ++ rest)
      = finite { decimal with
          exponent := decimal.exponent + (numeral.power.map Power.value).getD 0 } rest := by
  have hends := hrest.not_number
  cases hpower : numeral.power with
  | none =>
      simp only [Numeral.powerText, hpower, Option.map_none, Option.getD_none, List.nil_append,
        add_zero]
      unfold readExponent?
      split
      · exact absurd rfl (hends _ rfl).2.2.1
      · exact absurd rfl (hends _ rfl).2.2.2
      · rfl
  | some power =>
      have hwell := h.power power hpower
      have hread := readExponent_text hwell (fun c hc => (hends c hc).1) decimal
      simp only [Numeral.powerText, hpower, Option.map_some, Option.getD_some, Power.text,
        List.cons_append]
      rcases hwell.mark with hmark | hmark <;> simpa [hmark, readExponent?] using hread

end Number

namespace Numeral

variable {numeral : Numeral} {rest : List Char}

theorem finite_decimal (h : numeral.WellFormed) (hinteger : ¬ numeral.IsInteger)
    (rest : List Char) :
    Number.finite numeral.decimal rest = .ok (numeral.value, rest) := by
  have hheld := h.held.resolve_left hinteger
  simp [Number.finite, hheld, value, hinteger]

theorem powerText_head (h : numeral.WellFormed) (hrest : Ends rest) :
    ∀ c ∈ (numeral.powerText ++ rest).head?, c.isDigit = false := by
  cases hpower : numeral.power with
  | none =>
      simp only [powerText, hpower, Option.map_none, Option.getD_none, List.nil_append]
      exact fun c hc => (hrest.not_number c hc).1
  | some power =>
      intro c hc
      have hmark : c = power.mark := by simpa [powerText, hpower, Power.text, eq_comm] using hc
      rcases (h.power power hpower).mark with he | he <;> rw [hmark, he] <;> rfl

/-- The digits behind the point are read with the exponent that may follow. -/
theorem readFraction_text (h : numeral.WellFormed) (hrest : Ends rest)
    (hfraction : numeral.fraction ≠ []) :
    Number.readFraction
        ⟨numeral.negative, (Number.absorb 0 numeral.whole).1,
          (Number.absorb 0 numeral.whole).2.length⟩
        (numeral.fraction ++ (numeral.powerText ++ rest))
      = Number.finite numeral.decimal rest := by
  have hread := Number.digits_append h.fraction (powerText_head h hrest)
  have hnonempty : numeral.fraction.isEmpty = false := by simpa using hfraction
  simp only [Number.readFraction, hread, hnonempty, Bool.false_eq_true, if_false,
    Number.readExponent?_text h hrest]
  rfl

/-- **A number is read as what is meant**, whatever stands behind it that does not go on with
it. -/
theorem read_magnitude (numeral : Numeral) (h : numeral.WellFormed) (hrest : Ends rest) :
    Number.read numeral.negative (numeral.magnitude ++ rest) = .ok (numeral.value, rest) := by
  have hends := hrest.not_number
  have hnonempty : numeral.whole.isEmpty = false := by simpa using h.nonempty
  have hleading : ¬ (numeral.whole.head? = some '0' ∧ 1 < numeral.whole.length) :=
    fun ⟨hzero, hlong⟩ => absurd (h.leading hzero) (Nat.ne_of_gt hlong)
  have hread : Number.digits (numeral.magnitude ++ rest)
      = (numeral.whole, numeral.fractionText ++ (numeral.powerText ++ rest)) := by
    rw [magnitude, List.append_assoc, List.append_assoc]
    refine Number.digits_append h.whole ?_
    by_cases hfraction : numeral.fraction = []
    · rw [fractionText, if_pos hfraction, List.nil_append]
      exact powerText_head h hrest
    · rw [fractionText, if_neg hfraction]
      rintro c ⟨⟩
      rfl
  simp only [Number.read, hread, hnonempty, hleading, Bool.false_eq_true, if_false]
  by_cases hfraction : numeral.fraction = []
  · have hnone : numeral.fractionText = [] := if_pos hfraction
    rw [hnone, List.nil_append]
    cases hpower : numeral.power with
    | none =>
        have htext : numeral.powerText = [] := by simp [powerText, hpower]
        rw [htext, List.nil_append]
        split
        · exact absurd rfl (hends _ rfl).2.1
        · exact absurd rfl (hends _ rfl).2.2.1
        · exact absurd rfl (hends _ rfl).2.2.2
        · by_cases hroom : (Number.absorb 0 numeral.whole).2 = []
          · have hinteger : numeral.IsInteger := ⟨hfraction, hpower, hroom⟩
            simp [hroom, value, hinteger]
          · have hinteger : ¬ numeral.IsInteger := fun hinteger => hroom hinteger.2.2
            have hfinite := finite_decimal h hinteger rest
            simp only [decimal, hfraction, hpower, Number.absorb] at hfinite
            simpa [hroom] using hfinite
    | some power =>
        have hwell := h.power power hpower
        have hinteger : ¬ numeral.IsInteger := fun hinteger => by
          rw [hinteger.2.1] at hpower
          cases hpower
        have htext : numeral.powerText ++ rest
            = power.mark :: (power.sign.toList ++ power.digits ++ rest) := by
          simp [powerText, hpower, Power.text]
        have hexponent := Number.readExponent_text hwell (fun c hc => (hends c hc).1)
          ⟨numeral.negative, (Number.absorb 0 numeral.whole).1,
            (Number.absorb 0 numeral.whole).2.length⟩
        have hfinite := finite_decimal h hinteger rest
        simp only [decimal, hfraction, hpower, Number.absorb, Option.map_some, Option.getD_some,
          List.length_nil, Nat.cast_zero, sub_zero] at hfinite
        rw [htext]
        rcases hwell.mark with hmark | hmark
        · rw [hmark]
          exact hexponent.trans hfinite
        · rw [hmark]
          exact hexponent.trans hfinite
  · have hinteger : ¬ numeral.IsInteger := fun hinteger => hfraction hinteger.1
    rw [fractionText, if_neg hfraction]
    exact (readFraction_text h hrest hfraction).trans (finite_decimal h hinteger rest)

end Numeral

/-! ### Strings -/

/-- Four hexadecimal digits and the 16-bit unit that they are. -/
inductive Hex : List Char → Nat → Prop where
  | digits {a b c d : Char} {w x y z : Nat} (ha : hexValue? a = some w) (hb : hexValue? b = some x)
      (hc : hexValue? c = some y) (hd : hexValue? d = some z) :
      Hex [a, b, c, d] (((w * 16 + x) * 16 + y) * 16 + z)

/-- Whether a character may stand for itself. -/
def isPlain (c : Char) : Bool :=
  c ≠ '"' && c ≠ '\\' && !isControl c

/-- The text between quotes that is written for some characters. A character of more than 16
bits is two units. -/
inductive SpellsChars : List Char → List Char → Prop where
  | nil : SpellsChars [] []
  | plain {c : Char} {text chars : List Char} (hplain : isPlain c) (h : SpellsChars text chars) :
      SpellsChars (c :: text) (c :: chars)
  | short {letter c : Char} {text chars : List Char} (hletter : shortEscape? letter = some c)
      (h : SpellsChars text chars) : SpellsChars ('\\' :: letter :: text) (c :: chars)
  | unit {c : Char} {digits text chars : List Char} (hdigits : Hex digits c.toNat)
      (h : SpellsChars text chars) :
      SpellsChars ('\\' :: 'u' :: digits ++ text) (c :: chars)
  | pair {c : Char} {high low text chars : List Char} (hlarge : 0x10000 ≤ c.toNat)
      (hhigh : Hex high (0xD800 + (c.toNat - 0x10000) / 0x400))
      (hlow : Hex low (0xDC00 + (c.toNat - 0x10000) % 0x400)) (h : SpellsChars text chars) :
      SpellsChars ('\\' :: 'u' :: high ++ '\\' :: 'u' :: low ++ text) (c :: chars)

/-- Characters that need no escape may stand for themselves. -/
theorem spellsChars_plain {chars : List Char} (h : chars.all isPlain = true) :
    SpellsChars chars chars := by
  induction chars with
  | nil => exact .nil
  | cons c chars ih =>
      obtain ⟨hplain, hrest⟩ := Bool.and_eq_true_iff.mp h
      exact .plain hplain (ih hrest)

theorem Hex.length {digits : List Char} {unit : Nat} (h : Hex digits unit) :
    digits.length = 4 := by
  cases h
  rfl

theorem readHex_append {digits : List Char} {unit : Nat} (h : Hex digits unit)
    (rest : List Char) : readHex (digits ++ rest) = .ok (unit, rest) := by
  cases h with
  | @digits a b c d w x y z ha hb hc hd =>
      have hsize : ¬ (String.ofList ((a :: b :: c :: d :: rest).take 4)).utf8ByteSize < 4 := by
        have hpos := fun char : Char => char.utf8Size_pos
        have := hpos a
        have := hpos b
        have := hpos c
        have := hpos d
        simp only [List.take_succ_cons, List.take_zero, String.utf8ByteSize_ofList,
          String.utf8Len_cons, String.utf8Len_nil]
        omega
      show readHex (a :: b :: c :: d :: rest) = _
      simp only [readHex, if_neg hsize, ha, hb, hc, hd]

/-- A character of 16 bits is read from its digits. -/
theorem readUnits_unit {c : Char} {digits : List Char} (hdigits : Hex digits c.toNat)
    (rest : List Char) : readUnits (digits ++ rest) = .ok (c, 4) := by
  have hvalid : c.toNat < 0xD800 ∨ 0xDFFF < c.toNat ∧ c.toNat < 0x110000 := c.valid
  have hhigh : isHighHalf c.toNat = false := by
    simp only [isHighHalf, Bool.and_eq_false_iff, decide_eq_false_iff_not]
    omega
  have hlow : isLowHalf c.toNat = false := by
    simp only [isLowHalf, Bool.and_eq_false_iff, decide_eq_false_iff_not]
    omega
  simp [readUnits, readHex_append hdigits, hhigh, hlow, bind, Except.bind, pure, Except.pure]

/-- A character of more than 16 bits is read from its two halves. -/
theorem readUnits_pair {c : Char} {high low : List Char} (hlarge : 0x10000 ≤ c.toNat)
    (hhigh : Hex high (0xD800 + (c.toNat - 0x10000) / 0x400))
    (hlow : Hex low (0xDC00 + (c.toNat - 0x10000) % 0x400)) (rest : List Char) :
    readUnits (high ++ '\\' :: 'u' :: (low ++ rest)) = .ok (c, 10) := by
  have hvalid : c.toNat < 0xD800 ∨ 0xDFFF < c.toNat ∧ c.toNat < 0x110000 := c.valid
  have hfirst : isHighHalf (0xD800 + (c.toNat - 0x10000) / 0x400) = true := by
    simp only [isHighHalf, Bool.and_eq_true, decide_eq_true_eq]
    omega
  have hsecond : isLowHalf (0xDC00 + (c.toNat - 0x10000) % 0x400) = true := by
    simp only [isLowHalf, Bool.and_eq_true, decide_eq_true_eq]
    omega
  have hcode : 0x10000 + (0xD800 + (c.toNat - 0x10000) / 0x400 - 0xD800) * 0x400
      + (0xDC00 + (c.toNat - 0x10000) % 0x400 - 0xDC00) = c.toNat := by omega
  simp only [readUnits, readHex_append hhigh, readLowHalf, readHex_append hlow, hfirst, hsecond,
    bind, Except.bind, pure, Except.pure, if_true, hcode, Char.ofNat_toNat]

/-- Characters of an escape that is read are passed over. -/
theorem readChars_passed (passed rest : List Char) :
    readChars passed.length (passed ++ rest) = readChars 0 rest := by
  induction passed with
  | nil => rfl
  | cons c passed ih => exact ih

/-- An escape is read as the character that it stands for, and then what follows it. -/
theorem readChars_escape (escaped : List Char) {rest chars after : List Char} {c : Char}
    (hescape : readEscape (escaped ++ rest) = .ok (c, escaped.length))
    (hrest : readChars 0 rest = .ok (chars, after)) :
    readChars 0 ('\\' :: (escaped ++ rest)) = .ok (c :: chars, after) := by
  have hpassed := (readChars_passed escaped rest).trans hrest
  rw [readChars]
  simp [hescape, hpassed, bind, Except.bind, pure, Except.pure]

/-- **Every spelling of some characters is read as these**, up to the closing quote. -/
theorem readChars_of_spelled {text chars : List Char} (h : SpellsChars text chars)
    (rest : List Char) : readChars 0 (text ++ '"' :: rest) = .ok (chars, rest) := by
  induction h with
  | nil => rfl
  | @plain c text chars hplain _ ih =>
      have hkinds : (c ≠ '"' ∧ c ≠ '\\') ∧ isControl c = false := by simpa [isPlain] using hplain
      obtain ⟨⟨hquote, hbackslash⟩, hcontrol⟩ := hkinds
      rw [List.cons_append, readChars]
      simp [hquote, hbackslash, hcontrol, ih, bind, Except.bind, pure, Except.pure]
  | @short letter c text chars hletter _ ih =>
      have hunit : letter ≠ 'u' := by
        rintro rfl
        cases hletter
      have hescape : readEscape ([letter] ++ (text ++ '"' :: rest)) = .ok (c, 1) := by
        simp [readEscape, hletter]
      exact readChars_escape [letter] hescape ih
  | @unit c digits text chars hdigits _ ih =>
      have hescape : readEscape (('u' :: digits) ++ (text ++ '"' :: rest))
          = .ok (c, ('u' :: digits).length) := by
        simp [readEscape, readUnits_unit hdigits, hdigits.length, bind, Except.bind, pure,
          Except.pure]
      have hread := readChars_escape _ hescape ih
      simpa using hread
  | @pair c high low text chars hlarge hhigh hlow _ ih =>
      have hescape : readEscape (('u' :: high ++ '\\' :: 'u' :: low) ++ (text ++ '"' :: rest))
          = .ok (c, ('u' :: high ++ '\\' :: 'u' :: low).length) := by
        have hunits := readUnits_pair hlarge hhigh hlow (text ++ '"' :: rest)
        simp [readEscape, hunits, hhigh.length, hlow.length, bind, Except.bind, pure, Except.pure]
      have hread := readChars_escape _ hescape ih
      simpa using hread

theorem readString_of_spelled {inner : List Char} {meant : String}
    (h : SpellsChars inner meant.toList) (rest : List Char) :
    readString (inner ++ '"' :: rest) = .ok (meant, rest) := by
  simp [readString, readChars_of_spelled h, bind, Except.bind, pure, Except.pure]

end ShaderMend.Json
