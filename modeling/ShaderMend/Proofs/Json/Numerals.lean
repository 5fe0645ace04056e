import ShaderMend.Json.Printer
import ShaderMend.Proofs.Json.Tokens

/-!
# Numbers as they are written

An integer is written in its digits, and a decimal as the shortest text of its double: with
digits on both sides of the point, or with one digit before it and an exponent.

* `Json.Numeral.ofNumber` — the number as it is written.
* `Json.Numeral.grammatical_ofFloat` — the shortest text of a double is written well.
* `Json.Number.reread_integer` — an integer that has room in 64 bits is read back as it is.
-/

namespace ShaderMend

/-! ### Digits -/

namespace Json.Number

/-- Digits are taken for as long as the number that they write has room. -/
theorem absorb_of_le {ds : List Char} {first : Nat}
    (h : Nat.ofDigitChars 10 ds first ≤ maxSignificand) :
    absorb first ds = (Nat.ofDigitChars 10 ds first, []) := by
  have hgrows : ∀ (ds : List Char) (first : Nat), first ≤ Nat.ofDigitChars 10 ds first := by
    intro ds
    induction ds with
    | nil => exact fun first => Nat.le_refl _
    | cons c ds ih =>
        intro first
        rw [Nat.ofDigitChars_cons]
        exact Nat.le_trans (by omega) (ih _)
  induction ds generalizing first with
  | nil => rfl
  | cons c ds ih =>
      rw [Nat.ofDigitChars_cons] at h ⊢
      have hnext : first * 10 + digitValue c = 10 * first + (c.toNat - '0'.toNat) := by
        rw [digitValue, Nat.mul_comm]
      have hroom := Nat.le_trans (hgrows ds (10 * first + (c.toNat - '0'.toNat))) h
      simp only [absorb, hnext, hroom, if_true]
      exact ih h

theorem absorb_toDigits {value : Nat} (h : value ≤ maxSignificand) :
    absorb 0 (Nat.toDigits 10 value) = (value, []) := by
  have hvalue := @Nat.ofDigitChars_ten_toDigits value
  rw [absorb_of_le (by rwa [hvalue]), hvalue]

/-- A number does not begin with zero, unless it is zero. -/
theorem head_toDigits {value : Nat} (h : 0 < value) :
    (Nat.toDigits 10 value).head? ≠ some '0' := by
  induction value using Nat.strongRecOn with
  | ind value ih =>
      rw [Nat.toDigits_eq_if (by decide)]
      by_cases hsmall : value < 10
      · simp [hsmall, Nat.ne_of_gt h]
      · have hless : value / 10 < value := Nat.div_lt_self h (by decide)
        have hpos : 0 < value / 10 := by omega
        have hnonempty := @Nat.toDigits_ne_nil (value / 10) 10
        rw [if_neg hsmall, List.head?_append_of_ne_nil _ hnonempty]
        exact ih _ hless hpos

theorem leading_toDigits (value : Nat) :
    (Nat.toDigits 10 value).head? = some '0' → (Nat.toDigits 10 value).length = 1 := by
  intro hzero
  cases value with
  | zero => rfl
  | succ value => exact absurd hzero (head_toDigits (Nat.succ_pos value))

theorem isDigit_toDigits (value : Nat) : ∀ c ∈ Nat.toDigits 10 value, c.isDigit :=
  fun _ hc => Nat.isDigit_of_mem_toDigits (by decide) (by decide) hc

theorem toList_integer (value : Int) :
    (toString value).toList
      = (if value < 0 then ['-'] else []) ++ Nat.toDigits 10 value.natAbs := by
  rw [Int.toString_eq_repr, Int.repr_eq_if]
  by_cases hnegative : value < 0
  · have habs : (-value).toNat = value.natAbs := by omega
    rw [if_neg (Int.not_le.mpr hnegative), if_pos hnegative, habs, String.toList_append,
      Nat.toList_repr]
    rfl
  · have habs : value.toNat = value.natAbs := by omega
    rw [if_pos (Int.not_lt.mp hnegative), if_neg hnegative, habs, Nat.toList_repr]
    rfl

end Json.Number

/-! ### Doubles -/

namespace Decimal

theorem Rounding.ne_zero_of_gridPoint? {interval : Rounding} {unit point : Nat}
    (h : interval.gridPoint? unit = some point) : point ≠ 0 := by
  unfold gridPoint? at h
  dsimp only at h
  split_ifs at h with habove hboth hbelow
  · obtain rfl := Option.some.inj h
    exact hboth.1.1
  · obtain rfl := Option.some.inj h
    exact Nat.succ_ne_zero _
  · obtain rfl := Option.some.inj h
    exact hbelow.1

/-- The shortest decimal is zero, or a point of a grid. -/
theorem exists_shortest_eq (x : Float) : ∃ point? : Option (Nat × Int),
    shortest x = (if (Rounding.ofFloat x.abs).value = 0 then (0, 0) else point?.getD (0, 0)) ∧
      ∀ found ∈ point?, found.1 ≠ 0 := by
  refine ⟨gridExponents.findSome? fun (exponent : Int) =>
    ((Rounding.ofFloat x.abs).gridPoint?
      (Nat.pow 10 (exponent + Rounding.decimalScale).toNat * Nat.pow 2 Rounding.binaryScale)).map
        (·, exponent), by simp only [shortest], fun found hfound => ?_⟩
  obtain ⟨exponent, -, hfound⟩ := List.exists_of_findSome?_eq_some hfound
  obtain ⟨point, hgrid, rfl⟩ := Option.map_eq_some_iff.mp hfound
  exact Rounding.ne_zero_of_gridPoint? hgrid

/-- Only zero has no digit that counts, and its exponent is zero. -/
theorem exponent_of_shortest {x : Float} (h : (shortest x).1 = 0) : (shortest x).2 = 0 := by
  obtain ⟨point?, hshortest, hpoint⟩ := exists_shortest_eq x
  rw [hshortest] at h ⊢
  by_cases hzero : (Rounding.ofFloat x.abs).value = 0
  · rw [if_pos hzero]
  · rw [if_neg hzero] at h ⊢
    cases point? with
    | none => rfl
    | some found => exact absurd h (hpoint found rfl)

end Decimal

namespace Json.Numeral

/-- Digits on both sides of the point. -/
def positional (negative : Bool) (significand : Nat) (exponent : Int) : Numeral :=
  let digits := Nat.toDigits 10 significand
  if 0 ≤ exponent then
    ⟨negative, digits ++ List.replicate exponent.toNat '0', ['0'], none⟩
  else
    let places := (-exponent).toNat
    let padded := List.replicate (places + 1 - digits.length) '0' ++ digits
    let whole := padded.length - places
    ⟨negative, padded.take whole, padded.drop whole, none⟩

/-- One digit before the point, and an exponent with its sign. -/
def scientific (negative : Bool) (significand : Nat) (exponent : Int) : Numeral :=
  let digits := Nat.toDigits 10 significand
  let power := exponent + (digits.length - 1 : Nat)
  ⟨negative, digits.take 1, digits.drop 1,
    some ⟨'e', some (if power < 0 then '-' else '+'), Nat.toDigits 10 power.natAbs⟩⟩

variable {negative : Bool} {significand : Nat} {exponent : Int}

@[simp] theorem negative_positional :
    (positional negative significand exponent).negative = negative := by
  unfold positional
  split <;> rfl

@[simp] theorem negative_scientific :
    (scientific negative significand exponent).negative = negative :=
  rfl

theorem fraction_positional_ne_nil : (positional negative significand exponent).fraction ≠ [] := by
  unfold positional
  by_cases hwhole : 0 ≤ exponent
  · simp [hwhole]
  · have hplaces : 0 < (-exponent).toNat := by omega
    simp only [hwhole, if_false, Ne, List.drop_eq_nil_iff, List.length_append,
      List.length_replicate]
    omega

theorem magnitude_positional :
    (positional negative significand exponent).magnitude
      = (Decimal.positional significand exponent).toList := by
  rw [magnitude, fractionText, if_neg fraction_positional_ne_nil]
  unfold positional Decimal.positional
  by_cases hwhole : 0 ≤ exponent <;> simp [hwhole, powerText]

theorem magnitude_scientific :
    (scientific negative significand exponent).magnitude
      = (Decimal.scientific significand exponent).toList := by
  have hpower : ∀ power : Int, (if power < 0 then "-" else "+" : String).toList
      = [if power < 0 then '-' else '+'] := by
    intro power
    by_cases h : power < 0 <;> simp [h]
  unfold scientific Decimal.scientific
  rcases hdigits : Nat.toDigits 10 significand with _ | ⟨first, _ | ⟨second, rest⟩⟩
  · exact absurd hdigits Nat.toDigits_ne_nil
  · simp [magnitude, fractionText, powerText, Power.text, hpower]
  · simp [magnitude, fractionText, powerText, Power.text, hpower]

theorem isDigit_of_mem_zeros (count : Nat) {c : Char} (h : c ∈ List.replicate count '0') :
    c.isDigit = true := by
  rw [List.eq_of_mem_replicate h]
  rfl

/-- Zeros behind the digits: a digit before the point that is zero stands alone. -/
theorem grammatical_positional_of_nonneg (hwhole : 0 ≤ exponent)
    (h : significand = 0 → exponent = 0) :
    (positional negative significand exponent).Grammatical := by
  have hdigits := Number.isDigit_toDigits significand
  have hnonempty : Nat.toDigits 10 significand ≠ [] := Nat.toDigits_ne_nil
  simp only [positional, hwhole, if_true]
  constructor
  case nonempty => exact List.append_ne_nil_of_left_ne_nil hnonempty _
  case whole =>
    intro c hc
    rcases List.mem_append.mp hc with hc | hc
    · exact hdigits c hc
    · exact isDigit_of_mem_zeros _ hc
  case leading =>
    intro hzero
    rw [List.head?_append_of_ne_nil _ hnonempty] at hzero
    have hnone : significand = 0 := by
      by_contra hne
      exact Number.head_toDigits (Nat.pos_of_ne_zero hne) hzero
    simp [Number.leading_toDigits significand hzero, h hnone]
  case fraction =>
    intro c hc
    exact isDigit_of_mem_zeros 1 hc
  case power =>
    intro power hpower
    cases hpower

/-- Zeros before the digits, so that one digit at least stands before the point. -/
theorem grammatical_positional_of_neg (hbelow : exponent < 0) (hne : significand ≠ 0) :
    (positional negative significand exponent).Grammatical := by
  have hhead := Number.head_toDigits (Nat.pos_of_ne_zero hne)
  have hnonempty := List.length_pos_of_ne_nil (Nat.toDigits_ne_nil (n := significand) (b := 10))
  have hpadded : ∀ count, ∀ c ∈ List.replicate count '0' ++ Nat.toDigits 10 significand,
      c.isDigit := by
    intro count c hc
    rcases List.mem_append.mp hc with hc | hc
    · exact isDigit_of_mem_zeros _ hc
    · exact Number.isDigit_toDigits significand c hc
  simp only [positional, Int.not_le.mpr hbelow, if_false]
  generalize Nat.toDigits 10 significand = digits at *
  constructor
  case nonempty =>
    refine List.ne_nil_of_length_pos ?_
    simp only [List.length_take, List.length_append, List.length_replicate]
    omega
  case whole =>
    intro c hc
    exact hpadded _ c (List.mem_of_mem_take hc)
  case leading =>
    intro hzero
    -- Where a zero stands first, zeros were put before the digits, so that one is left.
    by_cases hlong : (-exponent).toNat < digits.length
    · have hnone : (-exponent).toNat + 1 - digits.length = 0 := by omega
      rw [hnone, List.replicate_zero, List.nil_append, List.head?_take] at hzero
      split_ifs at hzero
      exact absurd hzero hhead
    · simp only [List.length_take, List.length_append, List.length_replicate]
      omega
  case fraction =>
    intro c hc
    exact hpadded _ c (List.mem_of_mem_drop hc)
  case power =>
    intro power hpower
    cases hpower

/-- A point has digits on both sides. -/
theorem grammatical_positional (h : significand = 0 → exponent = 0) :
    (positional negative significand exponent).Grammatical := by
  rcases Int.lt_or_le exponent 0 with hbelow | hwhole
  · exact grammatical_positional_of_neg hbelow fun hzero => Int.ne_of_lt hbelow (h hzero)
  · exact grammatical_positional_of_nonneg hwhole h

theorem grammatical_scientific : (scientific negative significand exponent).Grammatical := by
  have hdigits := Number.isDigit_toDigits significand
  have hnonempty : 0 < (Nat.toDigits 10 significand).length :=
    List.length_pos_of_ne_nil Nat.toDigits_ne_nil
  constructor
  case nonempty =>
    refine List.ne_nil_of_length_pos ?_
    simp only [scientific, List.length_take]
    omega
  case whole => exact fun c hc => hdigits c (List.mem_of_mem_take hc)
  case leading =>
    intro _
    simp only [scientific, List.length_take]
    omega
  case fraction => exact fun c hc => hdigits c (List.mem_of_mem_drop hc)
  case power =>
    intro power hpower
    obtain rfl := Option.some.inj hpower
    refine ⟨Or.inl rfl, fun c hc => ?_, Nat.toDigits_ne_nil, Number.isDigit_toDigits _⟩
    obtain rfl := Option.some.inj hc
    split
    · exact Or.inr rfl
    · exact Or.inl rfl

/-- A significand and an exponent as they are written. -/
def ofDigits (negative : Bool) (significand : Nat) (exponent : Int) : Numeral :=
  let power := exponent + ((Nat.toDigits 10 significand).length - 1 : Nat)
  if significand = 0 ∨ Decimal.minPositional ≤ power ∧ power ≤ Decimal.maxPositional then
    positional negative significand exponent
  else scientific negative significand exponent

theorem text_ofDigits :
    (ofDigits negative significand exponent).text
      = (if negative then ['-'] else []) ++ (Decimal.digitsText significand exponent).toList := by
  unfold ofDigits Decimal.digitsText
  dsimp only
  split_ifs <;> simp_all [text, magnitude_positional, magnitude_scientific]

theorem grammatical_ofDigits (h : significand = 0 → exponent = 0) :
    (ofDigits negative significand exponent).Grammatical := by
  unfold ofDigits
  dsimp only
  split_ifs
  · exact grammatical_positional h
  · exact grammatical_scientific

/-- The shortest text of a double as a number. -/
def ofFloat (x : Float) : Numeral :=
  ofDigits (Decimal.isMinus x) (Decimal.shortest x).1 (Decimal.shortest x).2

theorem text_ofFloat (x : Float) : (ofFloat x).text = (Decimal.floatText x).toList := by
  rw [ofFloat, text_ofDigits, Decimal.floatText, String.toList_append]
  cases Decimal.isMinus x <;> rfl

/-- **The shortest text of a double is written well.** -/
theorem grammatical_ofFloat (x : Float) : (ofFloat x).Grammatical :=
  grammatical_ofDigits Decimal.exponent_of_shortest

end Json.Numeral

/-! ### Numbers -/

namespace Json

namespace Numeral

/-- The number as it is written. -/
def ofNumber : Number → Numeral
  | .integer value => ⟨value < 0, Nat.toDigits 10 value.natAbs, [], none⟩
  | .decimal value => ofFloat value.toFloat

theorem text_ofNumber (number : Number) : (ofNumber number).text = number.written := by
  cases number with
  | integer value =>
      rw [Number.written, Number.toList_integer]
      by_cases hnegative : value < 0 <;>
        simp [ofNumber, text, magnitude, fractionText, powerText, hnegative]
  | decimal value => exact text_ofFloat value.toFloat

theorem grammatical_ofNumber (number : Number) : (ofNumber number).Grammatical := by
  cases number with
  | integer value =>
      constructor
      case nonempty => exact Nat.toDigits_ne_nil
      case whole => exact Number.isDigit_toDigits _
      case leading => exact Number.leading_toDigits _
      case fraction => exact fun c hc => by cases hc
      case power => exact fun power hpower => by cases hpower
  | decimal value => exact grammatical_ofFloat value.toFloat

end Numeral

namespace Number

/-- Whether a number has room in 64 bits, or a double holds the decimal that is written for it.
The latter is so for the doubles that there are, but their arithmetic has no laws here. -/
def Held : Number → Prop
  | .integer value => -0x8000000000000000 ≤ value ∧ value ≤ maxSignificand
  | .decimal value => (Numeral.ofNumber (.decimal value)).decimal.isFinite

/-- The number that is read back where a number was written. The digits of a decimal may be
others, since they are those of its double. -/
def reread (number : Number) : Number :=
  (Numeral.ofNumber number).value

theorem isInteger_ofNumber {value : Int} (h : (Number.integer value).Held) :
    (Numeral.ofNumber (.integer value)).IsInteger := by
  obtain ⟨hlow, hhigh⟩ := h
  have hroom : value.natAbs ≤ maxSignificand := by
    simp only [maxSignificand, UInt64.size] at hhigh ⊢
    omega
  exact ⟨rfl, rfl, by simp [Numeral.ofNumber, absorb_toDigits hroom]⟩

/-- **An integer is read back as it is.** -/
theorem reread_integer {value : Int} (h : (Number.integer value).Held) :
    (Number.integer value).reread = .integer value := by
  rw [reread, Numeral.value, if_pos (isInteger_ofNumber h)]
  obtain ⟨hlow, hhigh⟩ := h
  have hroom : value.natAbs ≤ maxSignificand := by
    simp only [maxSignificand, UInt64.size] at hhigh ⊢
    omega
  by_cases hnegative : value < 0
  · have hbounds : ¬ (value.natAbs = 0 ∨ 0x8000000000000000 < value.natAbs) := by omega
    have hvalue : -(value.natAbs : Int) = value := by omega
    simp only [Numeral.ofNumber, absorb_toDigits hroom, ofInteger, hnegative, decide_true,
      Bool.not_true, Bool.false_eq_true, hbounds, if_false, hvalue]
  · have hvalue : (value.natAbs : Int) = value := by omega
    simp [Numeral.ofNumber, absorb_toDigits hroom, ofInteger, hnegative, hvalue]

theorem Held.wellFormed {number : Number} (h : number.Held) :
    (Numeral.ofNumber number).WellFormed where
  toGrammatical := Numeral.grammatical_ofNumber number
  held := by
    cases number with
    | integer value => exact Or.inl (isInteger_ofNumber h)
    | decimal value => exact Or.inr h

end Number

end Json

end ShaderMend
