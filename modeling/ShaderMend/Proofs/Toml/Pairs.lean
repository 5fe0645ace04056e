import ShaderMend.Proofs.Json.Compact
import ShaderMend.Proofs.Toml.Strings
import ShaderMend.Toml.Reader

/-!
# Pairs in a TOML text

A document without headers is a row of lines, each with a pair of a key and a value or with
nothing, and perhaps a comment behind it. The pairs are read in their order.

* `Toml.readValue_of_spelled` — strings, truth values and integers without sign are read.
* `Toml.readLines_of_spelled` — the lines are read, by induction on them.
* `Toml.parse?_of_spelled` — a document of pairs with distinct keys is read as these pairs.
-/

namespace ShaderMend.Toml

/-! ### The grammar -/

/-- Blanks, of which there may be none. -/
def Blank (text : List Char) : Prop :=
  ∀ c ∈ text, isBlank c

/-- The text of a value: a string, a truth value, or a decimal integer without sign. -/
inductive SpellsScalar : List Char → Scalar → Prop where
  | string {text chars : List Char} (h : SpellsString text chars) :
      SpellsScalar text (.string (.ofList chars))
  | true : SpellsScalar ['t', 'r', 'u', 'e'] (.boolean Bool.true)
  | false : SpellsScalar ['f', 'a', 'l', 's', 'e'] (.boolean Bool.false)
  | integer {value : Nat} (h : (value : Int) ≤ Int64.maxValue.toInt) :
      SpellsScalar (Nat.toDigits 10 value) (.integer value)

/-- What ends a line: blanks, perhaps a comment, and a line feed. -/
inductive SpellsEnd : List Char → Prop where
  | plain {blanks : List Char} (hblanks : Blank blanks) : SpellsEnd (blanks ++ ['\n'])
  | comment {blanks chars : List Char} (hblanks : Blank blanks) (hchars : ∀ c ∈ chars, isPlain c) :
      SpellsEnd (blanks ++ '#' :: (chars ++ ['\n']))

/-- Whether a text is a key that needs no quotes. -/
structure IsBareKey (key : String) : Prop where
  nonempty : key.toList ≠ []
  bare : ∀ c ∈ key.toList, isBareKeyChar c

/-- The lines of some pairs, with empty lines and comments between them. -/
inductive SpellsPairs : List Char → List (String × Scalar) → Prop where
  | nil : SpellsPairs [] []
  | skip {line rest : List Char} {pairs : List (String × Scalar)} (hline : SpellsEnd line)
      (hrest : SpellsPairs rest pairs) : SpellsPairs (line ++ rest) pairs
  | pair {indent before between text line rest : List Char} {key : String} {value : Scalar}
      {pairs : List (String × Scalar)} (hindent : Blank indent) (hkey : IsBareKey key)
      (hbefore : Blank before) (hbetween : Blank between) (htext : SpellsScalar text value)
      (hline : SpellsEnd line) (hrest : SpellsPairs rest pairs) :
      SpellsPairs (indent ++ (key.toList
        ++ (before ++ '=' :: (between ++ (text ++ (line ++ rest)))))) ((key, value) :: pairs)

/-! ### Blanks and ends of lines -/

theorem skipBlanks_append {blanks : List Char} (h : Blank blanks) (text : List Char) :
    skipBlanks (blanks ++ text) = skipBlanks text :=
  List.dropWhile_append_of_pos h

theorem skipBlanks_cons {c : Char} (h : isBlank c = false) (text : List Char) :
    skipBlanks (c :: text) = c :: text := by
  simp [skipBlanks, h]

theorem dropWhile_plain {chars : List Char} (h : ∀ c ∈ chars, isPlain c) (rest : List Char) :
    (chars ++ '\n' :: rest).dropWhile isPlain = '\n' :: rest :=
  List.dropWhile_append_of_pos h

/-- The text behind blanks at the end of a line is a comment or a line feed. -/
theorem SpellsEnd.begins {line : List Char} (h : SpellsEnd line) (rest : List Char) :
    ∃ c more, skipBlanks (line ++ rest) = c :: more ∧ (c = '#' ∨ c = '\n') ∧
      endLine? (c :: more) = some rest := by
  cases h with
  | @plain blanks hblanks =>
      refine ⟨'\n', rest, ?_, Or.inr rfl, rfl⟩
      rw [List.append_assoc, skipBlanks_append hblanks]
      exact skipBlanks_cons (by rfl) rest
  | @comment blanks chars hblanks hchars =>
      refine ⟨'#', chars ++ '\n' :: rest, ?_, Or.inl rfl, ?_⟩
      · rw [List.append_assoc, skipBlanks_append hblanks]
        simpa using skipBlanks_cons (c := '#') (by rfl) (chars ++ '\n' :: rest)
      · have hskip : skipBlanks ('#' :: (chars ++ '\n' :: rest)) = '#' :: (chars ++ '\n' :: rest) :=
          skipBlanks_cons (by rfl) _
        rw [endLine?, hskip, skipComment, dropWhile_plain hchars]
        rfl

theorem endLine?_of_spelled {line : List Char} (h : SpellsEnd line) (rest : List Char) :
    endLine? (line ++ rest) = some rest := by
  obtain ⟨c, more, hskip, hc, hend⟩ := h.begins rest
  have hplain : isBlank c = false := by rcases hc with rfl | rfl <;> rfl
  rw [endLine?, skipBlanks_cons hplain] at hend
  rw [endLine?, hskip]
  exact hend

/-- Whether a text goes on with what may stand behind a value. -/
def Ends (rest : List Char) : Prop :=
  ∀ c ∈ rest.head?, isBlank c ∨ c = '#' ∨ c = '\n'

theorem ends_append {blanks : List Char} (h : Blank blanks) {c : Char} (hc : c = '#' ∨ c = '\n')
    (rest : List Char) : Ends (blanks ++ c :: rest) := by
  cases blanks with
  | nil =>
      rintro _ ⟨⟩
      exact Or.inr hc
  | cons first blanks =>
      rintro _ ⟨⟩
      exact Or.inl (h first List.mem_cons_self)

theorem SpellsEnd.ends {line : List Char} (h : SpellsEnd line) (rest : List Char) :
    Ends (line ++ rest) := by
  cases h with
  | plain hblanks =>
      rw [List.append_assoc]
      exact ends_append hblanks (Or.inr rfl) _
  | comment hblanks =>
      rw [List.append_assoc]
      exact ends_append hblanks (Or.inl rfl) _

/-- What may stand behind a value goes on with no word and with no string. -/
theorem Ends.apart {rest : List Char} (h : Ends rest) :
    ∀ c ∈ rest.head?, Scalar.isWordChar c = false ∧ c ≠ '"' ∧ c ≠ '\'' := by
  intro c hc
  rcases h c hc with hblank | rfl | rfl
  · simp only [isBlank, Bool.or_eq_true, decide_eq_true_eq] at hblank
    rcases hblank with rfl | rfl <;> decide
  all_goals decide

/-! ### Words -/

namespace Scalar

/-- A word that is no date is split off what goes on with none of its characters. -/
theorem splitWord_append {word rest : List Char} (hword : ∀ c ∈ word, isWordChar c)
    (hdate : isDate word = false) (hrest : ∀ c ∈ rest.head?, isWordChar c = false) :
    splitWord (word ++ rest) = (word, rest) := by
  have htake : (word ++ rest).takeWhile isWordChar = word := by
    rw [List.takeWhile_append_of_pos hword]
    cases rest with
    | nil => simp
    | cons c rest => simp [hrest c rfl]
  unfold splitWord
  simp only [htake, List.drop_left]
  split
  · simp [hdate]
  · rfl

theorem readWord_append {word rest : List Char} {value : Scalar}
    (hword : ∀ c ∈ word, isWordChar c) (hdate : isDate word = false)
    (hvalue : ofWord? word = some value) (hrest : ∀ c ∈ rest.head?, isWordChar c = false) :
    readWord (word ++ rest) = some (value, rest) := by
  rw [readWord, splitWord_append hword hdate hrest]
  simp [hvalue]

section Digits

variable {value : Nat}

theorem isDigit_of_mem {c : Char} (h : c ∈ Nat.toDigits 10 value) : c.isDigit :=
  Nat.isDigit_of_mem_toDigits (by decide) (by decide) h

/-- What is no digit is none of the digits of a number. -/
theorem not_mem_toDigits {c : Char} (h : c.isDigit = false) : c ∉ Nat.toDigits 10 value :=
  fun hmem => by simp [isDigit_of_mem hmem] at h

theorem isDate_toDigits : isDate (Nat.toDigits 10 value) = false := by
  rw [isDate, List.splitOn_eq_singleton (not_mem_toDigits (by rfl))]

theorem digits?_toDigits :
    digits? Char.isDigit (Nat.toDigits 10 value) = some (Nat.toDigits 10 value) := by
  have hall : (Nat.toDigits 10 value).all Char.isDigit = true :=
    List.all_eq_true.mpr fun c hmem => isDigit_of_mem hmem
  have hnonempty := @Nat.toDigits_ne_nil value 10
  unfold digits?
  rw [List.splitOn_eq_singleton (not_mem_toDigits (by rfl))]
  simp [hall, hnonempty]

theorem wholeDigits?_toDigits :
    wholeDigits? (Nat.toDigits 10 value) = some (Nat.toDigits 10 value) := by
  have hleading : ¬ ((Nat.toDigits 10 value).head? = some '0'
      ∧ 1 < (Nat.toDigits 10 value).length) := by
    rintro ⟨hzero, hlong⟩
    rw [Json.Number.leading_toDigits value hzero] at hlong
    exact absurd hlong (lt_irrefl 1)
  simp [wholeDigits?, digits?_toDigits, hleading]

/-- Digits spell the number that they are the digits of. -/
theorem valueOf_toDigits : valueOf 10 (Nat.toDigits 10 value) = value := by
  have hfold : ∀ (digits : List Char) (first : Nat), (∀ c ∈ digits, c.isDigit) →
      digits.foldl (fun value c => value * 10 + (Json.hexValue? c).getD 0) first
        = Nat.ofDigitChars 10 digits first := by
    intro digits
    induction digits with
    | nil => exact fun first _ => rfl
    | cons c digits ih =>
        intro first hdigits
        have hdigit : Json.hexValue? c = some (c.toNat - '0'.toNat) := by
          rw [Json.hexValue?, if_pos (hdigits c List.mem_cons_self)]
        rw [List.foldl_cons, Nat.ofDigitChars_cons, hdigit, Option.getD_some, Nat.mul_comm first]
        exact ih _ fun other hmem => hdigits other (List.mem_cons_of_mem _ hmem)
  rw [valueOf, hfold _ _ fun c hmem => isDigit_of_mem hmem]
  exact Nat.ofDigitChars_ten_toDigits

/-- The digits of a number have no character in front that is none. -/
theorem toDigits_ne {c : Char} (h : c.isDigit = false) (before rest : List Char) :
    Nat.toDigits 10 value ≠ before ++ c :: rest := by
  intro heq
  have hmem : c ∈ Nat.toDigits 10 value := by simp [heq]
  exact not_mem_toDigits h hmem

theorem splitSign_toDigits :
    splitSign (Nat.toDigits 10 value) = (false, Nat.toDigits 10 value) := by
  unfold splitSign
  split
  · next heq => exact absurd heq (toDigits_ne (by rfl) [] _)
  · next heq => exact absurd heq (toDigits_ne (by rfl) [] _)
  · rfl

theorem wholeValue?_toDigits : wholeValue? (Nat.toDigits 10 value) = some (value : Int) := by
  unfold wholeValue?
  split
  · next heq => exact absurd heq (toDigits_ne (by rfl) ['0'] _)
  · next heq => exact absurd heq (toDigits_ne (by rfl) ['0'] _)
  · next heq => exact absurd heq (toDigits_ne (by rfl) ['0'] _)
  · simp [splitSign_toDigits, wholeDigits?_toDigits, valueOf_toDigits]

/-- **An integer is read from its digits.** -/
theorem ofWord?_toDigits (h : (value : Int) ≤ Int64.maxValue.toInt) :
    ofWord? (Nat.toDigits 10 value) = some (.integer value) := by
  have hlow : Int64.minValue.toInt ≤ (value : Int) :=
    le_trans (by decide) (Int.natCast_nonneg value)
  have hinteger : integer? (Nat.toDigits 10 value) = some (value : Int) := by
    rw [integer?, wholeValue?_toDigits, Option.filter_some, if_pos (by simp only [hlow, h]; rfl)]
  have htrue : Nat.toDigits 10 value ≠ ['t', 'r', 'u', 'e'] := toDigits_ne (by rfl) [] _
  have hfalse : Nat.toDigits 10 value ≠ ['f', 'a', 'l', 's', 'e'] := toDigits_ne (by rfl) [] _
  rw [ofWord?, if_neg htrue, if_neg hfalse, hinteger]

end Digits

end Scalar

/-! ### Values -/

theorem readNested_word (nesting : Nat) {c : Char} (h : Scalar.isWordChar c) (text : List Char) :
    readNested nesting (c :: text)
      = (Scalar.readWord (c :: text)).map fun (value, rest) => (.scalar value, rest) := by
  unfold readNested
  split <;> first | rfl | (next heq => cases (List.cons.inj heq).1; cases h)

theorem readNested_quote (nesting : Nat) {quote : Char} (h : quote = '"' ∨ quote = '\'')
    (text : List Char) :
    readNested nesting (quote :: text)
      = (readString (quote :: text)).map fun (value, rest) => (.scalar (.string value), rest) := by
  rcases h with rfl | rfl <;> unfold readNested <;> cases nesting <;> rfl

theorem readValue_word {word rest : List Char} {value : Scalar} (hnonempty : word ≠ [])
    (hword : ∀ c ∈ word, Scalar.isWordChar c) (hdate : Scalar.isDate word = false)
    (hvalue : Scalar.ofWord? word = some value)
    (hrest : ∀ c ∈ rest.head?, Scalar.isWordChar c = false) :
    readValue (word ++ rest) = some (.scalar value, rest) := by
  have hread := Scalar.readWord_append hword hdate hvalue hrest
  obtain ⟨c, word, rfl⟩ := List.exists_cons_of_ne_nil hnonempty
  have hvalue := readNested_word maxNesting (hword c List.mem_cons_self) (word ++ rest)
  rw [← List.cons_append, hread] at hvalue
  exact hvalue

/-- A string begins with a quote. -/
theorem SpellsString.cons {text chars : List Char} (h : SpellsString text chars) :
    ∃ quote rest, text = quote :: rest ∧ (quote = '"' ∨ quote = '\'') := by
  cases h with
  | basic => exact ⟨'"', _, rfl, Or.inl rfl⟩
  | literal => exact ⟨'\'', _, rfl, Or.inr rfl⟩
  | @long quote _ _ _ _ hquote => exact ⟨quote, _, rfl, hquote.imp And.left And.left⟩

/-- **Every spelling of a value is read as this value**, up to what may stand behind it. -/
theorem readValue_of_spelled {text rest : List Char} {value : Scalar}
    (h : SpellsScalar text value) (hrest : Ends rest) :
    readValue (text ++ rest) = some (.scalar value, rest) := by
  have hword : ∀ c ∈ rest.head?, Scalar.isWordChar c = false := fun c hc => (hrest.apart c hc).1
  cases h with
  | @string text chars hstring =>
      have hread := readString_of_spelled hstring fun c hc => (hrest.apart c hc).2
      obtain ⟨quote, inner, rfl, hquote⟩ := hstring.cons
      have hvalue := readNested_quote maxNesting hquote (inner ++ rest)
      rw [← List.cons_append, hread] at hvalue
      exact hvalue
  | true => exact readValue_word (by simp) (List.all_eq_true.mp (by rfl)) (by rfl) (by rfl) hword
  | false => exact readValue_word (by simp) (List.all_eq_true.mp (by rfl)) (by rfl) (by rfl) hword
  | @integer value hvalue =>
      refine readValue_word Nat.toDigits_ne_nil ?_ Scalar.isDate_toDigits
        (Scalar.ofWord?_toDigits hvalue) hword
      intro c hmem
      simp [Scalar.isWordChar, Char.isAlphanum, Scalar.isDigit_of_mem hmem]

/-! ### Keys and lines -/

theorem apart_of_bareKeyChar {c : Char} (h : isBareKeyChar c) :
    isBlank c = false ∧ c ≠ '[' ∧ c ≠ '#' ∧ c ≠ '\n' ∧ c ≠ '\r' := by
  have hother : ∀ other : Char, isBareKeyChar other = false → c ≠ other := by
    rintro other hno rfl
    rw [h] at hno
    cases hno
  have hblank : isBlank c = false := by
    have hspace := hother ' ' (by rfl)
    have htab := hother '\t' (by rfl)
    simp [isBlank, hspace, htab]
  exact ⟨hblank, hother _ (by rfl), hother _ (by rfl), hother _ (by rfl), hother _ (by rfl)⟩

/-- A key is read up to its equals sign. -/
theorem readKey_of_bare {key : String} {before : List Char} (hkey : IsBareKey key)
    (hbefore : Blank before) (rest : List Char) :
    readKey (key.toList ++ (before ++ '=' :: rest)) = some ([key], '=' :: rest) := by
  obtain ⟨c, more, hcons⟩ := List.exists_cons_of_ne_nil hkey.nonempty
  have hskip : skipBlanks (key.toList ++ (before ++ '=' :: rest))
      = key.toList ++ (before ++ '=' :: rest) := by
    have hc := apart_of_bareKeyChar (hkey.bare c (by simp [hcons]))
    rw [hcons, List.cons_append]
    exact skipBlanks_cons hc.1 _
  have htake : (key.toList ++ (before ++ '=' :: rest)).takeWhile isBareKeyChar = key.toList := by
    rw [List.takeWhile_append_of_pos hkey.bare]
    cases before with
    | nil => simp [isBareKeyChar]
    | cons first before =>
        have hfirst : isBareKeyChar first = false := by
          by_contra hbare
          have hblank := hbefore first List.mem_cons_self
          simp [(apart_of_bareKeyChar (by simpa using hbare)).1] at hblank
        simp [hfirst]
  have hpart : readKeyPart (key.toList ++ (before ++ '=' :: rest))
      = some (key, before ++ '=' :: rest) := by
    have hnonempty : ¬ key.toList.isEmpty = true := by simp [hcons]
    simp only [readKeyPart, htake, if_neg hnonempty, List.drop_left, String.ofList_toList]
  have hparts : readMoreParts (maxNesting - 1) (before ++ '=' :: rest)
      = some ([], '=' :: rest) := by
    unfold readMoreParts
    rw [skipBlanks_append hbefore, skipBlanks_cons (by rfl)]
    rfl
  simp [readKey, hskip, hpart, hparts]

/-- A line with nothing but perhaps a comment is read. -/
theorem readLine_of_end {line : List Char} (h : SpellsEnd line) (rest : List Char) :
    readLine (line ++ rest) = some (.blank, rest) := by
  obtain ⟨c, more, hskip, hc, hend⟩ := h.begins rest
  unfold readLine
  rw [hskip]
  rcases hc with rfl | rfl <;> simp [hend]

/-- A value does not begin with a blank. -/
theorem skipBlanks_of_spelled {text : List Char} {value : Scalar} (h : SpellsScalar text value)
    (rest : List Char) : skipBlanks (text ++ rest) = text ++ rest := by
  cases h with
  | string hstring =>
      obtain ⟨quote, inner, rfl, rfl | rfl⟩ := hstring.cons <;> exact skipBlanks_cons (by rfl) _
  | true => exact skipBlanks_cons (by rfl) _
  | false => exact skipBlanks_cons (by rfl) _
  | @integer value =>
      obtain ⟨c, digits, hdigits⟩ := List.exists_cons_of_ne_nil (@Nat.toDigits_ne_nil value 10)
      have hmem : c ∈ Nat.toDigits 10 value := by simp [hdigits]
      have hdigit := Scalar.isDigit_of_mem hmem
      have hblank : isBlank c = false := by
        by_contra hblank
        simp only [isBlank, Bool.not_eq_false, Bool.or_eq_true, decide_eq_true_eq] at hblank
        rcases hblank with rfl | rfl <;> cases hdigit
      rw [hdigits]
      exact skipBlanks_cons hblank _

section Pair

variable {before between text : List Char} {key : String} {value : Scalar}

/-- A key, an equals sign and a value are read, with blanks between them. -/
theorem readPair_of_spelled {rest : List Char} (hkey : IsBareKey key) (hbefore : Blank before)
    (hbetween : Blank between) (htext : SpellsScalar text value) (hrest : Ends rest) :
    readPair readValue (key.toList ++ (before ++ '=' :: (between ++ (text ++ rest))))
      = some (([key], .scalar value), rest) := by
  have hvalue : readValue (skipBlanks (between ++ (text ++ rest)))
      = some (.scalar value, rest) := by
    rw [skipBlanks_append hbetween, skipBlanks_of_spelled htext]
    exact readValue_of_spelled htext hrest
  rw [readPair, readKey_of_bare hkey hbefore]
  simp [hvalue]

/-- **A line with a pair is read.** -/
theorem readLine_of_pair {indent line : List Char} (hindent : Blank indent)
    (hkey : IsBareKey key) (hbefore : Blank before) (hbetween : Blank between)
    (htext : SpellsScalar text value) (hline : SpellsEnd line) (rest : List Char) :
    readLine (indent ++ (key.toList ++ (before ++ '=' :: (between ++ (text ++ (line ++ rest))))))
      = some (.pair [key] (.scalar value), rest) := by
  have hpair := readPair_of_spelled hkey hbefore hbetween htext (hline.ends rest)
  have hend := endLine?_of_spelled hline rest
  obtain ⟨c, more, hcons⟩ := List.exists_cons_of_ne_nil hkey.nonempty
  obtain ⟨hblank, hbracket, hhash, hfeed, hreturn⟩ :=
    apart_of_bareKeyChar (hkey.bare c (by simp [hcons]))
  -- The reader first asks whether the line is empty; a key is neither a comment nor a line end.
  have hnoend : ∀ text, endLine? (c :: text) = none := by
    intro text
    have hcomment : skipComment (c :: text) = c :: text := by
      unfold skipComment
      split
      · next heq => exact absurd (List.cons.inj heq).1 hhash
      · rfl
    rw [endLine?, skipBlanks_cons hblank, hcomment]
    exact newLine?_of_ne hfeed hreturn text
  unfold readLine
  rw [skipBlanks_append hindent]
  rw [hcons, List.cons_append] at hpair ⊢
  rw [skipBlanks_cons hblank]
  simp only
  split
  · next heq => exact absurd (List.cons.inj heq).1 hbracket
  · next heq => exact absurd (List.cons.inj heq).1 hbracket
  · simp [hnoend, hpair, hend]

end Pair

/-! ### Documents -/

theorem SpellsEnd.length_pos {line : List Char} (h : SpellsEnd line) : 0 < line.length := by
  cases h <;> simp

/-- The entries of a document that has some pairs. -/
def entriesOf (pairs : List (String × Scalar)) : Entries :=
  pairs.map fun pair => (pair.1, .scalar pair.2)

/-- **The lines of a document are read**, by induction on them: those with pairs give the pairs in
their order, and the others nothing. -/
theorem readLines_of_spelled {text : List Char} {pairs : List (String × Scalar)}
    (h : SpellsPairs text pairs) {fuel : Nat} (hfuel : text.length < fuel) :
    ∃ lines, readLines fuel text = some lines ∧
      sections lines = ((entriesOf pairs).map fun entry => ([entry.1], entry.2), []) := by
  induction h generalizing fuel with
  | nil => exact ⟨[], by unfold readLines; rfl, rfl⟩
  -- A line has at least its line feed, so that the bound suffices for those behind it.
  | @skip line rest pairs hline _ ih =>
      obtain ⟨fuel, rfl⟩ := Nat.exists_eq_add_one_of_ne_zero (Nat.ne_zero_of_lt hfuel)
      have hread := readLine_of_end hline rest
      have hlength := hline.length_pos
      have hroom : rest.length < fuel := by
        rw [List.length_append] at hfuel
        omega
      obtain ⟨lines, hlines, hsections⟩ := ih hroom
      refine ⟨.blank :: lines, ?_, by rw [sections, hsections]⟩
      rw [readLines, hread]
      · simp [hlines]
      · intro hempty
        simp [List.append_eq_nil_iff.mp hempty] at hlength
  | @pair indent before between text line rest key value pairs hindent hkey hbefore hbetween htext
      hline _ ih =>
      obtain ⟨fuel, rfl⟩ := Nat.exists_eq_add_one_of_ne_zero (Nat.ne_zero_of_lt hfuel)
      have hread := readLine_of_pair hindent hkey hbefore hbetween htext hline rest
      have hroom : rest.length < fuel := by
        simp only [List.length_append, List.length_cons] at hfuel
        omega
      obtain ⟨lines, hlines, hsections⟩ := ih hroom
      refine ⟨.pair [key] (.scalar value) :: lines, ?_, by rw [sections, hsections]; rfl⟩
      rw [readLines, hread]
      · simp [hlines]
      · simp

/-- Entries with new keys are added at the end. -/
theorem addPairs?_of_nodup {entries more : Entries}
    (h : ((entries ++ more).map Prod.fst).Nodup) :
    Entries.addPairs? (more.map fun entry => ([entry.1], entry.2)) entries
      = some (entries ++ more) := by
  induction more generalizing entries with
  | nil => simp [Entries.addPairs?]
  | cons entry more ih =>
      obtain ⟨key, node⟩ := entry
      have hnew : entries.lookup key = none := by
        refine List.lookup_eq_none_iff.mpr fun entry hmem => ?_
        rw [List.map_append, List.nodup_append] at h
        have hne := h.2.2 entry.1 (List.mem_map_of_mem hmem) key (by simp)
        simpa [bne_iff_ne] using hne.symm
      have hadded : Entries.addDotted? node .header true [key] entries
          = some (entries ++ [(key, node)]) := by
        simp [Entries.addDotted?, Entries.add?, hnew]
      have hkeys : ((entries ++ [(key, node)] ++ more).map Prod.fst).Nodup := by simpa using h
      have hrest := ih hkeys
      simp only [Entries.addPairs?, List.map_cons, List.foldlM_cons] at hrest ⊢
      rw [hadded]
      simpa using hrest

theorem SpellsEnd.head {line : List Char} (h : SpellsEnd line) (rest : List Char) :
    (line ++ rest).head? ≠ some '\ufeff' := by
  have hends := h.ends rest
  intro hhead
  rcases hends _ hhead with hblank | hhash | hfeed
  · cases hblank
  · cases hhash
  · cases hfeed

/-- A document of pairs begins with no mark of the byte order. -/
theorem SpellsPairs.head {text : List Char} {pairs : List (String × Scalar)}
    (h : SpellsPairs text pairs) : text.head? ≠ some '\ufeff' := by
  cases h with
  | nil => simp
  | skip hline => exact hline.head _
  | @pair indent before between text line rest key value pairs hindent hkey =>
      obtain ⟨c, more, hcons⟩ := List.exists_cons_of_ne_nil hkey.nonempty
      cases indent with
      | nil =>
          rw [hcons]
          rintro ⟨⟩
          have hbare := hkey.bare '\ufeff' (by simp [hcons])
          cases hbare
      | cons first indent =>
          rintro ⟨⟩
          cases hindent _ List.mem_cons_self

/-- **A document of pairs with distinct keys is read as these pairs.** -/
theorem parse?_of_spelled {text : List Char} {pairs : List (String × Scalar)}
    (h : SpellsPairs text pairs) (hkeys : (pairs.map Prod.fst).Nodup) :
    parse? (.ofList text) = some (entriesOf pairs) := by
  obtain ⟨lines, hlines, hsections⟩ := readLines_of_spelled h (Nat.lt_succ_self text.length)
  have hentries : (([] ++ entriesOf pairs).map Prod.fst).Nodup := by
    simpa [entriesOf, Function.comp_def] using hkeys
  have hassembled : assemble? [⟨false, [], (entriesOf pairs).map fun entry => ([entry.1], entry.2)⟩]
      = some (entriesOf pairs) := by
    simpa [assemble?, Section.addTo?] using addPairs?_of_nodup hentries
  unfold parse?
  simp only [String.toList_ofList, if_neg h.head, hlines, hsections, Option.bind_eq_bind,
    Option.bind_some]
  exact hassembled

/-! ### Writing -/

/-- Whether a value is a string, a truth value, or an integer without sign that has room in a
signed 64-bit word. -/
def Scalar.Held : Scalar → Prop
  | .string _ => True
  | .boolean _ => True
  | .integer value => 0 ≤ value ∧ value ≤ Int64.maxValue.toInt
  | .real _ => False
  | .moment _ => False

theorem spellsScalar_scalarText {value : Scalar} (h : value.Held) :
    SpellsScalar (scalarText value) value := by
  match value, h with
  | .string text, _ =>
      have hstring := SpellsScalar.string (spellsString_written text.toList)
      rwa [String.ofList_toList] at hstring
  | .boolean true, _ => exact .true
  | .boolean false, _ => exact .false
  | .integer value, ⟨hlow, hhigh⟩ =>
      obtain ⟨value, rfl⟩ := Int.eq_ofNat_of_zero_le hlow
      have hdigits := Json.Number.toList_integer value
      rw [if_neg (not_lt.mpr hlow), Int.natAbs_natCast] at hdigits
      rw [scalarText, hdigits]
      exact .integer hhigh

/-- **The lines that are written for some pairs spell them.** -/
theorem spellsPairs_linesText {pairs : List (String × Scalar)}
    (h : ∀ pair ∈ pairs, IsBareKey pair.1 ∧ pair.2.Held) : SpellsPairs (linesText pairs) pairs := by
  induction pairs with
  | nil => exact .nil
  | cons pair pairs ih =>
      obtain ⟨hkey, hheld⟩ := h pair List.mem_cons_self
      have hspace : Blank [' '] := by
        intro c hmem
        obtain rfl := List.mem_singleton.mp hmem
        rfl
      have hnone : Blank [] := fun c hmem => by cases hmem
      have hrest := ih fun other hmem => h other (List.mem_cons_of_mem _ hmem)
      have hpair := SpellsPairs.pair hnone hkey hspace hspace (spellsScalar_scalarText hheld)
        (.plain hnone) hrest
      simpa [linesText, lineText] using hpair

end ShaderMend.Toml
