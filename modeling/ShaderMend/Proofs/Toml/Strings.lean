import Mathlib
import ShaderMend.Toml.Printer

/-!
# Strings in a TOML text

A string is written in one of four notations. What each writes is read back: in a basic string a
character stands for itself or is escaped, in a literal one all characters stand for themselves,
and over several lines up to two quotes in a row belong to the string.

* `Toml.readString_of_spelled` — every spelling of a string is read as this string.
* `Toml.spellsString_written` — the notation that is chosen for a string spells it.
-/

namespace ShaderMend.Toml

/-! ### The grammar -/

/-- What is written behind the backslash of an escaped character. -/
inductive SpellsEscape : List Char → Char → Prop where
  | backspace : SpellsEscape ['b'] '\x08'
  | tab : SpellsEscape ['t'] '\t'
  | feed : SpellsEscape ['n'] '\n'
  | form : SpellsEscape ['f'] '\x0c'
  | return : SpellsEscape ['r'] '\r'
  | quote : SpellsEscape ['"'] '"'
  | backslash : SpellsEscape ['\\'] '\\'
  | short {digits : List Char} {c : Char} (hlength : digits.length = 4)
      (hcode : hexNumber? digits = some c.toNat) : SpellsEscape ('u' :: digits) c
  | long {digits : List Char} {c : Char} (hlength : digits.length = 8)
      (hcode : hexNumber? digits = some c.toNat) : SpellsEscape ('U' :: digits) c

/-- The content of a basic string on one line. -/
inductive SpellsBasic : List Char → List Char → Prop where
  | nil : SpellsBasic [] []
  | plain {c : Char} {content chars : List Char} (hplain : isPlain c) (hquote : c ≠ '"')
      (hbackslash : c ≠ '\\') (h : SpellsBasic content chars) :
      SpellsBasic (c :: content) (c :: chars)
  | escaped {code : List Char} {c : Char} {content chars : List Char} (hcode : SpellsEscape code c)
      (h : SpellsBasic content chars) : SpellsBasic ('\\' :: (code ++ content)) (c :: chars)

/-- The content of a string over several lines, behind a run of quotes that belong to it. A run
has at most two quotes. -/
inductive SpellsLong (quote : Char) (escapes : Bool) : Nat → List Char → List Char → Prop where
  | nil {run : Nat} (hrun : run ≤ 2) : SpellsLong quote escapes run [] []
  | quote {run : Nat} {content chars : List Char}
      (h : SpellsLong quote escapes (run + 1) content chars) :
      SpellsLong quote escapes run (quote :: content) (quote :: chars)
  | feed {run : Nat} {content chars : List Char} (hrun : run ≤ 2)
      (h : SpellsLong quote escapes 0 content chars) :
      SpellsLong quote escapes run ('\n' :: content) ('\n' :: chars)
  | plain {run : Nat} {c : Char} {content chars : List Char} (hrun : run ≤ 2)
      (hplain : isPlain c) (hquote : c ≠ quote) (hbackslash : escapes = true → c ≠ '\\')
      (h : SpellsLong quote escapes 0 content chars) :
      SpellsLong quote escapes run (c :: content) (c :: chars)
  | escaped {run : Nat} {code : List Char} {c : Char} {content chars : List Char} (hrun : run ≤ 2)
      (hescapes : escapes = true) (hcode : SpellsEscape code c)
      (h : SpellsLong quote escapes 0 content chars) :
      SpellsLong quote escapes run ('\\' :: (code ++ content)) (c :: chars)

/-- What opens and closes a string over several lines. -/
def longDelimiter (quote : Char) : List Char :=
  [quote, quote, quote]

/-- The text of a string. A line feed behind the opening of a string over several lines does not
belong to it, and one that does stands behind such a one. -/
inductive SpellsString : List Char → List Char → Prop where
  | basic {content chars : List Char} (h : SpellsBasic content chars) :
      SpellsString ('"' :: (content ++ ['"'])) chars
  | literal {chars : List Char} (h : ∀ c ∈ chars, isPlain c ∧ c ≠ '\'') :
      SpellsString ('\'' :: (chars ++ ['\''])) chars
  | long {quote : Char} {escapes : Bool} {opening content chars : List Char}
      (hquote : quote = '"' ∧ escapes = true ∨ quote = '\'' ∧ escapes = false)
      (hopening : opening = ['\n'] ∨ opening = [] ∧ content.head? ≠ some '\n')
      (h : SpellsLong quote escapes 0 content chars) :
      SpellsString (longDelimiter quote ++ (opening ++ (content ++ longDelimiter quote))) chars

/-- Whether a text does not go on with a quote, so that a string before it has ended. -/
def Unquoted (rest : List Char) : Prop :=
  ∀ c ∈ rest.head?, c ≠ '"' ∧ c ≠ '\''

/-! ### Escapes -/

theorem charOfCode?_toNat (c : Char) : charOfCode? c.toNat = some c := by
  have hvalid : c.toNat.isValidChar := c.valid
  rw [charOfCode?, dif_pos hvalid]
  exact congrArg some (Char.ext (UInt32.toNat_inj.mp rfl))

theorem readCode_append {digits : List Char} {c : Char} {count : Nat}
    (hlength : digits.length = count) (hcode : hexNumber? digits = some c.toNat)
    (rest : List Char) : readCode count (digits ++ rest) = some (c, rest) := by
  subst hlength
  simp [readCode, hcode, charOfCode?_toNat]

/-- **An escaped character is read.** -/
theorem readEscape_of_spelled {code : List Char} {c : Char} (h : SpellsEscape code c)
    (rest : List Char) : readEscape (code ++ rest) = some (c, rest) := by
  cases h with
  | short hlength hcode => exact readCode_append hlength hcode rest
  | long hlength hcode => exact readCode_append hlength hcode rest
  | _ => rfl

/-- An escaped character is no end of a line. -/
theorem foldedLine?_of_spelled {code : List Char} {c : Char} (h : SpellsEscape code c)
    (rest : List Char) : foldedLine? (code ++ rest) = none := by
  cases h <;> rfl

/-! ### Strings on one line -/

theorem SpellsBasic.length_le {content chars : List Char} (h : SpellsBasic content chars) :
    chars.length ≤ content.length := by
  induction h with
  | nil => exact le_rfl
  | plain _ _ _ _ ih => exact Nat.succ_le_succ ih
  | escaped _ _ ih =>
      simp only [List.length_cons, List.length_append]
      omega

/-- **The content of a basic string is read up to its quote.** -/
theorem readBasic_of_spelled {content chars : List Char} (h : SpellsBasic content chars)
    {fuel : Nat} (hfuel : chars.length < fuel) (rest : List Char) :
    readBasic fuel (content ++ '"' :: rest) = some (chars, rest) := by
  induction h generalizing fuel with
  | nil =>
      obtain ⟨fuel, rfl⟩ := Nat.exists_eq_add_one_of_ne_zero (Nat.ne_zero_of_lt hfuel)
      simp [readBasic]
  | @plain c content chars hplain hquote hbackslash _ ih =>
      obtain ⟨fuel, rfl⟩ := Nat.exists_eq_add_one_of_ne_zero (Nat.ne_zero_of_lt hfuel)
      have hrest := ih (Nat.lt_of_succ_lt_succ hfuel)
      rw [List.cons_append, readBasic]
      simp [hquote, hbackslash, hplain, hrest]
  | @escaped code c content chars hcode _ ih =>
      obtain ⟨fuel, rfl⟩ := Nat.exists_eq_add_one_of_ne_zero (Nat.ne_zero_of_lt hfuel)
      have hrest := ih (Nat.lt_of_succ_lt_succ hfuel)
      rw [List.cons_append, List.append_assoc, readBasic]
      simp [readEscape_of_spelled hcode, hrest]

theorem readLiteral_append {chars : List Char} (h : ∀ c ∈ chars, isPlain c ∧ c ≠ '\'')
    (rest : List Char) : readLiteral (chars ++ '\'' :: rest) = some (chars, rest) := by
  induction chars with
  | nil => rfl
  | cons c chars ih =>
      obtain ⟨hplain, hquote⟩ := h c List.mem_cons_self
      have hrest := ih fun other hmem => h other (List.mem_cons_of_mem _ hmem)
      rw [List.cons_append, readLiteral]
      simp [hquote, hplain, hrest]

/-! ### Strings over several lines -/

section Long

variable {quote : Char} {escapes : Bool} {run : Nat} {content chars more rest : List Char}

theorem SpellsLong.length_le (h : SpellsLong quote escapes run content chars) :
    chars.length ≤ content.length := by
  induction h with
  | nil => exact le_rfl
  | quote _ ih | feed _ _ ih | plain _ _ _ _ _ ih => exact Nat.succ_le_succ ih
  | escaped _ _ _ _ ih =>
      simp only [List.length_cons, List.length_append]
      omega

theorem takeWhile_run (h : ∀ c ∈ more.head?, c ≠ quote) (run : Nat) :
    (List.replicate run quote ++ more).takeWhile (· = quote) = List.replicate run quote := by
  induction run with
  | zero =>
      cases more with
      | nil => rfl
      | cons c more => simp [h c rfl]
  | succ run ih => simp [List.replicate_succ, ih]

theorem dropWhile_run (h : ∀ c ∈ more.head?, c ≠ quote) (run : Nat) :
    (List.replicate run quote ++ more).dropWhile (· = quote) = more := by
  induction run with
  | zero =>
      cases more with
      | nil => rfl
      | cons c more => simp [h c rfl]
  | succ run ih => simp [List.replicate_succ, ih]

/-- A run of quotes at the front of a text is counted, and what it stands for is read. -/
theorem readLongBody_run (h : ∀ c ∈ more.head?, c ≠ quote) (fuel run : Nat) :
    readLongBody quote escapes (fuel + 1) (List.replicate (run + 1) quote ++ more) = do
      let (quotes, ends) ← quoteRun? quote (run + 1)
      if ends then return (quotes, more)
      let (chars, rest) ← readLongBody quote escapes fuel more
      return (quotes ++ chars, rest) := by
  have htake := takeWhile_run h (run + 1)
  have hdrop := dropWhile_run h (run + 1)
  rw [List.replicate_succ, List.cons_append] at htake hdrop ⊢
  rw [readLongBody]
  simp only [if_true, htake, hdrop, List.length_cons, List.length_replicate]

/-- Up to two quotes before another character belong to the string, and so does the character. -/
theorem readLongBody_quotes {c : Char} {fuel : Nat} (hrun : run ≤ 2)
    (hmore : ∀ c ∈ more.head?, c ≠ quote)
    (h : ∀ fuel, chars.length < fuel →
      readLongBody quote escapes (fuel + 1) more = some (c :: chars, rest))
    (hfuel : run + (c :: chars).length < fuel) :
    readLongBody quote escapes fuel (List.replicate run quote ++ more)
      = some (List.replicate run quote ++ c :: chars, rest) := by
  rw [List.length_cons] at hfuel
  obtain ⟨fuel, rfl⟩ := Nat.exists_eq_add_one_of_ne_zero (Nat.ne_zero_of_lt hfuel)
  cases run with
  | zero => exact h fuel (by omega)
  | succ run =>
      have hquotes : quoteRun? quote (run + 1) = some (List.replicate (run + 1) quote, false) := by
        rw [quoteRun?, if_pos (by omega)]
      obtain ⟨fuel, rfl⟩ := Nat.exists_eq_add_one_of_ne_zero (by omega : fuel ≠ 0)
      rw [readLongBody_run hmore, hquotes]
      simp [h fuel (by omega)]

/-- Three quotes end the string, and up to two more before them belong to it. -/
theorem readLongBody_end {fuel : Nat} (hrun : run ≤ 2) (hrest : ∀ c ∈ rest.head?, c ≠ quote)
    (hfuel : 0 < fuel) :
    readLongBody quote escapes fuel (List.replicate run quote ++ (longDelimiter quote ++ rest))
      = some (List.replicate run quote, rest) := by
  obtain ⟨fuel, rfl⟩ := Nat.exists_eq_add_one_of_ne_zero (Nat.ne_of_gt hfuel)
  have hquotes : quoteRun? quote (run + 2 + 1) = some (List.replicate run quote, true) := by
    rw [quoteRun?, if_neg (by omega), if_pos (by omega)]
    rfl
  have hassoc : List.replicate run quote ++ (longDelimiter quote ++ rest)
      = List.replicate (run + 2 + 1) quote ++ rest := by
    rw [← List.append_assoc, show run + 2 + 1 = run + 3 by rfl, ← List.replicate_append_replicate]
    rfl
  rw [hassoc, readLongBody_run hrest, hquotes]
  rfl

/-- A line feed is read, and what follows it. -/
theorem readLongBody_feed {fuel : Nat} (hquote : '\n' ≠ quote)
    (h : readLongBody quote escapes fuel more = some (chars, rest)) :
    readLongBody quote escapes (fuel + 1) ('\n' :: more) = some ('\n' :: chars, rest) := by
  rw [readLongBody]
  simp [hquote, newLine?, h]

theorem newLine?_of_ne {c : Char} (hfeed : c ≠ '\n') (hreturn : c ≠ '\r') (rest : List Char) :
    newLine? (c :: rest) = none := by
  unfold newLine?
  split
  · next heq => exact absurd (List.cons.inj heq).1 hfeed
  · next heq => exact absurd (List.cons.inj heq).1 hreturn
  · rfl

theorem newLine?_plain {c : Char} (h : isPlain c) (rest : List Char) :
    newLine? (c :: rest) = none := by
  refine newLine?_of_ne ?_ ?_ rest
  all_goals
    rintro rfl
    cases h

/-- A character that stands for itself is read, and what follows it. -/
theorem readLongBody_plain {fuel : Nat} {c : Char} (hplain : isPlain c) (hquote : c ≠ quote)
    (hbackslash : escapes = true → c ≠ '\\')
    (h : readLongBody quote escapes fuel more = some (chars, rest)) :
    readLongBody quote escapes (fuel + 1) (c :: more) = some (c :: chars, rest) := by
  have hescape : ¬ (escapes = true ∧ c = '\\') := fun hboth => hbackslash hboth.1 hboth.2
  rw [readLongBody]
  simp only [if_neg hquote, if_neg hescape, newLine?_plain hplain, if_pos hplain, h]
  rfl

/-- An escaped character is read, and what follows it. -/
theorem readLongBody_escaped {fuel : Nat} {code : List Char} {c : Char} (hquote : '\\' ≠ quote)
    (hescapes : escapes = true) (hcode : SpellsEscape code c)
    (h : readLongBody quote escapes fuel more = some (chars, rest)) :
    readLongBody quote escapes (fuel + 1) ('\\' :: (code ++ more)) = some (c :: chars, rest) := by
  subst hescapes
  rw [readLongBody]
  simp [hquote, foldedLine?_of_spelled hcode, readEscape_of_spelled hcode, h]

/-- **The content of a string over several lines is read up to its three quotes**, behind the
quotes of a run that has begun. By induction on the content; a run is read as a whole where
something else follows it. -/
theorem readLongBody_of_spelled (hquote : quote = '"' ∨ quote = '\'')
    (h : SpellsLong quote escapes run content chars) {fuel : Nat}
    (hfuel : run + chars.length < fuel) (hrest : ∀ c ∈ rest.head?, c ≠ quote) :
    readLongBody quote escapes fuel
        (List.replicate run quote ++ (content ++ (longDelimiter quote ++ rest)))
      = some (List.replicate run quote ++ chars, rest) := by
  have hfeed : '\n' ≠ quote := by rcases hquote with rfl | rfl <;> decide
  have hbackslash : '\\' ≠ quote := by rcases hquote with rfl | rfl <;> decide
  induction h generalizing fuel with
  | nil hrun => simpa using readLongBody_end hrun hrest (by omega)
  -- The run goes on: nothing is read yet.
  | @quote run content chars _ ih =>
      have hroom : run + 1 + chars.length < fuel := by
        rw [List.length_cons] at hfuel
        omega
      have hread := ih hroom
      rw [List.replicate_succ', List.append_assoc, List.append_assoc] at hread
      exact hread
  -- The run has ended: its quotes are read at once, and then the character behind them.
  | @feed run content chars hrun _ ih =>
      refine readLongBody_quotes hrun ?_ (fun fuel hroom => ?_) hfuel
      · rintro c ⟨⟩
        exact hfeed
      · exact readLongBody_feed hfeed (ih (by omega))
  | @plain run c content chars hrun hplain hother hescapes _ ih =>
      refine readLongBody_quotes hrun ?_ (fun fuel hroom => ?_) hfuel
      · rintro c ⟨⟩
        exact hother
      · exact readLongBody_plain hplain hother hescapes (ih (by omega))
  | @escaped run code c content chars hrun hescapes hcode _ ih =>
      refine readLongBody_quotes hrun ?_ (fun fuel hroom => ?_) hfuel
      · rintro c ⟨⟩
        exact hbackslash
      · rw [List.cons_append, List.append_assoc]
        exact readLongBody_escaped hbackslash hescapes hcode (ih (by omega))

/-- Content that does not begin with a line feed begins with no line end. -/
theorem newLine?_of_spelled (hquote : quote = '"' ∨ quote = '\'')
    (h : SpellsLong quote escapes 0 content chars) (hhead : content.head? ≠ some '\n') :
    newLine? (content ++ (longDelimiter quote ++ rest)) = none := by
  have hplain : isPlain quote := by rcases hquote with rfl | rfl <;> rfl
  cases h with
  | nil => exact newLine?_plain hplain _
  | quote => exact newLine?_plain hplain _
  | feed => exact absurd rfl hhead
  | plain _ hplain => exact newLine?_plain hplain _
  | escaped => exact newLine?_plain (by rfl) _

/-- A string over several lines is read behind its opening. -/
theorem readLong_of_spelled {opening : List Char} (hquote : quote = '"' ∨ quote = '\'')
    (hopening : opening = ['\n'] ∨ opening = [] ∧ content.head? ≠ some '\n')
    (h : SpellsLong quote escapes 0 content chars) (hrest : ∀ c ∈ rest.head?, c ≠ quote) :
    readLong quote escapes (opening ++ (content ++ (longDelimiter quote ++ rest)))
      = some (chars, rest) := by
  have hlength := h.length_le
  have hroom : 0 + chars.length
      < (opening ++ (content ++ (longDelimiter quote ++ rest))).length + 1 := by
    simp only [List.length_append]
    omega
  have hbody := readLongBody_of_spelled hquote h hroom hrest
  rw [readLong]
  rcases hopening with rfl | ⟨rfl, hhead⟩
  · exact hbody
  · rw [List.nil_append] at hbody ⊢
    rw [newLine?_of_spelled hquote h hhead]
    exact hbody

end Long

/-! ### Strings of all notations -/

/-- A text that does not begin with three quotes is read as a string on one line. -/
theorem readString_eq_short {quote c : Char} {text : List Char}
    (h : ∀ c' ∈ text.head?, c = quote → c' ≠ quote) :
    readString (quote :: c :: text) = readShortString (quote :: c :: text) := by
  unfold readString
  split
  · next heq =>
      obtain ⟨rfl, rfl, rfl⟩ : quote = '"' ∧ c = '"' ∧ text = '"' :: _ := by simpa using heq
      exact absurd rfl (h _ rfl rfl)
  · next heq =>
      obtain ⟨rfl, rfl, rfl⟩ : quote = '\'' ∧ c = '\'' ∧ text = '\'' :: _ := by simpa using heq
      exact absurd rfl (h _ rfl rfl)
  · rfl

theorem readString_basic {content chars rest : List Char} (h : SpellsBasic content chars)
    (hrest : Unquoted rest) :
    readString ('"' :: (content ++ '"' :: rest)) = some (.ofList chars, rest) := by
  have hlength := h.length_le
  have hroom : chars.length < (content ++ '"' :: rest).length + 1 := by
    rw [List.length_append]
    omega
  have hread := readBasic_of_spelled h hroom rest
  have hshort : readString ('"' :: (content ++ '"' :: rest))
      = readShortString ('"' :: (content ++ '"' :: rest)) := by
    cases h with
    | nil => exact readString_eq_short fun c hc _ => (hrest c hc).1
    | plain _ hquote => exact readString_eq_short fun _ _ hsame => absurd hsame hquote
    | escaped => exact readString_eq_short fun _ _ hsame => absurd hsame (by decide)
  rw [hshort, readShortString, hread]
  rfl

theorem readString_literal {chars rest : List Char} (h : ∀ c ∈ chars, isPlain c ∧ c ≠ '\'')
    (hrest : Unquoted rest) :
    readString ('\'' :: (chars ++ '\'' :: rest)) = some (.ofList chars, rest) := by
  have hshort : readString ('\'' :: (chars ++ '\'' :: rest))
      = readShortString ('\'' :: (chars ++ '\'' :: rest)) := by
    cases chars with
    | nil => exact readString_eq_short fun c hc _ => (hrest c hc).2
    | cons c chars =>
        exact readString_eq_short fun _ _ hsame => absurd hsame (h c List.mem_cons_self).2
  rw [hshort, readShortString, readLiteral_append h]
  rfl

/-- **Every spelling of a string is read as this string.** -/
theorem readString_of_spelled {text chars rest : List Char} (h : SpellsString text chars)
    (hrest : Unquoted rest) : readString (text ++ rest) = some (.ofList chars, rest) := by
  cases h with
  | basic hcontent => simpa using readString_basic hcontent hrest
  | literal hchars => simpa using readString_literal hchars hrest
  | @long quote escapes opening content chars hquote hopening hcontent =>
      have hassoc : longDelimiter quote ++ (opening ++ (content ++ longDelimiter quote)) ++ rest
          = longDelimiter quote ++ (opening ++ (content ++ (longDelimiter quote ++ rest))) := by
        simp
      rw [hassoc]
      rcases hquote with ⟨rfl, rfl⟩ | ⟨rfl, rfl⟩
      · have hread := readLong_of_spelled (Or.inl rfl) hopening hcontent fun c hc => (hrest c hc).1
        show (readLong '"' true (opening ++ _)).map _ = _
        rw [hread]
        rfl
      · have hread := readLong_of_spelled (Or.inr rfl) hopening hcontent fun c hc => (hrest c hc).2
        show (readLong '\'' false (opening ++ _)).map _ = _
        rw [hread]
        rfl

/-! ### Writing -/

theorem hexValue?_upperDigit : ∀ value < 16, Json.hexValue? (upperDigit value) = some value := by
  decide

/-- A character without a place in a string has its code written. -/
theorem spellsEscape_code {c : Char} (h : needsCode c = true) :
    SpellsEscape ['u', '0', '0', upperDigit (c.toNat / 16), upperDigit (c.toNat % 16)] c := by
  have hsmall : c.toNat < 128 := by
    have hplain : isPlain c = false := by
      simp only [needsCode, Bool.and_eq_true, Bool.not_eq_true'] at h
      exact h.1
    simp only [isPlain, Bool.or_eq_false_iff, Bool.and_eq_false_iff,
      decide_eq_false_iff_not] at hplain
    omega
  have hzero : Json.hexValue? '0' = some 0 := rfl
  have hhigh := hexValue?_upperDigit (c.toNat / 16) (by omega)
  have hlow := hexValue?_upperDigit (c.toNat % 16) (by omega)
  refine .short rfl ?_
  simp only [hexNumber?, List.foldlM_cons, List.foldlM_nil, hzero, hhigh, hlow, Option.map_some,
    Option.bind_eq_bind, Option.bind_some, Option.pure_def, Option.some.injEq]
  omega

/-- What is written for a character that is no quote stands for it in a basic string. -/
theorem escape_cases (c : Char) :
    escape c = [c] ∧ isPlain c ∧ c ≠ '\\' ∨
      ∃ code, escape c = '\\' :: code ∧ SpellsEscape code c := by
  unfold escape
  split_ifs with hback htab hfeed hform hreturn hbackslash hcode
  · exact Or.inr ⟨_, rfl, hback ▸ .backspace⟩
  · exact Or.inr ⟨_, rfl, htab ▸ .tab⟩
  · exact Or.inr ⟨_, rfl, hfeed ▸ .feed⟩
  · exact Or.inr ⟨_, rfl, hform ▸ .form⟩
  · exact Or.inr ⟨_, rfl, hreturn ▸ .return⟩
  · exact Or.inr ⟨_, rfl, hbackslash ▸ .backslash⟩
  · exact Or.inr ⟨_, rfl, spellsEscape_code hcode⟩
  · have hplain : isPlain c := by simpa [needsCode, hfeed] using hcode
    exact Or.inl ⟨rfl, hplain, hbackslash⟩

/-- Any text has its basic string. -/
theorem spellsBasic_content (text : List Char) (run : Nat) :
    SpellsBasic (basicContent false run text) text := by
  induction text generalizing run with
  | nil => exact .nil
  | cons c text ih =>
      by_cases hquote : c = '"'
      · subst hquote
        exact .escaped .quote (ih 0)
      · rw [basicContent, if_neg hquote, if_neg (by simp)]
        rcases escape_cases c with ⟨hescape, hplain, hbackslash⟩ | ⟨code, hescape, hcode⟩
        · rw [hescape]
          exact .plain hplain hquote hbackslash (ih 0)
        · rw [hescape]
          exact .escaped hcode (ih 0)

/-- Any text has its basic string over several lines; the third quote of a run is escaped. -/
theorem spellsLong_content (text : List Char) {run : Nat} (hrun : run ≤ 2) :
    SpellsLong '"' true run (basicContent true run text) text := by
  induction text generalizing run with
  | nil => exact .nil hrun
  | cons c text ih =>
      have hbreak := ih (Nat.zero_le 2)
      by_cases hquote : c = '"'
      · subst hquote
        rw [basicContent, if_pos rfl]
        by_cases hfew : run < 2
        · rw [if_pos ⟨rfl, hfew⟩]
          exact .quote (ih hfew)
        · rw [if_neg fun h => hfew h.2]
          exact .escaped hrun rfl .quote hbreak
      · rw [basicContent, if_neg hquote]
        by_cases hfeed : c = '\n'
        · subst hfeed
          exact .feed hrun hbreak
        · rw [if_neg fun h => hfeed h.2]
          rcases escape_cases c with ⟨hescape, hplain, hbackslash⟩ | ⟨code, hescape, hcode⟩
          · rw [hescape]
            exact .plain hrun hplain hquote (fun _ => hbackslash) hbreak
          · rw [hescape]
            exact .escaped hrun rfl hcode hbreak

theorem le_longestRun (wanted : Char) (run : Nat) (text : List Char) :
    run ≤ longestRun wanted run text := by
  induction text generalizing run with
  | nil => exact le_rfl
  | cons c text ih =>
      unfold longestRun
      split
      · exact (Nat.le_succ run).trans (ih (run + 1))
      · exact le_max_left _ _

theorem not_mem_of_longestRun {wanted : Char} {run : Nat} {text : List Char}
    (h : longestRun wanted run text = 0) : wanted ∉ text := by
  induction text generalizing run with
  | nil => exact List.not_mem_nil
  | cons c text ih =>
      unfold longestRun at h
      split at h
      · have hless := le_longestRun wanted (run + 1) text
        omega
      · next hother =>
          have hrest := ih (Nat.max_eq_zero_iff.mp h).2
          exact fun hmem => (List.mem_cons.mp hmem).elim (fun hsame => hother hsame.symm) hrest

/-- A text with at most two apostrophes in a row stands for itself in a literal string over
several lines. -/
theorem spellsLong_literal {text : List Char} (hcoded : ∀ c ∈ text, needsCode c = false)
    {run : Nat} (hrun : longestRun '\'' run text ≤ 2) : SpellsLong '\'' false run text text := by
  induction text generalizing run with
  | nil => exact .nil hrun
  | cons c text ih =>
      have hrest : ∀ {run}, longestRun '\'' run text ≤ 2 → SpellsLong '\'' false run text text :=
        ih fun other hmem => hcoded other (List.mem_cons_of_mem _ hmem)
      unfold longestRun at hrun
      split at hrun
      · next hquote =>
          subst hquote
          exact .quote (hrest hrun)
      · next hquote =>
          obtain ⟨hhere, hbreak⟩ := max_le_iff.mp hrun
          by_cases hfeed : c = '\n'
          · subst hfeed
            exact .feed hhere (hrest hbreak)
          · have hplain : isPlain c := by simpa [needsCode, hfeed] using hcoded c List.mem_cons_self
            exact .plain hhere hplain hquote (by simp) (hrest hbreak)

/-- A line feed that begins the content begins the string. -/
theorem SpellsLong.head_feed {quote : Char} {escapes : Bool} {run : Nat}
    {content chars : List Char} (h : SpellsLong quote escapes run content chars)
    (hhead : content.head? = some '\n') : chars.head? = some '\n' := by
  cases h with
  | escaped => cases hhead
  | _ => exact hhead

/-- A string over several lines opens with a line feed if it has any. -/
theorem spellsString_long {quote : Char} {escapes : Bool} {content text : List Char}
    (hquote : quote = '"' ∧ escapes = true ∨ quote = '\'' ∧ escapes = false)
    (h : SpellsLong quote escapes 0 content text) :
    SpellsString (longDelimiter quote ++ ((if text.contains '\n' then ['\n'] else [])
      ++ (content ++ longDelimiter quote))) text := by
  refine .long hquote ?_ h
  by_cases hfeed : text.contains '\n'
  · exact Or.inl (if_pos hfeed)
  · refine Or.inr ⟨if_neg hfeed, fun hcontent => hfeed ?_⟩
    exact List.contains_iff_mem.mpr (List.mem_of_mem_head? (h.head_feed hcontent))

/-- **The notation that is chosen for a string spells it.** -/
theorem spellsString_written (text : List Char) : SpellsString (written text) text := by
  have hbasic := SpellsString.basic (spellsBasic_content text 0)
  have hlong := spellsString_long (Or.inl ⟨rfl, rfl⟩) (spellsLong_content text (Nat.zero_le 2))
  have hcoded : (!text.any needsCode) = true → ∀ c ∈ text, needsCode c = false := by
    simp
  unfold written styleOf
  simp only
  split_ifs with hplain hliteral hseveral hrows
  · simpa [Style.delimiter, Style.quote, content] using hbasic
  · obtain ⟨hplain, hquotes, hfeed⟩ := hliteral
    have hchars : ∀ c ∈ text, isPlain c ∧ c ≠ '\'' := by
      intro c hmem
      have hneeds := hcoded hplain c hmem
      have hline : c ≠ '\n' := by
        rintro rfl
        simp [hmem] at hfeed
      exact ⟨by simpa [needsCode, hline] using hneeds,
        fun hsame => not_mem_of_longestRun hquotes (hsame ▸ hmem)⟩
    simpa [Style.delimiter, Style.quote, content] using SpellsString.literal hchars
  · simpa [Style.delimiter, Style.quote, content, longDelimiter] using hlong
  · obtain ⟨hplain, hquotes⟩ := hrows
    have hliteral := spellsString_long (Or.inr ⟨rfl, rfl⟩)
      (spellsLong_literal (hcoded hplain) hquotes)
    simpa [Style.delimiter, Style.quote, content, longDelimiter] using hliteral
  · cases text.contains '\n' with
    | false => simpa [Style.delimiter, Style.quote, content] using hbasic
    | true => simpa [Style.delimiter, Style.quote, content, longDelimiter] using hlong

end ShaderMend.Toml
