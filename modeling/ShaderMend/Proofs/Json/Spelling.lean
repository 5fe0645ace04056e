import ShaderMend.Proofs.Json.Tokens
import ShaderMend.Proofs.Results

/-!
# Spellings of JSON values

The texts that write a value: white space stands between any two tokens, strings and numbers
are written in any of their ways, and arrays and objects nest as deep as they may.

* `Json.reads_nested` — every spelling of a value is read as this value, by induction on the
  depth of nesting.
* `Json.parse_of_spelled` — so is a text that has nothing but white space around it.
-/

namespace ShaderMend.Json

/-! ### The grammar -/

/-- White space, of which there may be none. -/
def Blank (text : List Char) : Prop :=
  ∀ c ∈ text, isBlank c

section Sequences

variable {α : Type}

/-- The text behind the first of some elements: more of them, each behind a comma, and the
closing bracket. -/
inductive SpellsMore (Spells : List Char → α → Prop) (close : Char) : List Char → List α → Prop
  where
  | nil {blanks : List Char} (hblanks : Blank blanks) :
      SpellsMore Spells close (blanks ++ [close]) []
  | cons {before between text rest : List Char} {value : α} {values : List α}
      (hbefore : Blank before) (hbetween : Blank between) (htext : Spells text value)
      (hrest : SpellsMore Spells close rest values) :
      SpellsMore Spells close (before ++ ',' :: (between ++ (text ++ rest))) (value :: values)

/-- The text of some elements behind the opening bracket. -/
inductive SpellsAll (Spells : List Char → α → Prop) (close : Char) : List Char → List α → Prop
  where
  | nil {blanks : List Char} (hblanks : Blank blanks) :
      SpellsAll Spells close (blanks ++ [close]) []
  | cons {blanks text rest : List Char} {value : α} {values : List α} (hblanks : Blank blanks)
      (htext : Spells text value) (hrest : SpellsMore Spells close rest values) :
      SpellsAll Spells close (blanks ++ (text ++ rest)) (value :: values)

/-- The text of a member of an object. -/
inductive SpellsMember (Spells : List Char → α → Prop) : List Char → String × α → Prop where
  | member {inner before between text : List Char} {name : String} {value : α}
      (hname : SpellsChars inner name.toList) (hbefore : Blank before) (hbetween : Blank between)
      (htext : Spells text value) :
      SpellsMember Spells ('"' :: (inner ++ '"' :: (before ++ ':' :: (between ++ text))))
        (name, value)

end Sequences

/-- The text of an array or object of values. -/
inductive SpellsCompound (Spells : List Char → Json → Prop) : List Char → Json → Prop where
  | array {text : List Char} {items : List Json} (h : SpellsAll Spells ']' text items) :
      SpellsCompound Spells ('[' :: text) (.array items)
  | object {text : List Char} {members : List (String × Json)}
      (h : SpellsAll (SpellsMember Spells) '\x7d' text members) :
      SpellsCompound Spells ('\x7b' :: text) (.object members)

section Numbers

variable (Accepts : Numeral → Prop)

/-- The text of a value that is neither an array nor an object, where some numbers may stand. -/
inductive SpellsScalarWith : List Char → Json → Prop where
  | null : SpellsScalarWith ['n', 'u', 'l', 'l'] .null
  | true : SpellsScalarWith ['t', 'r', 'u', 'e'] (.bool Bool.true)
  | false : SpellsScalarWith ['f', 'a', 'l', 's', 'e'] (.bool Bool.false)
  | number {numeral : Numeral} (h : Accepts numeral) :
      SpellsScalarWith numeral.text (.number numeral.value)
  | string {inner : List Char} {meant : String} (h : SpellsChars inner meant.toList) :
      SpellsScalarWith ('"' :: (inner ++ ['"'])) (.string meant)

/-- The text of a value whose arrays and objects nest at most so deep. -/
def SpellsWith : Nat → List Char → Json → Prop
  | 0 => SpellsScalarWith Accepts
  | nesting + 1 => fun text value =>
      SpellsScalarWith Accepts text value ∨ SpellsCompound (SpellsWith nesting) text value

/-- The text is a spelling of the value, with white space around it. -/
def SpellsTextWith (text : String) (value : Json) : Prop :=
  ∃ before inner after, text = String.ofList (before ++ (inner ++ after)) ∧ Blank before ∧
    Blank after ∧ SpellsWith Accepts maxNesting inner value

end Numbers

/-! Where nothing else is said the numbers are those that a reader takes. -/

abbrev SpellsScalar : List Char → Json → Prop :=
  SpellsScalarWith Numeral.WellFormed

abbrev Spells : Nat → List Char → Json → Prop :=
  SpellsWith Numeral.WellFormed

abbrev SpellsText : String → Json → Prop :=
  SpellsTextWith Numeral.WellFormed

section Numbers

variable {Accepts : Numeral → Prop} {nesting : Nat} {text : List Char} {value : Json}

theorem spells_scalar (nesting : Nat) (h : SpellsScalarWith Accepts text value) :
    SpellsWith Accepts nesting text value := by
  cases nesting with
  | zero => exact h
  | succ nesting => exact Or.inl h

theorem spells_compound (h : SpellsCompound (SpellsWith Accepts nesting) text value) :
    SpellsWith Accepts (nesting + 1) text value :=
  Or.inr h

theorem blank_nil : Blank [] :=
  fun c hmem => by cases hmem

/-- A text of characters that need no escape stands between quotes as it is. -/
theorem spells_plain (plain : String) (h : plain.toList.all isPlain = true) :
    SpellsWith Accepts nesting ('"' :: (plain.toList ++ ['"'])) (.string plain) :=
  spells_scalar nesting (.string (spellsChars_plain h))

theorem spellsMember_plain (name : String) (hname : name.toList.all isPlain = true)
    (h : SpellsWith Accepts nesting text value) :
    SpellsMember (SpellsWith Accepts nesting) ('"' :: (name.toList ++ '"' :: ':' :: text))
      (name, value) := by
  have hmember := SpellsMember.member (spellsChars_plain hname) blank_nil blank_nil h
  exact hmember

end Numbers

/-! ### White space -/

theorem skipBlanks_append {blanks : List Char} (h : Blank blanks) (text : List Char) :
    skipBlanks (blanks ++ text) = skipBlanks text :=
  List.dropWhile_append_of_pos h

theorem skipBlanks_cons {c : Char} (h : isBlank c = false) (text : List Char) :
    skipBlanks (c :: text) = c :: text := by
  simp [skipBlanks, h]

theorem ends_append {blanks text : List Char} (h : Blank blanks) (htext : Ends text) :
    Ends (blanks ++ text) := by
  cases blanks with
  | nil => exact htext
  | cons first rest =>
      rintro c ⟨⟩
      exact Or.inl (h first List.mem_cons_self)

theorem SpellsMore.ends {α : Type} {Spells : List Char → α → Prop} {close : Char}
    {text : List Char} {values : List α} (h : SpellsMore Spells close text values)
    (hclose : close = ']' ∨ close = '\x7d') (rest : List Char) : Ends (text ++ rest) := by
  cases h with
  | nil hblanks =>
      rw [List.append_assoc]
      refine ends_append hblanks ?_
      rintro c ⟨⟩
      exact Or.inr (Or.inr hclose)
  | cons hbefore _ _ _ =>
      rw [List.append_assoc]
      refine ends_append hbefore ?_
      rintro c ⟨⟩
      exact Or.inr (Or.inl rfl)

/-! ### Sequences -/

section Sequences

variable {α : Type}

/-- Whether a reader reads all spellings, behind white space and before what ends them. -/
def Reads (element : List Char → Except Fault (α × List Char)) (Spells : List Char → α → Prop) :
    Prop :=
  ∀ ⦃blanks text : List Char⦄ ⦃value : α⦄ ⦃rest : List Char⦄, Blank blanks → Spells text value →
    Ends rest → element (blanks ++ (text ++ rest)) = .ok (value, rest)

/-- Whether no spelling begins with white space or a closing bracket. -/
def Opens (Spells : List Char → α → Prop) : Prop :=
  ∀ ⦃text : List Char⦄ ⦃value : α⦄, Spells text value →
    ∃ c rest, text = c :: rest ∧ isBlank c = false ∧ c ≠ ']' ∧ c ≠ '\x7d'

/-- Reads the elements of an array or object behind the first one. -/
def readMore (element : List Char → Except Fault (α × List Char)) (close : Char) :
    (bound : List Char) → List Char → Except Fault (List α × List Char)
  | bound, text =>
      match skipBlanks text with
      | [] => .error .endOfText
      | c :: rest =>
          if c = close then .ok ([], rest)
          else if c = ',' then
            match bound with
            | [] => .error .malformed
            | _ :: bound => do
                let (value, rest) ← element rest
                let (values, rest) ← readMore element close bound rest
                return (value :: values, rest)
          else .error .malformed

/-- Reads the elements of an array or object behind its opening bracket. -/
def readAll (element : List Char → Except Fault (α × List Char)) (close : Char)
    (text : List Char) : Except Fault (List α × List Char) :=
  match skipBlanks text with
  | [] => .error .endOfText
  | c :: rest =>
      if c = close then .ok ([], rest)
      else do
        let (value, rest) ← element text
        let (values, rest) ← readMore element close rest rest
        return (value :: values, rest)

variable {element : List Char → Except Fault (α × List Char)} {Spells : List Char → α → Prop}
  {close : Char}

theorem readMoreItems_eq (bound text : List Char) :
    readMoreItems element bound text = readMore element ']' bound text := by
  induction bound generalizing text with
  | nil =>
      unfold readMoreItems readMore
      cases skipBlanks text with
      | nil => rfl
      | cons c rest =>
          by_cases hclose : c = ']'
          · simp [hclose]
          · by_cases hcomma : c = ','
            · simp [hcomma]
            · simp [hclose, hcomma]
  | cons first bound ih =>
      unfold readMoreItems readMore
      cases skipBlanks text with
      | nil => rfl
      | cons c rest =>
          by_cases hclose : c = ']'
          · simp [hclose]
          · by_cases hcomma : c = ','
            · simp [hcomma, ih]
            · simp [hclose, hcomma]

theorem readMoreMembers_eq (bound text : List Char) :
    readMoreMembers element bound text = readMore (readMember element) '\x7d' bound text := by
  induction bound generalizing text with
  | nil =>
      unfold readMoreMembers readMore
      cases skipBlanks text with
      | nil => rfl
      | cons c rest =>
          by_cases hclose : c = '\x7d'
          · simp [hclose]
          · by_cases hcomma : c = ','
            · simp [hcomma]
            · simp [hclose, hcomma]
  | cons first bound ih =>
      unfold readMoreMembers readMore
      cases skipBlanks text with
      | nil => rfl
      | cons c rest =>
          by_cases hclose : c = '\x7d'
          · simp [hclose]
          · by_cases hcomma : c = ','
            · simp [hcomma, ih]
            · simp [hclose, hcomma]

theorem readItems_eq (text : List Char) :
    readItems element text = readAll element ']' text := by
  unfold readItems readAll
  cases skipBlanks text with
  | nil => rfl
  | cons c rest =>
      by_cases hclose : c = ']'
      · simp [hclose]
      · simp [hclose, readMoreItems_eq]

theorem readMembers_eq (text : List Char) :
    readMembers element text = readAll (readMember element) '\x7d' text := by
  unfold readMembers readAll
  cases skipBlanks text with
  | nil => rfl
  | cons c rest =>
      by_cases hclose : c = '\x7d'
      · simp [hclose]
      · simp [hclose, readMoreMembers_eq]

/-- More elements take at least one character each. -/
theorem SpellsMore.length_le {text : List Char} {values : List α}
    (h : SpellsMore Spells close text values) : values.length ≤ text.length := by
  induction h with
  | nil => exact Nat.zero_le _
  | cons _ _ _ _ ih =>
      simp only [List.length_cons, List.length_append]
      omega

/-- **The elements behind the first one are read**, by induction on them. -/
theorem SpellsMore.read {text : List Char} {values : List α}
    (h : SpellsMore Spells close text values) (hreads : Reads element Spells)
    (hclose : close = ']' ∨ close = '\x7d') (bound : List Char)
    (hbound : values.length ≤ bound.length) (rest : List Char) :
    readMore element close bound (text ++ rest) = .ok (values, rest) := by
  have hcomma : ',' ≠ close := by rcases hclose with rfl | rfl <;> decide
  induction h generalizing bound with
  | @nil blanks hblanks =>
      have hplain : isBlank close = false := by rcases hclose with rfl | rfl <;> rfl
      rw [List.append_assoc]
      unfold readMore
      simp [skipBlanks_append hblanks, skipBlanks_cons hplain]
  | @cons before between text more value values hbefore hbetween htext hmore ih =>
      cases bound with
      | nil => exact absurd hbound (Nat.not_succ_le_zero _)
      | cons first bound =>
          have hvalue := hreads hbetween htext (hmore.ends hclose rest)
          have hvalues := ih bound (Nat.le_of_succ_le_succ hbound)
          have hassoc : before ++ ',' :: (between ++ (text ++ more)) ++ rest
              = before ++ ',' :: (between ++ (text ++ (more ++ rest))) := by simp
          rw [hassoc]
          unfold readMore
          rw [skipBlanks_append hbefore, skipBlanks_cons (by rfl)]
          simp [hcomma, hvalue, hvalues, bind, Except.bind, pure, Except.pure]

/-- **All elements are read.** -/
theorem SpellsAll.read {text : List Char} {values : List α}
    (h : SpellsAll Spells close text values) (hreads : Reads element Spells)
    (hopens : Opens Spells) (hclose : close = ']' ∨ close = '\x7d') (rest : List Char) :
    readAll element close (text ++ rest) = .ok (values, rest) := by
  cases h with
  | @nil blanks hblanks =>
      have hplain : isBlank close = false := by rcases hclose with rfl | rfl <;> rfl
      rw [List.append_assoc]
      unfold readAll
      simp [skipBlanks_append hblanks, skipBlanks_cons hplain]
  | @cons blanks text more value values hblanks htext hmore =>
      obtain ⟨c, tail, rfl, hplain, hbracket, hbrace⟩ := hopens htext
      have hvalue := hreads hblanks htext (hmore.ends hclose rest)
      have hvalues := hmore.read hreads hclose (more ++ rest)
        (hmore.length_le.trans (by simp)) rest
      have hother : c ≠ close := by rcases hclose with rfl | rfl <;> assumption
      have hassoc : blanks ++ (c :: tail ++ more) ++ rest
          = blanks ++ (c :: tail ++ (more ++ rest)) := by simp
      rw [hassoc]
      unfold readAll
      rw [skipBlanks_append hblanks, List.cons_append, skipBlanks_cons hplain]
      rw [List.cons_append] at hvalue
      simp [hother, hvalue, hvalues, bind, Except.bind, pure, Except.pure]

/-- A member is read up to its value, which stands behind the colon. -/
theorem SpellsMember.parts {blanks text : List Char} {name : String} {value : α}
    (h : SpellsMember Spells text (name, value)) (hblanks : Blank blanks) (rest : List Char) :
    ∃ colon between inner,
      (openName (blanks ++ (text ++ rest)) >>= readString) = .ok (name, colon) ∧
      readColon colon = .ok (between ++ (inner ++ rest)) ∧ Blank between ∧ Spells inner value := by
  cases h with
  | @member chars before between inner name value hname hbefore hbetween hinner =>
      refine ⟨before ++ ':' :: (between ++ (inner ++ rest)), between, inner, ?_, ?_, hbetween,
        hinner⟩
      · have hassoc : '"' :: (chars ++ '"' :: (before ++ ':' :: (between ++ inner))) ++ rest
            = '"' :: (chars ++ '"' :: (before ++ ':' :: (between ++ (inner ++ rest)))) := by simp
        have hopen : ∀ text, openName (blanks ++ '"' :: text) = .ok text := by
          intro text
          unfold openName
          rw [skipBlanks_append hblanks, skipBlanks_cons (by rfl)]
          rfl
        rw [hassoc, hopen]
        exact readString_of_spelled hname _
      · unfold readColon
        rw [skipBlanks_append hbefore, skipBlanks_cons (by rfl)]
        rfl

theorem reads_member (hreads : Reads element Spells) :
    Reads (readMember element) (SpellsMember Spells) := by
  rintro blanks text ⟨name, value⟩ rest hblanks hmember hrest
  obtain ⟨colon, between, inner, hname, hcolon, hbetween, hinner⟩ := hmember.parts hblanks rest
  have hvalue := hreads hbetween hinner hrest
  obtain ⟨opened, hopen, hread⟩ := bind_eq_ok_iff.mp hname
  simp [readMember, hopen, hread, hcolon, hvalue, bind, Except.bind, pure, Except.pure]

theorem opens_member (Spells : List Char → α → Prop) : Opens (SpellsMember Spells) := by
  intro text member hmember
  cases hmember with
  | member hname hbefore hbetween htext => exact ⟨'"', _, rfl, rfl, by decide, by decide⟩

end Sequences

/-! ### Values -/

/-- A number begins with its sign or with a digit. -/
theorem Numeral.text_cases (numeral : Numeral) (h : numeral.WellFormed) :
    numeral.negative = true ∧ numeral.text = '-' :: numeral.magnitude ∨
      numeral.negative = false ∧ numeral.text = numeral.magnitude ∧
        ∃ c rest, numeral.magnitude = c :: rest ∧ c.isDigit := by
  obtain ⟨c, more, hwhole⟩ := List.exists_cons_of_ne_nil h.nonempty
  cases hnegative : numeral.negative with
  | true => exact Or.inl ⟨rfl, by simp [text, hnegative]⟩
  | false =>
      refine Or.inr ⟨rfl, by simp [text, hnegative], c,
        more ++ (numeral.fractionText ++ numeral.powerText), ?_, ?_⟩
      · rw [magnitude, hwhole, List.cons_append]
      · exact h.whole c (by simp [hwhole])

theorem isBlank_of_digit {c : Char} (hdigit : c.isDigit) : isBlank c = false := by
  by_contra hblank
  simp only [isBlank, Bool.not_eq_false, Bool.or_eq_true, decide_eq_true_eq] at hblank
  rcases hblank with ((rfl | rfl) | rfl) | rfl <;> cases hdigit

theorem opens_scalar : Opens SpellsScalar := by
  intro text value h
  cases h with
  | null => exact ⟨'n', _, rfl, rfl, by decide, by decide⟩
  | true => exact ⟨'t', _, rfl, rfl, by decide, by decide⟩
  | false => exact ⟨'f', _, rfl, rfl, by decide, by decide⟩
  | string hinner => exact ⟨'"', _, rfl, rfl, by decide, by decide⟩
  | @number numeral h =>
      rcases numeral.text_cases h with ⟨-, htext⟩ | ⟨-, htext, c, rest, hmagnitude, hdigit⟩
      · exact ⟨'-', _, htext, rfl, by decide, by decide⟩
      · refine ⟨c, rest, htext.trans hmagnitude, ?_, ?_, ?_⟩
        · exact isBlank_of_digit hdigit
        · rintro rfl
          cases hdigit
        · rintro rfl
          cases hdigit

theorem opens_spells (nesting : Nat) : Opens (Spells nesting) := by
  cases nesting with
  | zero => exact opens_scalar
  | succ nesting =>
      rintro text value (hscalar | hcompound)
      · exact opens_scalar hscalar
      · cases hcompound with
        | array hitems => exact ⟨'[', _, rfl, rfl, by decide, by decide⟩
        | object hmembers => exact ⟨'\x7b', _, rfl, rfl, by decide, by decide⟩

/-- A number that begins with a digit is read as one. -/
theorem readNested_digit (nesting : Nat) {blanks rest : List Char} (hblanks : Blank blanks)
    {c : Char} (hdigit : c.isDigit) :
    readNested nesting (blanks ++ c :: rest) = do
      let (value, rest) ← Number.read false (c :: rest)
      return (.number value, rest) := by
  unfold readNested
  rw [skipBlanks_append hblanks, skipBlanks_cons (isBlank_of_digit hdigit)]
  split <;> simp_all

theorem reads_scalar (nesting : Nat) : Reads (readNested nesting) SpellsScalar := by
  intro blanks text value rest hblanks htext hrest
  have hskip : ∀ {c : Char} (more : List Char), isBlank c = false →
      skipBlanks (blanks ++ c :: more) = c :: more := fun more hplain =>
    (skipBlanks_append hblanks _).trans (skipBlanks_cons hplain more)
  cases htext with
  | null =>
      unfold readNested
      rw [List.cons_append, hskip _ (by rfl)]
      rfl
  | true =>
      unfold readNested
      rw [List.cons_append, hskip _ (by rfl)]
      rfl
  | false =>
      unfold readNested
      rw [List.cons_append, hskip _ (by rfl)]
      rfl
  | @string inner meant hinner =>
      unfold readNested
      rw [List.cons_append, hskip _ (by rfl)]
      have hread := readString_of_spelled hinner rest
      simp [hread, bind, Except.bind, pure, Except.pure]
  | @number numeral h =>
      have hread := numeral.read_magnitude h hrest
      rcases numeral.text_cases h with
        ⟨hnegative, htext⟩ | ⟨hpositive, htext, c, more, hmagnitude, hdigit⟩
      · rw [hnegative] at hread
        unfold readNested
        rw [htext, List.cons_append, hskip _ (by rfl)]
        simp [hread, bind, Except.bind, pure, Except.pure]
      · rw [hpositive, hmagnitude, List.cons_append] at hread
        rw [htext, hmagnitude, List.cons_append, readNested_digit nesting hblanks hdigit, hread]
        rfl

/-- **Every spelling of a value is read as this value**, by induction on the depth of nesting. -/
theorem reads_nested (nesting : Nat) : Reads (readNested nesting) (Spells nesting) := by
  induction nesting with
  | zero => exact reads_scalar 0
  | succ nesting ih =>
      rintro blanks text value rest hblanks (hscalar | hcompound) hrest
      · exact reads_scalar (nesting + 1) hblanks hscalar hrest
      · cases hcompound with
        | @array text items hitems =>
            have hread := hitems.read ih (opens_spells nesting) (Or.inl rfl) rest
            unfold readNested
            rw [List.cons_append, skipBlanks_append hblanks, skipBlanks_cons (by rfl)]
            simp [readItems_eq, hread, bind, Except.bind, pure, Except.pure]
        | @object text members hmembers =>
            have hread := hmembers.read (reads_member ih) (opens_member _) (Or.inr rfl) rest
            unfold readNested
            rw [List.cons_append, skipBlanks_append hblanks, skipBlanks_cons (by rfl)]
            simp [readMembers_eq, hread, bind, Except.bind, pure, Except.pure]

theorem finish_blank {text : List Char} (h : Blank text) : finish text = .ok () := by
  have hskip := skipBlanks_append h []
  rw [List.append_nil] at hskip
  rw [finish, hskip]
  rfl

/-- **A text that is a spelling of a value is read as this value.** -/
theorem parse_of_spelled {text : String} {value : Json} (h : SpellsText text value) :
    parse text = .ok value := by
  obtain ⟨before, inner, after, rfl, hbefore, hafter, hinner⟩ := h
  have hends : Ends after := by
    intro c hc
    exact Or.inl (hafter c (List.mem_of_mem_head? hc))
  have hread := reads_nested maxNesting hbefore hinner hends
  simp [parse, read, hread, finish_blank hafter, bind, Except.bind, pure, Except.pure]

end ShaderMend.Json
