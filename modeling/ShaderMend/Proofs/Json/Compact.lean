import ShaderMend.Proofs.Json.Numerals
import ShaderMend.Proofs.Json.Spelling

/-!
# Compact texts of JSON values

A value is written without white space in a spelling of the value that is read back: the same
value, but with the numbers that are written. Its integers have room in 64 bits, a double holds
what is written for its decimals, and it nests no deeper than a reader follows.

* `Json.reread` — the value that is read back.
* `Json.spells_compact` — the compact text of a value spells it, by induction on the value.
-/

namespace ShaderMend.Json

/-! ### Values that are held -/

/-- Whether all numbers of a value are held, and its arrays and objects nest at most so
deep. -/
inductive Held : Nat → Json → Prop where
  | null {nesting : Nat} : Held nesting .null
  | bool {nesting : Nat} {value : Bool} : Held nesting (.bool value)
  | number {nesting : Nat} {number : Number} (h : number.Held) : Held nesting (.number number)
  | string {nesting : Nat} {text : String} : Held nesting (.string text)
  | array {nesting : Nat} {items : List Json} (h : ∀ item ∈ items, Held nesting item) :
      Held (nesting + 1) (.array items)
  | object {nesting : Nat} {members : List (String × Json)}
      (h : ∀ member ∈ members, Held nesting member.2) : Held (nesting + 1) (.object members)

theorem Held.mono {nesting more : Nat} {value : Json} (h : Held nesting value)
    (hmore : nesting ≤ more) : Held more value := by
  induction h generalizing more with
  | null => exact .null
  | bool => exact .bool
  | number h => exact .number h
  | string => exact .string
  | array _ ih =>
      obtain ⟨more, rfl⟩ := Nat.exists_eq_add_one_of_ne_zero (by omega : more ≠ 0)
      exact .array fun item hmem => ih item hmem (by omega)
  | object _ ih =>
      obtain ⟨more, rfl⟩ := Nat.exists_eq_add_one_of_ne_zero (by omega : more ≠ 0)
      exact .object fun member hmem => ih member hmem (by omega)

/-! ### Values read back -/

mutual

/-- The value that is read back where a value was written: with the numbers that were written. -/
def reread : Json → Json
  | .null => .null
  | .bool value => .bool value
  | .number value => .number value.reread
  | .string text => .string text
  | .array items => .array (rereadItems items)
  | .object members => .object (rereadMembers members)

def rereadItems : List Json → List Json
  | [] => []
  | item :: items => reread item :: rereadItems items

def rereadMembers : List (String × Json) → List (String × Json)
  | [] => []
  | (name, value) :: members => (name, reread value) :: rereadMembers members

end

theorem rereadItems_eq (items : List Json) : rereadItems items = items.map reread := by
  induction items with
  | nil => rfl
  | cons item items ih => rw [rereadItems, ih, List.map_cons]

/-- A member is read back under its name. -/
def rereadMember (member : String × Json) : String × Json :=
  (member.1, member.2.reread)

theorem rereadMembers_eq (members : List (String × Json)) :
    rereadMembers members = members.map rereadMember := by
  induction members with
  | nil => rfl
  | cons member members ih => rw [rereadMembers, ih, List.map_cons, rereadMember]

@[simp] theorem reread_string (text : String) : (Json.string text).reread = .string text :=
  rfl

theorem reread_integer {value : Int} (h : (Number.integer value).Held) :
    (Json.number (.integer value)).reread = .number (.integer value) := by
  rw [reread, Number.reread_integer h]

@[simp] theorem reread_array (items : List Json) :
    (Json.array items).reread = .array (items.map reread) := by
  rw [reread, rereadItems_eq]

@[simp] theorem reread_object (members : List (String × Json)) :
    (Json.object members).reread = .object (members.map rereadMember) := by
  rw [reread, rereadMembers_eq]

/-! ### Strings -/

theorem hexValue?_hexDigit : ∀ value < 16, hexValue? (hexDigit value) = some value := by
  decide

/-- What is written for a character spells it. -/
theorem spellsChars_escape (c : Char) {text chars : List Char} (h : SpellsChars text chars) :
    SpellsChars (escape c ++ text) (c :: chars) := by
  unfold escape
  split_ifs with hquote hbackslash hfeed htab hreturn hback hform hcontrol
  · exact .short (by rw [hquote]; rfl) h
  · exact .short (by rw [hbackslash]; rfl) h
  · exact .short (by rw [hfeed]; rfl) h
  · exact .short (by rw [htab]; rfl) h
  · exact .short (by rw [hreturn]; rfl) h
  · exact .short (by rw [hback]; rfl) h
  · exact .short (by rw [hform]; rfl) h
  · have hsmall : c.toNat < 0x20 := by simpa [isControl] using hcontrol
    have hzero : hexValue? '0' = some 0 := rfl
    have hdigits : Hex ['0', '0', hexDigit (c.toNat / 16), hexDigit (c.toNat % 16)] c.toNat := by
      have hhex := Hex.digits hzero hzero (hexValue?_hexDigit (c.toNat / 16) (by omega))
        (hexValue?_hexDigit (c.toNat % 16) (by omega))
      rwa [show ((0 * 16 + 0) * 16 + c.toNat / 16) * 16 + c.toNat % 16 = c.toNat by omega] at hhex
    exact .unit hdigits h
  · have hplain : isPlain c := by
      simp [isPlain, hquote, hbackslash, hcontrol]
    exact .plain hplain h

theorem spellsChars_flatMap_escape (chars : List Char) :
    SpellsChars (chars.flatMap escape) chars := by
  induction chars with
  | nil => exact .nil
  | cons c chars ih => exact spellsChars_escape c ih

/-! ### Values -/

section Sequences

variable {α : Type} {Spells : List Char → α → Prop} {write : α → List Char} {read : α → α}

/-- The text of elements behind the first, each behind a comma. -/
def compactMore (write : α → List Char) (values : List α) : List Char :=
  values.flatMap fun value => ',' :: write value

/-- The text of elements between commas. -/
def compactAll (write : α → List Char) : List α → List Char
  | [] => []
  | first :: rest => write first ++ compactMore write rest

/-- The text of elements behind the first, each behind a comma and white space. -/
def spacedMore (between : List Char) (write : α → List Char) (values : List α) : List Char :=
  values.flatMap fun value => ',' :: (between ++ write value)

section Spaced

variable {opening between outer : List Char} {values : List α}

theorem spellsMore_spaced (hbetween : Blank between) (houter : Blank outer)
    (h : ∀ value ∈ values, Spells (write value) (read value)) (close : Char) :
    SpellsMore Spells close (spacedMore between write values ++ (outer ++ [close]))
      (values.map read) := by
  induction values with
  | nil => exact .nil houter
  | cons value values ih =>
      have hrest := ih fun other hmem => h other (List.mem_cons_of_mem _ hmem)
      have hmore := SpellsMore.cons blank_nil hbetween (h value List.mem_cons_self) hrest
      simpa [spacedMore] using hmore

/-- Elements with white space around them are spelled between brackets. -/
theorem spellsAll_spaced {first : α} (hopening : Blank opening) (hbetween : Blank between)
    (houter : Blank outer) (h : ∀ value ∈ first :: values, Spells (write value) (read value))
    (close : Char) :
    SpellsAll Spells close
      (opening ++ (write first ++ (spacedMore between write values ++ (outer ++ [close]))))
      ((first :: values).map read) := by
  have hrest : ∀ value ∈ values, Spells (write value) (read value) :=
    fun value hmem => h value (List.mem_cons_of_mem _ hmem)
  exact .cons hopening (h first List.mem_cons_self)
    (spellsMore_spaced hbetween houter hrest close)

end Spaced

theorem spellsAll_compact {values : List α}
    (h : ∀ value ∈ values, Spells (write value) (read value)) (close : Char) :
    SpellsAll Spells close (compactAll write values ++ [close]) (values.map read) := by
  cases values with
  | nil => exact .nil blank_nil
  | cons value values =>
      have hall := spellsAll_spaced blank_nil blank_nil blank_nil h close
      simpa [compactAll, compactMore, spacedMore] using hall

end Sequences

theorem compactItems_eq (items : List Json) : compactItems items = compactAll compact items := by
  have hcons : ∀ (items : List Json) (first : Json),
      compactItems (first :: items) = compact first ++ compactMore compact items := by
    intro items
    induction items with
    | nil => simp [compactItems, compactMore]
    | cons next items ih =>
        intro first
        rw [compactItems, ih next]
        · simp [compactMore]
        · simp
  cases items with
  | nil => simp [compactItems, compactAll]
  | cons first items => exact hcons items first

/-- The text of a member. -/
def compactMember (member : String × Json) : List Char :=
  quoted member.1 ++ ':' :: compact member.2

theorem compactMembers_eq (members : List (String × Json)) :
    compactMembers members = compactAll compactMember members := by
  have hcons : ∀ (members : List (String × Json)) (first : String × Json),
      compactMembers (first :: members)
        = compactMember first ++ compactMore compactMember members := by
    intro members
    induction members with
    | nil =>
        rintro ⟨name, value⟩
        simp [compactMembers, compactMember, compactMore]
    | cons next members ih =>
        rintro ⟨name, value⟩
        rw [compactMembers, ih next]
        · simp [compactMember, compactMore]
        · simp
  cases members with
  | nil => simp [compactMembers, compactAll]
  | cons first members => exact hcons members first

theorem spellsMember_quoted {Spells : List Char → Json → Prop} {between text : List Char}
    {value : Json} (name : String) (hbetween : Blank between) (h : Spells text value) :
    SpellsMember Spells (quoted name ++ ':' :: (between ++ text)) (name, value) := by
  have hmember := SpellsMember.member (spellsChars_flatMap_escape name.toList) blank_nil hbetween h
  simpa [quoted] using hmember

theorem spellsScalar_boolWord (value : Bool) : SpellsScalar (boolWord value) (.bool value) := by
  cases value <;> constructor

theorem spellsScalar_written {number : Number} (h : number.Held) :
    SpellsScalar number.written (.number number.reread) := by
  have hnumber := SpellsScalarWith.number h.wellFormed
  rwa [Numeral.text_ofNumber] at hnumber

theorem spellsScalar_quoted (text : String) : SpellsScalar (quoted text) (.string text) :=
  .string (spellsChars_flatMap_escape _)

/-- **A value is written in a spelling of what is read back**, by induction on the value. -/
theorem spells_compact {nesting : Nat} {value : Json} (h : Held nesting value) :
    Spells nesting (compact value) value.reread := by
  induction h with
  | null => exact spells_scalar _ .null
  | bool => exact spells_scalar _ (spellsScalar_boolWord _)
  | number h => exact spells_scalar _ (spellsScalar_written h)
  | string => exact spells_scalar _ (spellsScalar_quoted _)
  | array h ih =>
      refine spells_compound ?_
      rw [compact, compactItems_eq, reread_array]
      exact .array (spellsAll_compact ih ']')
  | @object nesting members h ih =>
      have hmembers : ∀ member ∈ members,
          SpellsMember (Spells nesting) (compactMember member) (rereadMember member) :=
        fun member hmem => spellsMember_quoted member.1 blank_nil (ih member hmem)
      refine spells_compound ?_
      rw [compact, compactMembers_eq, reread_object]
      exact .object (spellsAll_compact hmembers '\x7d')

theorem spellsText_compact {value : Json} (h : Held maxNesting value) :
    SpellsText (String.ofList (compact value)) value.reread :=
  ⟨[], compact value, [], by simp, blank_nil, blank_nil, spells_compact h⟩

end ShaderMend.Json
