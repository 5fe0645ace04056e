import ShaderMend.Diagnostics
import ShaderMend.Proofs.Json.Pretty
import ShaderMend.Proofs.Manifest.Shapes
import ShaderMend.Proofs.Text.Octets

/-!
# Records and their text

Of the records that were added the last one for each name is kept, in the order of the names.
Their text is an array with one object for each record, and all that a record says is read back
from its object. The properties in it are those that the readers of properties know.

* `Property.parse_of_spelled` — a property is read from every text of its object.
* `Diagnostics.decode_values` — the objects are read as the records.
* `Diagnostics.text_of_added` — the text of the records, whatever was added.
-/

namespace ShaderMend

open Json (Blank Spells SpellsScalar SpellsCompound SpellsMember SpellsMore SpellsAll SpellsText)

/-! ### Properties in a text -/

namespace Property

theorem skipBlanks_string {blanks inner rest : List Char} (hblanks : Blank blanks) :
    Json.skipBlanks (blanks ++ ('"' :: inner ++ rest)) = '"' :: (inner ++ rest) := by
  rw [Json.skipBlanks_append hblanks]
  exact Json.skipBlanks_cons (by rfl) _

/-- A string is spelled between quotes. -/
theorem exists_of_spells_string {nesting : Nat} {text : List Char} {meant : String}
    (h : Spells nesting text (.string meant)) :
    ∃ inner, text = '"' :: (inner ++ ['"']) ∧ Json.SpellsChars inner meant.toList := by
  have hscalar : SpellsScalar text (.string meant) := by
    cases nesting with
    | zero => exact h
    | succ nesting =>
        rcases h with hscalar | hcompound
        · exact hscalar
        · cases hcompound
  cases hscalar with
  | string hinner => exact ⟨_, rfl, hinner⟩

theorem readText_of_spelled {nesting : Nat} {blanks text : List Char} {meant : String}
    (hblanks : Blank blanks) (h : Spells nesting text (.string meant)) (rest : List Char) :
    readText (blanks ++ (text ++ rest)) = .ok (meant, rest) := by
  obtain ⟨inner, rfl, hinner⟩ := exists_of_spells_string h
  unfold readText
  rw [skipBlanks_string hblanks, List.append_assoc]
  show Json.ofText (Json.readString (inner ++ '"' :: rest)) = _
  rw [Json.readString_of_spelled hinner]
  rfl

theorem readType_of_spelled {nesting : Nat} {blanks text rest : List Char} {type : PropertyType}
    (hblanks : Blank blanks) (h : Spells nesting text (.string type.name))
    (hrest : Json.Ends rest) :
    PropertyType.read nesting (blanks ++ (text ++ rest)) = .ok (type, rest) := by
  have hread := Json.reads_nested nesting hblanks h hrest
  simp [PropertyType.read, hread, Json.ofText, Except.mapError, PropertyType.ofJson,
    PropertyType.ofName?_name, bind, Except.bind, pure, Except.pure]

section Fields

variable {nesting : Nat} (draft : Draft) {blanks text : List Char} {value : String}

theorem readField_name (hdraft : draft.name? = none) (hblanks : Blank blanks)
    (h : SpellsMember (Spells nesting) text ("name", .string value)) (rest : List Char) :
    readField draft (blanks ++ (text ++ rest))
      = .ok ({ draft with name? := some value }, rest) := by
  obtain ⟨colon, between, inner, hname, hcolon, hbetween, hinner⟩ := h.parts hblanks rest
  have hread := readText_of_spelled hbetween hinner rest
  unfold readField
  rw [hname]
  simp [hcolon, hread, Json.ofText, Except.mapError, nameKeys, once, hdraft, ok_bind]

theorem readField_displayName (hdraft : draft.displayName? = none) (hblanks : Blank blanks)
    (h : SpellsMember (Spells nesting) text ("displayName", .string value)) (rest : List Char) :
    readField draft (blanks ++ (text ++ rest))
      = .ok ({ draft with displayName? := some value }, rest) := by
  obtain ⟨colon, between, inner, hname, hcolon, hbetween, hinner⟩ := h.parts hblanks rest
  have hread := readText_of_spelled hbetween hinner rest
  unfold readField
  rw [hname]
  simp [hcolon, hread, Json.ofText, Except.mapError, nameKeys, displayNameKeys, once, hdraft,
    ok_bind]

theorem readField_type {type : PropertyType} {rest : List Char} (hdraft : draft.type? = none)
    (hblanks : Blank blanks)
    (h : SpellsMember (Spells innerNesting) text ("propertyType", .string type.name))
    (hrest : Json.Ends rest) :
    readField draft (blanks ++ (text ++ rest))
      = .ok ({ draft with type? := some type }, rest) := by
  obtain ⟨colon, between, inner, hname, hcolon, hbetween, hinner⟩ := h.parts hblanks rest
  have hread := readType_of_spelled hbetween hinner hrest
  unfold readField
  rw [hname]
  simp [hcolon, hread, Json.ofText, Except.mapError, nameKeys, displayNameKeys, typeKeys, once,
    hdraft, ok_bind]

theorem readMoreFields_comma {fuel : Nat} {next : Draft} {before rest : List Char}
    (hbefore : Blank before) (hfield : readField draft text = .ok (next, rest)) :
    readMoreFields (fuel + 1) draft (before ++ ',' :: text) = readMoreFields fuel next rest := by
  conv => lhs; unfold readMoreFields
  rw [Json.skipBlanks_append hbefore, Json.skipBlanks_cons (by rfl)]
  simp [hfield, ok_bind]

theorem readMoreFields_close {fuel : Nat} (hblanks : Blank blanks) (rest : List Char) :
    readMoreFields fuel draft (blanks ++ '\x7d' :: rest) = .ok (draft, rest) := by
  unfold readMoreFields
  rw [Json.skipBlanks_append hblanks, Json.skipBlanks_cons (by rfl)]
  cases fuel <;> rfl

end Fields

section Objects

variable {text : List Char} {property : Property}

/-- Behind the name, the name for display and the type are read. -/
theorem readMoreFields_of_spelled {fuel : Nat}
    (h : SpellsMore (SpellsMember (Spells innerNesting)) '\x7d' text
      [("displayName", .string property.displayName),
        ("propertyType", .string property.type.name)]) (hfuel : 2 ≤ fuel) (rest : List Char) :
    readMoreFields fuel ⟨some property.name, none, none⟩ (text ++ rest)
      = .ok (⟨some property.name, some property.displayName, some property.type⟩, rest) := by
  obtain ⟨fuel, rfl⟩ := Nat.exists_eq_add_of_le' hfuel
  cases h with
  | @cons before between second more _ _ hbefore hbetween hsecond hmore =>
  cases hmore with
  | @cons before' between' third last _ _ hbefore' hbetween' hthird hmore =>
  have hends := hmore.ends (Or.inr rfl) rest
  cases hmore with
  | @nil blanks hblanks =>
  have hclose : Json.Ends (blanks ++ '\x7d' :: rest) := by simpa using hends
  have hdisplay := readField_displayName ⟨some property.name, none, none⟩ rfl hbetween hsecond
    (before' ++ ',' :: (between' ++ (third ++ (blanks ++ '\x7d' :: rest))))
  have htype := readField_type ⟨some property.name, some property.displayName, none⟩ rfl
    hbetween' hthird hclose
  have hassoc : before ++ ',' :: (between ++ (second ++ (before' ++ ',' :: (between' ++ (third
        ++ (blanks ++ ['\x7d'])))))) ++ rest
      = before ++ ',' :: (between ++ (second ++ (before' ++ ',' :: (between' ++ (third
        ++ (blanks ++ '\x7d' :: rest)))))) := by simp
  rw [hassoc, readMoreFields_comma _ hbefore hdisplay, readMoreFields_comma _ hbefore' htype]
  exact readMoreFields_close _ hblanks rest

/-- The members of the object of a property are read, each behind the one before it. -/
theorem readObject_of_spelled
    (h : SpellsAll (SpellsMember (Spells innerNesting)) '\x7d' text
      [("name", .string property.name), ("displayName", .string property.displayName),
        ("propertyType", .string property.type.name)]) (rest : List Char) :
    readObject (text ++ rest) = .ok (property, rest) := by
  cases h with
  | @cons blanks first more _ _ hblanks hfirst hmore =>
  have hname := readField_name ⟨none, none, none⟩ rfl hblanks hfirst (more ++ rest)
  have hfuel : 2 ≤ (more ++ rest).length := by
    have hlength := hmore.length_le
    simp only [List.length_cons, List.length_nil, List.length_append] at hlength ⊢
    omega
  have hfields := readMoreFields_of_spelled hmore hfuel rest
  obtain ⟨c, tail, rfl, hplain, -, hbrace⟩ := Json.opens_member _ hfirst
  rw [List.append_assoc, List.append_assoc]
  unfold readObject
  rw [Json.skipBlanks_append hblanks, List.cons_append, Json.skipBlanks_cons hplain]
  rw [List.cons_append] at hname
  split
  · contradiction
  · next heq => exact absurd (List.cons.inj heq).1 hbrace
  · simp only [hname, hfields, ok_bind]
    rfl

/-- **A property is read from every text of its object**, with white space anywhere between the
tokens and the strings written in any of their ways. -/
theorem parse_of_spelled {text : String} (h : SpellsText text property.toJson) :
    parse text = .ok property := by
  obtain ⟨before, inner, after, rfl, hbefore, hafter, hinner⟩ := h
  -- The text of an object is none of a scalar, so that it is read as its members.
  obtain hscalar | hcompound : SpellsScalar inner property.toJson
      ∨ SpellsCompound (Spells innerNesting) inner property.toJson := hinner
  · cases hscalar
  cases hcompound with
  | @object inner members hmembers =>
  have hread := readObject_of_spelled hmembers after
  have hopen : read (before ++ ('\x7b' :: inner ++ after)) = .ok (property, after) := by
    unfold read
    rw [Json.skipBlanks_append hbefore, List.cons_append, Json.skipBlanks_cons (by rfl)]
    exact hread
  unfold parse
  rw [String.toList_ofList]
  simp only [hopen, Json.finish_blank hafter, ok_bind]
  rfl

end Objects

/-- Whether a value is read as a property, and so is every text of it. -/
def Recovers (value : Json) (property : Property) : Prop :=
  ofJson? value = some property ∧ ∀ text, SpellsText text value → parse text = .ok property

theorem recovers_toJson (property : Property) : Recovers property.toJson property :=
  ⟨ofJson?_toJson property, fun _ h => parse_of_spelled h⟩

end Property

/-! ### Records in a text -/

namespace Record

/-- The value of a property nests one level deep. -/
theorem held_property (property : Property) : Json.Held 1 property.toJson := by
  refine .object fun member hmem => ?_
  simp only [List.mem_cons, List.not_mem_nil, or_false] at hmem
  rcases hmem with rfl | rfl | rfl <;> exact .string

theorem held_score (score : UInt32) : (Json.Number.integer score.toNat).Held := by
  have hlt := score.toNat_lt_size
  refine ⟨by omega, ?_⟩
  simp only [Json.Number.maxSignificand, UInt32.size, UInt64.size] at hlt ⊢
  omega

theorem held_match (found : Option Match) :
    Json.Held 1 ((found.map matchToJson).getD .null) := by
  match found with
  | none => exact .null
  | some .full =>
      refine .object fun member hmem => ?_
      obtain rfl := List.mem_singleton.mp hmem
      exact .string
  | some (.inexact score) =>
      refine .object fun member hmem => ?_
      simp only [List.mem_cons, List.not_mem_nil, or_false] at hmem
      rcases hmem with rfl | rfl
      · exact .string
      · exact .number (held_score score)

/-- A reader follows the value of a record, and its score has room in 64 bits. -/
theorem held_toJson (record : Record) : Json.Held 3 record.toJson := by
  refine .object fun member hmem => ?_
  simp only [List.mem_cons, List.not_mem_nil, or_false] at hmem
  rcases hmem with rfl | rfl | rfl | rfl | rfl
  · exact .string
  · refine .array fun item hitem => ?_
    obtain ⟨property, -, rfl⟩ := List.mem_map.mp hitem
    exact held_property property
  · refine .array fun item hitem => ?_
    obtain ⟨keyword, -, rfl⟩ := List.mem_map.mp hitem
    exact .string
  · cases record.replacement with
    | none => exact .null
    | some name => exact .string
  · exact (held_match record.found).mono (by omega)

theorem reread_property (property : Property) : property.toJson.reread = property.toJson := by
  simp [Property.toJson, Json.rereadMember]

theorem reread_match (found : Option Match) :
    ((found.map matchToJson).getD .null).reread = (found.map matchToJson).getD .null := by
  match found with
  | none => rfl
  | some .full => simp [matchToJson, Json.rereadMember]
  | some (.inexact score) =>
      simp [matchToJson, Json.rereadMember, Json.reread_integer (held_score score)]

/-- What is read back is what was written, since the only number in it is an integer. -/
theorem reread_toJson (record : Record) : record.toJson.reread = record.toJson := by
  have hname : (textOrNull record.replacement).reread = textOrNull record.replacement := by
    cases record.replacement <;> rfl
  simp [toJson, Json.rereadMember, reread_property, hname, reread_match, Function.comp_def]

end Record

namespace Diagnostics

/-- The records after some were added to none, one after the other. -/
def ofAdded (added : List Record) : Diagnostics :=
  added.foldl add []

/-- Whether a record is the last one added on a shader of its name. -/
def IsLast (added : List Record) (record : Record) : Prop :=
  ∃ earlier later, added = earlier ++ record :: later ∧
    ∀ other ∈ later, other.shaderName ≠ record.shaderName

theorem mem_ofAdded_iff {added : List Record} {record : Record} :
    record ∈ ofAdded added ↔ IsLast added record :=
  Catalogue.mem_ofList_iff

theorem ascending_ofAdded (added : List Record) :
    Catalogue.Ascending Record.shaderName (ofAdded added) :=
  Catalogue.ascending_ofList Record.shaderName added

/-- One record is kept on each shader that a record was added on. -/
theorem existsUnique_of_added {added : List Record} {record : Record} (h : record ∈ added) :
    ∃! last, last ∈ ofAdded added ∧ last.shaderName = record.shaderName := by
  obtain ⟨last, hlast, hname⟩ := Catalogue.exists_mem_ofList_iff.mpr ⟨record, h, rfl⟩
  refine ⟨last, ⟨hlast, hname⟩, ?_⟩
  rintro other ⟨hother, hsame⟩
  exact (ascending_ofAdded added).eq_of_key hother hlast (hsame.trans hname.symm)

/-- The names of the records stand in the order of their octets. -/
theorem octets_ofAdded (added : List Record) :
    ((ofAdded added).map fun record => Bytes.ofText record.shaderName).Pairwise (· < ·) := by
  rw [List.pairwise_map]
  exact (ascending_ofAdded added).imp Bytes.ofText_lt

theorem spellsText_text (records : Diagnostics) :
    Json.SpellsText (text records) (.array (records.map Record.toJson)) := by
  have hheld : Json.Held 4 (.array (records.map Record.toJson)) := by
    refine .array fun item hitem => ?_
    obtain ⟨record, -, rfl⟩ := List.mem_map.mp hitem
    exact record.held_toJson
  have hsame : (Json.array (records.map Record.toJson)).reread
      = .array (records.map Record.toJson) := by
    simp [Record.reread_toJson, Function.comp_def]
  rw [← hsame]
  exact Json.spellsText_pretty (hheld.mono (by decide))

/-- The values of the records are read as the records. -/
theorem decode_values (records : Diagnostics) :
    (records.map Record.toJson).mapM Record.ofJson? = some records := by
  induction records with
  | nil => rfl
  | cons record records ih => simp [Record.ofJson?_toJson, ih]

/-- Different records have different texts. -/
theorem text_injective {records other : Diagnostics} (h : text records = text other) :
    records = other := by
  have hrecords := Json.parse_of_spelled (spellsText_text records)
  have hother := Json.parse_of_spelled (spellsText_text other)
  rw [h, hother] at hrecords
  have hvalues : other.map Record.toJson = records.map Record.toJson := by simpa using hrecords
  have hdecoded := decode_values records
  rw [← hvalues, decode_values] at hdecoded
  exact (Option.some.inj hdecoded).symm

/-- **The text of records is an array with one object for each shader that a record was added
on**, in the order of the octets of their names, and tells all of the last record on each. Its
properties are read by the readers of properties, and different records have different texts. -/
theorem text_of_added (added : List Record) :
    Json.SpellsText (text (ofAdded added)) (.array ((ofAdded added).map Record.toJson)) ∧
      Json.parse (text (ofAdded added)) = .ok (.array ((ofAdded added).map Record.toJson)) ∧
      ((ofAdded added).map Record.toJson).mapM Record.ofJson? = some (ofAdded added) ∧
      (∀ record ∈ added, ∃! last, last ∈ ofAdded added ∧ last.shaderName = record.shaderName) ∧
      (∀ record, record ∈ ofAdded added ↔ IsLast added record) ∧
      ((ofAdded added).map fun record => Bytes.ofText record.shaderName).Pairwise (· < ·) ∧
      (∀ record ∈ ofAdded added, ∃ members values, record.toJson = .object members ∧
        ("properties", .array values) ∈ members ∧
        List.Forall₂ Property.Recovers values record.query.properties) ∧
      ∀ other, text (ofAdded other) = text (ofAdded added) → ofAdded other = ofAdded added := by
  have hspelled := spellsText_text (ofAdded added)
  refine ⟨hspelled, Json.parse_of_spelled hspelled, decode_values _,
    fun record => existsUnique_of_added, fun record => mem_ofAdded_iff, octets_ofAdded added, ?_,
    fun other => text_injective⟩
  intro record _
  refine ⟨_, record.query.properties.map Property.toJson, rfl, by simp, ?_⟩
  rw [List.forall₂_map_left_iff]
  exact List.forall₂_same.mpr fun property _ => Property.recovers_toJson property

end Diagnostics

end ShaderMend
