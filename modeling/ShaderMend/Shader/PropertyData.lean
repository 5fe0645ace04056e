import ShaderMend.Json.Mismatch
import ShaderMend.Json.Printer
import ShaderMend.Shader.Property

/-!
# Properties as JSON

A property is an object with the members `name`, `displayName` and `propertyType`,
each also under a capital initial, or the array of the three in this order. Only
the name for display may be left out. Other members are ignored.

`Property.ofJson?` reads a value. `Property.parse` reads a text as it goes, so that
the first error from the left is reported, be it one of the text or of the data.
-/

namespace ShaderMend

open Json (Fault Mismatch ReadError)

/-! ### Types -/

namespace PropertyType

/-- The largest number that is taken for the number of a type. -/
def maxIndex : Int := 0xFFFFFFFF

/-- The type that a value describes: a number or a name. -/
def ofJson : Json → Except Mismatch PropertyType
  | .number (.integer index) =>
      if 0 ≤ index ∧ index ≤ maxIndex then
        match ofIndex? index.toNat with
        | some type => .ok type
        | none => .error (.unknownPropertyType (toString index))
      else .error (.noForm "RawPropertyType")
  | .string name =>
      match ofName? name with
      | some type => .ok type
      | none => .error (.unknownPropertyType name)
  | _ => .error (.noForm "RawPropertyType")

/-- Reads a type at the front of a text, inside values that nest so that `nesting`
levels are left. -/
def read (nesting : Nat) (text : List Char) : Except ReadError (PropertyType × List Char) := do
  let (value, rest) ← Json.ofText (Json.readNested nesting text)
  let type ← (ofJson value).mapError .mismatch
  return (type, rest)

/-- Reads a text that is a type. -/
def parse (text : String) : Except ReadError PropertyType := do
  let (type, rest) ← read Json.maxNesting text.toList
  Json.ofText (Json.finish rest)
  return type

end PropertyType

namespace Property

/-! ### Reading a value -/

/-- The names of the three members. -/
def nameKeys : List String := ["name", "Name"]

/-- The names of the member with the name for display. -/
def displayNameKeys : List String := ["displayName", "DisplayName"]

/-- The names of the member with the type. -/
def typeKeys : List String := ["propertyType", "PropertyType"]

/-- The value of an optional member: the default if no member has one of the names,
no value if several have. -/
def optionalMember? {α : Type} (names : List String) (members : List (String × Json))
    (default : α) (decode : Json → Option α) : Option α :=
  match members.filter (·.1 ∈ names) with
  | [] => some default
  | [(_, value)] => decode value
  | _ => none

/-- The property that a value describes. -/
def ofJson? : Json → Option Property
  | .object members => do
      let name ← (← Json.onlyMember? nameKeys members).text?
      let displayName ← optionalMember? displayNameKeys members "" Json.text?
      let type ← (PropertyType.ofJson (← Json.onlyMember? typeKeys members)).toOption
      return ⟨name, displayName, type⟩
  | .array [name, displayName, type] => do
      return ⟨← name.text?, ← displayName.text?, ← (PropertyType.ofJson type).toOption⟩
  | _ => none

/-! ### Writing -/

/-- The property as a value. -/
def toJson (property : Property) : Json :=
  .object [("name", .string property.name), ("displayName", .string property.displayName),
    ("propertyType", .string property.type.name)]

/-- **A property is read back from the value written for it.** -/
theorem ofJson?_toJson (property : Property) : ofJson? property.toJson = some property := by
  simp [toJson, ofJson?, nameKeys, displayNameKeys, typeKeys, Json.onlyMember?, optionalMember?,
    Json.text?, PropertyType.ofJson, PropertyType.ofName?_name, Except.toOption]

/-! ### Reading a text -/

/-- The members met so far. -/
structure Draft where
  name? : Option String
  displayName? : Option String
  type? : Option PropertyType

/-- What the property is called in messages. -/
def typeText : String := "struct ShaderProperty"

/-- How deep values inside a property may nest. -/
def innerNesting : Nat := Json.maxNesting - 1

/-- Reads a string at the front of a text. -/
def readText (text : List Char) : Except ReadError (String × List Char) :=
  match Json.skipBlanks text with
  | [] => .error (.fault .endOfText)
  | '"' :: rest => Json.ofText (Json.readString rest)
  | _ => .error (Json.unexpected text "a string")

/-- Refuses a member that was there before. -/
def once {α : Type} (field : String) (earlier : Option α) : Except ReadError Unit :=
  if earlier.isSome then .error (.mismatch (.duplicateField field)) else .ok ()

/-- Reads a member and adds it to those met so far. A member that was there before is
refused as soon as its name is read. -/
def readField (draft : Draft) (text : List Char) : Except ReadError (Draft × List Char) := do
  let (name, rest) ← Json.ofText (Json.openName text >>= Json.readString)
  if name ∈ nameKeys then
    once "name" draft.name?
    let (name, rest) ← readText (← Json.ofText (Json.readColon rest))
    return ({ draft with name? := some name }, rest)
  else if name ∈ displayNameKeys then
    once "displayName" draft.displayName?
    let (displayName, rest) ← readText (← Json.ofText (Json.readColon rest))
    return ({ draft with displayName? := some displayName }, rest)
  else if name ∈ typeKeys then
    once "propertyType" draft.type?
    let (type, rest) ← PropertyType.read innerNesting (← Json.ofText (Json.readColon rest))
    return ({ draft with type? := some type }, rest)
  else
    let rest ← Json.ofText (Json.readColon rest >>= Json.skip)
    return (draft, rest)

/-- Reads the members behind the first one, each after its comma. The first argument
bounds their number. -/
def readMoreFields : Nat → Draft → List Char → Except ReadError (Draft × List Char)
  | fuel, draft, text =>
      match Json.skipBlanks text, fuel with
      | [], _ => .error (.fault .endOfText)
      | '\x7d' :: rest, _ => .ok (draft, rest)
      | ',' :: rest, fuel + 1 => do
          let (draft, rest) ← readField draft rest
          readMoreFields fuel draft rest
      | _, _ => .error (.fault .malformed)

/-- The property made up of the members met. -/
def ofDraft (draft : Draft) : Except Mismatch Property :=
  match draft.name?, draft.type? with
  | none, _ => .error (.missingField "name")
  | _, none => .error (.missingField "propertyType")
  | some name, some type => .ok ⟨name, draft.displayName?.getD "", type⟩

/-- Reads an object behind its brace. -/
def readObject (text : List Char) : Except ReadError (Property × List Char) := do
  let draft : Draft := ⟨none, none, none⟩
  let (draft, rest) ←
    match Json.skipBlanks text with
    | [] => .error (.fault .endOfText)
    | '\x7d' :: rest => .ok (draft, rest)
    | _ => do
        let (draft, rest) ← readField draft text
        readMoreFields rest.length draft rest
  let property ← (ofDraft draft).mapError .mismatch
  return (property, rest)

/-- Whether an array goes on: `none` at its end, otherwise the text of its next item.
An item other than the first stands behind a comma. -/
def nextItem (first : Bool) (text : List Char) : Except Fault (Option (List Char)) :=
  match Json.skipBlanks text with
  | [] => .error .endOfText
  | ']' :: _ => .ok none
  | ',' :: rest =>
      if first then .ok (some text)
      else
        match Json.skipBlanks rest with
        | [] => .error .endOfText
        | ']' :: _ => .error .malformed
        | _ => .ok (some rest)
  | _ => if first then .ok (some text) else .error .malformed

/-- The error for an array of the wrong length. -/
def wrongLength (length : Nat) : ReadError :=
  .mismatch (.wrongLength length s!"{typeText} with 3 elements")

/-- Reads an array behind its bracket. -/
def readArray (text : List Char) : Except ReadError (Property × List Char) := do
  let some text ← Json.ofText (nextItem true text) | throw (wrongLength 0)
  let (name, text) ← readText text
  let some text ← Json.ofText (nextItem false text) | throw (wrongLength 2)
  let (displayName, text) ← readText text
  let some text ← Json.ofText (nextItem false text) | throw (wrongLength 2)
  let (type, text) ← PropertyType.read innerNesting text
  match Json.skipBlanks text with
  | [] => throw (.fault .endOfText)
  | ']' :: rest => return (⟨name, displayName, type⟩, rest)
  | _ => throw (.fault .malformed)

/-- Reads a property at the front of a text. -/
def read (text : List Char) : Except ReadError (Property × List Char) :=
  match Json.skipBlanks text with
  | [] => .error (.fault .endOfText)
  | '[' :: rest => readArray rest
  | '\x7b' :: rest => readObject rest
  | _ => .error (Json.unexpected text typeText)

/-- Reads a text that is a property. -/
def parse (text : String) : Except ReadError Property := do
  let (property, rest) ← read text.toList
  Json.ofText (Json.finish rest)
  return property

end Property

end ShaderMend
