import ShaderMend.Catalogue
import ShaderMend.Matching
import ShaderMend.Shader.PropertyData

/-!
# Records of repairs

For every shader to be replaced a record tells what was asked, what was found and how
well it fits. Of several records on shaders of one name the last is kept. The records
are written as JSON, in ascending order of names, and read back by `Record.ofJson?`.
-/

namespace ShaderMend

/-- What became of a shader to be replaced. -/
structure Record where
  query : Signature
  /-- The name of the replacement, if there is one. -/
  replacement : Option String
  found : Option Match
  deriving DecidableEq, Repr

namespace Record

/-- The name of the shader, by which records are told apart. -/
def shaderName (record : Record) : String :=
  record.query.name

/-- A text, or null. -/
def textOrNull : Option String → Json
  | some text => .string text
  | none => .null

/-- How well a replacement fits, as a value. -/
def matchToJson : Match → Json
  | .full => .object [("kind", .string "full")]
  | .inexact score =>
      .object [("kind", .string "partial"), ("score", .number (.integer score.toNat))]

/-- The record as a value. -/
def toJson (record : Record) : Json :=
  .object [
    ("shaderName", .string record.query.name),
    ("properties", .array (record.query.properties.map Property.toJson)),
    ("keywords", .array (record.query.keywords.map .string)),
    ("replacementName", textOrNull record.replacement),
    ("match", (record.found.map matchToJson).getD .null)]

/-- The match that a value describes; null is no match. -/
def matchOfJson? : Json → Option (Option Match)
  | .null => some none
  | .object [("kind", .string "full")] => some (some .full)
  | .object [("kind", .string "partial"), ("score", .number (.integer score))] =>
      if 0 ≤ score ∧ score < UInt32.size then some (some (.inexact (UInt32.ofNat score.toNat))) else none
  | _ => none

/-- The text that a value is; null is no text. -/
def textOrNull? : Json → Option (Option String)
  | .null => some none
  | .string text => some (some text)
  | _ => none

/-- The record that a value describes. -/
def ofJson? : Json → Option Record
  | .object [("shaderName", .string name), ("properties", .array properties),
      ("keywords", .array keywords), ("replacementName", replacement), ("match", found)] => do
      return { query := ⟨name, ← properties.mapM Property.ofJson?, ← keywords.mapM Json.text?⟩
               replacement := ← textOrNull? replacement
               found := ← matchOfJson? found }
  | _ => none

theorem textOrNull?_textOrNull (text : Option String) :
    textOrNull? (textOrNull text) = some text := by
  cases text <;> rfl

theorem matchOfJson?_matchToJson (found : Option Match) :
    matchOfJson? ((found.map matchToJson).getD .null) = some found := by
  match found with
  | none => rfl
  | some .full => rfl
  | some (.inexact score) =>
      have hlt := score.toNat_lt_size
      simp only [Option.map_some, Option.getD_some, matchToJson, matchOfJson?]
      rw [if_pos (by omega)]
      simp

/-- **A record is read back from the value written for it.** -/
theorem ofJson?_toJson (record : Record) : ofJson? record.toJson = some record := by
  have hproperties : (record.query.properties.map Property.toJson).mapM Property.ofJson?
      = some record.query.properties := by
    induction record.query.properties with
    | nil => rfl
    | cons property properties ih => simp [Property.ofJson?_toJson, ih]
  have hkeywords : (record.query.keywords.map Json.string).mapM Json.text?
      = some record.query.keywords := by
    induction record.query.keywords with
    | nil => rfl
    | cons keyword keywords ih => simp [Json.text?, ih]
  simp [toJson, ofJson?, hproperties, hkeywords, textOrNull?_textOrNull, matchOfJson?_matchToJson]

end Record

/-- The records, in ascending order of the names of the shaders. -/
abbrev Diagnostics := List Record

namespace Diagnostics

/-- The records with a new one, instead of any on a shader of the same name. -/
def add (records : Diagnostics) (record : Record) : Diagnostics :=
  Catalogue.insert Record.shaderName record records

/-- The records as JSON. -/
def text (records : Diagnostics) : String :=
  (Json.array (records.map Record.toJson)).pretty

end Diagnostics

end ShaderMend
