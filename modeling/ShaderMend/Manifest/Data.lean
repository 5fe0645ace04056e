import ShaderMend.Manifest
import ShaderMend.Shader.PropertyData

/-!
# Manifests as JSON

A manifest is a table from asset paths to descriptors, either the whole text or the
member `shadersByBundlePath` of an object, or the only item of an array. A
descriptor has a name and optional lists of properties and keywords. In a table a
repeated asset path keeps its last descriptor; in a descriptor no member is repeated.
-/

namespace ShaderMend

open Json (ReadError)

namespace Signature

/-- The names of the member with the name. -/
def nameKeys : List String := ["name", "Name"]

/-- The names of the member with the properties. -/
def propertiesKeys : List String := ["properties", "Properties"]

/-- The names of the member with the keywords. -/
def keywordsKeys : List String := ["keywords", "Keywords"]

/-- A list of properties. -/
def propertiesOfJson? : Json → Option (List Property)
  | .array items => items.mapM Property.ofJson?
  | _ => none

/-- A list of keywords. -/
def keywordsOfJson? : Json → Option (List String)
  | .array items => items.mapM Json.text?
  | _ => none

/-- The descriptor that a value is: an object, or the array of its members of which
the last ones may be missing. -/
def ofJson? : Json → Option Signature
  | .object members => do
      let name ← (← Json.onlyMember? nameKeys members).text?
      let properties ← Property.optionalMember? propertiesKeys members [] propertiesOfJson?
      let keywords ← Property.optionalMember? keywordsKeys members [] keywordsOfJson?
      return ⟨name, properties, keywords⟩
  | .array [name] => do return ⟨← name.text?, [], []⟩
  | .array [name, properties] => do return ⟨← name.text?, ← propertiesOfJson? properties, []⟩
  | .array [name, properties, keywords] => do
      return ⟨← name.text?, ← propertiesOfJson? properties, ← keywordsOfJson? keywords⟩
  | _ => none

end Signature

namespace Manifest

/-- A table from asset paths to descriptors. Every descriptor must be valid. -/
def tableOfJson? : Json → Option (List Entry)
  | .object members => do
      let entries ← members.mapM fun (assetPath, value) => do
        return (⟨assetPath, ← Signature.ofJson? value, .empty⟩ : Entry)
      return Catalogue.ofList Entry.assetPath entries
  | _ => none

/-- The names of the member that wraps a table. -/
def wrapperKeys : List String := ["shadersByBundlePath", "ShadersByBundlePath"]

/-- The table in a wrapper. -/
def wrappedOfJson? : Json → Option (List Entry)
  | .object members => do tableOfJson? (← Json.onlyMember? wrapperKeys members)
  | .array [table] => tableOfJson? table
  | _ => none

/-- The entries that a value describes. -/
def entriesOfJson? (value : Json) : Option (List Entry) :=
  (wrappedOfJson? value).or (tableOfJson? value)

/-- Reads the entries of a manifest. A value of the wrong shape is reported before
anything that follows it. -/
def parse (text : String) : Except ReadError (List Entry) := do
  let (value, rest) ← Json.ofText (Json.read text.toList)
  let some entries := entriesOfJson? value | throw (.mismatch (.noForm "RawManifest"))
  Json.ofText (Json.finish rest)
  return entries

end Manifest

end ShaderMend
