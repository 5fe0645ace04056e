import ShaderMend.Bundle
import ShaderMend.Bundle.Payload
import ShaderMend.Json.Printer
import ShaderMend.Zip.Writer

/-!
# Writing archives of shaders

An archive is written from asset paths and descriptors: the manifest is the table of
them, and the payload gives each asset the name in its descriptor.
-/

namespace ShaderMend.Bundle

/-- An archive in the making: asset paths and their descriptors. -/
abbrev Assets := List (String × Json)

/-- The name in a descriptor, empty if there is none. -/
def nameOf (descriptor : Json) : String :=
  match descriptor with
  | .object members =>
      match members.lookup "name" with
      | some (.string text) => text
      | _ => ""
  | _ => ""

/-- The manifest of the assets; of several with one path the last is listed. -/
def manifestOf (assets : Assets) : Json :=
  .object (Catalogue.ofList Prod.fst assets)

/-- The archive with the manifest and the payload of the assets. -/
def encode (assets : Assets) : Bytes :=
  Zip.encode
    [⟨Bytes.ofText manifestName, Bytes.ofText (String.ofList (manifestOf assets).compact)⟩,
     ⟨Bytes.ofText payloadName,
       Payload.encode (assets.map fun asset => (asset.1, nameOf asset.2))⟩]

end ShaderMend.Bundle
