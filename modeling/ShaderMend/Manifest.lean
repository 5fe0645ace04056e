import ShaderMend.Catalogue
import ShaderMend.Path
import ShaderMend.Shader.Cell
import ShaderMend.Text.Quoted

/-!
# Manifests of bundles

A manifest lists the shaders of one bundle by the paths of their assets. Once the
bundle is loaded it is bound to the manifest, and the entries are filled with native
shaders as they are needed. The type of the bundle belongs to the runtime.
-/

namespace ShaderMend

/-- A shader of a bundle: where its asset is, what is declared about it, and the
native shader once it is loaded. -/
structure Entry where
  assetPath : String
  signature : Signature
  cell : Cell
  deriving DecidableEq, Repr

namespace Entry

/-- The native shader, if it is loaded. -/
def shader? (entry : Entry) : Option Shader :=
  entry.cell.stored

/-- Whether the native shader is loaded. -/
def isMaterialized (entry : Entry) : Bool :=
  entry.shader?.isSome

/-- Whether the entry stands in for shaders without replacement. -/
def isInvalidMarker (entry : Entry) : Bool :=
  entry.signature.name = Shader.invalidName

/-- One line that shows the entry. -/
def summary (entry : Entry) : String :=
  let path := Text.quoted entry.assetPath
  let name := Text.quoted entry.signature.name
  let properties := entry.signature.properties.length
  s!"ShaderEntry \x7b asset_path: {path}, name: {name}, properties: {properties}, "
    ++ s!"materialized: {entry.isMaterialized} \x7d"

end Entry

/-- The entries of a bundle, in ascending order of asset paths. -/
structure Manifest (β : Type) where
  /-- The archive it comes from. -/
  path : Path
  bundle : Option β
  entries : List Entry
  deriving Repr

namespace Manifest

variable {β : Type}

/-- The entry of an asset. -/
def lookup? (manifest : Manifest β) (assetPath : String) : Option Entry :=
  Catalogue.find? Entry.assetPath assetPath manifest.entries

/-- The first entry that stands in for shaders without replacement. -/
def invalidMarker? (manifest : Manifest β) : Option Entry :=
  manifest.entries.find? Entry.isInvalidMarker

/-- The manifest with its bundle. -/
def bind (manifest : Manifest β) (bundle : β) : Manifest β :=
  { manifest with bundle := some bundle }

/-- The manifest with the entry of an asset changed. -/
def modifyEntry (manifest : Manifest β) (assetPath : String) (change : Entry → Entry) :
    Manifest β :=
  { manifest with
    entries := manifest.entries.map fun entry =>
      if entry.assetPath = assetPath then change entry else entry }

/-- One line that shows the manifest. -/
def summary (manifest : Manifest β) : String :=
  let path := Text.quoted manifest.path.text
  let shaders := manifest.entries.length
  s!"ShaderBundleManifest \x7b path: {path}, bound: {manifest.bundle.isSome}, "
    ++ s!"shaders: {shaders} \x7d"

end Manifest

end ShaderMend
