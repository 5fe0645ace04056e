import ShaderMend.Bundle.Payload
import ShaderMend.Engine

/-!
# An engine in memory

The simplest engine reads payloads in plain text. Every shader it creates is a new
object that supports instanced rendering.
-/

namespace ShaderMend.Engine

/-- How many bundles and shaders an engine has loaded. -/
structure Tally where
  bundles : Nat
  shaders : Nat
  deriving DecidableEq, Repr

/-- A bundle in memory: the archive it was loaded for and its assets. -/
structure MemoryBundle where
  identity : Path
  assets : Payload.Assets
  deriving DecidableEq, Repr

/-- Loads a payload, unless it is no text. -/
def Tally.loadBundle (tally : Tally) (path : Path) (payload : Bytes) :
    Tally × Option MemoryBundle :=
  match Payload.decode? payload with
  | some assets => ({ tally with bundles := tally.bundles + 1 }, some ⟨path, assets⟩)
  | none => (tally, none)

/-- Creates the shader of an asset, unless the bundle has no such asset. -/
def Tally.loadShader (tally : Tally) (bundle : MemoryBundle) (assetPath : String) :
    Tally × Option Shader :=
  match Payload.name? bundle.assets assetPath with
  | some name =>
      ({ tally with shaders := tally.shaders + 1 },
       some { id := .created tally.shaders, name, properties := [], knownSupport := some true,
              memory := none })
  | none => (tally, none)

/-- The engine in memory, with the given delays. -/
def inMemory (bundleDelay shaderDelay : Nat) : Engine Tally MemoryBundle where
  loadBundle := Tally.loadBundle
  loadShader := Tally.loadShader
  bundleDelay := bundleDelay
  shaderDelay := shaderDelay

end ShaderMend.Engine
