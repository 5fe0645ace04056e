import ShaderMend.Path
import ShaderMend.Shader.Object

/-!
# Native engines

An engine turns the payloads of archives into native bundles, and assets of bundles
into shaders. Its loads may succeed or fail as it likes, and leave its own state
changed. A load that does not block lasts a while, and does its work at the end.
-/

namespace ShaderMend

/-- An engine with states in `σ` and bundles in `β`. -/
structure Engine (σ β : Type) where
  /-- Loads the payload of an archive. -/
  loadBundle : σ → Path → Bytes → σ × Option β
  /-- Loads the shader of an asset. -/
  loadShader : σ → β → String → σ × Option Shader
  /-- How long a load of a bundle lasts if it does not block, in nanoseconds. -/
  bundleDelay : Nat
  /-- How long a load of a shader lasts if it does not block, in nanoseconds. -/
  shaderDelay : Nat

/-- The thread that a request comes from. Only the main thread may use the engine. -/
inductive Thread where
  | main
  | other
  deriving DecidableEq, Repr

end ShaderMend
