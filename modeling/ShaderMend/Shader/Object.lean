import ShaderMend.Bytecode.Inspection
import ShaderMend.Shader.Property

/-!
# Shaders

A shader is an object of the native runtime. Two shaders are the same if they are
the same object, whatever their names. A shader supports instanced rendering if it
says so, or if the input signature of its bytecode has the semantic for it.
-/

namespace ShaderMend

/-- Which object a shader is. -/
inductive ShaderId where
  /-- An object of the host, by its number. -/
  | host (index : Nat)
  /-- The object that the runtime created as the one of this number. -/
  | created (index : Nat)
  deriving DecidableEq, Repr

/-- A shader object and what it tells about itself. -/
structure Shader where
  id : ShaderId
  name : String
  properties : List Property
  /-- Whether instanced rendering is supported, if that is known. -/
  knownSupport : Option Bool
  /-- The native memory of the shader, if it has any. -/
  memory : Option Bytecode.Image
  deriving DecidableEq, Repr

namespace Shader

/-- Whether two shaders are one object. -/
def same (first second : Shader) : Bool :=
  first.id == second.id

/-- The semantic whose presence shows support for instanced rendering. -/
def instancingSemantic : String := "SV_RenderTargetArrayIndex"

/-- The name that an entry must have to stand in for shaders without replacement. -/
def invalidName : String := "Hidden/ShaderRepair/Invalid"

/-- The keyword that shaders to be replaced are expected to declare. -/
def instancingKeyword : String := "STEREO_INSTANCING_ON"

/-- Whether the bytecode has an input with the semantic. A shader without native
memory has none. -/
def hasInput (layout : Bytecode.Layout) (shader : Shader) (semantic : String) : Bool :=
  match shader.memory with
  | some image => image.hasSemantic layout (Bytes.ofText semantic)
  | none => false

/-- Whether the bytecode shows support for instanced rendering. -/
def supportsInstancing (layout : Bytecode.Layout) (shader : Shader) : Bool :=
  shader.hasInput layout instancingSemantic

/-- Whether the shader can stay: what is known about it counts before its bytecode. -/
def isSupported (layout : Bytecode.Layout) (shader : Shader) : Bool :=
  shader.knownSupport.getD (shader.supportsInstancing layout)

/-- What is asked of a replacement for the shader. -/
def query (shader : Shader) : Signature :=
  ⟨shader.name, shader.properties, [instancingKeyword]⟩

end Shader

end ShaderMend
