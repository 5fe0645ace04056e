import ShaderMend.Memory.View

/-!
# Where the native runtime keeps things

The shader objects of the native runtime are undocumented structures. A `Layout`
tells, for one revision of the runtime, at which offset of which structure each
field lies; a `ContainerLayout` does so for the bytecode containers inside them.
The traversal of the structures never mentions a number of its own.
-/

namespace ShaderMend.Bytecode

/-- Offsets inside a bytecode container and inside its input signatures. -/
structure ContainerLayout where
  /-- The name that opens a container. -/
  magic : FourCC
  /-- Container: number of chunks. -/
  chunkCount : UInt64
  /-- Container: table of chunk offsets, four bytes each. -/
  chunkOffsets : UInt64
  /-- Bytes before the data of a chunk. -/
  chunkHeaderLength : UInt64
  /-- The name of a chunk that holds an input signature. -/
  inputSignatureTag : FourCC
  /-- Signature: number of elements. -/
  signatureElementCount : UInt64
  /-- Signature: first element. -/
  signatureElements : UInt64
  /-- Distance between two elements. -/
  signatureElementStride : UInt64
  /-- Bytes searched for the end of a semantic name. -/
  maxSemanticNameLength : UInt64
  deriving DecidableEq, Repr

/-- The usual container format. -/
def ContainerLayout.dxbc : ContainerLayout where
  magic := FourCC.ofText "DXBC"
  chunkCount := 28
  chunkOffsets := 32
  chunkHeaderLength := 8
  inputSignatureTag := FourCC.ofText "ISGN"
  signatureElementCount := 0
  signatureElements := 8
  signatureElementStride := 24
  maxSemanticNameLength := 256

/-- Offsets inside the native structures that lead from a shader to its bytecode. -/
structure Layout where
  /-- The revision of the runtime that was observed. -/
  revision : String
  /-- Distance between two entries of a pointer list. -/
  pointerSize : UInt64
  /-- Shader: pointer to its internals. -/
  shaderInternal : UInt64
  /-- Internals: pointer to the list of sub-shaders. -/
  internalSubShaderList : UInt64
  /-- Internals: number of sub-shaders. -/
  internalSubShaderCount : UInt64
  /-- Sub-shader: word that is zero. -/
  subShaderMarkerWord : UInt64
  /-- Sub-shader: octet that is `0xFF`. -/
  subShaderMarkerByte : UInt64
  /-- Sub-shader: pointer to the list of passes. -/
  subShaderPassList : UInt64
  /-- Sub-shader: number of passes. -/
  subShaderPassCount : UInt64
  /-- Distance between two entries of the list of passes. -/
  passListStride : UInt64
  /-- Pass: pointer to its program, null for a pass without one. -/
  passProgram : UInt64
  /-- Program: pointer to the list of sub-programs. -/
  programSubProgramList : UInt64
  /-- Program: number of sub-programs. -/
  programSubProgramCount : UInt64
  /-- Sub-program: pointer to its blob, null for a sub-program without one. -/
  subProgramBlob : UInt64
  /-- The largest kind of blob that is understood. -/
  blobMaxKind : UInt8
  /-- Blob of kind 1: its container. -/
  blobContainerKindOne : UInt64
  /-- Blob of another kind: its container. -/
  blobContainerDefault : UInt64
  /-- The containers inside the blobs. -/
  container : ContainerLayout
  deriving DecidableEq, Repr

namespace Layout

/-- The 64-bit runtime of revision 2021.3. -/
def revision2021_3 : Layout where
  revision := "2021.3-x64"
  pointerSize := 8
  shaderInternal := 56
  internalSubShaderList := 0
  internalSubShaderCount := 16
  subShaderMarkerWord := 0
  subShaderMarkerByte := 4
  subShaderPassList := 112
  subShaderPassCount := 128
  passListStride := 16
  passProgram := 120
  programSubProgramList := 8
  programSubProgramCount := 24
  subProgramBlob := 16
  blobMaxKind := 2
  blobContainerKindOne := 6
  blobContainerDefault := 38
  container := .dxbc

instance : Inhabited Layout := ⟨revision2021_3⟩

/-- Where a blob of the given kind holds its container; kind 1 is always
understood, the others up to the largest kind of the layout. -/
def containerOffset? (layout : Layout) (kind : UInt8) : Option UInt64 :=
  if kind = 1 then some layout.blobContainerKindOne
  else if kind ≤ layout.blobMaxKind then some layout.blobContainerDefault
  else none

end Layout

end ShaderMend.Bytecode
