import ShaderMend.Bytecode.Container

/-!
# Synthetic shader images

An image is a piece of native memory that holds one shader with its sub-shaders,
passes, programs and bytecode, arranged as a `Layout` says. `Image.build` writes
one into an `Arena`, a memory that only grows: space is handed out in order, each
piece aligned to eight bytes and zeroed, and the pointers are filled in after the
structures they lead to have their place.
-/

namespace ShaderMend.Bytecode

/-! ### What an image holds -/

/-- The bytecode of one sub-program. -/
structure Blob where
  kind : UInt8
  magic : FourCC
  /-- The semantics of the input signature, in UTF-8. -/
  semantics : List Bytes
  deriving DecidableEq, Repr

/-- A pass: `none` for a null program, otherwise the blobs of its sub-programs. -/
abbrev Pass := Option (List Blob)

/-- The passes of one sub-shader. -/
abbrev SubShader := List Pass

namespace Blob

/-- The data of the chunk of code that precedes the signature. -/
def codeChunk : Chunk := ⟨FourCC.ofText "SHEX", List.replicate 16 0⟩

/-- The container of a blob: a chunk of code, then the input signature. -/
def container (layout : Layout) (blob : Blob) : Bytes :=
  Container.encode blob.magic
    [codeChunk, ⟨layout.container.inputSignatureTag, Signature.encode blob.semantics⟩]

/-- Where the container lies in the blob; a kind that the layout does not
understand is written like a kind other than 1. -/
def containerOffset (layout : Layout) (blob : Blob) : Nat :=
  ((layout.containerOffset? blob.kind).getD layout.blobContainerDefault).toNat

end Blob

/-! ### Memory that grows -/

/-- The bytes written so far. Places in it are counted from its first byte. -/
structure Arena where
  bytes : Bytes
  deriving DecidableEq, Repr

namespace Arena

/-- The first place at or after the end that is a multiple of eight. -/
def nextPlace (arena : Arena) : Nat :=
  (arena.bytes.length + 7) / 8 * 8

/-- The arena with `size` zeroed bytes more, at least one. -/
def grow (arena : Arena) (size : Nat) : Arena :=
  ⟨arena.bytes ++ List.replicate (arena.nextPlace - arena.bytes.length) 0
    ++ List.replicate (max size 1) 0⟩

/-- The arena with `data` written over the bytes from `place` on. -/
def put (arena : Arena) (place : Nat) (data : Bytes) : Arena :=
  ⟨arena.bytes.take place ++ data ++ arena.bytes.drop (place + data.length)⟩

/-- Writes a number of `width` octets. -/
def putNumber (arena : Arena) (place width value : Nat) : Arena :=
  arena.put place (LittleEndian.encode width value)

end Arena

/-! ### Writing an image -/

namespace Image

section Writing

variable (layout : Layout) (base : Address)

/-- Writes the pointer to the structure at `target` into the field at `place`. -/
def putPointer (arena : Arena) (place target : Nat) : Arena :=
  arena.putNumber place 8 (base.toNat + target)

/-- Fills a table: the entry at `slot` by `write`, the next one `stride` further. -/
def fillTable {α : Type} (write : Arena → Nat → α → Arena) (stride : Nat) :
    Arena → Nat → List α → Arena
  | arena, _, [] => arena
  | arena, slot, item :: items =>
      fillTable write stride (write arena slot item) (slot + stride) items

/-- Writes a sub-program with its blob and enters it at `slot`. -/
def putBlob (arena : Arena) (slot : Nat) (blob : Blob) : Arena :=
  let subProgram := arena.nextPlace
  let arena := arena.grow (layout.subProgramBlob.toNat + layout.pointerSize.toNat)
  let arena := putPointer base arena slot subProgram
  let container := blob.container layout
  let offset := blob.containerOffset layout
  let place := arena.nextPlace
  let arena := arena.grow (offset + container.length)
  let arena := putPointer base arena (subProgram + layout.subProgramBlob.toNat) place
  let arena := arena.put place [blob.kind]
  arena.put (place + offset) container

/-- Writes a program and its sub-programs, and enters it at `slot`. -/
def putProgram (arena : Arena) (slot : Nat) (blobs : List Blob) : Arena :=
  let pointer := layout.pointerSize.toNat
  let program := arena.nextPlace
  let arena := arena.grow (max (layout.programSubProgramList.toNat + pointer)
    (layout.programSubProgramCount.toNat + 4))
  let arena := putPointer base arena slot program
  let table := arena.nextPlace
  let arena := arena.grow (pointer * blobs.length)
  let arena := putPointer base arena (program + layout.programSubProgramList.toNat) table
  let arena := arena.putNumber (program + layout.programSubProgramCount.toNat) 4 blobs.length
  fillTable (putBlob layout base) pointer arena table blobs

/-- Writes a pass and enters it at `slot`. -/
def putPass (arena : Arena) (slot : Nat) (pass : Pass) : Arena :=
  let place := arena.nextPlace
  let arena := arena.grow (layout.passProgram.toNat + layout.pointerSize.toNat)
  let arena := putPointer base arena slot place
  match pass with
  | none => arena
  | some blobs => putProgram layout base arena (place + layout.passProgram.toNat) blobs

/-- Writes a sub-shader with its passes and enters it at `slot`. -/
def putSubShader (arena : Arena) (slot : Nat) (passes : SubShader) : Arena :=
  let place := arena.nextPlace
  let arena := arena.grow (max (layout.subShaderPassList.toNat + layout.pointerSize.toNat)
    (layout.subShaderPassCount.toNat + 4))
  let arena := putPointer base arena slot place
  let arena := arena.putNumber (place + layout.subShaderMarkerWord.toNat) 4 0
  let arena := arena.put (place + layout.subShaderMarkerByte.toNat) [0xFF]
  let table := arena.nextPlace
  let arena := arena.grow (layout.passListStride.toNat * passes.length)
  let arena := putPointer base arena (place + layout.subShaderPassList.toNat) table
  let arena := arena.putNumber (place + layout.subShaderPassCount.toNat) 4 passes.length
  fillTable (putPass layout base) layout.passListStride.toNat arena table passes

/-- Writes a shader into an empty arena, at its first place. -/
def putShader (subShaders : List SubShader) : Arena :=
  let pointer := layout.pointerSize.toNat
  let arena : Arena := ⟨[]⟩
  let shader := arena.nextPlace
  let arena := arena.grow (layout.shaderInternal.toNat + pointer)
  let internal := arena.nextPlace
  let arena := arena.grow (max (layout.internalSubShaderList.toNat + pointer)
    (layout.internalSubShaderCount.toNat + 4))
  let arena := putPointer base arena (shader + layout.shaderInternal.toNat) internal
  let table := arena.nextPlace
  let arena := arena.grow (pointer * subShaders.length)
  let arena := putPointer base arena (internal + layout.internalSubShaderList.toNat) table
  let arena := arena.putNumber (internal + layout.internalSubShaderCount.toNat) 4 subShaders.length
  fillTable (putSubShader layout base) pointer arena table subShaders

end Writing

end Image

/-- A piece of native memory with the address of the shader in it. -/
structure Image where
  view : View
  shader : Address
  deriving DecidableEq, Repr

namespace Image

/-- Where images lie unless another base is asked for. -/
def defaultBase : Address := 0x7f0000000000

/-- The image of a shader with the given sub-shaders. -/
def build (layout : Layout) (base : Address) (subShaders : List SubShader) : Image where
  view := .ofBytes base (putShader layout base subShaders).bytes
  shader := base

/-- The image with `data` written over its bytes from `offset` on. -/
def overwrite (image : Image) (offset : Nat) (data : Bytes) : Image :=
  { image with view := .ofBytes image.view.base (Arena.put ⟨image.view.bytes⟩ offset data).bytes }

/-- The image cut after its first `length` bytes. -/
def truncate (image : Image) (length : Nat) : Image :=
  { image with view := .ofBytes image.view.base (image.view.bytes.take length) }

end Image

end ShaderMend.Bytecode
