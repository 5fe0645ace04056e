import ShaderMend.Bytecode.Layout

/-!
# Bytecode containers, written

A container is a header of 28 bytes, the number of its chunks, a table with the
offset of each chunk, and the chunks themselves: a name, the length of the data,
the data. A chunk of input signature lists semantic names; each element of 24
bytes points to a zero-terminated name behind the table of elements.

* `Signature.nameBytes_position` — the names start where the first element points.
* `Container.length_encode` — a container is as long as its header says.
-/

namespace ShaderMend.Bytecode

/-- A named part of a container. -/
structure Chunk where
  tag : FourCC
  data : Bytes
  deriving DecidableEq, Repr

namespace Signature

/-- Bytes before the table of elements. -/
def headerLength : Nat := 8

/-- Bytes of one element. -/
def elementLength : Nat := 24

/-- One element: where its name lies, semantic index and system value 0, component
type 3 (floating point), register, masks. -/
def element (nameOffset register : Nat) : Bytes :=
  LittleEndian.encode 4 nameOffset ++ LittleEndian.encode 4 0 ++ LittleEndian.encode 4 0
    ++ LittleEndian.encode 4 3 ++ LittleEndian.encode 4 register ++ [0x0F, 0x0F, 0, 0]

/-- The elements of the names, numbered from `register`, the first name lying at
`nameOffset`. -/
def elements (nameOffset register : Nat) : List Bytes → Bytes
  | [] => []
  | name :: names =>
      element nameOffset register ++ elements (nameOffset + name.length + 1) (register + 1) names

/-- The names, each followed by a zero. -/
def nameBytes : List Bytes → Bytes
  | [] => []
  | name :: names => name ++ 0 :: nameBytes names

/-- The data of an input signature that declares the names. -/
def encode (names : List Bytes) : Bytes :=
  LittleEndian.encode 4 names.length ++ LittleEndian.encode 4 headerLength
    ++ elements (headerLength + elementLength * names.length) 0 names ++ nameBytes names

end Signature

namespace Container

/-- A chunk as it is written. -/
def chunkBytes (chunk : Chunk) : Bytes :=
  chunk.tag.toBytes ++ LittleEndian.encode 4 chunk.data.length ++ chunk.data

/-- The offsets of the chunks when the first lies at `offset`. -/
def chunkOffsets (offset : Nat) : List Chunk → Bytes
  | [] => []
  | chunk :: chunks =>
      LittleEndian.encode 4 offset ++ chunkOffsets (offset + (chunkBytes chunk).length) chunks

/-- Bytes before the table of chunk offsets. -/
def headerLength : Nat := 32

/-- The container with the given chunks. The checksum is left zero. -/
def encode (magic : FourCC) (chunks : List Chunk) : Bytes :=
  let body := chunks.flatMap chunkBytes
  let tableLength := 4 * chunks.length
  magic.toBytes ++ List.replicate 16 0 ++ LittleEndian.encode 4 1
    ++ LittleEndian.encode 4 (headerLength + tableLength + body.length)
    ++ LittleEndian.encode 4 chunks.length
    ++ chunkOffsets (headerLength + tableLength) chunks ++ body

end Container

namespace Signature

@[simp] theorem length_element (nameOffset register : Nat) :
    (element nameOffset register).length = elementLength := by
  simp [element, elementLength]

@[simp] theorem length_elements (nameOffset register : Nat) (names : List Bytes) :
    (elements nameOffset register names).length = elementLength * names.length := by
  induction names generalizing nameOffset register with
  | nil => rfl
  | cons name names ih =>
      simp only [elements, List.length_append, length_element, ih, List.length_cons]
      rw [Nat.mul_succ, Nat.add_comm]

/-- **The names start where the first element says.** -/
theorem nameBytes_position (names : List Bytes) :
    (encode names).drop (headerLength + elementLength * names.length) = nameBytes names := by
  unfold encode
  rw [List.drop_append_of_le_length (by simp [headerLength]; omega)]
  rw [List.drop_of_length_le (by simp [headerLength]; omega), List.nil_append]

end Signature

namespace Container

@[simp] theorem length_chunkBytes (chunk : Chunk) :
    (chunkBytes chunk).length = 8 + chunk.data.length := by
  simp [chunkBytes, FourCC.toBytes]
  omega

@[simp] theorem length_chunkOffsets (offset : Nat) (chunks : List Chunk) :
    (chunkOffsets offset chunks).length = 4 * chunks.length := by
  induction chunks generalizing offset with
  | nil => rfl
  | cons chunk chunks ih =>
      simp only [chunkOffsets, List.length_append, LittleEndian.length_encode, ih, List.length_cons]
      omega

/-- **The container ends where its header says.** -/
theorem length_encode (magic : FourCC) (chunks : List Chunk) :
    (encode magic chunks).length
      = headerLength + 4 * chunks.length + (chunks.flatMap chunkBytes).length := by
  simp [encode, headerLength, FourCC.toBytes]
  omega

end Container

end ShaderMend.Bytecode
