import ShaderMend.Bytecode.Image

/-!
# Reading the bytecode of a native shader

From a shader object the inspection follows pointers through sub-shaders, passes
and sub-programs to the bytecode containers, and looks in the input signatures of
these for a semantic. Nothing in the memory is trusted: every read may fail, a
list of more than 4096 entries counts as empty, and what was found before a
failure is kept.
-/

namespace ShaderMend.Bytecode

/-- The longest list that is believed. -/
def maxListLength : Nat := 4096

/-- The number of entries of a list whose stored length is `raw`. -/
def listLength (raw : Int32) : Nat :=
  if 0 ≤ raw.toInt ∧ raw.toInt ≤ maxListLength then raw.toInt.toNat else 0

/-! ### Traversals that may stop early -/

/-- What a traversal met, and whether it got to its end. -/
structure Walk where
  found : List Address
  finished : Bool
  deriving DecidableEq, Repr

namespace Walk

/-- Nothing there: the traversal goes on. -/
def skip : Walk := ⟨[], true⟩

/-- The traversal ends here. -/
def stop : Walk := ⟨[], false⟩

/-- One address, and the traversal goes on. -/
def emit (address : Address) : Walk := ⟨[address], true⟩

/-- The second traversal after the first, unless that one has stopped. -/
def append (first second : Walk) : Walk :=
  if first.finished then ⟨first.found ++ second.found, second.finished⟩ else first

/-- The traversals of all items, one after the other. -/
def forEach {α : Type} (items : List α) (visit : α → Walk) : Walk :=
  items.foldr (fun item rest => append (visit item) rest) skip

/-- The offset of an entry of a table. -/
def entryOffset (index : Nat) (stride : UInt64) : UInt64 :=
  UInt64.ofNat index * stride

/-- The traversals of the entries of a table, given by their offsets. Where all entries
lie at one place, this one is looked at only once. -/
def forEntries (count : Nat) (stride : UInt64) (visit : UInt64 → Walk) : Walk :=
  if stride = 0 then forEach (List.replicate count (visit 0)) id
  else forEach (List.range count) fun index => visit (entryOffset index stride)

/-- **A table is traversed entry by entry.** -/
theorem forEntries_eq_forEach (count : Nat) (stride : UInt64) (visit : UInt64 → Walk) :
    forEntries count stride visit
      = forEach (List.range count) fun index => visit (entryOffset index stride) := by
  unfold forEntries
  split
  next h =>
    have constant : List.replicate count (visit 0) = (List.range count).map fun _ => visit 0 := by
      rw [List.map_const', List.length_range]
    simp only [forEach, constant, List.foldr_map, id, h, entryOffset, UInt64.mul_zero]
  next => rfl

/-- Goes on with the value read, and stops where the read failed. -/
def reading {α : Type} (read : Except ViewError α) (next : α → Walk) : Walk :=
  match read with
  | .ok value => next value
  | .error _ => stop

end Walk

/-! ### From a shader to its containers -/

section Traversal

variable (layout : Layout) (view : View)

/-- The pointer in the field at `offset` of the structure at `address`. -/
def pointerField (address : Address) (offset : UInt64) : Except ViewError Address := do
  view.readPointer (← Address.advance address offset)

/-- The list length in the field at `offset` of the structure at `address`. -/
def lengthField (address : Address) (offset : UInt64) : Except ViewError Nat := do
  return listLength (← view.readI32 (← Address.advance address offset))

/-- The container of a blob. A container that does not open with the expected name
is taken all the same, as long as those four bytes can be read. -/
def walkBlob (blob : Address) : Walk :=
  if blob = 0 then .skip
  else
    .reading (view.readU8 blob) fun kind =>
      match layout.containerOffset? kind with
      | none => .skip
      | some offset =>
          .reading (Address.advance blob offset) fun container =>
            .reading (view.readFourCC container) fun _ => .emit container

/-- The containers of the sub-programs of a program. -/
def walkProgram (program : Address) : Walk :=
  if program = 0 then .skip
  else
    .reading (pointerField view program layout.programSubProgramList) fun list =>
      .reading (lengthField view program layout.programSubProgramCount) fun count =>
        .forEntries count layout.pointerSize fun offset =>
          .reading (pointerField view list offset) fun subProgram =>
            .reading (pointerField view subProgram layout.subProgramBlob) (walkBlob layout view)

/-- The containers of a sub-shader. The traversal stops at a sub-shader whose
marks are not as they should be. -/
def walkSubShader (subShader : Address) : Walk :=
  .reading (Address.advance subShader layout.subShaderMarkerWord >>= view.readI32) fun word =>
    if word ≠ 0 then .stop
    else
      .reading (Address.advance subShader layout.subShaderMarkerByte >>= view.readU8) fun octet =>
        if octet ≠ 0xFF then .stop
        else
          .reading (pointerField view subShader layout.subShaderPassList) fun list =>
            .reading (lengthField view subShader layout.subShaderPassCount) fun count =>
              .forEntries count layout.passListStride fun offset =>
                .reading (pointerField view list offset) fun pass =>
                  .reading (pointerField view pass layout.passProgram) (walkProgram layout view)

/-- The containers of a shader. -/
def walkShader (shader : Address) : Walk :=
  .reading (pointerField view shader layout.shaderInternal) fun internal =>
    .reading (pointerField view internal layout.internalSubShaderList) fun list =>
      .reading (lengthField view internal layout.internalSubShaderCount) fun count =>
        .forEntries count layout.pointerSize fun offset =>
          .reading (pointerField view list offset) (walkSubShader layout view)

/-- The addresses of all bytecode containers of a shader that can be reached, in
the order of sub-shaders, passes and sub-programs. -/
def containerAddresses (shader : Address) : List Address :=
  (walkShader layout view shader).found

end Traversal

/-! ### Semantics -/

section Semantics

variable (layout : ContainerLayout) (view : View)

/-- Whether an entry of a table, given by its offset, passes the check. The first
failure or the first hit decides. Where all entries lie at one place, this one is
checked only once. -/
def anyEntry (count : Nat) (stride : UInt64) (check : UInt64 → Except ViewError Bool) :
    Except ViewError Bool :=
  if stride = 0 then if count = 0 then .ok false else check 0
  else (List.range count).anyM fun index => check (Walk.entryOffset index stride)

/-- Whether the element at an offset of the signature whose data lies at `data` has the
name. -/
def elementHasName (data : Address) (name : Bytes) (offset : UInt64) : Except ViewError Bool := do
  let element ← Address.advance data (layout.signatureElements + offset)
  let nameAddress ← Address.shift data (← view.readI32 element).toInt64
  return (← view.readCString nameAddress layout.maxSemanticNameLength) == some name

/-- Whether the chunk whose entry lies at an offset of the table of chunks is an input
signature with the name. -/
def chunkHasName (container : Address) (name : Bytes) (offset : UInt64) :
    Except ViewError Bool := do
  let entry ← Address.advance container (layout.chunkOffsets + offset)
  let chunk ← Address.shift container (← view.readI32 entry).toInt64
  if (← view.readFourCC chunk) ≠ layout.inputSignatureTag then
    return false
  let data ← Address.advance chunk layout.chunkHeaderLength
  let count ← lengthField view data layout.signatureElementCount
  anyEntry count layout.signatureElementStride (elementHasName layout view data name)

/-- Bytes of an entry of the table of chunks. -/
def chunkEntryLength : UInt64 := 4

/-- Whether an input signature of the container at the address has the name. The
first failure or the first hit decides. -/
def containerHasSemantic (container : Address) (name : Bytes) : Except ViewError Bool := do
  let count ← lengthField view container layout.chunkCount
  anyEntry count chunkEntryLength (chunkHasName layout view container name)

end Semantics

/-- Whether a container of the shader has the name; the null shader has none, and a
container that cannot be read has none either. -/
def hasSemantic (layout : Layout) (view : View) (shader : Address) (name : Bytes) : Bool :=
  shader ≠ 0 && (containerAddresses layout view shader).any fun container =>
    match containerHasSemantic layout.container view container name with
    | .ok found => found
    | .error _ => false

theorem hasSemantic_eq_true_iff {layout : Layout} {view : View} {shader : Address} {name : Bytes} :
    hasSemantic layout view shader name = true ↔
      shader ≠ 0 ∧ ∃ container ∈ containerAddresses layout view shader,
        containerHasSemantic layout.container view container name = .ok true := by
  rw [hasSemantic, Bool.and_eq_true, decide_eq_true_eq, List.any_eq_true]
  refine and_congr_right fun _ => exists_congr fun container => and_congr_right fun _ => ?_
  split
  next found hfound => simp [hfound]
  next failure hfailure => simp [hfailure]

/-- Whether some program of the image has the name among its inputs. -/
def Image.hasSemantic (layout : Layout) (image : Image) (name : Bytes) : Bool :=
  Bytecode.hasSemantic layout image.view image.shader name

end ShaderMend.Bytecode
