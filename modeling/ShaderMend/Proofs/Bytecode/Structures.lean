import ShaderMend.Proofs.Bytecode.Arenas

/-!
# Structures in memory

Structures of the native runtime that own a list hold a pointer to its table, its length, and
maybe some marks. The programs, the sub-shaders and the internals of a shader are of this
kind.

* `Layout.WellFormed` — the fields of each structure do not run into each other.
* `Entries`, `ListAt`, `SubProgramAt`, `PassAt`, `FrameAt` — the structures of a shader are
  found in a memory, and lead to some spots for the containers of its blobs.
* `ShaderAt` — the containers are found there, too.
* `FrameAt.unique` — a memory that fits into the address space leads to no other spots.
-/

namespace ShaderMend.Bytecode

/-! ### Fields -/

/-- A field of a structure: its offset and its width. -/
abbrev Field := Nat × Nat

/-- Whether two fields have no octet in common. -/
abbrev Field.Apart (first second : Field) : Prop :=
  first.1 + first.2 ≤ second.1 ∨ second.1 + second.2 ≤ first.1

/-- Whether fields lie inside a structure of the given size and have no octet in common. -/
def Fits (size : Nat) (fields : List Field) : Prop :=
  fields.Pairwise Field.Apart ∧ ∀ field ∈ fields, field.1 + field.2 ≤ size

instance (size : Nat) (fields : List Field) : Decidable (Fits size fields) :=
  inferInstanceAs (Decidable (_ ∧ _))

/-- How a structure that owns a list is laid out. -/
structure ListShape where
  /-- What the structure holds besides its list, by offsets. -/
  marks : List Piece
  /-- The offset of the pointer to the table. -/
  list : Nat
  /-- The offset of the number of entries. -/
  count : Nat
  /-- The distance between two entries of the table. -/
  stride : Nat

namespace ListShape

/-- How much memory the structure takes. -/
def size (shape : ListShape) (pointerSize : Nat) : Nat :=
  max (shape.list + pointerSize) (shape.count + 4)

def fields (shape : ListShape) : List Field :=
  shape.marks.map (fun mark => (mark.1, mark.2.length)) ++ [(shape.list, 8), (shape.count, 4)]

end ListShape

/-- The usual container format with other names. -/
def ContainerLayout.usual (magic tag : FourCC) : ContainerLayout :=
  { ContainerLayout.dxbc with magic, inputSignatureTag := tag }

namespace Layout

variable (layout : Layout)

def internalShape : ListShape where
  marks := []
  list := layout.internalSubShaderList.toNat
  count := layout.internalSubShaderCount.toNat
  stride := layout.pointerSize.toNat

def subShaderShape : ListShape where
  marks := [(layout.subShaderMarkerWord.toNat, LittleEndian.encode 4 0),
    (layout.subShaderMarkerByte.toNat, [0xFF])]
  list := layout.subShaderPassList.toNat
  count := layout.subShaderPassCount.toNat
  stride := layout.passListStride.toNat

def programShape : ListShape where
  marks := []
  list := layout.programSubProgramList.toNat
  count := layout.programSubProgramCount.toNat
  stride := layout.pointerSize.toNat

/-- Whether an image can be written by the layout: entries of tables have room for a pointer,
fields of a structure do not run into each other, and containers have the usual format. -/
structure WellFormed : Prop where
  pointer : 8 ≤ layout.pointerSize.toNat
  stride : 8 ≤ layout.passListStride.toNat
  internal : Fits (layout.internalShape.size layout.pointerSize.toNat) layout.internalShape.fields
  subShader :
    Fits (layout.subShaderShape.size layout.pointerSize.toNat) layout.subShaderShape.fields
  program : Fits (layout.programShape.size layout.pointerSize.toNat) layout.programShape.fields
  /-- containers do not begin at the kind of their blob -/
  kindOne : 1 ≤ layout.blobContainerKindOne.toNat
  otherKind : 1 ≤ layout.blobContainerDefault.toNat
  container : ∃ magic tag, layout.container = .usual magic tag

theorem WellFormed.containerOffset_pos {layout : Layout} (h : layout.WellFormed) (blob : Blob) :
    1 ≤ blob.containerOffset layout := by
  have hone := h.kindOne
  have hother := h.otherKind
  unfold Blob.containerOffset containerOffset?
  split
  · exact hone
  · split
    · exact hother
    · exact hother

theorem wellFormed_revision2021_3 : revision2021_3.WellFormed := by
  constructor
  case container => exact ⟨_, _, rfl⟩
  all_goals decide

end Layout

/-! ### Structures at their places -/

/-- A blob and the place of its container. -/
structure Spot where
  place : Nat
  blob : Blob

namespace Spot

/-- The container of the blob, at its place. -/
def piece (layout : Layout) (spot : Spot) : Piece :=
  (spot.place, spot.blob.container layout)

/-- Whether a place lies inside of the container. -/
def Covers (layout : Layout) (spot : Spot) (i : Nat) : Prop :=
  spot.place ≤ i ∧ i < spot.place + (spot.blob.container layout).length

end Spot

theorem length_container_pos (layout : Layout) (blob : Blob) :
    0 < (blob.container layout).length := by
  rw [Blob.container, Container.length_encode]
  simp only [Container.headerLength]
  omega

/-- The pointer to a place. -/
def pointerBytes (base : Address) (target : Nat) : Bytes :=
  LittleEndian.encode 8 (base.toNat + target)

@[simp] theorem length_pointerBytes (base : Address) (target : Nat) :
    (pointerBytes base target).length = 8 :=
  LittleEndian.length_encode 8 _

section Structures

variable (layout : Layout) (base : Address)

/-- Whether a table has pointers to structures for the items. -/
inductive Entries {α : Type} (At : Bytes → Nat → α → List Spot → Prop) (stride : Nat)
    (memory : Bytes) : Nat → List α → List Spot → Prop where
  | nil {slot : Nat} : Entries At stride memory slot [] []
  | cons {slot target : Nat} {item : α} {items : List α} {first rest : List Spot}
      (pointer : Holds memory slot (pointerBytes base target))
      (entry : At memory target item first)
      (later : Entries At stride memory (slot + stride) items rest) :
      Entries At stride memory slot (item :: items) (first ++ rest)

/-- Whether a structure with a list of the items is found at the place. -/
inductive ListAt {α : Type} (shape : ListShape) (At : Bytes → Nat → α → List Spot → Prop)
    (memory : Bytes) (place : Nat) (items : List α) (spots : List Spot) : Prop where
  | mk {table : Nat}
      (marks : ∀ mark ∈ shape.marks, Holds memory (place + mark.1) mark.2)
      (list : Holds memory (place + shape.list) (pointerBytes base table))
      (count : Holds memory (place + shape.count) (LittleEndian.encode 4 items.length))
      (entries : Entries base At shape.stride memory table items spots) :
      ListAt shape At memory place items spots

/-- Whether a sub-program with the blob is found at the place; where the container of the blob
should be, there may be anything. -/
inductive SubProgramAt (memory : Bytes) (place : Nat) (blob : Blob) : List Spot → Prop where
  | mk {target : Nat}
      (pointer : Holds memory (place + layout.subProgramBlob.toNat) (pointerBytes base target))
      (kind : Holds memory target [blob.kind])
      (room : target + blob.containerOffset layout + (blob.container layout).length
        ≤ memory.length) :
      SubProgramAt memory place blob [⟨target + blob.containerOffset layout, blob⟩]

abbrev ProgramAt : Bytes → Nat → List Blob → List Spot → Prop :=
  ListAt base layout.programShape (SubProgramAt layout base)

/-- Whether a pass is found at the place. -/
inductive PassAt (memory : Bytes) (place : Nat) : Pass → List Spot → Prop where
  | null (pointer : Holds memory (place + layout.passProgram.toNat) (List.replicate 8 0)) :
      PassAt memory place none []
  | program {blobs : List Blob} {target : Nat} {spots : List Spot}
      (pointer : Holds memory (place + layout.passProgram.toNat) (pointerBytes base target))
      (program : ProgramAt layout base memory target blobs spots) :
      PassAt memory place (some blobs) spots

abbrev SubShaderAt : Bytes → Nat → SubShader → List Spot → Prop :=
  ListAt base layout.subShaderShape (PassAt layout base)

/-- Whether the structures of a shader are found at the place, and lead to the spots. -/
inductive FrameAt (memory : Bytes) (place : Nat) (subShaders : List SubShader)
    (spots : List Spot) : Prop where
  | mk {target : Nat}
      (pointer : Holds memory (place + layout.shaderInternal.toNat) (pointerBytes base target))
      (internal : ListAt base layout.internalShape (SubShaderAt layout base) memory target
        subShaders spots) :
      FrameAt memory place subShaders spots

/-- Whether a shader is found at the place, with the containers of its blobs at the spots. -/
structure ShaderAt (memory : Bytes) (place : Nat) (subShaders : List SubShader)
    (spots : List Spot) : Prop where
  frame : FrameAt layout base memory place subShaders spots
  holds_container : ∀ spot ∈ spots, Holds memory spot.place (spot.blob.container layout)

end Structures

/-! ### Blobs at their spots -/

section Blobs

variable {layout : Layout} {base : Address} {memory : Bytes} {place : Nat} {spots : List Spot}

/-- The blobs of a shader, in their order. -/
def blobsOf (subShaders : List SubShader) : List Blob :=
  subShaders.flatMap fun passes => passes.flatMap fun pass => pass.getD []

theorem Entries.blobs {α : Type} {At : Bytes → Nat → α → List Spot → Prop}
    {blobs : α → List Blob} {stride slot : Nat} {items : List α}
    (hitem : ∀ place item spots, At memory place item spots →
      spots.map Spot.blob = blobs item)
    (h : Entries base At stride memory slot items spots) :
    spots.map Spot.blob = items.flatMap blobs := by
  induction h with
  | nil => rfl
  | cons _ entry _ ih =>
      rw [List.map_append, ih, hitem _ _ _ entry]
      rfl

theorem SubProgramAt.blobs {blob : Blob} (h : SubProgramAt layout base memory place blob spots) :
    spots.map Spot.blob = [blob] := by
  cases h
  rfl

theorem PassAt.blobs {pass : Pass} (h : PassAt layout base memory place pass spots) :
    spots.map Spot.blob = pass.getD [] := by
  cases h with
  | null => rfl
  | program _ program =>
      obtain ⟨-, -, -, entries⟩ := program
      have hblobs : spots.map Spot.blob = _ := entries.blobs fun _ _ _ => SubProgramAt.blobs
      simpa using hblobs

/-- **Each blob of a shader has its spot**, in the order of the blobs. -/
theorem FrameAt.blobs {subShaders : List SubShader}
    (h : FrameAt layout base memory place subShaders spots) :
    spots.map Spot.blob = blobsOf subShaders := by
  obtain ⟨-, -, -, -, entries⟩ := h
  refine entries.blobs fun _ passes _ hpasses => ?_
  obtain ⟨-, -, -, entries⟩ := hpasses
  exact entries.blobs fun _ _ _ => PassAt.blobs

theorem ShaderAt.blobs {subShaders : List SubShader}
    (h : ShaderAt layout base memory place subShaders spots) :
    spots.map Spot.blob = blobsOf subShaders :=
  h.frame.blobs

end Blobs

/-! ### The memory determines the spots -/

section Determined

variable {layout : Layout} {base : Address} {memory : Bytes}

/-- Whether structures lie inside of the memory and lead to the same spots however they are
found. -/
def Determined {α : Type} (memory : Bytes) (At : Bytes → Nat → α → List Spot → Prop) : Prop :=
  ∀ place item spots, At memory place item spots →
    place ≤ memory.length ∧ ∀ spots', At memory place item spots' → spots' = spots

theorem Entries.slot_le {α : Type} {At : Bytes → Nat → α → List Spot → Prop}
    {stride slot : Nat} {item : α} {items : List α} {spots : List Spot}
    (h : Entries base At stride memory slot (item :: items) spots) : slot ≤ memory.length := by
  obtain _ | ⟨pointer, -, -⟩ := h
  have hle := pointer.le_length (by simp)
  omega

section Room

variable (hroom : base.toNat + memory.length < 2 ^ 64)

include hroom

theorem pointerBytes_inj {target target' : Nat} (h : target ≤ memory.length)
    (h' : target' ≤ memory.length) (heq : pointerBytes base target = pointerBytes base target') :
    target = target' := by
  have hbound : LittleEndian.bound 8 = 2 ^ 64 := rfl
  have hdecode := congrArg LittleEndian.decode heq
  rw [pointerBytes, pointerBytes, LittleEndian.decode_encode (by omega),
    LittleEndian.decode_encode (by omega)] at hdecode
  omega

/-- A pointer of the memory into the memory leads to one place. -/
theorem target_unique {place target target' : Nat}
    (h : Holds memory place (pointerBytes base target))
    (h' : Holds memory place (pointerBytes base target')) (hle : target ≤ memory.length)
    (hle' : target' ≤ memory.length) : target' = target := by
  have heq := h'.unique h (by simp)
  exact pointerBytes_inj hroom hle' hle heq

/-- A pointer leads to the same spots however its target is found. -/
theorem Determined.entered {α : Type} {At : Bytes → Nat → α → List Spot → Prop}
    (h : Determined memory At) {place target target' : Nat} {item : α} {spots spots' : List Spot}
    (pointer : Holds memory place (pointerBytes base target)) (entry : At memory target item spots)
    (pointer' : Holds memory place (pointerBytes base target'))
    (entry' : At memory target' item spots') : spots' = spots := by
  obtain ⟨hle, hunique⟩ := h _ _ _ entry
  obtain ⟨hle', -⟩ := h _ _ _ entry'
  obtain rfl := target_unique hroom pointer pointer' hle hle'
  exact hunique _ entry'

theorem Entries.unique {α : Type} {At : Bytes → Nat → α → List Spot → Prop}
    (hAt : Determined memory At) {stride slot : Nat} {items : List α} {spots spots' : List Spot}
    (h : Entries base At stride memory slot items spots)
    (h' : Entries base At stride memory slot items spots') : spots' = spots := by
  induction h generalizing spots' with
  | nil =>
      cases h'
      rfl
  | cons pointer entry _ ih =>
      obtain _ | ⟨pointer', entry', later'⟩ := h'
      rw [hAt.entered hroom pointer entry pointer' entry', ih later']

theorem Determined.listAt {α : Type} {At : Bytes → Nat → α → List Spot → Prop}
    (hAt : Determined memory At) (shape : ListShape) :
    Determined memory (ListAt base shape At) := by
  rintro place items spots ⟨-, list, count, entries⟩
  have hle := count.le_length (by simp)
  refine ⟨by omega, ?_⟩
  rintro spots' ⟨-, list', -, entries'⟩
  cases items with
  | nil =>
      cases entries
      cases entries'
      rfl
  | cons item items =>
      -- an entry of the table shows that the table lies inside of the memory
      obtain rfl := target_unique hroom list list' entries.slot_le entries'.slot_le
      exact entries.unique hroom hAt entries'

theorem SubProgramAt.determined : Determined memory (SubProgramAt layout base) := by
  rintro place blob spots ⟨pointer, kind, -⟩
  have hpointer := pointer.le_length (by simp)
  have hkind := kind.le_length Nat.one_pos
  refine ⟨by omega, ?_⟩
  rintro spots' ⟨pointer', kind', -⟩
  have hkind' := kind'.le_length Nat.one_pos
  obtain rfl := target_unique hroom pointer pointer' (by omega) (by omega)
  rfl

theorem ProgramAt.determined : Determined memory (ProgramAt layout base) :=
  (SubProgramAt.determined hroom).listAt hroom layout.programShape

theorem PassAt.determined : Determined memory (PassAt layout base) := by
  intro place pass spots h
  cases h with
  | null pointer =>
      have hle := pointer.le_length (by simp)
      refine ⟨by omega, fun spots' h' => ?_⟩
      cases h'
      rfl
  | program pointer program =>
      have hle := pointer.le_length (by simp)
      refine ⟨by omega, fun spots' h' => ?_⟩
      obtain _ | ⟨pointer', program'⟩ := h'
      exact (ProgramAt.determined hroom).entered hroom pointer program pointer' program'

theorem SubShaderAt.determined : Determined memory (SubShaderAt layout base) :=
  (PassAt.determined hroom).listAt hroom layout.subShaderShape

/-- **A shader leads to its spots in one way only.** -/
theorem FrameAt.unique {place : Nat} {subShaders : List SubShader} {spots spots' : List Spot}
    (h : FrameAt layout base memory place subShaders spots)
    (h' : FrameAt layout base memory place subShaders spots') : spots' = spots := by
  obtain ⟨pointer, internal⟩ := h
  obtain ⟨pointer', internal'⟩ := h'
  have hsubShader : Determined memory (SubShaderAt layout base) := SubShaderAt.determined hroom
  exact (hsubShader.listAt hroom layout.internalShape).entered hroom pointer internal pointer'
    internal'

end Room

end Determined

end ShaderMend.Bytecode
