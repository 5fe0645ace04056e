import ShaderMend.Proofs.Bytecode.Signatures
import ShaderMend.Proofs.Bytecode.Walking
import ShaderMend.Proofs.Bytecode.Writing

/-!
# Images are read as they were written

* `inspection_of_build` — the inspection of a written image finds the container of each blob
  of a kind that is understood, and those semantics that these blobs list.
-/

namespace ShaderMend.Bytecode

/-- Whether all lists of an image are short enough to be believed, and its containers short
enough for the offsets inside of them. -/
structure Believable (layout : Layout) (subShaders : List SubShader) : Prop where
  list : subShaders.length ≤ maxListLength
  passes : ∀ passes ∈ subShaders, passes.length ≤ maxListLength
  blobs : ∀ passes ∈ subShaders, ∀ pass ∈ passes, ∀ blobs, pass = some blobs →
    blobs.length ≤ maxListLength
  semantics : ∀ blob ∈ blobsOf subShaders, blob.semantics.length ≤ maxListLength
  containers : ∀ blob ∈ blobsOf subShaders, (blob.container layout).length < 2147483648

section Inspecting

variable {layout : Layout} {base : Address} {memory : Bytes}
  (hroom : base.toNat + memory.length < 2 ^ 64)

theorem mem_addressesOf {spots : List Spot} {address : Address} :
    address ∈ addressesOf layout base spots ↔
      ∃ spot ∈ spots, layout.Understands spot.blob.kind ∧ addressOf base spot.place = address := by
  simp [addressesOf, and_assoc]

include hroom

/-- The containers that are met are those of the blobs that are understood. -/
theorem forall₂_addressesOf {spots : List Spot}
    (hholds : ∀ spot ∈ spots, Holds memory spot.place (spot.blob.container layout))
    (hlimit : ∀ spot ∈ spots, (spot.blob.container layout).length < 2147483648) :
    List.Forall₂ (fun address blob =>
        (View.ofBytes base memory).slice address (.ofNat (blob.container layout).length)
          = .ok (blob.container layout))
      (addressesOf layout base spots)
      ((spots.map Spot.blob).filter fun blob => layout.Understands blob.kind) := by
  induction spots with
  | nil => exact .nil
  | cons spot spots ih =>
      have hrest := ih (fun other hother => hholds other (List.mem_cons_of_mem _ hother))
        fun other hother => hlimit other (List.mem_cons_of_mem _ hother)
      by_cases hknown : layout.Understands spot.blob.kind
      · have hsmall := hlimit spot List.mem_cons_self
        have hslice := slice_of_holds hroom (hholds spot List.mem_cons_self)
          (length_container_pos layout spot.blob)
          (UInt64.toNat_ofNat_of_lt' (hsmall.trans (by decide)))
        simpa [addressesOf, hknown] using And.intro hslice hrest
      · simpa [addressesOf, hknown] using hrest

/-- A semantic that a blob lists is found if the container of the blob is intact, whatever the
other containers hold. -/
theorem hasSemantic_of_spot (hlayout : layout.WellFormed) (hbase : base ≠ 0) {spots : List Spot}
    (haddresses : containerAddresses layout (View.ofBytes base memory) base
      = addressesOf layout base spots) {spot : Spot} (hspot : spot ∈ spots)
    (hknown : layout.Understands spot.blob.kind)
    (hholds : Holds memory spot.place (spot.blob.container layout))
    (hsemantics : spot.blob.semantics.length ≤ maxListLength)
    (hlimit : (spot.blob.container layout).length < 2147483648) {listed name : Bytes}
    (hlisted : listed ∈ spot.blob.semantics) (hspells : Spells listed name) :
    hasSemantic layout (View.ofBytes base memory) base name = true := by
  refine hasSemantic_eq_true_iff.mpr ⟨hbase, addressOf base spot.place, ?_, ?_⟩
  · rw [haddresses]
    exact mem_addressesOf.mpr ⟨spot, hspot, hknown, rfl⟩
  · rw [containerHasSemantic_blob hroom hlayout hholds hsemantics hlimit name]
    refine congrArg _ (List.any_eq_true.mpr ⟨listed, hlisted, ?_⟩)
    simpa using hspells

/-- The semantics that are found are those that the blobs list. -/
theorem hasSemantic_iff (hlayout : layout.WellFormed) (hbase : base ≠ 0) {spots : List Spot}
    (haddresses : containerAddresses layout (View.ofBytes base memory) base
      = addressesOf layout base spots)
    (hholds : ∀ spot ∈ spots, Holds memory spot.place (spot.blob.container layout))
    (hsemantics : ∀ spot ∈ spots, spot.blob.semantics.length ≤ maxListLength)
    (hlimit : ∀ spot ∈ spots, (spot.blob.container layout).length < 2147483648) (name : Bytes) :
    hasSemantic layout (View.ofBytes base memory) base name = true ↔
      ∃ blob ∈ spots.map Spot.blob, layout.Understands blob.kind ∧
        ∃ listed ∈ blob.semantics, Spells listed name := by
  have hhas : ∀ spot ∈ spots, containerHasSemantic layout.container (View.ofBytes base memory)
      (addressOf base spot.place) name = .ok (spot.blob.semantics.any (Spells · name)) := by
    intro spot hspot
    exact containerHasSemantic_blob hroom hlayout (hholds spot hspot) (hsemantics spot hspot)
      (hlimit spot hspot) name
  constructor
  · intro hfound
    obtain ⟨-, address, haddress, hfound⟩ := hasSemantic_eq_true_iff.mp hfound
    rw [haddresses] at haddress
    obtain ⟨spot, hspot, hknown, rfl⟩ := mem_addressesOf.mp haddress
    rw [hhas spot hspot] at hfound
    obtain ⟨listed, hlisted, hspells⟩ := List.any_eq_true.mp (Except.ok.inj hfound)
    exact ⟨spot.blob, List.mem_map_of_mem hspot, hknown, listed, hlisted, by simpa using hspells⟩
  · rintro ⟨blob, hblob, hknown, listed, hlisted, hspells⟩
    obtain ⟨spot, hspot, rfl⟩ := List.mem_map.mp hblob
    exact hasSemantic_of_spot hroom hlayout hbase haddresses hspot hknown (hholds spot hspot)
      (hsemantics spot hspot) (hlimit spot hspot) hlisted hspells

end Inspecting

/-- **The inspection of an image undoes its writing.** The traversal meets the containers of
those blobs that the layout understands, in their order, and the memory holds each container
at its address. A semantic is found if one of these blobs lists a name that spells it. -/
theorem inspection_of_build {layout : Layout} {base : Address} {subShaders : List SubShader}
    (hlayout : layout.WellFormed) (hbase : base ≠ 0) (hsmall : Believable layout subShaders)
    (hroom : base.toNat + (Image.build layout base subShaders).view.extent < 2 ^ 64) :
    List.Forall₂ (fun address blob =>
        (Image.build layout base subShaders).view.slice address
            (.ofNat (blob.container layout).length)
          = .ok (blob.container layout))
      (containerAddresses layout (Image.build layout base subShaders).view
        (Image.build layout base subShaders).shader)
      ((blobsOf subShaders).filter fun blob => blob.kind = 1 ∨ blob.kind ≤ layout.blobMaxKind) ∧
    ∀ name, (Image.build layout base subShaders).hasSemantic layout name = true ↔
      ∃ blob ∈ blobsOf subShaders, (blob.kind = 1 ∨ blob.kind ≤ layout.blobMaxKind) ∧
        ∃ listed ∈ blob.semantics,
          listed.takeWhile (· ≠ 0) = name ∧ name.length ≤ 255 := by
  rw [View.extent_eq_length] at hroom
  obtain ⟨spots, hshader⟩ := shaderAt_putShader hlayout base subShaders
  have hblobs := hshader.blobs
  have hholds := hshader.holds_container
  have hmem : ∀ spot ∈ spots, spot.blob ∈ blobsOf subShaders := by
    intro spot hspot
    rw [← hblobs]
    exact List.mem_map_of_mem hspot
  have hlimit : ∀ spot ∈ spots, (spot.blob.container layout).length < 2147483648 :=
    fun spot hspot => hsmall.containers _ (hmem spot hspot)
  have hstart : addressOf base 0 = base := by simp [addressOf]
  have haddresses := containerAddresses_of_shaderAt hroom hbase hsmall.list hsmall.passes
    hsmall.blobs hshader
  rw [hstart] at haddresses
  have hcontainers := forall₂_addressesOf hroom hholds hlimit
  have hsemantics := hasSemantic_iff hroom hlayout hbase haddresses hholds
    (fun spot hspot => hsmall.semantics _ (hmem spot hspot)) hlimit
  rw [hblobs] at hcontainers
  simp only [hblobs] at hsemantics
  constructor
  · exact haddresses ▸ hcontainers
  · exact hsemantics

/-- A shader with an empty pass and a pass with one blob. -/
def sampleSubShaders : List SubShader :=
  [[none, some [⟨1, ⟨0⟩, [[65], [66, 0, 67]]⟩]]]

theorem inspection_of_sample :
    Layout.revision2021_3.WellFormed ∧ Image.defaultBase ≠ 0 ∧
      Believable .revision2021_3 sampleSubShaders ∧
      Image.defaultBase.toNat
        + (Image.build .revision2021_3 Image.defaultBase sampleSubShaders).view.extent < 2 ^ 64 ∧
      (Image.build .revision2021_3 Image.defaultBase sampleSubShaders).hasSemantic
        .revision2021_3 [66] = true := by
  have hbase : Image.defaultBase ≠ 0 := by decide
  have hsmall : Believable .revision2021_3 sampleSubShaders := by
    constructor
    all_goals decide +kernel
  have hroom : Image.defaultBase.toNat
      + (Image.build .revision2021_3 Image.defaultBase sampleSubShaders).view.extent < 2 ^ 64 := by
    decide +kernel
  refine ⟨Layout.wellFormed_revision2021_3, hbase, hsmall, hroom, ?_⟩
  have hinspection := inspection_of_build Layout.wellFormed_revision2021_3 hbase hsmall hroom
  refine (hinspection.2 [66]).mpr ⟨⟨1, ⟨0⟩, [[65], [66, 0, 67]]⟩, ?_⟩
  decide +kernel

end ShaderMend.Bytecode
