import ShaderMend.Proofs.Bytecode.Inspecting

/-!
# Containers are spoilt

The traversal of a shader passes through the structures that lead to the containers, and looks
at no container but for its first bytes, which may be any. So whatever happens inside of some
containers, all containers are met, and those that are intact are searched as before: a container
that cannot be read ends the search in this container only.

* `Spoils` — one image came from another by overwriting bytes inside of some containers.
* `inspection_of_spoils` — what the inspection finds in such an image.
-/

namespace ShaderMend.Bytecode

/-- Whether an image came from another by overwriting bytes that lie inside of the containers at
some spots. -/
structure Spoils (layout : Layout) (chosen : List Spot) (image spoilt : Image) : Prop where
  shader : spoilt.shader = image.shader
  base : spoilt.view.base = image.view.base
  length : spoilt.view.bytes.length = image.view.bytes.length
  same : ∀ i, (∀ spot ∈ chosen, ¬ spot.Covers layout i) →
    spoilt.view.bytes[i]? = image.view.bytes[i]?

/-- Data that are written inside of a container spoil nothing else. -/
theorem spoils_overwrite {layout : Layout} {chosen : List Spot} {image : Image} {spot : Spot}
    (hspot : spot ∈ chosen) {offset : Nat} {data : Bytes} (hlower : spot.place ≤ offset)
    (hupper : offset + data.length ≤ spot.place + (spot.blob.container layout).length)
    (hinside : offset + data.length ≤ image.view.bytes.length) :
    Spoils layout chosen image (image.overwrite offset data) where
  shader := rfl
  base := rfl
  length := Arena.length_put hinside
  same i hclear := by
    have hspared : ¬ spot.Covers layout i := hclear spot hspot
    unfold Spot.Covers at hspared
    exact Arena.getElem?_put_of_apart hinside (by omega)

/-- No two containers have a place in common. -/
theorem Stands.apart_of_ne {layout : Layout} {base : Address} {image : Bytes}
    {subShaders : List SubShader} {spots : List Spot}
    (h : Stands layout base image subShaders spots) {spot other : Spot} (hspot : spot ∈ spots)
    (hother : other ∈ spots) (hne : spot ≠ other) :
    (spot.piece layout).Apart (other.piece layout) := by
  have : Std.Symm fun first second : Spot => (first.piece layout).Apart (second.piece layout) :=
    ⟨fun _ _ => Or.symm⟩
  exact h.apart.forall hspot hother hne

section Spoiling

variable {layout : Layout} {base : Address} {subShaders : List SubShader}
  {spots chosen : List Spot} {image spoilt : Image}
  (h : Stands layout base image.view.bytes subShaders spots) (hchosen : chosen ⊆ spots)
  (hspoils : Spoils layout chosen image spoilt)

include h hchosen hspoils

/-- The structures of a shader stay where its containers are spoilt. -/
theorem Stands.frameAt_of_spoils : FrameAt layout base spoilt.view.bytes 0 subShaders spots := by
  refine h.frame _ hspoils.length.ge fun i hclear => ?_
  exact hspoils.same i fun spot hspot => hclear spot (hchosen hspot)

/-- The container at a spot that was not chosen is intact. -/
theorem Stands.holds_of_spoils {spot : Spot} (hspot : spot ∈ spots) (hintact : spot ∉ chosen) :
    Holds spoilt.view.bytes spot.place (spot.blob.container layout) := by
  intro i hi
  rw [hspoils.same (spot.place + i), h.holds spot hspot i hi]
  rintro other hother ⟨hlower, hupper⟩
  have hne : spot ≠ other := fun heq => hintact (heq ▸ hother)
  have hapart := h.apart_of_ne hspot (hchosen hother) hne
  simp only [Piece.Apart, Spot.piece] at hapart
  omega

end Spoiling

/-- The traversal of a shader at the first place follows its structures, whatever its containers
hold. -/
theorem Believable.containerAddresses {layout : Layout} {base : Address} {memory : Bytes}
    {subShaders : List SubShader} {spots : List Spot} (hsmall : Believable layout subShaders)
    (hbase : base ≠ 0) (hroom : base.toNat + memory.length < 2 ^ 64)
    (h : FrameAt layout base memory 0 subShaders spots) :
    containerAddresses layout (View.ofBytes base memory) base = addressesOf layout base spots := by
  have hstart : addressOf base 0 = base := by simp [addressOf]
  have haddresses := containerAddresses_of_frameAt hroom hbase hsmall.list hsmall.passes
    hsmall.blobs h
  rwa [hstart] at haddresses

/-- **What happens inside of containers stays inside of them.** The structures of a written image
lead to one spot for each blob, where its container is found. Whatever bytes are overwritten
inside of the containers at chosen spots, the traversal meets the same containers as before, and
each semantic is still found that is listed by a blob at another spot, if this blob is of a kind
that is understood. -/
theorem inspection_of_spoils {layout : Layout} {base : Address} {subShaders : List SubShader}
    (hlayout : layout.WellFormed) (hbase : base ≠ 0) (hsmall : Believable layout subShaders)
    (hroom : base.toNat + (Image.build layout base subShaders).view.extent < 2 ^ 64) :
    ∃ spots,
      (∀ spots', ShaderAt layout base (Image.build layout base subShaders).view.bytes 0 subShaders
        spots' ↔ spots' = spots) ∧
      spots.map Spot.blob = blobsOf subShaders ∧
      ∀ chosen, chosen ⊆ spots → ∀ spoilt,
        Spoils layout chosen (Image.build layout base subShaders) spoilt →
          containerAddresses layout spoilt.view spoilt.shader
            = containerAddresses layout (Image.build layout base subShaders).view
                (Image.build layout base subShaders).shader ∧
          ∀ spot ∈ spots, spot ∉ chosen →
            (spot.blob.kind = 1 ∨ spot.blob.kind ≤ layout.blobMaxKind) →
              ∀ name ∈ spot.blob.semantics, 0 ∉ name → name.length ≤ 255 →
                spoilt.hasSemantic layout name = true := by
  rw [View.extent_eq_length] at hroom
  obtain ⟨spots, hstands⟩ := stands_putShader hlayout base subShaders
  have hframe := hstands.frame _ le_rfl fun _ _ => rfl
  have hblobs := hframe.blobs
  refine ⟨spots, fun spots' => ⟨fun hshader => hframe.unique hroom hshader.frame, ?_⟩, hblobs, ?_⟩
  · rintro rfl
    exact ⟨hframe, hstands.holds⟩
  intro chosen hchosen spoilt hspoils
  have hview : View.ofBytes base spoilt.view.bytes = spoilt.view := by
    rw [show base = spoilt.view.base from hspoils.base.symm]
    rfl
  have hshader : spoilt.shader = base := hspoils.shader
  have hroom' : base.toNat + spoilt.view.bytes.length < 2 ^ 64 := by rwa [hspoils.length]
  have haddresses := hsmall.containerAddresses hbase hroom'
    (hstands.frameAt_of_spoils hchosen hspoils)
  constructor
  · rw [hshader, ← hview, haddresses]
    exact (hsmall.containerAddresses hbase hroom hframe).symm
  · intro spot hspot hintact hknown name hlisted hzero hshort
    have hmem : spot.blob ∈ blobsOf subShaders := hblobs ▸ List.mem_map_of_mem hspot
    have hholds := hstands.holds_of_spoils hchosen hspoils hspot hintact
    rw [Image.hasSemantic, hshader, ← hview]
    exact hasSemantic_of_spot hroom' hlayout hbase haddresses hspot hknown hholds
      (hsmall.semantics _ hmem) (hsmall.containers _ hmem) hlisted (spells_self hzero hshort)

/-- A shader with two blobs of different kinds. -/
def twinSubShaders : List SubShader :=
  [[some [⟨1, ⟨0⟩, [[65]]⟩, ⟨2, ⟨0⟩, [[66]]⟩]]]

/-- The second blob is found after the container of the first has been overwritten. -/
theorem inspection_of_twin :
    Layout.revision2021_3.WellFormed ∧ Image.defaultBase ≠ 0 ∧
      Believable .revision2021_3 twinSubShaders ∧
      Image.defaultBase.toNat
        + (Image.build .revision2021_3 Image.defaultBase twinSubShaders).view.extent < 2 ^ 64 ∧
      ∃ place,
        Holds (Image.build .revision2021_3 Image.defaultBase twinSubShaders).view.bytes place
          (Blob.container .revision2021_3 ⟨1, ⟨0⟩, [[65]]⟩) ∧
        ((Image.build .revision2021_3 Image.defaultBase twinSubShaders).overwrite place
          (List.replicate 106 0xFF)).hasSemantic .revision2021_3 [66] = true := by
  have hbase : Image.defaultBase ≠ 0 := by decide
  have hsmall : Believable .revision2021_3 twinSubShaders := by
    constructor
    all_goals decide +kernel
  have hroom : Image.defaultBase.toNat
      + (Image.build .revision2021_3 Image.defaultBase twinSubShaders).view.extent < 2 ^ 64 := by
    decide +kernel
  refine ⟨Layout.wellFormed_revision2021_3, hbase, hsmall, hroom, ?_⟩
  obtain ⟨spots, hspots, hblobs, hspoils⟩ :=
    inspection_of_spoils Layout.wellFormed_revision2021_3 hbase hsmall hroom
  have hblobs' : spots.map Spot.blob = [⟨1, ⟨0⟩, [[65]]⟩, ⟨2, ⟨0⟩, [[66]]⟩] := hblobs
  obtain ⟨first, second, rfl, hfirst, hsecond⟩ :
      ∃ first second, spots = [first, second] ∧ first.blob = ⟨1, ⟨0⟩, [[65]]⟩ ∧
        second.blob = ⟨2, ⟨0⟩, [[66]]⟩ := by
    obtain ⟨first, rest, rfl, hfirst, hrest⟩ := List.map_eq_cons_iff.mp hblobs'
    obtain ⟨second, rest, rfl, hsecond, hrest⟩ := List.map_eq_cons_iff.mp hrest
    obtain rfl := List.map_eq_nil_iff.mp hrest
    exact ⟨first, second, rfl, hfirst, hsecond⟩
  have hholds := ((hspots _).mpr rfl).holds_container first List.mem_cons_self
  have hlength : (Blob.container .revision2021_3 ⟨1, ⟨0⟩, [[65]]⟩).length = 106 := by decide +kernel
  rw [hfirst] at hholds
  have hinside := hholds.le_length (by rw [hlength]; decide)
  rw [hlength] at hinside
  have hoverwrite : Spoils .revision2021_3 [first]
      (Image.build .revision2021_3 Image.defaultBase twinSubShaders)
      ((Image.build .revision2021_3 Image.defaultBase twinSubShaders).overwrite first.place
        (List.replicate 106 0xFF)) := by
    refine spoils_overwrite List.mem_cons_self le_rfl ?_ (by rwa [List.length_replicate])
    rw [hfirst, hlength, List.length_replicate]
  obtain ⟨-, hfound⟩ := hspoils [first] (by simp) _ hoverwrite
  have hne : second ∉ [first] := by
    rw [List.mem_singleton]
    rintro rfl
    rw [hfirst] at hsecond
    cases hsecond
  refine ⟨first.place, hholds, hfound second (by simp) hne ?_ [66] ?_ (by decide) (by decide)⟩
  · rw [hsecond]
    decide
  · rw [hsecond]
    decide

end ShaderMend.Bytecode
