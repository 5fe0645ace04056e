import ShaderMend.Bytecode.Inspection
import ShaderMend.Proofs.Memory.Strings
import ShaderMend.Proofs.Results

/-!
# Inspecting a part of the memory

A view may show only a part of what another shows. A read may fail in the part, and a string may
lose its end; nothing that is read in the part is read otherwise in the whole.

* `walkShader_cut` — the traversal of the part is the traversal of the whole, cut off where a
  read fails.
* `refines_containerHasSemantic` — a container that can be searched in the part can be searched
  in the whole, and what is found there is found here.
* `prefix_of_partOf` — so the part never shows more than the whole.
-/

namespace ShaderMend.Bytecode

/-! ### Traversals cut off -/

namespace Walk

/-- Whether a traversal is another one that was cut off somewhere, or not at all. -/
structure Cut (less more : Walk) : Prop where
  found : less.found <+: more.found
  finished : less.finished = true → less = more

theorem Cut.refl (walk : Walk) : walk.Cut walk :=
  ⟨List.prefix_rfl, fun _ => rfl⟩

theorem cut_stop (walk : Walk) : stop.Cut walk :=
  ⟨List.nil_prefix, nofun⟩

theorem cut_reading {α : Type} {read read' : Except ViewError α} {next next' : α → Walk}
    (hread : Refines Eq read read') (hnext : ∀ value, (next value).Cut (next' value)) :
    (reading read next).Cut (reading read' next') := by
  cases read with
  | error failure => exact cut_stop _
  | ok value =>
      obtain ⟨same, hsame, rfl⟩ := hread value rfl
      rw [hsame]
      exact hnext value

theorem Cut.append {less less' more more' : Walk} (h : less.Cut more) (h' : less'.Cut more') :
    (less.append less').Cut (more.append more') := by
  unfold Walk.append
  by_cases hless : less.finished = true
  · obtain rfl := h.finished hless
    rw [if_pos hless, if_pos hless]
    refine ⟨(List.prefix_append_right_inj _).mpr h'.found, fun hfinished => ?_⟩
    rw [h'.finished hfinished]
  · rw [if_neg hless]
    refine ⟨?_, fun hfinished => absurd hfinished hless⟩
    split
    · exact List.prefix_append_of_prefix h.found
    · exact h.found

theorem cut_forEach {α : Type} {visit visit' : α → Walk}
    (h : ∀ item, (visit item).Cut (visit' item)) (items : List α) :
    (forEach items visit).Cut (forEach items visit') := by
  induction items with
  | nil => exact Cut.refl skip
  | cons item items ih => exact (h item).append ih

theorem cut_forEntries {visit visit' : UInt64 → Walk}
    (h : ∀ offset, (visit offset).Cut (visit' offset)) (length : Nat) (stride : UInt64) :
    (forEntries length stride visit).Cut (forEntries length stride visit') := by
  rw [forEntries_eq_forEach, forEntries_eq_forEach]
  exact cut_forEach (fun index => h (entryOffset index stride)) (List.range length)

end Walk

section Parts

variable {part whole : View} (h : part.PartOf whole) (hextent : whole.extent < 2 ^ 64)

include h hextent

/-! ### Reads -/

theorem refines_slice (address : Address) (len : UInt64) :
    Refines Eq (part.slice address len) (whole.slice address len) :=
  .of_ok fun _ => View.slice_of_partOf h hextent

theorem refines_readI32 (address : Address) :
    Refines Eq (part.readI32 address) (whole.readI32 address) :=
  ((refines_slice h hextent address 4).map _).map _

theorem refines_pointerField (address : Address) (offset : UInt64) :
    Refines Eq (pointerField part address offset) (pointerField whole address offset) :=
  (Refines.refl _).bind_eq fun place => (refines_slice h hextent place 8).map _

theorem refines_lengthField (address : Address) (offset : UInt64) :
    Refines Eq (lengthField part address offset) (lengthField whole address offset) :=
  (Refines.refl _).bind_eq fun place =>
    (refines_readI32 h hextent place).bind_eq fun _ => Refines.refl _

/-! ### From a shader to its containers -/

section Traversal

open Walk

variable (layout : Layout)

theorem walkBlob_cut (blob : Address) :
    (walkBlob layout part blob).Cut (walkBlob layout whole blob) := by
  unfold walkBlob
  split
  · exact Cut.refl skip
  · refine cut_reading ((refines_slice h hextent blob 1).map _) fun kind => ?_
    cases layout.containerOffset? kind with
    | none => exact Cut.refl skip
    | some offset =>
        refine cut_reading (Refines.refl _) fun container => ?_
        exact cut_reading ((refines_slice h hextent container 4).map _) fun _ => Cut.refl _

theorem walkProgram_cut (program : Address) :
    (walkProgram layout part program).Cut (walkProgram layout whole program) := by
  unfold walkProgram
  split
  · exact Cut.refl skip
  · refine cut_reading (refines_pointerField h hextent _ _) fun list => ?_
    refine cut_reading (refines_lengthField h hextent _ _) fun length => ?_
    refine cut_forEntries (fun offset => ?_) length _
    refine cut_reading (refines_pointerField h hextent _ _) fun subProgram => ?_
    exact cut_reading (refines_pointerField h hextent _ _) (walkBlob_cut h hextent layout)

theorem walkSubShader_cut (subShader : Address) :
    (walkSubShader layout part subShader).Cut (walkSubShader layout whole subShader) := by
  unfold walkSubShader
  refine cut_reading ((Refines.refl _).bind_eq (refines_readI32 h hextent)) fun word => ?_
  split
  · exact cut_stop _
  · refine cut_reading ((Refines.refl _).bind_eq fun place =>
      (refines_slice h hextent place 1).map _) fun octet => ?_
    split
    · exact cut_stop _
    · refine cut_reading (refines_pointerField h hextent _ _) fun list => ?_
      refine cut_reading (refines_lengthField h hextent _ _) fun length => ?_
      refine cut_forEntries (fun offset => ?_) length _
      refine cut_reading (refines_pointerField h hextent _ _) fun pass => ?_
      exact cut_reading (refines_pointerField h hextent _ _) (walkProgram_cut h hextent layout)

/-- **The traversal of a part is that of the whole, cut off.** -/
theorem walkShader_cut (shader : Address) :
    (walkShader layout part shader).Cut (walkShader layout whole shader) := by
  unfold walkShader
  refine cut_reading (refines_pointerField h hextent _ _) fun internal => ?_
  refine cut_reading (refines_pointerField h hextent _ _) fun list => ?_
  refine cut_reading (refines_lengthField h hextent _ _) fun length => ?_
  refine cut_forEntries (fun offset => ?_) length _
  exact cut_reading (refines_pointerField h hextent _ _) (walkSubShader_cut h hextent layout)

end Traversal

/-! ### Semantics -/

section Semantics

variable (layout : ContainerLayout) (name : Bytes)

omit h hextent in
theorem refines_anyEntry {check check' : UInt64 → Except ViewError Bool}
    (hcheck : ∀ offset, Refines (· ≤ ·) (check offset) (check' offset)) (count : Nat)
    (stride : UInt64) :
    Refines (· ≤ ·) (anyEntry count stride check) (anyEntry count stride check') := by
  unfold anyEntry
  split
  · split
    · exact Refines.refl _
    · exact hcheck 0
  · exact Refines.anyM fun index => hcheck (Walk.entryOffset index stride)

theorem refines_elementHasName (data : Address) (offset : UInt64) :
    Refines (· ≤ ·) (elementHasName layout part data name offset)
      (elementHasName layout whole data name offset) := by
  refine (Refines.refl _).bind_eq fun element => ?_
  refine (refines_readI32 h hextent element).bind_eq fun distance => ?_
  refine (Refines.refl _).bind_eq fun address => ?_
  refine Refines.bind (fun found => View.readCString_of_partOf h) fun found found' hfound => ?_
  intro here hhere
  obtain rfl := Except.ok.inj hhere
  refine ⟨found' == some name, rfl, fun hsame => ?_⟩
  simpa using hfound name (by simpa using hsame)

theorem refines_chunkHasName (container : Address) (offset : UInt64) :
    Refines (· ≤ ·) (chunkHasName layout part container name offset)
      (chunkHasName layout whole container name offset) := by
  refine (Refines.refl _).bind_eq fun entry => ?_
  refine (refines_readI32 h hextent entry).bind_eq fun distance => ?_
  refine (Refines.refl _).bind_eq fun chunk => ?_
  refine ((refines_slice h hextent chunk 4).map _).bind_eq fun tag => ?_
  split
  · exact Refines.refl _
  · refine (Refines.refl _).bind_eq fun data => ?_
    refine (refines_lengthField h hextent _ _).bind_eq fun count => ?_
    exact refines_anyEntry (refines_elementHasName h hextent layout name data) count _

/-- **A container that can be searched in a part can be searched in the whole**, and has there
what was found. -/
theorem refines_containerHasSemantic (container : Address) :
    Refines (· ≤ ·) (containerHasSemantic layout part container name)
      (containerHasSemantic layout whole container name) := by
  refine (refines_lengthField h hextent _ _).bind_eq fun count => ?_
  exact refines_anyEntry (refines_chunkHasName h hextent layout name container) count _

end Semantics

theorem hasSemantic_of_partOf {layout : Layout} {shader : Address} {name : Bytes}
    (hpart : hasSemantic layout part shader name = true) :
    hasSemantic layout whole shader name = true := by
  obtain ⟨hshader, container, hmem, hfound⟩ := hasSemantic_eq_true_iff.mp hpart
  obtain ⟨found, hfound', hle⟩ :=
    refines_containerHasSemantic h hextent layout.container name container true hfound
  obtain rfl : found = true := hle rfl
  have hmet := (walkShader_cut h hextent layout shader).found.subset hmem
  exact hasSemantic_eq_true_iff.mpr ⟨hshader, container, hmet, hfound'⟩

end Parts

theorem Image.partOf_truncate (image : Image) (length : Nat) :
    (image.truncate length).view.PartOf image.view :=
  ⟨[], image.view.bytes.drop length, (List.take_append_drop length image.view.bytes).symm, rfl⟩

/-- **Seeing less memory never adds support.** For views of any bytes and for any layout, the
containers that are met in a part of a view are the first ones of those met in the whole, and a
semantic that is found in the part is found in the whole. In particular an image that is cut off
at some byte has no semantic that the image does not have. The extent of a view, like every
length, is a 64-bit word. -/
theorem prefix_of_partOf {part whole : View} (h : part.PartOf whole)
    (hextent : whole.extent < 2 ^ 64) (layout : Layout) (shader : Address) :
    containerAddresses layout part shader <+: containerAddresses layout whole shader ∧
      (∀ name, hasSemantic layout part shader name = true →
        hasSemantic layout whole shader name = true) ∧
      ∀ length name,
        ((⟨whole, shader⟩ : Image).truncate length).hasSemantic layout name = true →
          (⟨whole, shader⟩ : Image).hasSemantic layout name = true := by
  refine ⟨(walkShader_cut h hextent layout shader).found, fun name => ?_, fun length name => ?_⟩
  · exact hasSemantic_of_partOf h hextent
  · exact hasSemantic_of_partOf (Image.partOf_truncate ⟨whole, shader⟩ length) hextent

/-- An image whose only program has one input. -/
def samplePart : View :=
  (Image.build .revision2021_3 Image.defaultBase [[some [⟨0, ⟨0⟩, [[65]]⟩]]]).view

/-- The same image with one more byte on each side. -/
def sampleWhole : View :=
  .ofBytes (Image.defaultBase - 1) ([7] ++ samplePart.bytes ++ [9])

theorem prefix_of_sample :
    samplePart.PartOf sampleWhole ∧ sampleWhole.extent < 2 ^ 64 ∧
      containerAddresses .revision2021_3 samplePart Image.defaultBase
        <+: containerAddresses .revision2021_3 sampleWhole Image.defaultBase ∧
      hasSemantic .revision2021_3 sampleWhole Image.defaultBase [65] = true := by
  have hpart : samplePart.PartOf sampleWhole := ⟨[7], [9], rfl, by decide⟩
  have hextent : sampleWhole.extent < 2 ^ 64 := by decide +kernel
  obtain ⟨hbegins, hsemantic, -⟩ :=
    prefix_of_partOf hpart hextent .revision2021_3 Image.defaultBase
  exact ⟨hpart, hextent, hbegins, hsemantic [65] (by decide +kernel)⟩

end ShaderMend.Bytecode
