import ShaderMend.Bytecode.Inspection
import ShaderMend.Proofs.Memory.Strings
import ShaderMend.Proofs.Results

/-!
# What an inspection has seen

Any bytes may be inspected: pointers may lead anywhere, back to where they came from, or into
the middle of other structures. What the inspection answers has been seen in the view all the
same.

* `containerAddresses_bounded` — each container that is met opens inside the view, and there are
  at most as many as three lists of the longest length can have.
* `evidence_of_hasSemantic` — a semantic that is found stands in the view, as does the name of an
  input signature.
-/

namespace ShaderMend.Bytecode

/-! ### Traversals with a bound -/

namespace Walk

/-- Whether a traversal met only addresses of a kind, and at most so many. -/
structure Bounded (Good : Address → Prop) (count : Nat) (walk : Walk) : Prop where
  good : ∀ address ∈ walk.found, Good address
  length : walk.found.length ≤ count

variable {Good : Address → Prop} {count : Nat}

theorem bounded_skip : skip.Bounded Good count :=
  ⟨nofun, Nat.zero_le count⟩

theorem bounded_stop : stop.Bounded Good count :=
  ⟨nofun, Nat.zero_le count⟩

theorem bounded_emit {address : Address} (h : Good address) : (emit address).Bounded Good 1 :=
  ⟨fun _ hmem => List.mem_singleton.mp hmem ▸ h, le_rfl⟩

theorem bounded_reading {α : Type} {read : Except ViewError α} {next : α → Walk}
    (h : ∀ value, read = .ok value → (next value).Bounded Good count) :
    (reading read next).Bounded Good count := by
  cases read with
  | error failure => exact bounded_stop
  | ok value => exact h value rfl

theorem Bounded.append {first second : Walk} {count' : Nat} (h : first.Bounded Good count)
    (h' : second.Bounded Good count') : (first.append second).Bounded Good (count + count') := by
  have hlength := h.length
  unfold Walk.append
  split
  · refine ⟨fun address hmem => ?_, ?_⟩
    · exact (List.mem_append.mp hmem).elim (h.good address) (h'.good address)
    · have hlength' := h'.length
      rw [List.length_append]
      omega
  · exact ⟨h.good, by omega⟩

theorem bounded_forEach {α : Type} {visit : α → Walk} (h : ∀ item, (visit item).Bounded Good count)
    (items : List α) : (forEach items visit).Bounded Good (items.length * count) := by
  induction items with
  | nil => exact bounded_skip
  | cons item items ih =>
      rw [List.length_cons, Nat.succ_mul, Nat.add_comm]
      exact (h item).append ih

/-- A table of believable length is traversed within the bound for its entries. -/
theorem bounded_forEntries {visit : UInt64 → Walk} (h : ∀ offset, (visit offset).Bounded Good count)
    {length : Nat} (hlength : length ≤ maxListLength) (stride : UInt64) :
    (forEntries length stride visit).Bounded Good (maxListLength * count) := by
  rw [forEntries_eq_forEach]
  have hwalk := bounded_forEach (fun index => h (entryOffset index stride)) (List.range length)
  rw [List.length_range] at hwalk
  exact ⟨hwalk.good, hwalk.length.trans (Nat.mul_le_mul_right count hlength)⟩

end Walk

section Traversal

variable (layout : Layout) (view : View)

/-- Whether four bytes can be read at an address. -/
def Opens (address : Address) : Prop :=
  ∃ tag, view.readFourCC address = .ok tag

theorem listLength_le (raw : Int32) : listLength raw ≤ maxListLength := by
  unfold listLength
  split
  · omega
  · exact Nat.zero_le _

variable {view} in
theorem lengthField_le {address : Address} {offset : UInt64} {length : Nat}
    (h : lengthField view address offset = .ok length) : length ≤ maxListLength := by
  obtain ⟨field, -, h⟩ := bind_eq_ok_iff.mp h
  obtain ⟨raw, -, h⟩ := bind_eq_ok_iff.mp h
  obtain rfl := Except.ok.inj h
  exact listLength_le raw

open Walk

theorem walkBlob_bounded (blob : Address) : (walkBlob layout view blob).Bounded (Opens view) 1 := by
  unfold walkBlob
  split
  · exact bounded_skip
  · refine bounded_reading fun kind _ => ?_
    split
    · exact bounded_skip
    · refine bounded_reading fun container _ => bounded_reading fun tag htag => ?_
      exact bounded_emit ⟨tag, htag⟩

theorem walkProgram_bounded (program : Address) :
    (walkProgram layout view program).Bounded (Opens view) (maxListLength * 1) := by
  unfold walkProgram
  split
  · exact bounded_skip
  · refine bounded_reading fun list _ => bounded_reading fun length hlength => ?_
    refine bounded_forEntries (fun offset => ?_) (lengthField_le hlength) _
    exact bounded_reading fun subProgram _ => bounded_reading fun blob _ =>
      walkBlob_bounded layout view blob

theorem walkSubShader_bounded (subShader : Address) :
    (walkSubShader layout view subShader).Bounded (Opens view)
      (maxListLength * (maxListLength * 1)) := by
  unfold walkSubShader
  refine bounded_reading fun word _ => ?_
  split
  · exact bounded_stop
  · refine bounded_reading fun octet _ => ?_
    split
    · exact bounded_stop
    · refine bounded_reading fun list _ => bounded_reading fun length hlength => ?_
      refine bounded_forEntries (fun offset => ?_) (lengthField_le hlength) _
      exact bounded_reading fun pass _ => bounded_reading fun program _ =>
        walkProgram_bounded layout view program

theorem walkShader_bounded (shader : Address) :
    (walkShader layout view shader).Bounded (Opens view)
      (maxListLength * (maxListLength * (maxListLength * 1))) := by
  unfold walkShader
  refine bounded_reading fun internal _ => bounded_reading fun list _ => ?_
  refine bounded_reading fun length hlength => ?_
  refine bounded_forEntries (fun offset => ?_) (lengthField_le hlength) _
  exact bounded_reading fun subShader _ => walkSubShader_bounded layout view subShader

end Traversal

/-! ### Searches that found something -/

section Semantics

variable {layout : ContainerLayout} {view : View} {name : Bytes}

theorem exists_of_anyEntry {count : Nat} {stride : UInt64} {check : UInt64 → Except ViewError Bool}
    (h : anyEntry count stride check = .ok true) : ∃ offset, check offset = .ok true := by
  unfold anyEntry at h
  split at h
  · split at h
    · cases h
    · exact ⟨0, h⟩
  · obtain ⟨index, -, hfound⟩ := exists_of_anyM h
    exact ⟨_, hfound⟩

/-- Whether a view has a name, ended by a zero within the octets that are searched. -/
def Spelt (layout : ContainerLayout) (view : View) (name : Bytes) : Prop :=
  name ++ [0] <:+: view.bytes ∧ 0 ∉ name ∧ name.length < layout.maxSemanticNameLength.toNat

theorem spelt_of_elementHasName {data : Address} {offset : UInt64}
    (h : elementHasName layout view data name offset = .ok true) : Spelt layout view name := by
  obtain ⟨element, -, h⟩ := bind_eq_ok_iff.mp h
  obtain ⟨distance, -, h⟩ := bind_eq_ok_iff.mp h
  obtain ⟨address, -, h⟩ := bind_eq_ok_iff.mp h
  obtain ⟨found, hread, h⟩ := bind_eq_ok_iff.mp h
  have hname : found = some name := by simpa using Except.ok.inj h
  exact View.readCString_eq_some (hname ▸ hread)

theorem evidence_of_chunkHasName {container : Address} {offset : UInt64}
    (h : chunkHasName layout view container name offset = .ok true) :
    layout.inputSignatureTag.toBytes <:+: view.bytes ∧ Spelt layout view name := by
  obtain ⟨entry, -, h⟩ := bind_eq_ok_iff.mp h
  obtain ⟨distance, -, h⟩ := bind_eq_ok_iff.mp h
  obtain ⟨chunk, -, h⟩ := bind_eq_ok_iff.mp h
  obtain ⟨tag, htag, h⟩ := bind_eq_ok_iff.mp h
  split at h
  · cases h
  next hsame =>
    obtain rfl : tag = layout.inputSignatureTag := not_not.mp hsame
    obtain ⟨data, -, h⟩ := bind_eq_ok_iff.mp h
    obtain ⟨count, -, h⟩ := bind_eq_ok_iff.mp h
    obtain ⟨element, helement⟩ := exists_of_anyEntry h
    exact ⟨View.isInfix_of_slice (View.readFourCC_eq_ok htag), spelt_of_elementHasName helement⟩

theorem evidence_of_containerHasSemantic {container : Address}
    (h : containerHasSemantic layout view container name = .ok true) :
    layout.inputSignatureTag.toBytes <:+: view.bytes ∧ Spelt layout view name := by
  obtain ⟨count, -, h⟩ := bind_eq_ok_iff.mp h
  obtain ⟨chunk, hchunk⟩ := exists_of_anyEntry h
  exact evidence_of_chunkHasName hchunk

end Semantics

/-- **Nothing is found that is not there.** Whatever the view shows and wherever the fields are
looked for, each container that is met has its four first bytes inside the view, and there are
at most `4096 ^ 3` of them. A semantic is found only if the name of an input signature stands in
the view, and the semantic itself with a zero right behind it; it has no zero of its own, and
fewer octets than are searched. -/
theorem evidence_of_inspection (layout : Layout) (view : View) (shader : Address) :
    (∀ address ∈ containerAddresses layout view shader, view.contains address 4 = true ∧
      view.base.toNat ≤ address.toNat ∧
        address.toNat + 4 ≤ view.base.toNat + view.extent) ∧
    (containerAddresses layout view shader).length ≤ 4096 ^ 3 ∧
    ∀ name, hasSemantic layout view shader name = true →
      layout.container.inputSignatureTag.toBytes <:+: view.bytes ∧
        name ++ [0] <:+: view.bytes ∧ 0 ∉ name ∧
          name.length < layout.container.maxSemanticNameLength.toNat := by
  have hwalk := walkShader_bounded layout view shader
  refine ⟨fun address hmem => ?_, hwalk.length, fun name hfound => ?_⟩
  · obtain ⟨tag, htag⟩ := hwalk.good address hmem
    have hslice := View.readFourCC_eq_ok htag
    obtain ⟨start, hplace, hinside, -, -⟩ := View.slice_eq_ok_iff.mp hslice
    rw [show (4 : UInt64).toNat = 4 from rfl] at hinside
    refine ⟨?_, by omega, by omega⟩
    rw [View.contains, hslice]
    rfl
  · obtain ⟨-, container, -, hcontainer⟩ := hasSemantic_eq_true_iff.mp hfound
    exact evidence_of_containerHasSemantic hcontainer

/-- A shader whose only program has one input. -/
def sampleShader : List SubShader :=
  [[some [⟨0, ⟨0⟩, [[65]]⟩]]]

theorem evidence_of_sample :
    (Image.build .revision2021_3 Image.defaultBase sampleShader).hasSemantic .revision2021_3 [65]
        = true ∧
      (FourCC.ofText "ISGN").toBytes
        <:+: (Image.build .revision2021_3 Image.defaultBase sampleShader).view.bytes ∧
      [65, 0] <:+: (Image.build .revision2021_3 Image.defaultBase sampleShader).view.bytes := by
  have hfound : (Image.build .revision2021_3 Image.defaultBase sampleShader).hasSemantic
      .revision2021_3 [65] = true := by
    decide +kernel
  obtain ⟨-, -, hevidence⟩ := evidence_of_inspection .revision2021_3
    (Image.build .revision2021_3 Image.defaultBase sampleShader).view
    (Image.build .revision2021_3 Image.defaultBase sampleShader).shader
  obtain ⟨htag, hname, -, -⟩ := hevidence [65] hfound
  exact ⟨hfound, htag, hname⟩

end ShaderMend.Bytecode
