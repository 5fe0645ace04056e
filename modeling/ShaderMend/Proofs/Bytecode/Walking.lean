import ShaderMend.Proofs.Bytecode.Reading
import ShaderMend.Proofs.Bytecode.Structures

/-!
# Traversals of structures

Where the structures of a shader are found in memory, the traversal follows their pointers
and gets to its end.

* `walk_entries`, `walk_listAt` — tables, and structures with lists.
* `containerAddresses_of_frameAt` — it meets the containers of all blobs of a kind that the
  layout understands, in their order.
-/

namespace ShaderMend.Bytecode

/-- Whether a layout understands blobs of a kind. -/
abbrev Layout.Understands (layout : Layout) (kind : UInt8) : Prop :=
  kind = 1 ∨ kind ≤ layout.blobMaxKind

theorem Layout.containerOffset?_eq_none_iff {layout : Layout} {kind : UInt8} :
    layout.containerOffset? kind = none ↔ ¬ layout.Understands kind := by
  unfold containerOffset? Understands
  split
  next hone => simp [hone]
  next hone =>
    split
    next hle => simp [hle]
    next hgt => simp [hone, hgt]

/-- The addresses of those containers whose blobs are of a kind that is understood. -/
def addressesOf (layout : Layout) (base : Address) (spots : List Spot) : List Address :=
  (spots.filter fun spot => layout.Understands spot.blob.kind).map fun spot =>
    addressOf base spot.place

theorem addressesOf_append (layout : Layout) (base : Address) (first second : List Spot) :
    addressesOf layout base (first ++ second)
      = addressesOf layout base first ++ addressesOf layout base second := by
  simp [addressesOf]

/-- A traversal that met containers and got to its end. -/
def Walk.through (layout : Layout) (base : Address) (spots : List Spot) : Walk :=
  ⟨addressesOf layout base spots, true⟩

theorem Walk.reading_ok {α : Type} (value : α) (next : α → Walk) :
    Walk.reading (.ok value) next = next value := rfl

section Walking

variable {layout : Layout} {base : Address} {memory : Bytes}
  (hroom : base.toNat + memory.length < 2 ^ 64)

include hroom

theorem addressOf_ne_zero (hbase : base ≠ 0) {place : Nat} (h : place ≤ memory.length) :
    addressOf base place ≠ 0 := by
  have hpos : base.toNat ≠ 0 := fun hzero => hbase (UInt64.toNat_inj.mp hzero)
  intro hzero
  have htoNat := toNat_addressOf hroom h
  rw [hzero] at htoNat
  change 0 = _ at htoNat
  omega

/-- **A table is traversed from one of its entries on.** -/
theorem walk_entries {α : Type} {At : Bytes → Nat → α → List Spot → Prop} {visit : Address → Walk}
    {stride : UInt64} {table start slot : Nat} {items : List α} {spots : List Spot}
    (hvisit : ∀ item ∈ items, ∀ target spots, At memory target item spots →
      visit (addressOf base target) = .through layout base spots)
    (h : Entries base At stride.toNat memory slot items spots)
    (hslot : slot = table + start * stride.toNat) :
    Walk.forEach (List.range' start items.length) (fun index =>
        .reading (pointerField (View.ofBytes base memory) (addressOf base table)
          (Walk.entryOffset index stride)) visit)
      = .through layout base spots := by
  induction h generalizing start with
  | nil => rfl
  | @cons slot target item items first rest pointer entry later ih =>
      have hle := pointer.le_length (by simp)
      have hoffset : (Walk.entryOffset start stride).toNat = start * stride.toNat :=
        toNat_entryOffset hroom (by omega)
      have hpointer : pointerField (View.ofBytes base memory) (addressOf base table)
          (Walk.entryOffset start stride) = .ok (addressOf base target) :=
        pointerField_of_holds hroom (by rw [hoffset, ← hslot]; exact pointer)
      have hrest := @ih (start + 1)
        (fun item hitem => hvisit item (List.mem_cons_of_mem _ hitem))
        (by rw [hslot, Nat.add_mul, Nat.one_mul, Nat.add_assoc])
      have hitem := hvisit item List.mem_cons_self target first entry
      rw [List.length_cons, List.range'_succ]
      change Walk.append (.reading (pointerField _ _ _) visit) (Walk.forEach _ _) = _
      rw [hpointer, Walk.reading_ok, hitem, hrest]
      exact congrArg (Walk.mk · true) (addressesOf_append layout base first rest).symm

/-- **The list of a structure is traversed.** -/
theorem walk_listAt {α : Type} {At : Bytes → Nat → α → List Spot → Prop} {shape : ListShape}
    {visit : Address → Walk} {list count stride : UInt64} (hlist : shape.list = list.toNat)
    (hcount : shape.count = count.toNat) (hstride : shape.stride = stride.toNat) {place : Nat}
    {items : List α} {spots : List Spot} (hitems : items.length ≤ maxListLength)
    (hvisit : ∀ item ∈ items, ∀ target spots, At memory target item spots →
      visit (addressOf base target) = .through layout base spots)
    (h : ListAt base shape At memory place items spots) :
    Walk.reading (pointerField (View.ofBytes base memory) (addressOf base place) list) (fun table =>
        .reading (lengthField (View.ofBytes base memory) (addressOf base place) count) fun length =>
          .forEntries length stride fun offset =>
            .reading (pointerField (View.ofBytes base memory) table offset) visit)
      = .through layout base spots := by
  obtain ⟨-, hpointer, hlength, hentries⟩ := h
  rw [hlist] at hpointer
  rw [hcount] at hlength
  rw [hstride] at hentries
  rw [pointerField_of_holds hroom hpointer, Walk.reading_ok,
    lengthField_of_holds hroom hlength hitems, Walk.reading_ok, Walk.forEntries_eq_forEach,
    List.range_eq_range']
  exact walk_entries hroom hvisit hentries (by omega)

theorem walk_subProgramAt (hbase : base ≠ 0) {place : Nat} {blob : Blob} {spots : List Spot}
    (h : SubProgramAt layout base memory place blob spots) :
    Walk.reading (pointerField (View.ofBytes base memory) (addressOf base place)
        layout.subProgramBlob) (walkBlob layout (View.ofBytes base memory))
      = .through layout base spots := by
  obtain ⟨hpointer, hkind, hinside⟩ := h
  rename_i target
  have htarget := hkind.le_length Nat.one_pos
  rw [pointerField_of_holds hroom hpointer, Walk.reading_ok, walkBlob,
    if_neg (addressOf_ne_zero hroom hbase (by omega)), readU8_of_holds hroom hkind,
    Walk.reading_ok]
  cases hoffset : layout.containerOffset? blob.kind with
  | none =>
      have hunknown := Layout.containerOffset?_eq_none_iff.mp hoffset
      simp [Walk.through, addressesOf, hunknown, Walk.skip]
  | some offset =>
      have hknown : layout.Understands blob.kind := by
        by_contra hunknown
        rw [Layout.containerOffset?_eq_none_iff.mpr hunknown] at hoffset
        cases hoffset
      have hplace : target + blob.containerOffset layout = target + offset.toNat := by
        simp [Blob.containerOffset, hoffset]
      rw [hplace, Blob.container, Container.length_encode, Container.headerLength] at hinside
      have hfits : target + offset.toNat + 4 ≤ memory.length := by omega
      obtain ⟨tag, htag⟩ := exists_readFourCC hroom hfits
      rw [hplace]
      dsimp only
      rw [advance_addressOf hroom (by omega), Walk.reading_ok, htag, Walk.reading_ok]
      simp [Walk.through, addressesOf, hknown, Walk.emit]

theorem walk_programAt (hbase : base ≠ 0) {place : Nat} {blobs : List Blob} {spots : List Spot}
    (hblobs : blobs.length ≤ maxListLength)
    (h : ProgramAt layout base memory place blobs spots) :
    walkProgram layout (View.ofBytes base memory) (addressOf base place)
      = .through layout base spots := by
  obtain ⟨-, -, hcount, -⟩ := id h
  have hle := hcount.le_length (by simp)
  unfold walkProgram
  rw [if_neg (addressOf_ne_zero hroom hbase (by omega))]
  exact walk_listAt hroom rfl rfl rfl hblobs
    (fun _ _ _ _ hblob => walk_subProgramAt hroom hbase hblob) h

theorem walk_passAt (hbase : base ≠ 0) {place : Nat} {pass : Pass} {spots : List Spot}
    (hpass : ∀ blobs, pass = some blobs → blobs.length ≤ maxListLength)
    (h : PassAt layout base memory place pass spots) :
    Walk.reading (pointerField (View.ofBytes base memory) (addressOf base place)
        layout.passProgram) (walkProgram layout (View.ofBytes base memory))
      = .through layout base spots := by
  cases h with
  | null hpointer =>
      have hle := hpointer.le_length (by simp)
      have hnull : pointerField (View.ofBytes base memory) (addressOf base place)
          layout.passProgram = .ok 0 := by
        unfold pointerField
        rw [advance_addressOf hroom (by omega)]
        exact readPointer_of_holds_zero hroom hpointer
      rw [hnull, Walk.reading_ok, walkProgram, if_pos rfl]
      rfl
  | program hpointer hprogram =>
      rw [pointerField_of_holds hroom hpointer, Walk.reading_ok]
      exact walk_programAt hroom hbase (hpass _ rfl) hprogram

theorem walk_subShaderAt (hbase : base ≠ 0) {place : Nat} {passes : SubShader}
    {spots : List Spot} (hpasses : passes.length ≤ maxListLength)
    (hblobs : ∀ pass ∈ passes, ∀ blobs, pass = some blobs → blobs.length ≤ maxListLength)
    (h : SubShaderAt layout base memory place passes spots) :
    walkSubShader layout (View.ofBytes base memory) (addressOf base place)
      = .through layout base spots := by
  obtain ⟨hmarks, -, -, -⟩ := id h
  have hword := hmarks (layout.subShaderMarkerWord.toNat, LittleEndian.encode 4 0)
    List.mem_cons_self
  have hoctet := hmarks (layout.subShaderMarkerByte.toNat, [0xFF])
    (List.mem_cons_of_mem _ List.mem_cons_self)
  have hword' := hword.le_length (by simp)
  have hoctet' := hoctet.le_length Nat.one_pos
  unfold walkSubShader
  have hreadWord : (Address.advance (addressOf base place) layout.subShaderMarkerWord
      >>= (View.ofBytes base memory).readI32) = .ok 0 := by
    rw [advance_addressOf hroom (by omega)]
    exact readI32_of_holds hroom hword (by decide)
  have hreadOctet : (Address.advance (addressOf base place) layout.subShaderMarkerByte
      >>= (View.ofBytes base memory).readU8) = .ok 0xFF := by
    rw [advance_addressOf hroom (by omega)]
    exact readU8_of_holds hroom hoctet
  rw [hreadWord, Walk.reading_ok, if_neg (by simp), hreadOctet, Walk.reading_ok, if_neg (by simp)]
  exact walk_listAt hroom rfl rfl rfl hpasses
    (fun pass hpass _ _ hentry => walk_passAt hroom hbase (hblobs pass hpass) hentry) h

/-- **The traversal of a shader meets the containers of all blobs that are understood**, whatever
these containers hold. -/
theorem containerAddresses_of_frameAt (hbase : base ≠ 0) {place : Nat}
    {subShaders : List SubShader} {spots : List Spot}
    (hsubShaders : subShaders.length ≤ maxListLength)
    (hpasses : ∀ passes ∈ subShaders, passes.length ≤ maxListLength)
    (hblobs : ∀ passes ∈ subShaders, ∀ pass ∈ passes, ∀ blobs, pass = some blobs →
      blobs.length ≤ maxListLength)
    (h : FrameAt layout base memory place subShaders spots) :
    containerAddresses layout (View.ofBytes base memory) (addressOf base place)
      = addressesOf layout base spots := by
  obtain ⟨hpointer, hinternal⟩ := h
  rename_i target
  have hwalk : walkShader layout (View.ofBytes base memory) (addressOf base place)
      = .through layout base spots := by
    rw [walkShader, pointerField_of_holds hroom hpointer, Walk.reading_ok]
    exact walk_listAt hroom rfl rfl rfl hsubShaders
      (fun passes hmem _ _ hentry =>
        walk_subShaderAt hroom hbase (hpasses passes hmem) (hblobs passes hmem) hentry) hinternal
  rw [containerAddresses, hwalk]
  rfl

theorem containerAddresses_of_shaderAt (hbase : base ≠ 0) {place : Nat}
    {subShaders : List SubShader} {spots : List Spot}
    (hsubShaders : subShaders.length ≤ maxListLength)
    (hpasses : ∀ passes ∈ subShaders, passes.length ≤ maxListLength)
    (hblobs : ∀ passes ∈ subShaders, ∀ pass ∈ passes, ∀ blobs, pass = some blobs →
      blobs.length ≤ maxListLength)
    (h : ShaderAt layout base memory place subShaders spots) :
    containerAddresses layout (View.ofBytes base memory) (addressOf base place)
      = addressesOf layout base spots :=
  containerAddresses_of_frameAt hroom hbase hsubShaders hpasses hblobs h.frame

end Walking

end ShaderMend.Bytecode
