import ShaderMend.Proofs.Bytecode.Reading
import ShaderMend.Proofs.Bytecode.Structures
import ShaderMend.Proofs.Results

/-!
# Semantics in containers

A container that was written is searched chunk by chunk, and its signatures element by
element.

* `anyM_elements`, `anyM_chunks` — the tables of a signature and of a container.
* `containerHasSemantic_of_holds` — a container has a semantic if one of its signatures lists
  a name that spells it.
* `semantics_of_encode` — so it is for every container that is written, wherever it lies.
-/

namespace ShaderMend.Bytecode

/-- Whether a name that is listed spells another: it counts up to its first zero, and it must
end within the octets that are searched. -/
abbrev Spells (listed name : Bytes) : Prop :=
  listed.untilZero = name ∧ name.length ≤ 255

theorem spells_self {name : Bytes} (hzero : 0 ∉ name) (hshort : name.length ≤ 255) :
    Spells name name := by
  refine ⟨List.takeWhile_eq_self_iff.mpr fun octet hoctet => ?_, hshort⟩
  exact decide_eq_true fun heq => hzero (heq ▸ hoctet)

/-- What a chunk lists for a signature tag: nothing, if it has another tag or begins with a
zero; and the names of its signature. -/
inductive Chunk.Lists (tag : FourCC) : Chunk → List Bytes → Prop where
  | other {chunk : Chunk} (htag : chunk.tag ≠ tag) : Chunk.Lists tag chunk []
  | empty {name : FourCC} {rest : Bytes} :
      Chunk.Lists tag ⟨name, LittleEndian.encode 4 0 ++ rest⟩ []
  | signature {names : List Bytes} (hnames : names.length ≤ maxListLength) :
      Chunk.Lists tag ⟨tag, Signature.encode names⟩ names

section Searching

variable {base : Address} {memory : Bytes} (hroom : base.toNat + memory.length < 2 ^ 64)
  {magic tag : FourCC}

include hroom

/-- The offset that a table entry holds leads to a place. -/
theorem follow_entry {place entry target : Nat} (start : UInt64) {offset : UInt64}
    (hentry : Holds memory entry (LittleEndian.encode 4 target))
    (hplace : entry = place + start.toNat + offset.toNat) (htarget : target < 2147483648)
    (hinside : place + target ≤ memory.length) :
    ∃ distance, Address.advance (addressOf base place) (start + offset)
        = .ok (addressOf base entry) ∧
      (View.ofBytes base memory).readI32 (addressOf base entry) = .ok distance ∧
      Address.shift (addressOf base place) distance.toInt64
        = .ok (addressOf base (place + target)) := by
  have hle := hentry.le_length (by simp)
  have hsum : (start + offset).toNat = start.toNat + offset.toNat := by
    rw [UInt64.toNat_add, Nat.mod_eq_of_lt (by omega)]
  have hadvance : Address.advance (addressOf base place) (start + offset)
      = .ok (addressOf base (place + (start + offset).toNat)) :=
    advance_addressOf hroom (by omega)
  rw [show place + (start + offset).toNat = entry by omega] at hadvance
  have hdistance : (Int32.ofNat target).toInt64.toInt = target := by
    rw [Int32.toInt_toInt64]
    exact Int32.toInt_ofNat_of_lt htarget
  exact ⟨_, hadvance, readI32_of_holds hroom hentry htarget,
    shift_addressOf hroom hdistance hinside⟩

/-! ### Signatures -/

omit hroom in
/-- A name is found by its element. -/
theorem elementHasName_eq {view : View} {data element text : Address} {offset : UInt64}
    {distance : Int32} {found : Option Bytes} {name : Bytes}
    (hadvance : Address.advance data (8 + offset) = .ok element)
    (hread : view.readI32 element = .ok distance)
    (hshift : Address.shift data distance.toInt64 = .ok text)
    (hstring : view.readCString text 256 = .ok found) :
    elementHasName (.usual magic tag) view data name offset = .ok (found == some name) := by
  unfold elementHasName
  change (do
    let element ← Address.advance data (8 + offset)
    let text ← Address.shift data (← view.readI32 element).toInt64
    return (← view.readCString text 256) == some name) = _
  rw [hadvance, ok_bind, hread, ok_bind, hshift, ok_bind, hstring]
  rfl

theorem elementHasName_of_holds (magic tag : FourCC) {data entry nameOffset register : Nat}
    {offset : UInt64} {listed : Bytes}
    (helement : Holds memory entry (Signature.element nameOffset register))
    (hentry : entry = data + 8 + offset.toNat) (hoffset : nameOffset < 2147483648)
    (hname : Holds memory (data + nameOffset) (listed ++ [0])) (name : Bytes) :
    elementHasName (.usual magic tag) (View.ofBytes base memory) (addressOf base data) name offset
      = .ok (decide (Spells listed name)) := by
  have hle := hname.le_length (by simp)
  have hpointer : Holds memory entry (LittleEndian.encode 4 nameOffset) := by
    simp only [Signature.element, List.append_assoc] at helement
    exact (Holds.append_iff.mp helement).1
  obtain ⟨distance, hadvance, hread, hshift⟩ :=
    follow_entry hroom 8 hpointer hentry hoffset (by omega)
  have hstring : (View.ofBytes base memory).readCString (addressOf base (data + nameOffset)) 256
      = .ok (if listed.untilZero.length < 256 then some listed.untilZero else none) :=
    readCString_of_holds hroom hname (by decide)
  rw [elementHasName_eq hadvance hread hshift hstring]
  congr 1
  by_cases hshort : listed.untilZero.length < 256
  · by_cases hsame : listed.untilZero = name
    · subst hsame
      simp [hshort, Nat.le_of_lt_succ hshort]
    · simp [hshort, hsame]
  · have hlong : ¬ Spells listed name := by
      rintro ⟨rfl, hle⟩
      omega
    simp [hshort, hlong]

/-- **The elements of a signature are searched from one of them on.** -/
theorem anyM_elements {data start nameOffset register : Nat} {names : List Bytes}
    (helements : Holds memory (data + 8 + start * 24)
      (Signature.elements nameOffset register names))
    (hnames : Holds memory (data + nameOffset) (Signature.nameBytes names))
    (hlimit : nameOffset + (Signature.nameBytes names).length < 2147483648) (name : Bytes) :
    (List.range' start names.length).anyM (fun index =>
        elementHasName (.usual magic tag) (View.ofBytes base memory) (addressOf base data) name
          (Walk.entryOffset index 24))
      = .ok (names.any (Spells · name)) := by
  induction names generalizing start nameOffset register with
  | nil => rfl
  | cons listed names ih =>
      have hsplit : Signature.nameBytes (listed :: names)
          = (listed ++ [0]) ++ Signature.nameBytes names := by
        simp [Signature.nameBytes]
      rw [hsplit] at hnames hlimit
      rw [List.length_append, List.length_append, List.length_singleton] at hlimit
      obtain ⟨hlisted, hnames⟩ := Holds.append_iff.mp hnames
      obtain ⟨helement, helements⟩ := Holds.append_iff.mp helements
      have hle := helement.le_length (by simp [Signature.elementLength])
      rw [Signature.length_element] at hle helements
      have hoffset : (Walk.entryOffset start 24).toNat = start * 24 :=
        toNat_entryOffset hroom (by change start * 24 ≤ _; omega)
      have hfirst := elementHasName_of_holds hroom magic tag helement
        (by rw [hoffset]) (by omega) hlisted name
      have hrest := @ih (start + 1) (nameOffset + listed.length + 1) (register + 1)
        (by convert helements using 1; simp only [Signature.elementLength]; omega)
        (by convert hnames using 1; simp; omega) (by omega)
      rw [List.length_cons, List.range'_succ, List.any_cons]
      exact anyM_cons_of_ok hfirst hrest

/-- **A signature is searched for a name.** -/
theorem signature_of_holds {data : Nat} {names : List Bytes}
    (h : Holds memory data (Signature.encode names))
    (hlimit : (Signature.encode names).length < 2147483648) (name : Bytes) :
    anyEntry names.length 24 (elementHasName (.usual magic tag) (View.ofBytes base memory)
        (addressOf base data) name)
      = .ok (names.any (Spells · name)) := by
  unfold anyEntry
  rw [if_neg (by decide), List.range_eq_range']
  simp only [Signature.encode, List.append_assoc, Holds.append_iff, LittleEndian.length_encode,
    Signature.length_elements] at h
  obtain ⟨-, -, helements, hnames⟩ := h
  simp only [Signature.encode, List.length_append, LittleEndian.length_encode,
    Signature.length_elements] at hlimit
  refine anyM_elements hroom helements ?_ ?_ name
  · convert hnames using 1
    simp only [Signature.headerLength]
    omega
  · simp only [Signature.headerLength]
    omega

/-! ### Containers -/

omit hroom in
/-- A chunk is found by its entry, and its data by the chunk. -/
theorem chunkHasName_eq {view : View} {container entry chunk data : Address} {offset : UInt64}
    {distance : Int32} {found : FourCC} {name : Bytes}
    (hadvance : Address.advance container (32 + offset) = .ok entry)
    (hread : view.readI32 entry = .ok distance)
    (hshift : Address.shift container distance.toInt64 = .ok chunk)
    (htag : view.readFourCC chunk = .ok found) (hdata : Address.advance chunk 8 = .ok data) :
    chunkHasName (.usual magic tag) view container name offset
      = if found ≠ tag then .ok false
        else lengthField view data 0 >>= fun count =>
          anyEntry count 24 (elementHasName (.usual magic tag) view data name) := by
  unfold chunkHasName
  change (do
    let entry ← Address.advance container (32 + offset)
    let chunk ← Address.shift container (← view.readI32 entry).toInt64
    if (← view.readFourCC chunk) ≠ tag then
      return false
    let data ← Address.advance chunk 8
    let count ← lengthField view data 0
    anyEntry count 24 (elementHasName (.usual magic tag) view data name)) = _
  rw [hadvance, ok_bind, hread, ok_bind, hshift, ok_bind, htag, ok_bind, hdata, ok_bind]
  rfl

/-- **A chunk is searched for a name.** -/
theorem chunkHasName_of_holds (magic : FourCC) {place entry target : Nat} {offset : UInt64}
    {chunk : Chunk} {names : List Bytes}
    (hpointer : Holds memory entry (LittleEndian.encode 4 target))
    (hentry : entry = place + 32 + offset.toNat)
    (hchunk : Holds memory (place + target) (Container.chunkBytes chunk))
    (hlimit : target + (Container.chunkBytes chunk).length < 2147483648)
    (hlists : chunk.Lists tag names) (name : Bytes) :
    chunkHasName (.usual magic tag) (View.ofBytes base memory) (addressOf base place) name offset
      = .ok (names.any (Spells · name)) := by
  have hle := hchunk.le_length (by simp)
  rw [Container.length_chunkBytes] at hle hlimit
  obtain ⟨distance, hadvance, hread, hshift⟩ :=
    follow_entry hroom 32 hpointer hentry (by omega) (by omega)
  simp only [Container.chunkBytes, Holds.append_iff, List.append_assoc] at hchunk
  obtain ⟨htag, -, hdata⟩ := hchunk
  rw [LittleEndian.length_encode, show chunk.tag.toBytes.length = 4 from
    LittleEndian.length_encode 4 _, Nat.add_assoc] at hdata
  have hdataPlace : Address.advance (addressOf base (place + target)) 8
      = .ok (addressOf base (place + target + 8)) :=
    advance_addressOf hroom (by change place + target + 8 ≤ _; omega)
  rw [chunkHasName_eq hadvance hread hshift (readFourCC_of_holds hroom htag) hdataPlace]
  cases hlists with
  | other hother => rw [if_pos hother]; rfl
  | @empty other rest =>
      by_cases hsame : other = tag
      · have hzero : lengthField (View.ofBytes base memory) (addressOf base (place + target + 8)) 0
            = .ok 0 :=
          lengthField_of_holds hroom (Holds.append_iff.mp hdata).1 (Nat.zero_le _)
        rw [if_neg (by simpa using hsame), hzero, ok_bind]
        rfl
      · rw [if_pos hsame]
        rfl
  | signature hnames =>
      have hcount : lengthField (View.ofBytes base memory) (addressOf base (place + target + 8)) 0
          = .ok names.length := by
        refine lengthField_of_holds hroom ?_ hnames
        simp only [Signature.encode, List.append_assoc] at hdata
        exact (Holds.append_iff.mp hdata).1
      rw [if_neg (by simp), hcount, ok_bind]
      exact signature_of_holds hroom hdata (by dsimp only at hlimit; omega) name

/-- **The chunks of a container are searched from one of them on.** -/
theorem anyM_chunks (magic : FourCC) {place start offset : Nat} {chunks : List Chunk}
    {listed : List (List Bytes)} (hlists : List.Forall₂ (Chunk.Lists tag) chunks listed)
    (htable : Holds memory (place + 32 + start * 4) (Container.chunkOffsets offset chunks))
    (hchunks : Holds memory (place + offset) (chunks.flatMap Container.chunkBytes))
    (hlimit : offset + (chunks.flatMap Container.chunkBytes).length < 2147483648)
    (name : Bytes) :
    (List.range' start chunks.length).anyM (fun index =>
        chunkHasName (.usual magic tag) (View.ofBytes base memory) (addressOf base place) name
          (Walk.entryOffset index chunkEntryLength))
      = .ok (listed.flatten.any (Spells · name)) := by
  induction hlists generalizing start offset with
  | nil => rfl
  | @cons chunk names chunks listed hfirst _ ih =>
      rw [List.flatMap_cons] at hchunks hlimit
      rw [List.length_append] at hlimit
      obtain ⟨hchunk, hchunks⟩ := Holds.append_iff.mp hchunks
      obtain ⟨hpointer, htable⟩ := Holds.append_iff.mp htable
      have hle := hpointer.le_length (by simp)
      rw [LittleEndian.length_encode] at hle htable
      have hoffset : (Walk.entryOffset start chunkEntryLength).toNat = start * 4 :=
        toNat_entryOffset hroom (by change start * 4 ≤ _; omega)
      have hhas := chunkHasName_of_holds hroom magic hpointer (by rw [hoffset]) hchunk (by omega)
        hfirst name
      have hrest := @ih (start + 1) (offset + (Container.chunkBytes chunk).length)
        (by convert htable using 1; omega) (by convert hchunks using 1; omega) (by omega)
      rw [List.length_cons, List.range'_succ, List.flatten_cons, List.any_append]
      exact anyM_cons_of_ok hhas hrest

/-- **A container is searched for a name**: it has the name if one of its signatures lists it. -/
theorem containerHasSemantic_of_holds (magic : FourCC) {place : Nat} {opening : FourCC}
    {chunks : List Chunk} {listed : List (List Bytes)}
    (hlists : List.Forall₂ (Chunk.Lists tag) chunks listed)
    (hchunks : chunks.length ≤ maxListLength)
    (h : Holds memory place (Container.encode opening chunks))
    (hlimit : (Container.encode opening chunks).length < 2147483648) (name : Bytes) :
    containerHasSemantic (.usual magic tag) (View.ofBytes base memory) (addressOf base place) name
      = .ok (listed.flatten.any (Spells · name)) := by
  rw [Container.length_encode] at hlimit
  simp only [Container.encode, Holds.append_iff, List.append_assoc, LittleEndian.length_encode,
    List.length_replicate, Container.length_chunkOffsets,
    show opening.toBytes.length = 4 from LittleEndian.length_encode 4 _, Nat.add_assoc,
    Nat.reduceAdd] at h
  obtain ⟨-, -, -, -, hcount, htable, hbody⟩ := h
  have hlength : lengthField (View.ofBytes base memory) (addressOf base place) 28
      = .ok chunks.length := lengthField_of_holds hroom hcount hchunks
  have hany := @anyM_chunks _ _ hroom _ magic _ 0 _ _ _ hlists htable hbody hlimit name
  unfold containerHasSemantic
  change (do
    let count ← lengthField (View.ofBytes base memory) (addressOf base place) 28
    anyEntry count chunkEntryLength (chunkHasName _ (View.ofBytes base memory) _ name)) = _
  rw [hlength, ok_bind, anyEntry, if_neg (by decide), List.range_eq_range']
  exact hany

/-- The container of a blob has the names that spell the semantics of the blob. -/
theorem containerHasSemantic_blob {layout : Layout} (hlayout : layout.WellFormed) {place : Nat}
    {blob : Blob} (h : Holds memory place (blob.container layout))
    (hsemantics : blob.semantics.length ≤ maxListLength)
    (hlimit : (blob.container layout).length < 2147483648) (name : Bytes) :
    containerHasSemantic layout.container (View.ofBytes base memory) (addressOf base place) name
      = .ok (blob.semantics.any (Spells · name)) := by
  obtain ⟨magic, tag, hcontainer⟩ := hlayout.container
  have htag : layout.container.inputSignatureTag = tag := by rw [hcontainer]; rfl
  have hlists : List.Forall₂ (Chunk.Lists tag)
      [Blob.codeChunk, ⟨tag, Signature.encode blob.semantics⟩] [[], blob.semantics] := by
    refine .cons ?_ (.cons (.signature hsemantics) .nil)
    exact @Chunk.Lists.empty tag _ (List.replicate 12 0)
  unfold Blob.container at h hlimit
  rw [htag] at h hlimit
  rw [hcontainer]
  have hhas := containerHasSemantic_of_holds hroom magic hlists (by simp [maxListLength]) h hlimit
    name
  simpa using hhas

end Searching

/-! ### Containers with any chunks -/

/-- What a chunk is written for: an input signature with its names, or anything else. -/
inductive Content where
  | signature (names : List Bytes)
  | other (chunk : Chunk)

namespace Content

/-- The chunk that is written, a signature under the given tag. -/
def chunk (tag : FourCC) : Content → Chunk
  | signature names => ⟨tag, Signature.encode names⟩
  | other chunk => chunk

/-- The names that the chunk declares. -/
def names : Content → List Bytes
  | signature names => names
  | other _ => []

theorem mem_names_iff {content : Content} {name : Bytes} :
    name ∈ content.names ↔ ∃ names, content = signature names ∧ name ∈ names := by
  cases content with
  | signature names => simp [Content.names]
  | other chunk => simp [Content.names]

/-- Contents that cannot be taken for others list their names. -/
theorem forall₂_lists {tag : FourCC} {contents : List Content}
    (hnames : ∀ names, signature names ∈ contents → names.length ≤ maxListLength)
    (hothers : ∀ chunk, other chunk ∈ contents → chunk.tag ≠ tag) :
    List.Forall₂ (Chunk.Lists tag) (contents.map (chunk tag)) (contents.map names) := by
  rw [List.forall₂_map_left_iff, List.forall₂_map_right_iff, List.forall₂_same]
  intro content hmem
  cases content with
  | signature names => exact .signature (hnames names hmem)
  | other chunk => exact .other (hothers chunk hmem)

end Content

/-- **What a container declares is found in it, wherever it lies.** The container holds any
number of input signatures among any other chunks, and any bytes may lie around it. The search
gets to its end, and finds a name exactly if some signature lists one that spells it: up to its
first zero the listed name is the one looked for, which has at most 255 octets. -/
theorem semantics_of_encode {magic : FourCC} {contents : List Content} {view : View}
    {address : Address} {before after : Bytes} (hcount : contents.length ≤ 4096)
    (hnames : ∀ names, .signature names ∈ contents → names.length ≤ 4096)
    (hothers : ∀ chunk, .other chunk ∈ contents → chunk.tag ≠ FourCC.ofText "ISGN")
    (hlimit : (Container.encode magic
      (contents.map (Content.chunk (FourCC.ofText "ISGN")))).length < 2 ^ 31)
    (hbytes : view.bytes = before
      ++ Container.encode magic (contents.map (Content.chunk (FourCC.ofText "ISGN"))) ++ after)
    (hroom : view.base.toNat + view.extent < 2 ^ 64)
    (haddress : address.toNat = view.base.toNat + before.length) (name : Bytes) :
    ∃ found,
      containerHasSemantic Layout.revision2021_3.container view address name = .ok found ∧
      (found = true ↔ ∃ names, .signature names ∈ contents ∧
        ∃ listed ∈ names, listed.takeWhile (· ≠ 0) = name ∧ name.length ≤ 255) := by
  rw [View.extent_eq_length] at hroom
  have hview : View.ofBytes view.base view.bytes = view := by simp [View.ofBytes, View.bytes]
  have hplace : addressOf view.base before.length = address := by
    apply UInt64.toNat_inj.mp
    have hlength := congrArg List.length hbytes
    rw [List.length_append, List.length_append] at hlength
    rw [toNat_addressOf hroom (by omega), haddress]
  have hholds := Holds.of_append before (Container.encode magic
    (contents.map (Content.chunk (FourCC.ofText "ISGN")))) after
  rw [← hbytes] at hholds
  have hhas := containerHasSemantic_of_holds hroom (FourCC.ofText "DXBC")
    (Content.forall₂_lists hnames hothers) (by rwa [List.length_map]) hholds hlimit name
  rw [hview, hplace] at hhas
  refine ⟨_, hhas, ?_⟩
  simp only [List.any_eq_true, List.mem_flatten, List.mem_map, decide_eq_true_eq]
  constructor
  · rintro ⟨listed, ⟨_, ⟨content, hcontent, rfl⟩, hlisted⟩, hspells⟩
    obtain ⟨names, rfl, hlisted⟩ := Content.mem_names_iff.mp hlisted
    exact ⟨names, hcontent, listed, hlisted, hspells⟩
  · rintro ⟨names, hcontent, listed, hlisted, hspells⟩
    exact ⟨listed, ⟨names, ⟨_, hcontent, rfl⟩, hlisted⟩, hspells⟩

/-- Two signatures with a chunk of code between them. -/
def sampleContents : List Content :=
  [.signature [[65]], .other Blob.codeChunk, .signature [[67], [66, 0, 67]]]

/-- A container of these contents inside of a memory. -/
def sampleMemory : View :=
  .ofBytes 4096 ([1, 2]
    ++ Container.encode ⟨0⟩ (sampleContents.map (Content.chunk (FourCC.ofText "ISGN"))) ++ [3])

theorem semantics_of_sample :
    (∀ names, .signature names ∈ sampleContents → names.length ≤ 4096) ∧
      (∀ chunk, .other chunk ∈ sampleContents → chunk.tag ≠ FourCC.ofText "ISGN") ∧
      containerHasSemantic Layout.revision2021_3.container sampleMemory 4098 [66] = .ok true := by
  have hnames : ∀ names, .signature names ∈ sampleContents → names.length ≤ 4096 := by
    simp [sampleContents]
  have hothers : ∀ chunk, .other chunk ∈ sampleContents → chunk.tag ≠ FourCC.ofText "ISGN" := by
    simp only [sampleContents, List.mem_cons, List.not_mem_nil, or_false, reduceCtorEq, false_or,
      Content.other.injEq, forall_eq]
    decide +kernel
  have hbytes : sampleMemory.bytes = [1, 2]
      ++ Container.encode ⟨0⟩ (sampleContents.map (Content.chunk (FourCC.ofText "ISGN")))
      ++ [3] := rfl
  have haddress : (4098 : Address).toNat = sampleMemory.base.toNat + [1, 2].length := by decide
  obtain ⟨found, hhas, hfound⟩ := semantics_of_encode (by decide) hnames hothers
    (by decide +kernel) hbytes (by decide +kernel) haddress [66]
  refine ⟨hnames, hothers, ?_⟩
  rw [hhas, hfound.mpr ⟨[[67], [66, 0, 67]], by simp [sampleContents], by decide⟩]

end ShaderMend.Bytecode
