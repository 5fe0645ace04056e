import ShaderMend.Proofs.Bytecode.Structures

/-!
# Images are written

Each structure is written into new memory and entered in a slot of an earlier one. What is
written later goes to later slots or to newer memory, so it never disturbs the structure. No
structure has a place in common with a container, so it stays whatever happens to containers.

* `Writes` — one step of the writing, and what it shows to every memory that is like the
  result where the step has written, but for the containers.
* `writes_fillTable`, `ListShape.enters_enter` — tables, and structures with lists.
* `stands_putShader` — a written image has the structures of its shader, and each container at
  a spot of its own.
-/

namespace ShaderMend.Bytecode

/-! ### Steps of the writing -/

section Steps

variable {layout : Layout}

/-- Whether a memory is like the result of a step where the step has written: in one range and
in new memory, but for the containers at some spots. -/
structure Like (layout : Layout) (spots : List Spot) (memory before after : Bytes)
    (start stop : Nat) : Prop where
  grows : after.length ≤ memory.length
  same : ∀ i, start ≤ i ∧ i < stop ∨ before.length ≤ i ∧ i < after.length →
    (∀ spot ∈ spots, ¬ spot.Covers layout i) → memory[i]? = after[i]?

/-- Whether a step writes in one range and to new memory, with containers at spots of the new
memory, and what is then shown by every memory that is like the result but for these. -/
structure Writes (layout : Layout) (before after : Bytes) (start stop : Nat) (spots : List Spot)
    (Shows : Bytes → Prop) : Prop where
  kept : Kept before after start stop
  new : ∀ spot ∈ spots, before.length ≤ spot.place
  holds : ∀ spot ∈ spots, Holds after spot.place (spot.blob.container layout)
  apart : spots.Pairwise fun first second => (first.piece layout).Apart (second.piece layout)
  shows : ∀ memory, Like layout spots memory before after start stop → Shows memory

/-- What is like the result of a step is like the result of each part of the step. -/
theorem Like.mono {spots : List Spot} {memory before after before' : Bytes}
    {start stop lower upper : Nat} (h : Like layout spots memory before after start stop)
    (hrange : before.length ≤ lower ∧ upper ≤ after.length)
    (hnew : before.length ≤ before'.length) :
    Like layout spots memory before' after lower upper where
  grows := h.grows
  same i hi hclear := h.same i (by omega) hclear

/-- What a step has written apart from its containers is found in every memory that is like its
result. -/
theorem Holds.shown {spots : List Spot} {memory before after data : Bytes}
    {start stop place : Nat} (h : Holds after place data)
    (hlike : Like layout spots memory before after start stop)
    (hwithin : before.length ≤ place ∨ start ≤ place ∧ place + data.length ≤ stop)
    (hclear : ∀ spot ∈ spots, Piece.Apart (place, data) (spot.piece layout)) :
    Holds memory place data := by
  intro i hi
  have hlt := h.lt_length hi
  rw [hlike.same (place + i) (by omega), h i hi]
  rintro spot hspot ⟨hlower, hupper⟩
  have hapart := hclear spot hspot
  simp only [Piece.Apart, Spot.piece] at hapart
  omega

theorem Writes.le_length {before after : Bytes} {start stop : Nat} {spots : List Spot}
    {Shows : Bytes → Prop} (h : Writes layout before after start stop spots Shows) {spot : Spot}
    (hspot : spot ∈ spots) :
    spot.place + (spot.blob.container layout).length ≤ after.length :=
  (h.holds spot hspot).le_length (length_container_pos layout spot.blob)

/-- Two steps one after the other, the second writing behind the first. -/
theorem Writes.append {first second third : Bytes} {start middle next stop : Nat}
    {spots spots' : List Spot} {Shows Shows' : Bytes → Prop}
    (h : Writes layout first second start middle spots Shows)
    (h' : Writes layout second third next stop spots' Shows')
    (hmiddle : start ≤ middle ∧ middle ≤ next) (hnext : next ≤ stop)
    (hstop : stop ≤ first.length) :
    Writes layout first third start stop (spots ++ spots')
      fun memory => Shows memory ∧ Shows' memory := by
  have hgrows := h.kept.grows
  have hgrows' := h'.kept.grows
  constructor
  case kept => exact (h.kept.widen le_rfl (by omega)).trans h'.kept (Or.inr (by omega))
  case new =>
    intro spot hspot
    rcases List.mem_append.mp hspot with hspot | hspot
    · exact h.new spot hspot
    · exact hgrows.trans (h'.new spot hspot)
  case holds =>
    intro spot hspot
    rcases List.mem_append.mp hspot with hspot | hspot
    · have hnew := h.new spot hspot
      exact (h.holds spot hspot).kept h'.kept (Or.inr (by omega))
    · exact h'.holds spot hspot
  case apart =>
    refine List.pairwise_append.mpr ⟨h.apart, h'.apart, fun spot hspot spot' hspot' => ?_⟩
    exact Or.inl ((h.le_length hspot).trans (h'.new spot' hspot'))
  case shows =>
    intro memory hlike
    constructor
    · refine h.shows memory ⟨hgrows'.trans hlike.grows, fun i hi hclear => ?_⟩
      rw [hlike.same i (by omega), h'.kept.same i (by omega) (by omega)]
      intro spot hspot hcovers
      rcases List.mem_append.mp hspot with hspot | hspot
      · exact hclear spot hspot hcovers
      · have hnew := h'.new spot hspot
        have hlower := hcovers.1
        omega
    · refine h'.shows memory ⟨hlike.grows, fun i hi hclear => ?_⟩
      refine hlike.same i (by omega) fun spot hspot hcovers => ?_
      rcases List.mem_append.mp hspot with hspot | hspot
      · have hnew := h.new spot hspot
        have hinside := h.le_length hspot
        have hlower := hcovers.1
        have hupper := hcovers.2
        omega
      · exact hclear spot hspot hcovers

theorem Writes.imp {before after : Bytes} {start stop : Nat} {spots : List Spot}
    {Shows Shows' : Bytes → Prop} (h : Writes layout before after start stop spots Shows)
    (himp : ∀ memory, Shows memory → Shows' memory) :
    Writes layout before after start stop spots Shows' :=
  { h with shows := fun memory hlike => himp memory (h.shows memory hlike) }

/-- New objects show their pieces, whatever the container among these holds. -/
theorem writes_lay {arena : Arena} {size size' start stop : Nat} {pieces pieces' : List Piece}
    {spot : Spot} (h : (arena.grow size).Inside pieces)
    (h' : (((arena.grow size).putEach pieces).grow size').Inside
      (pieces' ++ [spot.piece layout]))
    (hapart : (pieces ++ pieces' ++ [spot.piece layout]).Pairwise Piece.Apart)
    (hwithin : ∀ piece ∈ pieces ++ pieces',
      arena.bytes.length ≤ piece.1 ∨ start ≤ piece.1 ∧ piece.1 + piece.2.length ≤ stop)
    (hnew : arena.bytes.length ≤ spot.place) :
    Writes layout arena.bytes
      (arena.lay size pieces size' (pieces' ++ [spot.piece layout])).bytes start stop [spot]
      fun memory => (∀ piece ∈ pieces ++ pieces', Holds memory piece.1 piece.2) ∧
        spot.place + (spot.blob.container layout).length ≤ memory.length := by
  rw [List.append_assoc] at hapart
  have hheld : ∀ piece ∈ pieces ++ (pieces' ++ [spot.piece layout]),
      Holds (arena.lay size pieces size' (pieces' ++ [spot.piece layout])).bytes piece.1 piece.2 :=
    fun piece hpiece => Arena.holds_lay h h' hapart hpiece
  have hspot := hheld (spot.piece layout) (by simp)
  constructor
  case kept =>
    apply Arena.kept_lay h h'
    intro piece hpiece
    rw [← List.append_assoc, List.mem_append, List.mem_singleton] at hpiece
    rcases hpiece with hpiece | rfl
    · exact hwithin piece hpiece
    · exact Or.inl hnew
  case new => simpa using hnew
  case holds =>
    intro other hother
    obtain rfl := List.mem_singleton.mp hother
    exact hspot
  case apart => exact List.pairwise_singleton _ _
  case shows =>
    intro memory hlike
    constructor
    · intro piece hpiece
      rw [← List.append_assoc] at hapart hheld
      have hclear := (List.pairwise_append.mp hapart).2.2 piece hpiece
      refine (hheld piece (List.mem_append_left _ hpiece)).shown hlike (hwithin piece hpiece) ?_
      simpa using hclear
    · exact (hspot.le_length (length_container_pos layout spot.blob)).trans hlike.grows

end Steps

section Entering

variable (layout : Layout) (base : Address) {α : Type}
  {At : Bytes → Nat → α → List Spot → Prop}

/-- Whether a slot has a pointer to a structure for the item. -/
def Entered (At : Bytes → Nat → α → List Spot → Prop) (slot : Nat) (item : α)
    (spots : List Spot) (memory : Bytes) : Prop :=
  ∃ target, Holds memory slot (pointerBytes base target) ∧ At memory target item spots

/-- Whether a function writes the structure of an item and enters it. -/
def Enters (write : Arena → Nat → α → Arena) (At : Bytes → Nat → α → List Spot → Prop) : Prop :=
  ∀ arena slot item, slot + 8 ≤ arena.bytes.length → ∃ spots,
    Writes layout arena.bytes (write arena slot item).bytes slot (slot + 8) spots
      (Entered base At slot item spots)

variable {layout base}

/-- **A table gets an entry for each item.** -/
theorem writes_fillTable {write : Arena → Nat → α → Arena} (hwrite : Enters layout base write At)
    {stride : Nat} (hstride : 8 ≤ stride) (items : List α) {arena : Arena} (slot : Nat)
    (hroom : slot + stride * items.length ≤ arena.bytes.length) :
    ∃ spots, Writes layout arena.bytes (Image.fillTable write stride arena slot items).bytes slot
      (slot + stride * items.length) spots fun memory =>
        Entries base At stride memory slot items spots := by
  induction items generalizing arena slot with
  | nil => exact ⟨[], ⟨le_rfl, fun _ _ _ => rfl⟩, nofun, nofun, .nil, fun _ _ => .nil⟩
  | cons item items ih =>
      rw [List.length_cons, Nat.mul_succ] at hroom
      obtain ⟨first, hfirst⟩ := hwrite arena slot item (by omega)
      have hgrows := hfirst.kept.grows
      obtain ⟨rest, hrest⟩ := ih (slot + stride) (Nat.le_trans (by omega) hgrows)
      have hboth := hfirst.append hrest (by omega) (by omega) (by omega)
      refine ⟨first ++ rest, ?_⟩
      rw [List.length_cons, Nat.mul_succ, Nat.add_comm (stride * items.length), ← Nat.add_assoc]
      refine hboth.imp ?_
      rintro memory ⟨⟨target, hpointer, hentry⟩, hlater⟩
      exact .cons hpointer hentry hlater

end Entering

/-! ### Structures with lists -/

namespace ListShape

section Entering

variable (shape : ListShape) (base : Address) (pointerSize : Nat) (arena : Arena) (slot : Nat)

/-- What is written at once when a structure gets its place. -/
def opening : List Piece :=
  (slot, pointerBytes base arena.nextPlace) ::
    shape.marks.map fun mark => (arena.nextPlace + mark.1, mark.2)

/-- The place of the table. -/
def table : Nat :=
  ((arena.grow (shape.size pointerSize)).putEach (shape.opening base arena slot)).nextPlace

/-- What is written once the table has its place. -/
def closing (count : Nat) : List Piece :=
  [(arena.nextPlace + shape.list, pointerBytes base (shape.table base pointerSize arena slot)),
   (arena.nextPlace + shape.count, LittleEndian.encode 4 count)]

/-- The arena with a structure that is entered at the slot, its table being empty. -/
def frame (count : Nat) : Arena :=
  arena.lay (shape.size pointerSize) (shape.opening base arena slot) (shape.stride * count)
    (shape.closing base pointerSize arena slot count)

/-- Writes a structure with its list and enters it at the slot. -/
def enter {α : Type} (write : Arena → Nat → α → Arena) (items : List α) : Arena :=
  Image.fillTable write shape.stride (shape.frame base pointerSize arena slot items.length)
    (shape.table base pointerSize arena slot) items

end Entering

section Frame

variable {shape : ListShape} (base : Address) {pointerSize : Nat} {arena : Arena} {slot : Nat}

/-- All that is written for a structure, in its order. -/
theorem pieces_eq (count : Nat) :
    shape.opening base arena slot ++ shape.closing base pointerSize arena slot count
      = (slot, pointerBytes base arena.nextPlace) ::
        (shape.marks ++ [(shape.list, pointerBytes base (shape.table base pointerSize arena slot)),
          (shape.count, LittleEndian.encode 4 count)]).map
            fun field => (arena.nextPlace + field.1, field.2) := by
  simp [opening, closing]

theorem fields_eq (table count : Nat) :
    (shape.marks ++ [(shape.list, pointerBytes base table),
      (shape.count, LittleEndian.encode 4 count)]).map (fun field => (field.1, field.2.length))
      = shape.fields := by
  simp [fields]

/-- Every piece fills the slot or lies inside the structure. -/
theorem piece_cases (count : Nat) (hfits : Fits (shape.size pointerSize) shape.fields)
    {piece : Piece} (hmem : piece ∈ shape.opening base arena slot
      ++ shape.closing base pointerSize arena slot count) :
    piece.1 = slot ∧ piece.2.length = 8 ∨
      arena.nextPlace ≤ piece.1 ∧
        piece.1 + piece.2.length ≤ arena.nextPlace + shape.size pointerSize := by
  rw [pieces_eq] at hmem
  rcases List.mem_cons.mp hmem with rfl | hmem
  · exact Or.inl ⟨rfl, length_pointerBytes base _⟩
  · obtain ⟨field, hfield, rfl⟩ := List.mem_map.mp hmem
    have hfield' := List.mem_map_of_mem (f := fun field : Piece => (field.1, field.2.length)) hfield
    rw [fields_eq] at hfield'
    have hinside := hfits.2 (field.1, field.2.length) hfield'
    refine Or.inr ⟨Nat.le_add_right _ _, ?_⟩
    dsimp only at hinside ⊢
    omega

theorem pairwise_pieces (hfits : Fits (shape.size pointerSize) shape.fields)
    (hslot : slot + 8 ≤ arena.bytes.length) (count : Nat) :
    (shape.opening base arena slot ++ shape.closing base pointerSize arena slot count).Pairwise
      Piece.Apart := by
  have hnext := arena.length_le_nextPlace
  rw [pieces_eq]
  refine List.pairwise_cons.mpr ⟨fun piece hpiece => ?_, ?_⟩
  · obtain ⟨field, -, rfl⟩ := List.mem_map.mp hpiece
    left
    rw [length_pointerBytes]
    omega
  · have hfields := hfits.1
    rw [← fields_eq base (shape.table base pointerSize arena slot) count,
      List.pairwise_map] at hfields
    refine List.pairwise_map.mpr (hfields.imp fun {first second} hapart => ?_)
    unfold Piece.Apart
    dsimp only
    omega

theorem inside_opening (hfits : Fits (shape.size pointerSize) shape.fields)
    (hslot : slot + 8 ≤ arena.bytes.length) :
    (arena.grow (shape.size pointerSize)).Inside (shape.opening base arena slot) := by
  have hnext := arena.length_le_nextPlace
  intro piece hpiece
  rw [Arena.length_grow]
  rcases piece_cases base 0 hfits (List.mem_append_left _ hpiece) with h | h
  · omega
  · omega

theorem le_table (hfits : Fits (shape.size pointerSize) shape.fields)
    (hslot : slot + 8 ≤ arena.bytes.length) :
    arena.nextPlace + shape.size pointerSize ≤ shape.table base pointerSize arena slot := by
  have hnext := ((arena.grow (shape.size pointerSize)).putEach
    (shape.opening base arena slot)).length_le_nextPlace
  rw [Arena.length_putEach (inside_opening base hfits hslot), Arena.length_grow] at hnext
  exact Nat.le_trans (by omega) hnext

theorem inside_closing (hfits : Fits (shape.size pointerSize) shape.fields)
    (hslot : slot + 8 ≤ arena.bytes.length) (count : Nat) :
    (((arena.grow (shape.size pointerSize)).putEach (shape.opening base arena slot)).grow
      (shape.stride * count)).Inside (shape.closing base pointerSize arena slot count) := by
  have hnext := arena.length_le_nextPlace
  have htable := le_table base hfits hslot
  intro piece hpiece
  rw [Arena.length_grow]
  change _ ≤ shape.table base pointerSize arena slot + _
  rcases piece_cases base _ hfits (List.mem_append_right _ hpiece) with h | h
  · omega
  · omega

end Frame

/-- **A structure with a list is written and entered.** -/
theorem enters_enter {shape : ListShape} {layout : Layout} {base : Address} {pointerSize : Nat}
    {α : Type} {write : Arena → Nat → α → Arena} {At : Bytes → Nat → α → List Spot → Prop}
    (hwrite : Enters layout base write At) (hstride : 8 ≤ shape.stride)
    (hfits : Fits (shape.size pointerSize) shape.fields) :
    Enters layout base (shape.enter base pointerSize · · write ·) (ListAt base shape At) := by
  intro arena slot items hslot
  change ∃ spots, Writes layout _ (shape.enter base pointerSize arena slot write items).bytes
    _ _ _ _
  unfold enter
  have hnext := arena.length_le_nextPlace
  have hopening := inside_opening base hfits hslot
  have hclosing := inside_closing base hfits hslot items.length
  have htable := le_table base hfits hslot
  have hlength : (shape.frame base pointerSize arena slot items.length).bytes.length
      = shape.table base pointerSize arena slot + max (shape.stride * items.length) 1 :=
    Arena.length_lay hclosing
  have hkept : Kept arena.bytes (shape.frame base pointerSize arena slot items.length).bytes
      slot (slot + 8) := by
    apply Arena.kept_lay hopening hclosing
    intro piece hpiece
    rcases piece_cases base _ hfits hpiece with h | h
    · exact Or.inr (by omega)
    · exact Or.inl (by omega)
  obtain ⟨spots, hfill⟩ := writes_fillTable hwrite hstride items
    (shape.table base pointerSize arena slot)
    (show _ ≤ (shape.frame base pointerSize arena slot items.length).bytes.length by omega)
  have hgrows := hfill.kept.grows
  refine ⟨spots, hkept.trans hfill.kept (Or.inl (by omega)), fun spot hspot => ?_, hfill.holds,
    hfill.apart, fun memory hlike => ?_⟩
  · have hnew := hfill.new spot hspot
    omega
  -- the table fills up behind the structure, so what the structure holds stays
  have hheld : ∀ piece ∈ shape.opening base arena slot
      ++ shape.closing base pointerSize arena slot items.length,
        Holds memory piece.1 piece.2 := by
    intro piece hpiece
    have hlaid := Arena.holds_lay hopening hclosing (pairwise_pieces base hfits hslot _) hpiece
    have hcases := piece_cases base _ hfits hpiece
    refine (hlaid.kept hfill.kept (Or.inl (by omega))).shown hlike (by omega) fun spot hspot => ?_
    have hnew := hfill.new spot hspot
    left
    change piece.1 + piece.2.length ≤ spot.place
    omega
  rw [pieces_eq] at hheld
  have hfields : ∀ field ∈ shape.marks ++
      [(shape.list, pointerBytes base (shape.table base pointerSize arena slot)),
       (shape.count, LittleEndian.encode 4 items.length)],
        Holds memory (arena.nextPlace + field.1) field.2 := by
    intro field hfield
    exact hheld _ (List.mem_cons_of_mem _ (List.mem_map_of_mem hfield))
  have hentries := hfill.shows memory (hlike.mono (by omega) (by omega))
  refine ⟨arena.nextPlace, hheld _ List.mem_cons_self, ?_⟩
  refine .mk ?_ (hfields (shape.list, pointerBytes base _) (by simp))
    (hfields (shape.count, LittleEndian.encode 4 items.length) (by simp)) hentries
  intro mark hmark
  exact hfields mark (List.mem_append_left _ hmark)

end ListShape

/-! ### The structures of a shader -/

section Structures

variable {layout : Layout} (h : layout.WellFormed) {base : Address}

include h

/-- **A sub-program is written with its blob.** -/
theorem enters_putBlob :
    Enters layout base (Image.putBlob layout base) (SubProgramAt layout base) := by
  intro arena slot blob hslot
  have hnext := arena.length_le_nextPlace
  have hpointer := h.pointer
  have hoffset := h.containerOffset_pos blob
  let size := layout.subProgramBlob.toNat + layout.pointerSize.toNat
  let size' := blob.containerOffset layout + (blob.container layout).length
  let opening : List Piece := [(slot, pointerBytes base arena.nextPlace)]
  let target := ((arena.grow size).putEach opening).nextPlace
  let closing : List Piece :=
    [(arena.nextPlace + layout.subProgramBlob.toNat, pointerBytes base target),
     (target, [blob.kind])]
  let spot : Spot := ⟨target + blob.containerOffset layout, blob⟩
  have hopening : (arena.grow size).Inside opening := by
    intro piece hpiece
    obtain rfl := List.mem_singleton.mp hpiece
    rw [Arena.length_grow, length_pointerBytes]
    omega
  have htarget : arena.nextPlace + max size 1 ≤ target := by
    have hle := ((arena.grow size).putEach opening).length_le_nextPlace
    rwa [Arena.length_putEach hopening, Arena.length_grow] at hle
  have hclosing : (((arena.grow size).putEach opening).grow size').Inside
      (closing ++ [spot.piece layout]) := by
    intro piece hpiece
    rw [Arena.length_grow]
    change _ ≤ target + max size' 1
    simp only [closing, spot, Spot.piece, List.cons_append, List.nil_append, List.mem_cons,
      List.not_mem_nil, or_false] at hpiece
    rcases hpiece with rfl | rfl | rfl
    · simp only [length_pointerBytes]
      omega
    · simp only [List.length_singleton]
      omega
    · dsimp only
      omega
  have happart : (opening ++ closing ++ [spot.piece layout]).Pairwise Piece.Apart := by
    simp only [opening, closing, spot, Spot.piece, List.cons_append, List.nil_append,
      List.pairwise_cons, List.mem_cons, List.not_mem_nil, or_false, forall_eq_or_imp, forall_eq,
      Piece.Apart, length_pointerBytes, List.length_singleton]
    refine ⟨by omega, by omega, by omega, fun _ hfalse => hfalse.elim, .nil⟩
  have hwithin : ∀ piece ∈ opening ++ closing, arena.bytes.length ≤ piece.1 ∨
      slot ≤ piece.1 ∧ piece.1 + piece.2.length ≤ slot + 8 := by
    simp only [opening, closing, List.cons_append, List.nil_append, List.mem_cons,
      List.not_mem_nil, or_false, forall_eq_or_imp, forall_eq, length_pointerBytes]
    omega
  refine ⟨[spot], (writes_lay hopening hclosing happart hwithin ?_).imp ?_⟩
  · change arena.bytes.length ≤ target + blob.containerOffset layout
    omega
  · rintro memory ⟨hheld, hinside⟩
    refine ⟨arena.nextPlace, ?_, ?_⟩
    · exact hheld (slot, pointerBytes base arena.nextPlace) (by simp [opening])
    constructor
    · exact hheld (_, pointerBytes base target) (by simp [closing])
    · exact hheld (target, [blob.kind]) (by simp [closing])
    · exact hinside

/-- **A program is written with its sub-programs.** -/
theorem enters_putProgram :
    Enters layout base (Image.putProgram layout base) (ProgramAt layout base) :=
  ListShape.enters_enter (enters_putBlob h) h.pointer h.program

/-- **A pass is written with its program**, or with a null pointer instead. -/
theorem enters_putPass : Enters layout base (Image.putPass layout base) (PassAt layout base) := by
  intro arena slot pass hslot
  have hnext := arena.length_le_nextPlace
  have hpointer := h.pointer
  let size := layout.passProgram.toNat + layout.pointerSize.toNat
  let laid := (arena.grow size).put slot (pointerBytes base arena.nextPlace)
  have hroom : slot + (pointerBytes base arena.nextPlace).length
      ≤ (arena.grow size).bytes.length := by
    rw [Arena.length_grow, length_pointerBytes]
    omega
  have hlength : laid.bytes.length = arena.nextPlace + max size 1 := by
    rw [Arena.length_put hroom, Arena.length_grow]
  have hput := Arena.kept_put hroom
  rw [length_pointerBytes] at hput
  have hkept : Kept arena.bytes laid.bytes slot (slot + 8) :=
    (arena.kept_grow size slot (slot + 8)).trans hput (Or.inr ⟨le_rfl, le_rfl⟩)
  have hslotted : Holds laid.bytes slot (pointerBytes base arena.nextPlace) :=
    Arena.holds_put hroom
  have hnull : Holds laid.bytes (arena.nextPlace + layout.passProgram.toNat)
      (List.replicate 8 0) :=
    (Arena.holds_grow (by omega) (by omega)).kept hput (Or.inr (by omega))
  cases pass with
  | none =>
      refine ⟨[], hkept, nofun, nofun, .nil, fun memory hlike => ⟨arena.nextPlace, ?_, .null ?_⟩⟩
      · exact hslotted.shown hlike (Or.inr (by simp)) nofun
      · exact hnull.shown hlike (Or.inl (by omega)) nofun
  | some blobs =>
      obtain ⟨spots, hprogram⟩ := enters_putProgram h laid
        (arena.nextPlace + layout.passProgram.toNat) blobs (by omega)
      have hgrows := hprogram.kept.grows
      change ∃ spots, Writes layout arena.bytes (Image.putProgram layout base laid
        (arena.nextPlace + layout.passProgram.toNat) blobs).bytes slot (slot + 8) spots _
      refine ⟨spots, hkept.trans hprogram.kept (Or.inl (by omega)), fun spot hspot => ?_,
        hprogram.holds, hprogram.apart, fun memory hlike => ?_⟩
      · have hnew := hprogram.new spot hspot
        omega
      · have hheld := hslotted.kept hprogram.kept
          (Or.inl (by rw [length_pointerBytes]; omega))
        obtain ⟨target, hpointer, hentry⟩ := hprogram.shows memory
          (hlike.mono (by omega) (by omega))
        refine ⟨arena.nextPlace, hheld.shown hlike (Or.inr (by simp)) fun spot hspot => ?_,
          .program hpointer hentry⟩
        have hnew := hprogram.new spot hspot
        left
        change slot + (pointerBytes base arena.nextPlace).length ≤ spot.place
        rw [length_pointerBytes]
        omega

/-- **A sub-shader is written with its passes.** -/
theorem enters_putSubShader :
    Enters layout base (Image.putSubShader layout base) (SubShaderAt layout base) :=
  ListShape.enters_enter (enters_putPass h) h.stride h.subShader

end Structures

/-- Whether an image has each container at a spot of its own, and structures that lead to these
spots in every memory that is like the image but for the containers. -/
structure Stands (layout : Layout) (base : Address) (image : Bytes) (subShaders : List SubShader)
    (spots : List Spot) : Prop where
  holds : ∀ spot ∈ spots, Holds image spot.place (spot.blob.container layout)
  apart : spots.Pairwise fun first second => (first.piece layout).Apart (second.piece layout)
  frame : ∀ memory : Bytes, image.length ≤ memory.length →
    (∀ i, (∀ spot ∈ spots, ¬ spot.Covers layout i) → memory[i]? = image[i]?) →
      FrameAt layout base memory 0 subShaders spots

/-- **A written image stands on its structures.** -/
theorem stands_putShader {layout : Layout} (h : layout.WellFormed) (base : Address)
    (subShaders : List SubShader) :
    ∃ spots, Stands layout base (Image.putShader layout base subShaders).bytes subShaders
      spots := by
  have hpointer := h.pointer
  let start := Arena.grow ⟨[]⟩ (layout.shaderInternal.toNat + layout.pointerSize.toNat)
  have hroom : layout.shaderInternal.toNat + 8 ≤ start.bytes.length := by
    rw [Arena.length_grow]
    omega
  have himage : Image.putShader layout base subShaders
      = layout.internalShape.enter base layout.pointerSize.toNat start
          layout.shaderInternal.toNat (Image.putSubShader layout base) subShaders := by
    simp only [Image.putShader, show (⟨[]⟩ : Arena).nextPlace = 0 from rfl, Nat.zero_add]
    rfl
  have henters : Enters layout base
      (layout.internalShape.enter base layout.pointerSize.toNat · ·
        (Image.putSubShader layout base) ·)
      (ListAt base layout.internalShape (SubShaderAt layout base)) :=
    ListShape.enters_enter (enters_putSubShader h) h.pointer h.internal
  obtain ⟨spots, hwrites⟩ := henters start layout.shaderInternal.toNat subShaders hroom
  rw [himage]
  refine ⟨spots, hwrites.holds, hwrites.apart, fun memory hgrows hsame => ?_⟩
  obtain ⟨target, hheld, hinternal⟩ := hwrites.shows memory ⟨hgrows, fun i _ => hsame i⟩
  exact .mk (by rwa [Nat.zero_add]) hinternal

/-- **A written image has the structures of its shader.** -/
theorem shaderAt_putShader {layout : Layout} (h : layout.WellFormed) (base : Address)
    (subShaders : List SubShader) :
    ∃ spots, ShaderAt layout base (Image.putShader layout base subShaders).bytes 0 subShaders
      spots := by
  obtain ⟨spots, hstands⟩ := stands_putShader h base subShaders
  exact ⟨spots, hstands.frame _ le_rfl fun _ _ => rfl, hstands.holds⟩

end ShaderMend.Bytecode
