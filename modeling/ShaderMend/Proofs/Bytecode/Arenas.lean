import Mathlib
import ShaderMend.Bytecode.Image

/-!
# What memory holds

Memory that grows is written piece by piece. A piece stays where nothing else is written.

* `Holds` — some bytes are found at a place.
* `Kept` — one memory came from another by growth and by writing in one range.
* `kept_lay`, `holds_lay` — two new objects at the end of an arena keep what was there, and
  hold all pieces that are written into them.
-/

namespace ShaderMend.Bytecode

/-! ### Bytes at a place -/

/-- Whether the data are found at the place. -/
def Holds (memory : Bytes) (place : Nat) (data : Bytes) : Prop :=
  ∀ i, i < data.length → memory[place + i]? = data[i]?

namespace Holds

variable {memory : Bytes} {place : Nat} {data : Bytes}

theorem append_iff {more : Bytes} :
    Holds memory place (data ++ more) ↔
      Holds memory place data ∧ Holds memory (place + data.length) more := by
  constructor
  · intro h
    constructor
    · intro i hi
      rw [h i (by simp; omega), List.getElem?_append_left hi]
    · intro i hi
      rw [Nat.add_assoc, h (data.length + i) (by simpa using hi),
        List.getElem?_append_right (Nat.le_add_right _ _), Nat.add_sub_cancel_left]
  · rintro ⟨hdata, hmore⟩ i hi
    by_cases hlt : i < data.length
    · rw [hdata i hlt, List.getElem?_append_left hlt]
    · have hge : data.length ≤ i := Nat.le_of_not_lt hlt
      have hplace : place + i = place + data.length + (i - data.length) := by omega
      rw [hplace, hmore (i - data.length) (by simp at hi; omega),
        List.getElem?_append_right hge]

theorem lt_length (h : Holds memory place data) {i : Nat} (hi : i < data.length) :
    place + i < memory.length := by
  have hsome := h i hi
  rw [List.getElem?_eq_getElem hi] at hsome
  exact (List.getElem?_eq_some_iff.mp hsome).1

theorem le_length (h : Holds memory place data) (hdata : 0 < data.length) :
    place + data.length ≤ memory.length := by
  have hlast := h.lt_length (Nat.sub_lt hdata Nat.one_pos)
  omega

theorem unique {other : Bytes} (h : Holds memory place data) (h' : Holds memory place other)
    (hlength : data.length = other.length) : data = other := by
  apply List.ext_getElem?
  intro i
  by_cases hi : i < data.length
  · rw [← h i hi, h' i (hlength ▸ hi)]
  · rw [List.getElem?_eq_none (Nat.le_of_not_lt hi),
      List.getElem?_eq_none (hlength ▸ Nat.le_of_not_lt hi)]

theorem take_drop (h : Holds memory place data) :
    (memory.drop place).take data.length = data := by
  apply List.ext_getElem?
  intro i
  by_cases hi : i < data.length
  · rw [List.getElem?_take_of_lt hi, List.getElem?_drop, h i hi]
  · have hlength : ((memory.drop place).take data.length).length ≤ i := by simp; omega
    rw [List.getElem?_eq_none hlength, List.getElem?_eq_none (Nat.le_of_not_lt hi)]

theorem of_take_drop (memory : Bytes) (place count : Nat) :
    Holds memory place ((memory.drop place).take count) := by
  intro i hi
  rw [List.length_take] at hi
  rw [List.getElem?_take_of_lt (by omega), List.getElem?_drop]

theorem of_append (before data after : Bytes) :
    Holds (before ++ data ++ after) before.length data := by
  intro i hi
  rw [List.append_assoc, List.getElem?_append_right (Nat.le_add_right _ _),
    Nat.add_sub_cancel_left, List.getElem?_append_left hi]

end Holds

/-! ### What changes -/

/-- Whether a memory came from another by growth and by writing from one place up to
another. -/
structure Kept (before after : Bytes) (start stop : Nat) : Prop where
  grows : before.length ≤ after.length
  same : ∀ i, i < before.length → i < start ∨ stop ≤ i → after[i]? = before[i]?

theorem Kept.trans {first second third : Bytes} {start stop lower upper : Nat}
    (h : Kept first second start stop) (h' : Kept second third lower upper)
    (hwithin : first.length ≤ lower ∨ start ≤ lower ∧ upper ≤ stop) :
    Kept first third start stop where
  grows := h.grows.trans h'.grows
  same i hi hout := by
    have hgrows := h.grows
    rw [h'.same i (by omega) (by omega), h.same i hi hout]

theorem Kept.widen {before after : Bytes} {start stop lower upper : Nat}
    (h : Kept before after lower upper) (hstart : start ≤ lower) (hstop : upper ≤ stop) :
    Kept before after start stop where
  grows := h.grows
  same i hi hout := h.same i hi (by omega)

/-- What lies outside of the range is still found. -/
theorem Holds.kept {before after : Bytes} {start stop place : Nat} {data : Bytes}
    (h : Holds before place data) (hkept : Kept before after start stop)
    (hapart : place + data.length ≤ start ∨ stop ≤ place) : Holds after place data := by
  intro i hi
  rw [hkept.same (place + i) (h.lt_length hi) (by omega), h i hi]

/-! ### Growing and writing -/

/-- Data with the place to write them to. -/
abbrev Piece := Nat × Bytes

/-- Whether two pieces have no place in common. -/
def Piece.Apart (first second : Piece) : Prop :=
  first.1 + first.2.length ≤ second.1 ∨ second.1 + second.2.length ≤ first.1

namespace Arena

variable {arena : Arena}

theorem length_le_nextPlace (arena : Arena) : arena.bytes.length ≤ arena.nextPlace := by
  unfold nextPlace
  omega

@[simp] theorem length_grow (arena : Arena) (size : Nat) :
    (arena.grow size).bytes.length = arena.nextPlace + max size 1 := by
  have hnext := arena.length_le_nextPlace
  simp only [grow, List.length_append, List.length_replicate]
  omega

theorem getElem?_grow_of_lt {i : Nat} (size : Nat) (hi : i < arena.bytes.length) :
    (arena.grow size).bytes[i]? = arena.bytes[i]? := by
  simp only [grow, List.append_assoc]
  exact List.getElem?_append_left hi

/-- New memory is zero. -/
theorem holds_grow {place count size : Nat} (hplace : arena.bytes.length ≤ place)
    (hstop : place + count ≤ arena.nextPlace + max size 1) :
    Holds (arena.grow size).bytes place (List.replicate count 0) := by
  have hnext := arena.length_le_nextPlace
  intro i hi
  rw [List.length_replicate] at hi
  simp only [grow, List.append_assoc, List.replicate_append_replicate]
  rw [List.getElem?_append_right (by omega), List.getElem?_replicate, List.getElem?_replicate,
    if_pos hi, if_pos (by omega)]

theorem kept_grow (arena : Arena) (size start stop : Nat) :
    Kept arena.bytes (arena.grow size).bytes start stop where
  grows := by
    have hnext := arena.length_le_nextPlace
    simp only [length_grow]
    omega
  same _ hi _ := getElem?_grow_of_lt size hi

section Put

variable {place : Nat} {data : Bytes} (h : place + data.length ≤ arena.bytes.length)

include h

theorem length_put : (arena.put place data).bytes.length = arena.bytes.length := by
  simp only [put, List.length_append, List.length_take, List.length_drop]
  omega

theorem getElem?_put_of_apart {i : Nat} (hi : i < place ∨ place + data.length ≤ i) :
    (arena.put place data).bytes[i]? = arena.bytes[i]? := by
  have htake : (arena.bytes.take place).length = place := by
    rw [List.length_take]
    omega
  simp only [put, List.append_assoc]
  rcases hi with hi | hi
  · rw [List.getElem?_append_left (by omega), List.getElem?_take_of_lt hi]
  · rw [List.getElem?_append_right (by omega), List.getElem?_append_right (by omega),
      List.getElem?_drop]
    congr 1
    omega

theorem holds_put : Holds (arena.put place data).bytes place data := by
  have htake : (arena.bytes.take place).length = place := by
    rw [List.length_take]
    omega
  intro i hi
  simp only [put, List.append_assoc]
  rw [List.getElem?_append_right (by omega), List.getElem?_append_left (by omega), htake,
    Nat.add_sub_cancel_left]

theorem kept_put : Kept arena.bytes (arena.put place data).bytes place (place + data.length) where
  grows := (length_put h).ge
  same _ _ hout := getElem?_put_of_apart h hout

end Put

/-! ### Several pieces -/

/-- The arena after pieces were written one after the other. -/
def putEach (arena : Arena) (pieces : List Piece) : Arena :=
  pieces.foldl (fun arena piece => arena.put piece.1 piece.2) arena

/-- Whether all pieces lie below the end. -/
def Inside (arena : Arena) (pieces : List Piece) : Prop :=
  ∀ piece ∈ pieces, piece.1 + piece.2.length ≤ arena.bytes.length

theorem Inside.tail {piece : Piece} {pieces : List Piece} (h : arena.Inside (piece :: pieces)) :
    (arena.put piece.1 piece.2).Inside pieces := by
  intro other hother
  rw [length_put (h piece List.mem_cons_self)]
  exact h other (List.mem_cons_of_mem _ hother)

theorem length_putEach {pieces : List Piece} (h : arena.Inside pieces) :
    (arena.putEach pieces).bytes.length = arena.bytes.length := by
  induction pieces generalizing arena with
  | nil => rfl
  | cons piece pieces ih => exact (ih h.tail).trans (length_put (h piece List.mem_cons_self))

/-- Pieces leave alone what has no place in common with them. -/
theorem holds_putEach_of_apart {pieces : List Piece} (h : arena.Inside pieces) {kept : Piece}
    (hkept : Holds arena.bytes kept.1 kept.2) (hapart : ∀ piece ∈ pieces, kept.Apart piece) :
    Holds (arena.putEach pieces).bytes kept.1 kept.2 := by
  induction pieces generalizing arena with
  | nil => exact hkept
  | cons piece pieces ih =>
      have hpiece := hkept.kept (kept_put (h piece List.mem_cons_self))
        (hapart piece List.mem_cons_self)
      exact ih h.tail hpiece fun other hother => hapart other (List.mem_cons_of_mem _ hother)

/-- Pieces that have no place in common are all found. -/
theorem holds_putEach {pieces : List Piece} (h : arena.Inside pieces)
    (hapart : pieces.Pairwise Piece.Apart) {piece : Piece} (hmem : piece ∈ pieces) :
    Holds (arena.putEach pieces).bytes piece.1 piece.2 := by
  induction pieces generalizing arena with
  | nil => cases hmem
  | cons first rest ih =>
      obtain ⟨hfirst, hrest⟩ := List.pairwise_cons.mp hapart
      rcases List.mem_cons.mp hmem with rfl | hmem
      · exact holds_putEach_of_apart h.tail (holds_put (h piece List.mem_cons_self)) hfirst
      · exact ih h.tail hrest hmem

theorem kept_putEach {pieces : List Piece} (h : arena.Inside pieces) {before : Bytes}
    {start stop : Nat} (hkept : Kept before arena.bytes start stop)
    (hwithin : ∀ piece ∈ pieces,
      before.length ≤ piece.1 ∨ start ≤ piece.1 ∧ piece.1 + piece.2.length ≤ stop) :
    Kept before (arena.putEach pieces).bytes start stop := by
  induction pieces generalizing arena with
  | nil => exact hkept
  | cons piece pieces ih =>
      have hpiece := hkept.trans (kept_put (h piece List.mem_cons_self))
        (hwithin piece List.mem_cons_self)
      exact ih h.tail hpiece fun other hother => hwithin other (List.mem_cons_of_mem _ hother)

/-! ### Two new objects -/

/-- The arena with two new objects and with the pieces that are written after each of them. -/
def lay (arena : Arena) (size : Nat) (pieces : List Piece) (size' : Nat) (pieces' : List Piece) :
    Arena :=
  (((arena.grow size).putEach pieces).grow size').putEach pieces'

theorem length_lay {size size' : Nat} {pieces pieces' : List Piece}
    (h' : (((arena.grow size).putEach pieces).grow size').Inside pieces') :
    (arena.lay size pieces size' pieces').bytes.length
      = ((arena.grow size).putEach pieces).nextPlace + max size' 1 := by
  rw [lay, length_putEach h', length_grow]

section Lay

variable {size size' : Nat} {pieces pieces' : List Piece}
  (h : (arena.grow size).Inside pieces)
  (h' : (((arena.grow size).putEach pieces).grow size').Inside pieces')

include h h'

/-- **New objects keep what was there**, but for the range into which they are entered. -/
theorem kept_lay {start stop : Nat}
    (hwithin : ∀ piece ∈ pieces ++ pieces',
      arena.bytes.length ≤ piece.1 ∨ start ≤ piece.1 ∧ piece.1 + piece.2.length ≤ stop) :
    Kept arena.bytes (arena.lay size pieces size' pieces').bytes start stop := by
  have hpieces := kept_putEach h (arena.kept_grow size start stop) fun piece hpiece =>
    hwithin piece (List.mem_append_left _ hpiece)
  have hgrown := hpieces.trans (kept_grow _ size' start stop) (Or.inr ⟨le_rfl, le_rfl⟩)
  exact kept_putEach h' hgrown fun piece hpiece => hwithin piece (List.mem_append_right _ hpiece)

/-- **New objects hold their pieces.** -/
theorem holds_lay (hapart : (pieces ++ pieces').Pairwise Piece.Apart) {piece : Piece}
    (hmem : piece ∈ pieces ++ pieces') :
    Holds (arena.lay size pieces size' pieces').bytes piece.1 piece.2 := by
  obtain ⟨hpieces, hpieces', hbetween⟩ := List.pairwise_append.mp hapart
  rcases List.mem_append.mp hmem with hmem | hmem
  · have hheld := (holds_putEach h hpieces hmem).kept (kept_grow _ size' 0 0)
      (Or.inr (Nat.zero_le _))
    exact holds_putEach_of_apart h' hheld (hbetween piece hmem)
  · exact holds_putEach h' hpieces' hmem

end Lay

end Arena

end ShaderMend.Bytecode
