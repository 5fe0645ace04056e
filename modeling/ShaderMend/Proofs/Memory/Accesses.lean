import ShaderMend.Proofs.Memory.Slices

/-!
# Accesses at any place

Addresses and lengths are 64-bit words, and so is their sum. A view may lie at the very end of the
address space, or reach past it. Here its bytes have places, which are natural numbers and never
wrap around, and an access is judged by these.

* `View.octet?`, `View.Shows`, `View.Covers` — what a view shows at the places.
* `View.Reads` — how an access ends, inside and outside of the view; kept by whatever is made of
  the bytes (`View.Reads.map`).
* `View.accesses_of_view` — slices and all readers of a fixed width are such accesses.
-/

namespace ShaderMend

/-- The number that octets spell, the least significant one first. -/
def Bytes.number (bytes : Bytes) : Nat :=
  Nat.ofDigits 256 (bytes.map UInt8.toNat)

namespace LittleEndian

theorem decode_eq_number (bytes : Bytes) : decode bytes = bytes.number := by
  induction bytes with
  | nil => rfl
  | cons octet rest ih =>
      rw [decode, ih, Bytes.number, Bytes.number, List.map_cons, Nat.ofDigits_cons]

theorem decode_lt_of_length {bytes : Bytes} {width : Nat} (h : bytes.length = width) :
    decode bytes < bound width :=
  h ▸ decode_lt bytes

end LittleEndian

/-- The signed word of the same bits is the number of the word, less `2 ^ 32` from the half on. -/
theorem toInt_toInt32 (word : UInt32) : word.toInt32.toInt = Int.bmod word.toNat (2 ^ 32) :=
  BitVec.toInt_eq_toNat_bmod word.toBitVec

namespace View

/-! ### Places -/

/-- The octet at a place, if the view shows one there. The first place is the base. -/
def octet? (view : View) (place : Nat) : Option UInt8 :=
  if place < view.base.toNat then none else view.bytes[place - view.base.toNat]?

/-- Whether the view shows these bytes from a place on. -/
def Shows (view : View) (place : Nat) (data : Bytes) : Prop :=
  ∀ index (h : index < data.length), view.octet? (place + index) = some data[index]

instance (view : View) (place : Nat) (data : Bytes) : Decidable (view.Shows place data) :=
  inferInstanceAs (Decidable (∀ index (_ : index < data.length), _ = _))

/-- Whether the `count` bytes from a place on lie in the view. Where there are none, the place may
also be the one where the view ends. -/
def Covers (view : View) (place count : Nat) : Prop :=
  view.base.toNat ≤ place ∧ place - view.base.toNat + count ≤ view.extent

instance (view : View) (place count : Nat) : Decidable (view.Covers place count) :=
  inferInstanceAs (Decidable (_ ∧ _))

variable {view : View} {address : Address} {len : UInt64} {data : Bytes}

theorem shows_iff_drop {place : Nat} (h : view.base.toNat ≤ place) :
    view.Shows place data ↔ data <+: view.bytes.drop (place - view.base.toNat) := by
  rw [List.prefix_iff_getElem?]
  refine forall₂_congr fun index _ => ?_
  have hplace : place + index - view.base.toNat = place - view.base.toNat + index := by omega
  rw [octet?, if_neg (by omega), hplace, List.getElem?_drop]

/-- What is shown lies in the view. -/
theorem Shows.covers {place : Nat} (h : view.Shows place data) (hdata : 0 < data.length) :
    view.Covers place data.length := by
  have hbase : view.base.toNat ≤ place := by
    by_contra hbelow
    have hfirst := h 0 hdata
    rw [octet?, if_pos (by omega)] at hfirst
    cases hfirst
  have hlength := ((shows_iff_drop hbase).mp h).length_le
  rw [List.length_drop, ← extent_eq_length] at hlength
  exact ⟨hbase, by omega⟩

section Parts

variable {part whole : View}

/-- What a part shows, the whole shows at the same places. -/
theorem Shows.of_partOf {place : Nat} (hshows : part.Shows place data)
    (h : part.PartOf whole) : whole.Shows place data := by
  intro index hindex
  have hhere := hshows index hindex
  obtain ⟨before, after, hbytes, hbase⟩ := h
  unfold octet? at hhere ⊢
  split at hhere
  · cases hhere
  · -- the whole shows the octet behind the bytes that come before the part
    obtain ⟨hinside, -⟩ := List.getElem?_eq_some_iff.mp hhere
    have hskip : place + index - whole.base.toNat
        = before.length + (place + index - part.base.toNat) := by
      omega
    rw [if_neg (by omega), hbytes, hskip, List.append_assoc,
      List.getElem?_append_right (Nat.le_add_right _ _), Nat.add_sub_cancel_left,
      List.getElem?_append_left hinside, hhere]

theorem Covers.of_partOf {place count : Nat} (hcovers : part.Covers place count)
    (h : part.PartOf whole) : whole.Covers place count := by
  obtain ⟨hbelow, hinside⟩ := hcovers
  obtain ⟨skipped, hbase, hfits, -⟩ := h.exists_skipped
  exact ⟨by omega, by omega⟩

end Parts

/-! ### Slices -/

theorem covers_of_slice (h : view.slice address len = .ok data) :
    view.Covers address.toNat len.toNat ∧ data.length = len.toNat ∧
      view.Shows address.toNat data := by
  have hlength := length_of_slice h
  obtain ⟨start, hplace, hinside, -, rfl⟩ := slice_eq_ok_iff.mp h
  have hstart : address.toNat - view.base.toNat = start := by omega
  refine ⟨⟨by omega, by omega⟩, hlength, (shows_iff_drop (by omega)).mpr ?_⟩
  rw [hstart]
  exact List.take_prefix _ _

/-- Bytes that lie in the view are read. The extent is a 64-bit word, since a length is one. -/
theorem exists_slice (hextent : view.extent < 2 ^ 64)
    (h : view.Covers address.toNat len.toNat) : ∃ data, view.slice address len = .ok data := by
  obtain ⟨hbase, hinside⟩ := h
  exact ⟨_, slice_eq_ok_iff.mpr
    ⟨address.toNat - view.base.toNat, by omega, hinside, by omega, rfl⟩⟩

theorem eq_outOfBounds_of_slice {failure : ViewError}
    (h : view.slice address len = .error failure) :
    failure = .outOfBounds address len view.base view.extent := by
  unfold slice at h
  dsimp only at h
  split at h
  · exact (Except.error.inj h).symm
  · cases h

theorem contains_eq_true_iff (hextent : view.extent < 2 ^ 64) :
    view.contains address len = true ↔ view.Covers address.toNat len.toNat := by
  unfold contains
  constructor
  · intro h
    cases hslice : view.slice address len with
    | error failure => rw [hslice] at h; cases h
    | ok data => exact (covers_of_slice hslice).1
  · intro h
    obtain ⟨data, hdata⟩ := exists_slice hextent h
    rw [hdata]
    rfl

/-! ### Readers -/

/-- How an access to the `len` bytes at an address ends. If they lie in the view, there is a value
that goes with them; if not, the failure tells what was asked for, and where the view lies. -/
inductive Reads {α : Type} (view : View) (address : Address) (len : UInt64)
    (Value : Bytes → α → Prop) : Except ViewError α → Prop
  | inside {value : α} {data : Bytes} (covers : view.Covers address.toNat len.toNat)
      (length : data.length = len.toNat) (shows : view.Shows address.toNat data)
      (isValue : Value data value) : Reads view address len Value (.ok value)
  | outside (uncovered : ¬ view.Covers address.toNat len.toNat) :
      Reads view address len Value (.error (.outOfBounds address len view.base view.extent))

namespace Reads

variable {α β : Type} {Value : Bytes → α → Prop} {result : Except ViewError α}

theorem exists_ok_iff (h : view.Reads address len Value result) :
    (∃ value, result = .ok value) ↔ view.Covers address.toNat len.toNat := by
  cases h with
  | inside covers => exact ⟨fun _ => covers, fun _ => ⟨_, rfl⟩⟩
  | outside uncovered => exact ⟨nofun, fun covers => absurd covers uncovered⟩

/-- What is made of the value goes with the same bytes. -/
theorem map {change : α → β} {Value' : Bytes → β → Prop}
    (h : view.Reads address len Value result)
    (hchange : ∀ data value, data.length = len.toNat → Value data value →
      Value' data (change value)) :
    view.Reads address len Value' (result.map change) := by
  cases h with
  | inside covers length shows isValue =>
      exact .inside covers length shows (hchange _ _ length isValue)
  | outside uncovered => exact .outside uncovered

end Reads

section Readers

variable (hextent : view.extent < 2 ^ 64)

include hextent

theorem reads_slice (len : UInt64) : view.Reads address len Eq (view.slice address len) := by
  cases hslice : view.slice address len with
  | ok data =>
      obtain ⟨hcovers, hlength, hshows⟩ := covers_of_slice hslice
      exact .inside hcovers hlength hshows rfl
  | error failure =>
      rw [eq_outOfBounds_of_slice hslice]
      refine .outside fun hcovers => ?_
      obtain ⟨data, hdata⟩ := exists_slice hextent hcovers
      rw [hslice] at hdata
      cases hdata

/-- A reader of numbers reads the number that the bytes spell, if numbers of their width are
values of its type. -/
theorem reads_number {α : Type} {toNat : α → Nat} {ofNat : Nat → α} {len : UInt64}
    (h : ∀ number < LittleEndian.bound len.toNat, toNat (ofNat number) = number) :
    view.Reads address len (fun data value => toNat value = data.number)
      ((view.slice address len).map fun bytes => ofNat (LittleEndian.decode bytes)) := by
  refine (reads_slice hextent len).map fun data _ hlength hvalue => ?_
  subst hvalue
  rw [h _ (LittleEndian.decode_lt_of_length hlength), LittleEndian.decode_eq_number]

theorem reads_readU32 :
    view.Reads address 4 (fun data word => word.toNat = data.number) (view.readU32 address) :=
  reads_number hextent fun _ => UInt32.toNat_ofNat_of_lt'

theorem reads_readFourCC :
    view.Reads address 4 (fun data tag => tag.toBytes = data ∧ tag.code.toNat = data.number)
      (view.readFourCC address) := by
  refine (reads_slice hextent 4).map fun data _ hlength hvalue => ?_
  subst hvalue
  have hfour : data.length = 4 := hlength
  have hcode : (FourCC.ofBytes data).code.toNat = LittleEndian.decode data := by
    rw [FourCC.ofBytes, List.take_of_length_le hfour.le]
    exact UInt32.toNat_ofNat_of_lt' (LittleEndian.decode_lt_of_length hlength)
  exact ⟨FourCC.toBytes_ofBytes hfour, hcode.trans (LittleEndian.decode_eq_number data)⟩

end Readers

/-- **An access reads what lies at its place, or fails and says so.** Wherever the view lies, and
whatever address and length are asked for, a slice is read exactly if `base ≤ address` and
`(address - base) + len ≤ extent` as natural numbers, and has the `len` bytes of the view from the
address on. The readers succeed exactly where the slice of their width does, with the
little-endian number of these bytes. A failure names the address and the length that were asked
for, and the base and the extent of the view. So an address that wraps around leads nowhere into
the view. The extent of a view, like every length, is a 64-bit word. -/
theorem accesses_of_view (view : View) (hextent : view.extent < 2 ^ 64) (address : Address) :
    (∀ len, view.Reads address len Eq (view.slice address len)) ∧
    (∀ len, view.contains address len = true ↔ view.Covers address.toNat len.toNat) ∧
    view.Reads address 1 (fun data octet => octet.toNat = data.number) (view.readU8 address) ∧
    view.Reads address 4 (fun data word => word.toNat = data.number) (view.readU32 address) ∧
    view.Reads address 4 (fun data word => word.toInt = Int.bmod data.number (2 ^ 32))
      (view.readI32 address) ∧
    view.Reads address 8 (fun data pointer => pointer.toNat = data.number)
      (view.readPointer address) ∧
    view.Reads address 4 (fun data tag => tag.toBytes = data ∧ tag.code.toNat = data.number)
      (view.readFourCC address) := by
  refine ⟨reads_slice hextent, fun len => contains_eq_true_iff hextent,
    reads_number hextent fun _ => UInt8.toNat_ofNat_of_lt',
    reads_readU32 hextent, ?_,
    reads_number hextent fun _ => UInt64.toNat_ofNat_of_lt',
    reads_readFourCC hextent⟩
  refine (reads_readU32 hextent).map fun data word _ hword => ?_
  rw [toInt_toInt32, hword]

/-- A view whose last three bytes lie past the end of the address space. -/
def overhangingView : View :=
  .ofBytes 0xfffffffffffffffe [1, 2, 3, 4, 5]

theorem accesses_of_overhangingView :
    overhangingView.extent < 2 ^ 64 ∧
      overhangingView.Reads 0xfffffffffffffffe 4 (fun data word => word.toNat = data.number)
        (.ok (0x04030201 : UInt32)) ∧
      ¬ ∃ octet, overhangingView.readU8 0 = .ok octet := by
  have hextent : overhangingView.extent < 2 ^ 64 := by decide
  obtain ⟨-, -, -, hword, -⟩ := accesses_of_view overhangingView hextent 0xfffffffffffffffe
  obtain ⟨-, -, hoctet, -⟩ := accesses_of_view overhangingView hextent 0
  have hread : overhangingView.readU32 0xfffffffffffffffe = .ok 0x04030201 := by decide
  rw [hread] at hword
  exact ⟨hextent, hword, fun hfound => absurd (hoctet.exists_ok_iff.mp hfound) (by decide)⟩

end View

end ShaderMend
