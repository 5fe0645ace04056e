import Mathlib
import ShaderMend.Memory.View

/-!
# What a view lets through

A view may show any bytes, and any address may be asked for. What is read is then a piece of
these bytes, taken where the address lies.

* `View.slice_eq_ok_iff` — which slices are read, and with which bytes.
* `View.terminated?_eq_some_iff` — which bytes begin with a zero-terminated string.
* `View.readFourCC_eq_ok` — what is in the memory if a name was read from it.
* `View.slice_of_partOf` — what is read from a part of a view is read from the whole.
-/

namespace ShaderMend

theorem FourCC.toBytes_ofBytes {bytes : Bytes} (h : bytes.length = 4) :
    (FourCC.ofBytes bytes).toBytes = bytes := by
  have hlt : LittleEndian.decode bytes < 2 ^ 32 := by
    have hdecode := LittleEndian.decode_lt bytes
    rw [h] at hdecode
    exact hdecode
  have hencode := LittleEndian.encode_decode bytes
  rw [h] at hencode
  rw [FourCC.toBytes, FourCC.ofBytes, List.take_of_length_le h.le, UInt32.toNat_ofNat_of_lt' hlt,
    hencode]

theorem toNat_min (first second : UInt64) :
    (min first second).toNat = min first.toNat second.toNat := by
  by_cases hle : first ≤ second
  · rw [show min first second = first from if_pos hle,
      Nat.min_eq_left (UInt64.le_iff_toNat_le.mp hle)]
  · have hlt := UInt64.lt_iff_toNat_lt.mp (UInt64.not_le.mp hle)
    rw [show min first second = second from if_neg hle, Nat.min_eq_right hlt.le]

namespace View

variable {view : View} {address : Address}

@[simp] theorem extent_ofBytes (base : Address) (bytes : Bytes) :
    (ofBytes base bytes).extent = bytes.length := by
  rw [extent_eq_length, bytes_ofBytes]

/-- **A slice is read exactly if it lies inside the view**, and it has the bytes that lie
there. -/
theorem slice_eq_ok_iff {len : UInt64} {data : Bytes} :
    view.slice address len = .ok data ↔
      ∃ start, address.toNat = view.base.toNat + start ∧ start + len.toNat ≤ view.extent ∧
        start + len.toNat < 2 ^ 64 ∧ (view.bytes.drop start).take len.toNat = data := by
  have hlen := len.toNat_lt
  have haddress := address.toNat_lt
  unfold slice
  dsimp only
  by_cases hbelow : address < view.base
  · have hlt := UInt64.lt_iff_toNat_lt.mp hbelow
    simp only [hbelow, true_or, if_true, reduceCtorEq, false_iff]
    rintro ⟨start, hstart, -⟩
    omega
  · have hle := UInt64.not_lt.mp hbelow
    have hle' := UInt64.le_iff_toNat_le.mp hle
    have hstart : (address - view.base).toNat = address.toNat - view.base.toNat :=
      UInt64.toNat_sub_of_le _ _ hle
    have hstop : (address - view.base + len).toNat
        = (address.toNat - view.base.toNat + len.toNat) % 2 ^ 64 := by
      rw [UInt64.toNat_add, hstart]
    simp only [part_eq_take_drop, UInt64.lt_iff_toNat_lt, hstop, hstart]
    constructor
    · intro h
      split at h
      · cases h
      · exact ⟨address.toNat - view.base.toNat, by omega, by omega, by omega, Except.ok.inj h⟩
    · rintro ⟨start, hplace, hinside, hwide, rfl⟩
      have hsame : address.toNat - view.base.toNat = start := by omega
      rw [hsame, if_neg (by omega)]

/-- A slice has the length that was asked for. -/
theorem length_of_slice {len : UInt64} {data : Bytes} (h : view.slice address len = .ok data) :
    data.length = len.toNat := by
  obtain ⟨start, -, hinside, -, rfl⟩ := slice_eq_ok_iff.mp h
  rw [extent_eq_length] at hinside
  rw [List.length_take, List.length_drop]
  omega

/-- A slice is a piece of the memory. -/
theorem isInfix_of_slice {len : UInt64} {data : Bytes} (h : view.slice address len = .ok data) :
    data <:+: view.bytes := by
  obtain ⟨start, -, -, -, rfl⟩ := slice_eq_ok_iff.mp h
  exact (List.take_prefix _ _).isInfix.trans (List.drop_suffix _ _).isInfix

/-- **A string ends at the first zero**, and must have one. -/
theorem terminated?_eq_some_iff {bytes name : Bytes} :
    terminated? bytes = some name ↔ 0 ∉ name ∧ name ++ [0] <+: bytes := by
  have hsplit := List.takeWhile_append_dropWhile (p := (· ≠ (0 : UInt8))) (l := bytes)
  unfold terminated?
  dsimp only
  constructor
  · intro h
    split at h
    next hshort =>
      obtain rfl := Option.some.inj h
      refine ⟨fun hzero => by simpa using List.mem_takeWhile_imp hzero, ?_⟩
      cases hrest : bytes.dropWhile (· ≠ 0) with
      | nil =>
          rw [hrest, List.append_nil] at hsplit
          rw [hsplit] at hshort
          omega
      | cons first rest =>
          have hfirst : first = 0 := by
            have hhead := List.head?_dropWhile_not (· ≠ (0 : UInt8)) bytes
            rw [hrest] at hhead
            simpa using hhead
          rw [hrest, hfirst] at hsplit
          exact ⟨rest, by simpa using hsplit⟩
    next => cases h
  · rintro ⟨hnone, rest, rfl⟩
    have hname : (name ++ [0] ++ rest).takeWhile (· ≠ 0) = name := by
      rw [List.append_assoc, List.takeWhile_append_of_pos]
      · simp
      · intro octet hoctet
        have hne : octet ≠ 0 := fun hzero => hnone (hzero ▸ hoctet)
        simpa using hne
    rw [hname, if_pos (by simp)]

/-! ### Names -/

/-- A name that is read has its octets in the memory. -/
theorem readFourCC_eq_ok {tag : FourCC} (h : view.readFourCC address = .ok tag) :
    view.slice address 4 = .ok tag.toBytes := by
  unfold readFourCC at h
  cases hslice : view.slice address 4 with
  | error failure => rw [hslice] at h; cases h
  | ok data =>
      rw [hslice] at h
      obtain rfl := Except.ok.inj h
      have hlength : data.length = 4 := length_of_slice hslice
      rw [FourCC.toBytes_ofBytes hlength]

/-! ### The end of a view -/

/-- How many bytes lie between an address and the end of the view; the last byte of the address
space has no address behind it, and is never counted. -/
theorem toNat_available (view : View) (address : Address) :
    (view.available address).toNat
      = min (view.base.toNat + view.extent) (2 ^ 64 - 1) - address.toNat := by
  have hstop : view.stop.toNat = min (view.base.toNat + view.extent) (2 ^ 64 - 1) := by
    have hsize : UInt64.size = 2 ^ 64 := rfl
    rw [stop, UInt64.toNat_ofNat', hsize]
    omega
  unfold available
  split
  next hpast =>
    have hlt := UInt64.lt_iff_toNat_lt.mp hpast
    rw [UInt64.toNat_zero]
    omega
  next hwithin =>
    rw [UInt64.toNat_sub_of_le _ _ (UInt64.not_lt.mp hwithin), hstop]

/-! ### Parts of a view -/

/-- Whether a view shows a part of what another view shows, at the same addresses. -/
def PartOf (part whole : View) : Prop :=
  ∃ before after, whole.bytes = before ++ part.bytes ++ after ∧
    part.base.toNat = whole.base.toNat + before.length

section Parts

variable {part whole : View} (h : part.PartOf whole)

include h

/-- From each of its places on, a part shows the beginning of what the whole shows there. -/
theorem PartOf.exists_skipped :
    ∃ skipped, part.base.toNat = whole.base.toNat + skipped ∧
      skipped + part.extent ≤ whole.extent ∧
      ∀ start, start ≤ part.extent →
        part.bytes.drop start <+: whole.bytes.drop (skipped + start) := by
  obtain ⟨before, after, hbytes, hbase⟩ := h
  have hlength := congrArg List.length hbytes
  rw [List.length_append, List.length_append] at hlength
  refine ⟨before.length, hbase, ?_, fun start hstart => ⟨after, ?_⟩⟩
  · rw [extent_eq_length, extent_eq_length]
    omega
  · rw [extent_eq_length] at hstart
    rw [hbytes, List.append_assoc, List.drop_length_add_append,
      List.drop_append_of_le_length hstart]

/-- What is read from a part is read from the whole. The extent of the whole is a 64-bit word,
since a length is one. -/
theorem slice_of_partOf (hextent : whole.extent < 2 ^ 64) {len : UInt64} {data : Bytes}
    (hpart : part.slice address len = .ok data) : whole.slice address len = .ok data := by
  obtain ⟨skipped, hbase, hfits, hshows⟩ := h.exists_skipped
  obtain ⟨start, hplace, hinside, -, rfl⟩ := slice_eq_ok_iff.mp hpart
  obtain ⟨rest, hrest⟩ := hshows start (by omega)
  refine slice_eq_ok_iff.mpr ⟨skipped + start, by omega, by omega, by omega, ?_⟩
  rw [extent_eq_length] at hinside
  rw [← hrest, List.take_append_of_le_length (by rw [List.length_drop]; omega)]

end Parts

end View

end ShaderMend
