import ShaderMend.Bytecode.Inspection
import ShaderMend.Proofs.Bytecode.Arenas
import ShaderMend.Proofs.Memory.Slices

/-!
# What is written is read

A view of a memory that fits into the address space reads at each place what the memory holds
there: numbers, names and pointers, and the zero-terminated strings that are not too long.
-/

namespace ShaderMend

namespace LittleEndian

theorem decode_encode_mod (width value : Nat) :
    decode (encode width value) = value % bound width := by
  induction width generalizing value with
  | zero => simp [encode, decode, bound, Nat.mod_one]
  | succ width ih =>
      simp only [encode, decode, bound, ih, UInt8.toNat_ofNat']
      rw [Nat.mod_mul]

theorem decode_replicate_zero (width : Nat) : decode (List.replicate width 0) = 0 := by
  induction width with
  | zero => rfl
  | succ width ih => simp [List.replicate_succ, decode, ih]

end LittleEndian

theorem FourCC.ofBytes_toBytes (tag : FourCC) : FourCC.ofBytes tag.toBytes = tag := by
  have hlt : tag.code.toNat < LittleEndian.bound 4 := tag.code.toNat_lt
  have htake : tag.toBytes.take 4 = tag.toBytes := List.take_of_length_le (by simp [toBytes])
  rw [ofBytes, htake, toBytes, LittleEndian.decode_encode hlt, UInt32.ofNat_toNat]

/-- The part of some octets before the first zero. -/
def Bytes.untilZero (bytes : Bytes) : Bytes :=
  bytes.takeWhile (· ≠ 0)

namespace Bytes

theorem length_untilZero_le (bytes : Bytes) : bytes.untilZero.length ≤ bytes.length :=
  (List.takeWhile_sublist _).length_le

theorem untilZero_take (text rest : Bytes) (count : Nat) :
    untilZero ((text ++ 0 :: rest).take count) = text.untilZero.take count := by
  induction text generalizing count with
  | nil =>
      cases count with
      | zero => rfl
      | succ count => simp [untilZero]
  | cons octet text ih =>
      cases count with
      | zero => rfl
      | succ count =>
          have htext := ih count
          by_cases hzero : octet = 0
          · simp [untilZero, hzero]
          · simpa [untilZero, hzero] using htext

end Bytes

/-- A string ends at its first zero, if this lies within the octets that are looked at. -/
theorem View.terminated?_take (text rest : Bytes) (count : Nat) :
    View.terminated? ((text ++ 0 :: rest).take count)
      = if text.untilZero.length < count then some text.untilZero else none := by
  have hle := text.length_untilZero_le
  change (if (Bytes.untilZero _).length < _ then some (Bytes.untilZero _) else none) = _
  rw [Bytes.untilZero_take]
  by_cases hshort : text.untilZero.length < count
  · rw [List.take_of_length_le hshort.le, if_pos hshort, if_pos]
    simp only [List.length_take, List.length_append, List.length_cons]
    omega
  · rw [if_neg hshort, if_neg]
    simp only [List.length_take, List.length_append, List.length_cons]
    omega

namespace Bytecode

/-- The address of a place in a memory that lies at the base. -/
def addressOf (base : Address) (place : Nat) : Address :=
  UInt64.ofNat (base.toNat + place)

section Reading

variable {base : Address} {memory : Bytes} (hroom : base.toNat + memory.length < 2 ^ 64)

include hroom

theorem toNat_addressOf {place : Nat} (h : place ≤ memory.length) :
    (addressOf base place).toNat = base.toNat + place := by
  rw [addressOf, UInt64.toNat_ofNat', Nat.mod_eq_of_lt (by omega)]

theorem advance_addressOf {place : Nat} {offset : UInt64}
    (h : place + offset.toNat ≤ memory.length) :
    Address.advance (addressOf base place) offset
      = .ok (addressOf base (place + offset.toNat)) := by
  have hplace : (addressOf base place).toNat = base.toNat + place :=
    toNat_addressOf hroom (by omega)
  have hsum : addressOf base place + offset = addressOf base (place + offset.toNat) := by
    apply UInt64.toNat_inj.mp
    rw [UInt64.toNat_add, hplace, toNat_addressOf hroom h, Nat.mod_eq_of_lt (by omega)]
    omega
  have hle : ¬ addressOf base place + offset < addressOf base place := by
    rw [UInt64.lt_iff_toNat_lt, hsum, hplace, toNat_addressOf hroom h]
    omega
  rw [hsum] at hle
  simp only [Address.advance, hsum, if_neg hle]

theorem shift_addressOf {place offset : Nat} {distance : Int64}
    (hdistance : distance.toInt = offset) (h : place + offset ≤ memory.length) :
    Address.shift (addressOf base place) distance = .ok (addressOf base (place + offset)) := by
  have hplace : (addressOf base place).toNat = base.toNat + place :=
    toNat_addressOf hroom (by omega)
  have htarget : ((addressOf base place).toNat : Int) + distance.toInt
      = ((base.toNat + (place + offset) : Nat) : Int) := by
    rw [hplace, hdistance]
    omega
  have hsize : UInt64.size = 2 ^ 64 := rfl
  unfold Address.shift
  simp only [htarget, Int.toNat_natCast]
  rw [if_pos (by omega)]
  rfl

/-- **The bytes at a place are read.** -/
theorem slice_of_holds {place : Nat} {data : Bytes} (h : Holds memory place data)
    (hdata : 0 < data.length) {len : UInt64} (hlen : len.toNat = data.length) :
    (View.ofBytes base memory).slice (addressOf base place) len = .ok data := by
  have hle := h.le_length hdata
  have hplace : (addressOf base place).toNat = base.toNat + place :=
    toNat_addressOf hroom (by omega)
  have hextent := View.extent_ofBytes base memory
  refine View.slice_eq_ok_iff.mpr ⟨place, hplace, by omega, by omega, ?_⟩
  rw [View.bytes_ofBytes, hlen, h.take_drop]

theorem readU8_of_holds {place : Nat} {octet : UInt8} (h : Holds memory place [octet]) :
    (View.ofBytes base memory).readU8 (addressOf base place) = .ok octet := by
  rw [View.readU8, slice_of_holds hroom h Nat.one_pos rfl]
  simp [Except.map, LittleEndian.decode]

theorem readI32_of_holds {place value : Nat}
    (h : Holds memory place (LittleEndian.encode 4 value)) (hvalue : value < 2147483648) :
    (View.ofBytes base memory).readI32 (addressOf base place) = .ok (Int32.ofNat value) := by
  have hbound : value < LittleEndian.bound 4 := hvalue.trans (by decide)
  rw [View.readI32, View.readU32, slice_of_holds hroom h (by simp) (by simp)]
  simp only [Except.map, LittleEndian.decode_encode hbound, UInt32.toInt32_ofNat']

theorem readPointer_of_holds {place target : Nat}
    (h : Holds memory place (LittleEndian.encode 8 (base.toNat + target))) :
    (View.ofBytes base memory).readPointer (addressOf base place)
      = .ok (addressOf base target) := by
  rw [View.readPointer, slice_of_holds hroom h (by simp) (by simp)]
  simp only [Except.map, LittleEndian.decode_encode_mod]
  exact congrArg _ UInt64.ofNat_mod_size

theorem readPointer_of_holds_zero {place : Nat} (h : Holds memory place (List.replicate 8 0)) :
    (View.ofBytes base memory).readPointer (addressOf base place) = .ok 0 := by
  rw [View.readPointer, slice_of_holds hroom h (by simp) (by simp)]
  simp only [Except.map, LittleEndian.decode_replicate_zero]
  rfl

theorem readFourCC_of_holds {place : Nat} {tag : FourCC} (h : Holds memory place tag.toBytes) :
    (View.ofBytes base memory).readFourCC (addressOf base place) = .ok tag := by
  rw [View.readFourCC, slice_of_holds hroom h (by simp [FourCC.toBytes]) (by simp [FourCC.toBytes])]
  simp only [Except.map, FourCC.ofBytes_toBytes]

/-- Some name is read wherever there is room for one. -/
theorem exists_readFourCC {place : Nat} (h : place + 4 ≤ memory.length) :
    ∃ tag, (View.ofBytes base memory).readFourCC (addressOf base place) = .ok tag := by
  have hlength : ((memory.drop place).take 4).length = 4 := by
    rw [List.length_take, List.length_drop]
    omega
  have hslice := slice_of_holds hroom (Holds.of_take_drop memory place 4) (by omega)
    (show (4 : UInt64).toNat = _ from hlength.symm)
  exact ⟨_, by rw [View.readFourCC, hslice]; rfl⟩

theorem toNat_available {place : Nat} (h : place ≤ memory.length) :
    ((View.ofBytes base memory).available (addressOf base place)).toNat
      = memory.length - place := by
  have hextent := View.extent_ofBytes base memory
  have hbase : (View.ofBytes base memory).base = base := rfl
  rw [View.toNat_available, hextent, hbase, toNat_addressOf hroom h]
  omega

/-- **A string is read up to its first zero**, if it is not too long. -/
theorem readCString_of_holds {place : Nat} {text : Bytes} {limit : UInt64}
    (h : Holds memory place (text ++ [0])) (hlimit : 0 < limit.toNat) :
    (View.ofBytes base memory).readCString (addressOf base place) limit
      = .ok (if text.untilZero.length < limit.toNat then some text.untilZero else none) := by
  have hle := h.le_length (by simp)
  rw [List.length_append, List.length_singleton] at hle
  have hshort := text.length_untilZero_le
  have havailable : ((View.ofBytes base memory).available (addressOf base place)).toNat
      = memory.length - place := toNat_available hroom (by omega)
  have hcount : (min limit ((View.ofBytes base memory).available (addressOf base place))).toNat
      = min limit.toNat (memory.length - place) := by
    rw [toNat_min, havailable]
  have hlength : ((memory.drop place).take (min limit.toNat (memory.length - place))).length
      = min limit.toNat (memory.length - place) := by
    rw [List.length_take, List.length_drop]
    omega
  have hslice := slice_of_holds hroom (Holds.of_take_drop memory place _) (by omega)
    (hcount.trans hlength.symm)
  have hrest : memory.drop place = text ++ 0 :: memory.drop (place + (text ++ [0]).length) := by
    rw [← List.take_append_drop (text ++ [0]).length (memory.drop place), h.take_drop,
      List.drop_drop]
    simp
  rw [View.readCString, hslice, hrest]
  change Except.ok (View.terminated? _) = _
  rw [View.terminated?_take]
  by_cases hends : text.untilZero.length < limit.toNat
  · rw [if_pos hends, if_pos (by omega)]
  · rw [if_neg hends, if_neg (by omega)]

/-! ### Fields -/

theorem toNat_entryOffset {index : Nat} {stride : UInt64}
    (h : index * stride.toNat ≤ memory.length) :
    (Walk.entryOffset index stride).toNat = index * stride.toNat := by
  rw [Walk.entryOffset, UInt64.toNat_mul, UInt64.toNat_ofNat', Nat.mod_mul_mod,
    Nat.mod_eq_of_lt (by omega)]

theorem pointerField_of_holds {place target : Nat} {offset : UInt64}
    (h : Holds memory (place + offset.toNat) (LittleEndian.encode 8 (base.toNat + target))) :
    pointerField (View.ofBytes base memory) (addressOf base place) offset
      = .ok (addressOf base target) := by
  have hle := h.le_length (by simp)
  unfold pointerField
  rw [advance_addressOf hroom (by omega)]
  exact readPointer_of_holds hroom h

omit hroom in
theorem listLength_ofNat {count : Nat} (h : count ≤ maxListLength) :
    listLength (Int32.ofNat count) = count := by
  unfold maxListLength at h
  have htoInt : (Int32.ofNat count).toInt = count := Int32.toInt_ofNat_of_lt (by omega)
  unfold listLength maxListLength
  rw [htoInt, if_pos (by omega), Int.toNat_natCast]

theorem lengthField_of_holds {place count : Nat} {offset : UInt64}
    (h : Holds memory (place + offset.toNat) (LittleEndian.encode 4 count))
    (hcount : count ≤ maxListLength) :
    lengthField (View.ofBytes base memory) (addressOf base place) offset = .ok count := by
  have hle := h.le_length (by simp)
  have hread := readI32_of_holds hroom h (by unfold maxListLength at hcount; omega)
  unfold lengthField
  rw [advance_addressOf hroom (by omega)]
  change (do return listLength (← (View.ofBytes base memory).readI32 _)) = _
  rw [hread]
  exact congrArg _ (listLength_ofNat hcount)

end Reading

end Bytecode

end ShaderMend
