/-!
# Bytes and their little-endian numbers

A byte sequence is a list of octets. Numbers are stored least significant octet
first; `LittleEndian.encode` and `LittleEndian.decode` are the two directions.

* `decode_encode` — a number that fits its width is read back unchanged.
* `encode_decode` — the octets of a field are determined by its value.
* `decode_lt` — a field holds a number below the bound for its width.
-/

namespace ShaderMend

/-- A sequence of octets. -/
abbrev Bytes := List UInt8

/-- The octets of a text in UTF-8. -/
def Bytes.ofText (text : String) : Bytes :=
  text.toUTF8.toList

/-- The text that the octets spell in UTF-8, if they are well formed. -/
def Bytes.toText? (bytes : Bytes) : Option String :=
  String.fromUTF8? bytes.toByteArray

namespace LittleEndian

/-- The `width` low octets of `value`, least significant first. -/
def encode : (width : Nat) → (value : Nat) → Bytes
  | 0, _ => []
  | width + 1, value => UInt8.ofNat value :: encode width (value / 256)

/-- The number that the octets spell, least significant first. -/
def decode : Bytes → Nat
  | [] => 0
  | octet :: rest => octet.toNat + 256 * decode rest

/-- What the numbers of `width` octets are less than. -/
def bound : (width : Nat) → Nat
  | 0 => 1
  | width + 1 => 256 * bound width

@[simp] theorem length_encode (width value : Nat) : (encode width value).length = width := by
  induction width generalizing value <;> simp [encode, *]

theorem decode_lt (bytes : Bytes) : decode bytes < bound bytes.length := by
  induction bytes with
  | nil => exact Nat.zero_lt_one
  | cons octet rest ih =>
      have hoctet : octet.toNat < 256 := octet.toNat_lt
      simp only [decode, List.length_cons, bound]
      omega

theorem decode_encode {width value : Nat} (h : value < bound width) :
    decode (encode width value) = value := by
  induction width generalizing value with
  | zero =>
      simp only [bound, Nat.lt_one_iff] at h
      simp [encode, decode, h]
  | succ width ih =>
      have hquot : value / 256 < bound width := by
        rw [Nat.div_lt_iff_lt_mul (by decide), Nat.mul_comm]
        exact h
      simp only [encode, decode, UInt8.toNat_ofNat', ih hquot]
      omega

theorem encode_decode (bytes : Bytes) : encode bytes.length (decode bytes) = bytes := by
  induction bytes with
  | nil => rfl
  | cons octet rest ih =>
      have hoctet : octet.toNat < 256 := octet.toNat_lt
      have hquot : (octet.toNat + 256 * decode rest) / 256 = decode rest := by omega
      have hlow : UInt8.ofNat (octet.toNat + 256 * decode rest) = octet := by
        apply UInt8.toNat_inj.mp
        simp only [UInt8.toNat_ofNat']
        omega
      simp only [List.length_cons, decode, encode, hquot, hlow, ih]

end LittleEndian

end ShaderMend
