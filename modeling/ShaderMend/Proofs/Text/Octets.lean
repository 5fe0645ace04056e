import Mathlib
import ShaderMend.Bytes

/-!
# Texts and their octets

A text is spelled by its octets in UTF-8, which keep the order of texts: texts are compared
character by character, and the octets of a smaller character are smaller.

* `Bytes.toText?_ofText` — the octets of a text spell it.
* `Bytes.ofText_lt` — texts in ascending order have their octets in ascending order.
-/

namespace ShaderMend.Bytes

theorem toList_loop (octets : ByteArray) (place : Nat) (read : Bytes) :
    ByteArray.toList.loop octets place read = read.reverse ++ octets.data.toList.drop place := by
  fun_induction ByteArray.toList.loop octets place read with
  | case1 place read hmore ih =>
      have hplace : place < octets.data.toList.length := by
        rw [Array.length_toList]
        exact hmore
      have hoctet : octets.get! place = octets.data.toList[place] := by
        obtain ⟨octets⟩ := octets
        have hsize : place < octets.size := by simpa using hplace
        show octets[place]! = _
        rw [getElem!_pos octets place hsize, Array.getElem_toList]
      rw [ih, hoctet, List.drop_eq_getElem_cons hplace]
      simp
  | case2 place read hdone =>
      have hplace : octets.data.toList.length ≤ place := by
        rw [Array.length_toList]
        exact Nat.not_lt.mp hdone
      rw [List.drop_eq_nil_of_le hplace, List.append_nil]

theorem ofText_eq_data (text : String) : ofText text = text.toByteArray.data.toList := by
  rw [ofText, String.toUTF8_eq_toByteArray, ByteArray.toList, toList_loop]
  rfl

/-- The octets of a text spell it. -/
theorem toText?_ofText (text : String) : toText? (ofText text) = some text := by
  have hoctets : (ofText text).toByteArray = text.toByteArray := by
    apply ByteArray.ext
    simp [ofText_eq_data]
  simp only [toText?, hoctets, String.fromUTF8?, text.isValidUTF8, dite_true]
  rfl

/-! ### Order -/

/-- The octets of a text are those of its characters. -/
theorem ofText_eq (text : String) : ofText text = text.toList.flatMap String.utf8EncodeChar := by
  rw [ofText_eq_data, ← String.utf8Encode_toList, List.utf8Encode, List.toList_data_toByteArray]

/-- The octets of a smaller character are smaller, whatever follows them. -/
theorem utf8EncodeChar_append_lt {first second : Char} (h : first < second)
    (rest rest' : Bytes) :
    String.utf8EncodeChar first ++ rest < String.utf8EncodeChar second ++ rest' := by
  have hless : first.val.toNat < second.val.toNat := h
  have hlast : second.val.toNat < 0x110000 := by
    have hvalid := second.valid
    simp only [UInt32.isValidChar, Nat.isValidChar] at hvalid
    omega
  have hparts : ∀ code < 0x110000, (code / 262144 % 8 + 240) % 2 ^ 8 = code / 64 / 64 / 64 + 240 ∧
      (code / 4096 % 64 + 128) % 2 ^ 8 = code / 64 / 64 % 64 + 128 ∧
      (code / 64 % 64 + 128) % 2 ^ 8 = code / 64 % 64 + 128 ∧
      (code % 64 + 128) % 2 ^ 8 = code % 64 + 128 := by omega
  have hlow := hparts _ (hless.trans hlast)
  have hhigh := hparts _ hlast
  simp only [String.utf8EncodeChar]
  generalize first.val.toNat = low at hless hlow
  generalize second.val.toNat = high at hless hlast hhigh
  split_ifs <;>
    simp only [List.cons_append, List.nil_append, List.cons_lt_cons_iff, UInt8.lt_iff_toNat_lt,
      ← UInt8.toNat_inj, UInt8.toNat_ofNat', hlow, hhigh] <;> clear hparts hlow hhigh <;> omega

/-- **Texts in ascending order have their octets in ascending order.** -/
theorem ofText_lt {first second : String} (h : first < second) :
    ofText first < ofText second := by
  have hchars : ∀ chars chars' : List Char, chars < chars' →
      chars.flatMap String.utf8EncodeChar < chars'.flatMap String.utf8EncodeChar := by
    intro chars
    induction chars with
    | nil =>
        intro chars' hless
        cases chars' with
        | nil => cases hless
        | cons c chars' =>
            rw [List.flatMap_nil, List.flatMap_cons]
            cases hcode : String.utf8EncodeChar c with
            | nil => exact absurd hcode (String.utf8EncodeChar_ne_nil)
            | cons octet octets => exact List.nil_lt_cons _ _
    | cons c chars ih =>
        intro chars' hless
        cases chars' with
        | nil => cases hless
        | cons c' chars' =>
            rw [List.flatMap_cons, List.flatMap_cons]
            rcases List.cons_lt_cons_iff.mp hless with hc | ⟨rfl, hrest⟩
            · exact utf8EncodeChar_append_lt hc _ _
            · exact List.append_left_lt (ih chars' hrest)
  rw [ofText_eq, ofText_eq]
  exact hchars _ _ (String.lt_iff_toList_lt.mp h)

end ShaderMend.Bytes
