import ShaderMend.Bytes

/-!
# The 32-bit checksum of archives

The remainder of the content, as a polynomial over two elements with its bits
reflected, by the polynomial `0xEDB88320`; it starts from all ones and is inverted
at the end.
-/

namespace ShaderMend.Zip

/-- One step of the division: a bit shifted out subtracts the polynomial. -/
def shiftOut (remainder : UInt32) : UInt32 :=
  if remainder &&& 1 = 1 then (remainder >>> 1) ^^^ 0xEDB88320 else remainder >>> 1

/-- The remainder after one more octet. -/
def absorb (remainder : UInt32) (octet : UInt8) : UInt32 :=
  Nat.repeat shiftOut 8 (remainder ^^^ octet.toUInt32)

/-- The checksum of a content. -/
def checksumOf (content : Bytes) : UInt32 :=
  content.foldl absorb 0xFFFFFFFF ^^^ 0xFFFFFFFF

end ShaderMend.Zip
