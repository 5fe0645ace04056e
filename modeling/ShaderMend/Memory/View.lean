import ShaderMend.Bytes

/-!
# Bounded views of native memory

A `View` shows some bytes of a foreign address space, the first of them at the
address `base`. Addresses and lengths are 64-bit words. Every reader goes
through `View.slice`, which refuses an access that leaves the view, also where
the sum of an address and a length would wrap around.
-/

namespace ShaderMend

/-- Four characters that name a kind of data. The first one is the low octet of
the code, so a name is read and written as a little-endian word. -/
structure FourCC where
  code : UInt32
  deriving DecidableEq, Repr

namespace FourCC

/-- The four octets, in reading order. -/
def toBytes (tag : FourCC) : Bytes :=
  LittleEndian.encode 4 tag.code.toNat

/-- The name whose octets are the first four of `bytes`. -/
def ofBytes (bytes : Bytes) : FourCC :=
  ⟨UInt32.ofNat (LittleEndian.decode (bytes.take 4))⟩

/-- The name spelt by a text of four ASCII characters. -/
def ofText (text : String) : FourCC :=
  ofBytes (Bytes.ofText text)

end FourCC

/-- A place in the address space of the native runtime. -/
abbrev Address := UInt64

/-- Lower-case hexadecimal digits after `0x`, without leading zeros. -/
def Address.text (address : Address) : String :=
  "0x" ++ String.ofList (Nat.toDigits 16 address.toNat)

/-- Why an access to a view fails. -/
inductive ViewError where
  /-- The bytes asked for do not all lie inside the view. -/
  | outOfBounds (address : Address) (len : UInt64) (base : Address) (extent : Nat)
  /-- The address computed leaves the 64-bit address space. -/
  | addressOverflow (address : Address) (offset : Int64)
  deriving DecidableEq, Repr

/-- The text shown for a failed access. -/
def ViewError.message : ViewError → String
  | .outOfBounds address len base extent =>
      let first := Address.text base
      s!"lecture hors limites: {Address.text address} + {len.toNat} "
        ++ s!"hors de [{first}, {first} + {extent})"
  | .addressOverflow address offset =>
      s!"débordement d'adresse: {Address.text address} + {offset.toInt}"

namespace Address

/-- The address `offset` bytes further; an offset past the end of the address
space is reported as the signed word of the same bits. -/
def advance (address : Address) (offset : UInt64) : Except ViewError Address :=
  let target := address + offset
  if target < address then .error (.addressOverflow address offset.toInt64) else .ok target

/-- The address at a signed distance. -/
def shift (address : Address) (distance : Int64) : Except ViewError Address :=
  let target : Int := address.toNat + distance.toInt
  if 0 ≤ target ∧ target < UInt64.size then .ok (UInt64.ofNat target.toNat)
  else .error (.addressOverflow address distance)

end Address

/-- Bytes of a foreign address space, readable from the address `base` on. -/
structure View where
  base : Address
  memory : Array UInt8
  deriving DecidableEq, Repr

namespace View

/-- The view of some bytes. -/
def ofBytes (base : Address) (bytes : Bytes) : View :=
  ⟨base, bytes.toArray⟩

/-- The bytes that the view shows. -/
def bytes (view : View) : Bytes :=
  view.memory.toList

@[simp] theorem bytes_ofBytes (base : Address) (bytes : Bytes) :
    (ofBytes base bytes).bytes = bytes := rfl

/-- How many bytes the view shows. -/
def extent (view : View) : Nat :=
  view.memory.size

theorem extent_eq_length (view : View) : view.extent = view.bytes.length := by
  simp [extent, bytes]

/-- The `count` bytes from a place on, or those that there are. -/
def part (view : View) (place count : Nat) : Bytes :=
  (view.memory.extract place (place + count)).toList

theorem part_eq_take_drop (view : View) (place count : Nat) :
    view.part place count = (view.bytes.drop place).take count := by
  simp [part, bytes]

/-- The failure of an access of `len` bytes at `address`. -/
def outOfBounds (view : View) (address : Address) (len : UInt64) : ViewError :=
  .outOfBounds address len view.base view.extent

/-- The `len` bytes at `address`. -/
def slice (view : View) (address : Address) (len : UInt64) : Except ViewError Bytes :=
  let start := address - view.base
  let stop := start + len
  if address < view.base ∨ stop < start ∨ view.extent < stop.toNat then
    .error (view.outOfBounds address len)
  else
    .ok (view.part start.toNat len.toNat)

/-- Whether the `len` bytes at `address` can be read. -/
def contains (view : View) (address : Address) (len : UInt64) : Bool :=
  (view.slice address len).toBool

/-- The octet at `address`. -/
def readU8 (view : View) (address : Address) : Except ViewError UInt8 :=
  (view.slice address 1).map fun bytes => UInt8.ofNat (LittleEndian.decode bytes)

/-- The unsigned 32-bit number at `address`. -/
def readU32 (view : View) (address : Address) : Except ViewError UInt32 :=
  (view.slice address 4).map fun bytes => UInt32.ofNat (LittleEndian.decode bytes)

/-- The signed 32-bit number at `address`. -/
def readI32 (view : View) (address : Address) : Except ViewError Int32 :=
  (view.readU32 address).map UInt32.toInt32

/-- The 64-bit pointer at `address`. -/
def readPointer (view : View) (address : Address) : Except ViewError Address :=
  (view.slice address 8).map fun bytes => UInt64.ofNat (LittleEndian.decode bytes)

/-- The four-character name at `address`. -/
def readFourCC (view : View) (address : Address) : Except ViewError FourCC :=
  (view.slice address 4).map FourCC.ofBytes

/-- The address after the last byte, or the largest address where that one is not
a 64-bit word. -/
def stop (view : View) : Address :=
  UInt64.ofNat (min (view.base.toNat + view.extent) (UInt64.size - 1))

/-- How many bytes lie between `address` and the end of the view. -/
def available (view : View) (address : Address) : UInt64 :=
  if view.stop < address then 0 else view.stop - address

/-- The part of the bytes before the first zero, if there is a zero. -/
def terminated? (bytes : Bytes) : Option Bytes :=
  let name := bytes.takeWhile (· ≠ 0)
  if name.length < bytes.length then some name else none

/-- The zero-terminated string at `address`, its terminator being searched in at
most `limit` bytes and never past the end of the view. -/
def readCString (view : View) (address : Address) (limit : UInt64) :
    Except ViewError (Option Bytes) :=
  (view.slice address (min limit (view.available address))).map terminated?

/-- One line that shows where the view lies. -/
def summary (view : View) : String :=
  s!"ForeignView \x7b base: {Address.text view.base}, extent: {view.extent} \x7d"

end View

end ShaderMend
