import ShaderMend.Zip.Checksum
import ShaderMend.Zip.Inflate

/-!
# Zip archives

An archive ends with a record that says where its directory lies. The record is
searched from the end, so bytes may stand before the archive and a comment behind
it. `Archive.open` reads the directory; `Archive.entry` finds the data of one entry,
which `Entry.content` decodes and checks.
-/

namespace ShaderMend.Zip

/-- Why bytes cannot be read as an archive. -/
inductive ArchiveError where
  | tooShort
  | noEndRecord
  | severalDisks
  | badDirectoryPlace
  | badDirectoryHeader
  | badLocalHeader
  | badHeaderPlace
  | encrypted
  | unknownMethod
  /-- An extra field about a cipher has a wrong length. -/
  | badCipherLength
  /-- An extra field about a cipher is not of the vendor that is known. -/
  | badCipherVendor
  | badCipherVersion
  | badCipherStrength
  /-- An entry is said to have a cipher, but no extra field tells which. -/
  | noCipher
  /-- The bytes end inside a record. -/
  | truncated
  deriving DecidableEq, Repr

/-- The text shown for bytes that are no archive. -/
def ArchiveError.message : ArchiveError → String
  | .tooShort => "invalid Zip archive: Invalid zip header"
  | .noEndRecord => "invalid Zip archive: Could not find central directory end"
  | .severalDisks => "unsupported Zip archive: Support for multi-disk files is not implemented"
  | .badDirectoryPlace => "invalid Zip archive: Invalid central directory size or offset"
  | .badDirectoryHeader => "invalid Zip archive: Invalid Central Directory header"
  | .badLocalHeader => "invalid Zip archive: Invalid local file header"
  | .badHeaderPlace => "invalid Zip archive: Archive header is too large"
  | .encrypted => "unsupported Zip archive: Password required to decrypt file"
  | .unknownMethod => "unsupported Zip archive: Compression method not supported"
  | .badCipherLength =>
      "unsupported Zip archive: AES extra data field has an unsupported length"
  | .badCipherVendor => "invalid Zip archive: Invalid AES vendor"
  | .badCipherVersion => "invalid Zip archive: Invalid AES vendor version"
  | .badCipherStrength => "invalid Zip archive: Invalid AES encryption strength"
  | .noCipher => "invalid Zip archive: AES encryption without AES extra data field"
  | .truncated => "failed to fill whole buffer"

/-- Why the content of an entry cannot be had. -/
inductive ContentError where
  | corrupt
  /-- The data end before the content does. -/
  | incomplete
  | wrongChecksum
  deriving DecidableEq, Repr

/-- The text shown for a content that cannot be had. -/
def ContentError.message : ContentError → String
  | .corrupt => "corrupt deflate stream"
  | .incomplete => "incomplete deflate stream"
  | .wrongChecksum => "Invalid checksum"

/-! ### Records -/

/-- The number in the `width` octets of a record from `offset` on. -/
def field (record : Bytes) (offset width : Nat) : Nat :=
  LittleEndian.decode ((record.drop offset).take width)

/-- Takes `length` octets, all of which must be there. -/
def take (length : Nat) (bytes : Bytes) : Except ArchiveError (Bytes × Bytes) :=
  let taken := bytes.take length
  if taken.length = length then .ok (taken, bytes.drop length) else .error .truncated

/-- What an offset of 64 bits is less than. -/
def offsetBound : Nat := UInt64.size

/-- What a place in a file is less than. -/
def placeBound : Nat := 0x8000000000000000

/-- What opens the record at the end. -/
def endSignature : Bytes := [0x50, 0x4B, 0x05, 0x06]

/-- What opens a header of the directory. -/
def directorySignature : Bytes := [0x50, 0x4B, 0x01, 0x02]

/-- What opens the header before the data of an entry. -/
def localSignature : Bytes := [0x50, 0x4B, 0x03, 0x04]

/-- What opens the pointer to the end record of a large archive. -/
def largePointerSignature : Bytes := [0x50, 0x4B, 0x06, 0x07]

/-- What opens the end record of a large archive. -/
def largeEndSignature : Bytes := [0x50, 0x4B, 0x06, 0x06]

/-- Octets of the record at the end, without the comment. -/
def endLength : Nat := 22

/-- Octets of the longest comment. -/
def maxComment : Nat := 0xFFFF

/-- The last place where the record at the end may start. -/
def lastEndPlace? : Bytes → Option Nat
  | [] => none
  | octet :: rest =>
      match lastEndPlace? rest with
      | some place => some (place + 1)
      | none =>
          if endSignature.isPrefixOf (octet :: rest) && endLength ≤ (octet :: rest).length then
            some 0
          else none

/-- The record at the end. -/
structure EndRecord where
  disk : Nat
  directoryDisk : Nat
  entriesOnDisk : Nat
  entries : Nat
  directorySize : Nat
  directoryOffset : Nat
  commentLength : Nat
  deriving Repr

namespace EndRecord

/-- Whether a number is too large for the record, so that the record of a large
archive holds it. -/
def isFull (record : EndRecord) : Bool :=
  record.disk = 0xFFFF || record.directoryDisk = 0xFFFF || record.entriesOnDisk = 0xFFFF
    || record.entries = 0xFFFF || record.directorySize = 0xFFFFFFFF
    || record.directoryOffset = 0xFFFFFFFF

/-- Reads the record, whose comment must be there in full. -/
def read (bytes : Bytes) : Except ArchiveError EndRecord := do
  let (record, rest) ← take endLength bytes
  let commentLength := field record 20 2
  let _ ← take commentLength rest
  return { disk := field record 4 2, directoryDisk := field record 6 2,
           entriesOnDisk := field record 8 2, entries := field record 10 2,
           directorySize := field record 12 4, directoryOffset := field record 16 4, commentLength }

end EndRecord

/-- Where the directory lies. -/
structure DirectoryPlace where
  /-- How far the archive is shifted against the offsets in it. -/
  shift : Nat
  start : Nat
  entries : Nat
  deriving Repr

/-- The place in an archive that is not large: the directory ends where the record
begins. -/
def smallPlace (record : EndRecord) (recordPlace : Nat) : Except ArchiveError DirectoryPlace :=
  if recordPlace < record.directorySize + record.directoryOffset then .error .badDirectoryPlace
  else
    let shift := recordPlace - record.directorySize - record.directoryOffset
    .ok ⟨shift, record.directoryOffset + shift, record.entriesOnDisk⟩

/-- Searches the end record of a large archive from a place on, in at most `steps`
places. -/
def largeEndPlace? (bytes : Bytes) : (steps place : Nat) → Option Nat
  | 0, _ => none
  | steps + 1, place =>
      if largeEndSignature.isPrefixOf (bytes.drop place) then some place
      else largeEndPlace? bytes steps (place + 1)

/-- The place in a large archive, to whose end record `pointer` leads. -/
def largePlace (bytes : Bytes) (record : EndRecord) (recordPlace : Nat) (pointer : Bytes) :
    Except ArchiveError DirectoryPlace := do
  if !record.isFull ∧ record.disk ≠ field pointer 4 4 then throw .severalDisks
  if recordPlace < 60 then throw .noEndRecord
  let nominal := field pointer 8 8
  match largeEndPlace? bytes (recordPlace - 60 + 1 - nominal) nominal with
  | none => throw .noEndRecord
  | some place =>
      let (large, _) ← take 56 (bytes.drop place)
      if field large 16 4 ≠ field large 20 4 then throw .severalDisks
      let shift := place - nominal
      let start := field large 48 8 + shift
      if placeBound ≤ start then throw .badDirectoryPlace
      return ⟨shift, start, field large 32 8⟩

/-- The pointer to the end record of a large archive, if it stands before the record
at the end. -/
def largePointer? (bytes : Bytes) (record : EndRecord) : Option Bytes :=
  let back := 20 + endLength + record.commentLength
  if bytes.length < back then none
  else
    let pointer := (bytes.drop (bytes.length - back)).take 20
    if largePointerSignature.isPrefixOf pointer then some pointer else none

/-- Finds the directory. -/
def findDirectory (bytes : Bytes) : Except ArchiveError DirectoryPlace := do
  if bytes.length < endLength then throw .tooShort
  let before := bytes.length - (endLength + maxComment)
  match lastEndPlace? (bytes.drop before) with
  | none => throw .noEndRecord
  | some place =>
      let recordPlace := before + place
      let record ← EndRecord.read (bytes.drop recordPlace)
      if !record.isFull ∧ record.disk ≠ record.directoryDisk then throw .severalDisks
      match largePointer? bytes record with
      | none => smallPlace record recordPlace
      | some pointer => largePlace bytes record recordPlace pointer

/-! ### The directory -/

/-- How the data of an entry is encoded. -/
inductive Method where
  | stored
  | deflated
  /-- A method that is known, but whose content is not decoded. -/
  | foreign
  /-- No method: an extra field tells it together with the cipher. -/
  | ciphered
  | unknown
  deriving DecidableEq, Repr

/-- The method with a number. -/
def Method.ofNumber : Nat → Method
  | 0 => .stored
  | 8 => .deflated
  | 12 => .foreign
  | 93 => .foreign
  | 99 => .ciphered
  | _ => .unknown

/-- A header of the directory. -/
structure Header where
  name : Bytes
  encrypted : Bool
  /-- Whether an extra field tells a cipher. -/
  hasCipher : Bool
  method : Method
  checksum : UInt32
  dataLength : Nat
  contentLength : Nat
  /-- Where the header before the data lies. -/
  place : Nat
  deriving Repr

namespace Header

/-- A number that is all ones in a header. -/
def allOnes : Nat := 0xFFFFFFFF

/-- A header and the extra fields that are still to be read for it: none once they end
inside a number, which leaves the header as it is by then. -/
abbrev Reading := Header × Option Bytes

/-- Puts the next eight octets of the extra fields in the place of a number, if it is
all ones. -/
def widenNumber (number : Header → Nat) (put : Header → Nat → Header) : Reading → Reading
  | (header, none) => (header, none)
  | (header, some extra) =>
      if number header ≠ allOnes then (header, some extra)
      else if extra.length < 8 then (header, none)
      else (put header (field extra 0 8), some (extra.drop 8))

/-- Reads an extra field of `length` octets with the numbers that did not fit the
header, in the order of content length, data length and place. The numbers may go on
behind the field. -/
def widen (header : Header) (length : Nat) (extra : Bytes) : Reading :=
  let content := widenNumber (·.contentLength) fun header number =>
    { header with contentLength := number }
  let data := widenNumber (·.dataLength) fun header number =>
    { header with dataLength := number }
  let place := widenNumber (·.place) fun header number => { header with place := number }
  let (header, rest?) := place (data (content (header, some extra)))
  (header, rest?.map fun rest => if rest.length + length < extra.length then rest
    else extra.drop length)

/-- How many octets an extra field about a cipher has. -/
def cipherLength : Nat := 7

/-- Reads an extra field of `length` octets about a cipher: its version, its vendor, its
strength and the method of the content below it. As many octets as the field has are
left out behind it. -/
def readCipher (header : Header) (length : Nat) (extra : Bytes) : Except ArchiveError Reading := do
  if length ≠ cipherLength then throw .badCipherLength
  if extra.length < cipherLength then return (header, none)
  if field extra 2 2 ≠ 0x4541 then throw .badCipherVendor
  if field extra 0 2 ∉ [1, 2] then throw .badCipherVersion
  if field extra 4 1 ∉ [1, 2, 3] then throw .badCipherStrength
  let header := { header with hasCipher := true, method := .ofNumber (field extra 5 2) }
  return (header, some (extra.drop (2 * cipherLength)))

/-- Reads an extra field: its kind, its length and its numbers. Fields of other kinds
are left out. -/
def readExtra (header : Header) (extra : Bytes) : Except ArchiveError Reading :=
  if extra.length < 4 then .ok (header, none)
  else
    let length := field extra 2 2
    let body := extra.drop 4
    match field extra 0 2 with
    | 0x0001 => .ok (widen header length body)
    | 0x9901 => readCipher header length body
    | _ => .ok (header, some (body.drop length))

/-- Reads the extra fields of a header. The first argument bounds their number. -/
def readExtras : Nat → Header → Bytes → Except ArchiveError Header
  | 0, header, _ => .ok header
  | fuel + 1, header, extra => do
      match ← readExtra header extra with
      | (header, some rest) => readExtras fuel header rest
      | (header, none) => return header

/-- Reads a header of the directory. -/
def read (shift : Nat) (bytes : Bytes) : Except ArchiveError (Header × Bytes) := do
  let (signature, _) ← take 4 bytes
  if signature ≠ directorySignature then throw .badDirectoryHeader
  let (record, rest) ← take 46 bytes
  let (name, rest) ← take (field record 28 2) rest
  let (extra, rest) ← take (field record 30 2) rest
  let (_, rest) ← take (field record 32 2) rest
  let header ← readExtras extra.length
    { name, encrypted := (field record 8 2).testBit 0, hasCipher := false
      method := .ofNumber (field record 10 2), checksum := UInt32.ofNat (field record 16 4)
      dataLength := field record 20 4, contentLength := field record 24 4
      place := field record 42 4 } extra
  if header.method = .ciphered ∧ !header.hasCipher then throw .noCipher
  let place := header.place + shift
  if offsetBound ≤ place then throw .badHeaderPlace
  return ({ header with place }, rest)

/-- Reads the headers of the directory. -/
def readAll (shift : Nat) : (count : Nat) → Bytes → Except ArchiveError (List Header)
  | 0, _ => .ok []
  | count + 1, bytes => do
      let (header, rest) ← read shift bytes
      return header :: (← readAll shift count rest)

end Header

/-- An archive: its bytes and its directory. -/
structure Archive where
  bytes : Bytes
  headers : List Header
  deriving Repr

/-- An entry that has been found: its name, and its data before decoding. -/
structure Entry where
  name : Bytes
  method : Method
  checksum : UInt32
  data : Bytes
  deriving DecidableEq, Repr

namespace Archive

/-- Reads the directory of an archive. -/
def ofBytes (bytes : Bytes) : Except ArchiveError Archive := do
  let place ← findDirectory bytes
  let headers ← Header.readAll place.shift place.entries (bytes.drop place.start)
  return ⟨bytes, headers⟩

/-- Finds the data of an entry behind its own header. -/
def entry (archive : Archive) (header : Header) : Except ArchiveError Entry := do
  if header.encrypted then throw .encrypted
  let found := archive.bytes.drop header.place
  let (signature, _) ← take 4 found
  if signature ≠ localSignature then throw .badLocalHeader
  let (record, rest) ← take 30 found
  if header.method = .unknown then throw .unknownMethod
  if header.hasCipher then throw .encrypted
  let data := (rest.drop (field record 26 2 + field record 28 2)).take header.dataLength
  return ⟨header.name, header.method, header.checksum, data⟩

end Archive

namespace Entry

/-- Whether the name is that of a directory. -/
def isDirectory (entry : Entry) : Bool :=
  match entry.name.getLast? with
  | some octet => octet = 0x2F || octet = 0x5C
  | none => false

/-- The part of the name behind the last slash. -/
def fileName (entry : Entry) : Bytes :=
  (entry.name.reverse.takeWhile (· ≠ 0x2F)).reverse

/-- The content, which must have the checksum of the directory. -/
def content (entry : Entry) : Except ContentError Bytes := do
  let content ←
    match entry.method with
    | .stored => pure entry.data
    | .deflated =>
        match inflate entry.data with
        | .ok content => pure content
        | .error .exhausted => throw .incomplete
        | .error .corrupt => throw .corrupt
    | _ => throw .corrupt
  if checksumOf content = entry.checksum then return content else throw .wrongChecksum

end Entry

end ShaderMend.Zip
